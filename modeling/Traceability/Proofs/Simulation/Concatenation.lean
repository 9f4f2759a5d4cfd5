/-
# Traceability.Proofs.Simulation.Concatenation -- one simulation for several patches

A simulation checks section after section, and none of them changes anything.  So
where two patches can be read one after the other as each alone, the simulation
of both finds what the simulation of the first finds, and then what that of the
second finds (`Simulator.run_append`, `simulate_append`).
-/
import Traceability.Proofs.Patch.Concatenation
import Traceability.Proofs.Simulation.Verdict
import Traceability.Proofs.Fallible

namespace Traceability

set_option autoImplicit false

/-- Two patches that are read one after the other as each alone. -/
def ReadApart (first second : Text) : Prop :=
  readPatch (first ++ second) = readPatch first ++ readPatch second

variable {first second : Text} {before after : SimulationResult}

theorem Simulator.run_append {simulator : Simulator} {store : Store}
    (apart : ReadApart first second) (ran : simulator.run store first = .ok before)
    (ranOn : simulator.run store second = .ok after) :
    simulator.run store (first ++ second) = .ok ⟨before.violations ++ after.violations⟩ := by
  obtain ⟨found, checked, made⟩ := bind_eq_ok_iff.1 ran
  obtain ⟨foundOn, checkedOn, madeOn⟩ := bind_eq_ok_iff.1 ranOn
  cases made
  cases madeOn
  rw [Simulator.run, apart, List.mapM_append, checked, checkedOn, ← List.flatten_append]
  rfl

/-- The mode that is given, or the one of the configuration. -/
def modeSetting (workspace : Workspace) : Option Json → Except Failure Json
  | some value => .ok value
  | none => workspace.setting "simulation" "patch_mode"

/-- The store that is given, or the one of the workspace if it exists. -/
def storeSetting (workspace : Workspace) (tree : FileTree) :
    Option Store → Except Failure (Option Store)
  | some store => .ok (some store)
  | none => do
      let path ← workspace.storePath
      if tree.has path then return some (← Store.load tree path) else return none

/-- The run against a store, if there is one. -/
def Simulator.runAgainst (simulator : Simulator) (patch : Text) :
    Option Store → Except Failure SimulationResult
  | some store => simulator.run store patch
  | none => .ok ⟨[]⟩

theorem storeSetting_bind_runAgainst (workspace : Workspace) (tree : FileTree)
    (simulator : Simulator) (patch : Text) :
    storeSetting workspace tree none >>= simulator.runAgainst patch = do
      let path ← workspace.storePath
      if tree.has path then simulator.run (← Store.load tree path) patch else return ⟨[]⟩ := by
  rw [storeSetting, bind_assoc]
  refine bind_congr fun path => ?_
  cases tree.has path with
  | true => simp only [if_true, bind_assoc, pure_bind, Simulator.runAgainst]
  | false => rfl

/-- A simulation is set up without a look at the patch. -/
theorem simulate_eq (modules : ParserModules) (workspace : Workspace) (tree : FileTree)
    (patch : Text) (store : Option Store) (mode : Option Json) :
    simulate modules workspace tree patch store mode = (do
      let choice ← Config.parser modules workspace.config
      let value ← modeSetting workspace mode
      let patchMode ← PatchMode.ofJson value
      let tracked ← storeSetting workspace tree store
      Simulator.runAgainst ⟨workspace, tree, choice.toParser, patchMode⟩ patch tracked) := by
  unfold simulate
  cases store with
  | some store => cases mode <;> rfl
  | none =>
      simp only [storeSetting_bind_runAgainst]
      cases mode <;> rfl

/-- The violations of two patches that can be read one after the other as each alone. -/
theorem simulate_append {modules : ParserModules} {workspace : Workspace} {tree : FileTree}
    {store : Option Store} {mode : Option Json} (apart : ReadApart first second)
    (ran : simulate modules workspace tree first store mode = .ok before)
    (ranOn : simulate modules workspace tree second store mode = .ok after) :
    simulate modules workspace tree (first ++ second) store mode =
      .ok ⟨before.violations ++ after.violations⟩ := by
  rw [simulate_eq] at ran ranOn ⊢
  simp only [bind_eq_ok_iff] at ran
  obtain ⟨choice, chosen, value, valued, patchMode, named, tracked, stored, ran⟩ := ran
  simp only [bind_eq_ok_iff, chosen, valued, named, stored, Except.ok.injEq,
    exists_eq_left'] at ranOn ⊢
  cases tracked with
  | some tracked => exact Simulator.run_append apart ran ranOn
  | none =>
      cases ran
      cases ranOn
      rfl

/-- **Patches one after the other do not influence each other.**  The first one is empty or ends in
a line feed, and its last hunk, if its last section has one, has no ranges or has its counts used up
by its own lines, those that end in a line feed; the second one opens with the announcement of a
section.  Then the two are read as each alone, and a simulation of both finds the violations of the
first and then those of the second, whenever it has a result on each. -/
theorem patches_apart (ended : first = [] ∨ first.endsWith ['\n'] = true)
    (settled : EndsSettled first.endedLines) (announces : Announces second) :
    readPatch (first ++ second) = readPatch first ++ readPatch second ∧
      (∀ (simulator : Simulator) (store : Store) (before after : SimulationResult),
        simulator.run store first = .ok before → simulator.run store second = .ok after →
        simulator.run store (first ++ second) = .ok ⟨before.violations ++ after.violations⟩) ∧
      ∀ (modules : ParserModules) (workspace : Workspace) (tree : FileTree) (store : Option Store)
        (mode : Option Json) (before after : SimulationResult),
        simulate modules workspace tree first store mode = .ok before →
        simulate modules workspace tree second store mode = .ok after →
        simulate modules workspace tree (first ++ second) store mode =
          .ok ⟨before.violations ++ after.violations⟩ := by
  have apart : ReadApart first second := (readPatch_append_iff ended announces).2 settled
  refine ⟨apart, ?_, ?_⟩
  · intro simulator store before after ran ranOn
    exact Simulator.run_append apart ran ranOn
  · intro modules workspace tree store mode before after ran ranOn
    exact simulate_append apart ran ranOn

/-- A mailed patch, with the end of the mail behind its only hunk. -/
def mailedPatch : Text :=
  "Subject: one\n\ndiff --git a/f b/f\n--- a/f\n+++ b/f\n@@ -1 +0,0 @@\n-a\n-- \n2.43.0\n\n".toList

/-- A patch whose only hunk has no ranges. -/
def barePatch : Text :=
  "diff --git a/f b/f\nindex 1..2 100644\n--- a/f\n+++ b/f\n@@ g @@\n-a\n+c\n".toList

theorem barePatch_announces : Announces barePatch where
  opens := by decide +kernel
  announcing := ⟨["diff --git a/f b/f".toList, "index 1..2 100644".toList], ["--- a/f".toList],
    by decide +kernel, by decide +kernel, Or.inr (Or.inl ⟨by decide +kernel, "a/f".toList, rfl⟩)⟩

/-- Each of two patches of one file breaks a link, and so do both together. -/
theorem patches_apart_mailed :
    readPatch (mailedPatch ++ barePatch) = readPatch mailedPatch ++ readPatch barePatch ∧
      ∃ result, Simulator.firstLineSimulator.run Simulator.firstLineStore
          (mailedPatch ++ barePatch) = .ok result ∧
        result.violations.map (·.kind) = [.logicDrift, .tagRemoved, .logicDrift, .tagRemoved] := by
  have ended : mailedPatch.endsWith ['\n'] = true := by decide +kernel
  have settled : EndsSettled mailedPatch.endedLines := by decide +kernel
  have apart := patches_apart (Or.inr ended) settled barePatch_announces
  have found : (Simulator.firstLineSimulator.run Simulator.firstLineStore mailedPatch).toOption.any
      (·.violations.map (·.kind) == [.logicDrift, .tagRemoved]) = true := by decide +kernel
  have foundOn : (Simulator.firstLineSimulator.run Simulator.firstLineStore barePatch).toOption.any
      (·.violations.map (·.kind) == [.logicDrift, .tagRemoved]) = true := by decide +kernel
  obtain ⟨before, ran, kinds⟩ := exists_ok_of_any found
  obtain ⟨after, ranOn, kindsOn⟩ := exists_ok_of_any foundOn
  refine ⟨apart.1, _, apart.2.1 _ _ before after ran ranOn, ?_⟩
  rw [List.map_append, eq_of_beq kinds, eq_of_beq kindsOn]
  rfl

end Traceability
