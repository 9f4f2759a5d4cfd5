/-
# Traceability.Proofs.Fallible -- computations that can fail

When a computation with steps that can fail has a result: each step has one.  A
computation is taken apart with these, step by step, instead of by its definition.
And which faults it can have: those of its steps (`FailsWith`).
-/

namespace Traceability

set_option autoImplicit false

variable {α β ε ε' : Type}

theorem bind_eq_ok_iff {first : Except ε α} {rest : α → Except ε β} {result : β} :
    (first >>= rest) = .ok result ↔ ∃ middle, first = .ok middle ∧ rest middle = .ok result := by
  cases first with
  | error fault => exact ⟨nofun, fun ⟨middle, done, _⟩ => nomatch done⟩
  | ok found =>
      refine ⟨fun done => ⟨found, rfl, done⟩, ?_⟩
      rintro ⟨middle, same, done⟩
      cases same
      exact done

theorem mapError_eq_ok_iff {f : ε → ε'} {read : Except ε α} {result : α} :
    read.mapError f = .ok result ↔ read = .ok result := by
  cases read with
  | error fault => exact ⟨nofun, nofun⟩
  | ok found =>
      have kept : (Except.ok found : Except ε α).mapError f = .ok found := rfl
      rw [kept, Except.ok.injEq, Except.ok.injEq]

/-- What a test finds true of a result, there is a result for. -/
theorem exists_ok_of_any {read : Except ε α} {test : α → Bool}
    (passes : read.toOption.any test = true) : ∃ result, read = .ok result ∧ test result = true := by
  cases read with
  | error fault => cases passes
  | ok result => exact ⟨result, rfl, passes⟩

theorem throw_eq_ok_iff {fault : ε} {result : α} :
    (throw fault : Except ε α) = .ok result ↔ False := by
  simp [throw, throwThe, MonadExceptOf.throw]

theorem unless_eq_ok_iff {condition : Prop} [Decidable condition] {fault : ε}
    {unreached : Unit → Except ε α} {rest : Except ε α} {result : α} :
    (if condition then throw fault >>= unreached else rest) = .ok result ↔
      ¬condition ∧ rest = .ok result := by
  by_cases failed : condition
  · simp only [failed, if_true, not_true, false_and, iff_false]
    exact nofun
  · simp only [failed, if_false, not_false_eq_true, true_and]

/-! ## Faults -/

/-- If the computation fails, its fault is one of these. -/
def FailsWith (among : ε → Prop) (read : Except ε α) : Prop :=
  ∀ fault, read = .error fault → among fault

namespace FailsWith

variable {among : ε → Prop}

theorem ok (result : α) : FailsWith among (.ok result : Except ε α) := nofun

theorem error {fault : ε} (isAmong : among fault) :
    FailsWith among (.error fault : Except ε α) := by
  rintro _ ⟨⟩
  exact isAmong

theorem bind {first : Except ε α} {rest : α → Except ε β} (here : FailsWith among first)
    (later : ∀ found, FailsWith among (rest found)) : FailsWith among (first >>= rest) := by
  cases first with
  | error fault => exact error (here fault rfl)
  | ok found => exact later found

theorem mapError {f : ε' → ε} {read : Except ε' α} (all : ∀ fault, among (f fault)) :
    FailsWith among (read.mapError f) := by
  cases read with
  | error fault => exact error (all fault)
  | ok found => exact ok found

theorem mapM {read : α → Except ε β} (each : ∀ item, FailsWith among (read item))
    (items : List α) : FailsWith among (items.mapM read) := by
  induction items with
  | nil => exact ok []
  | cons item rest ih =>
      rw [List.mapM_cons]
      exact (each item).bind fun first => ih.bind fun others => ok (first :: others)

end FailsWith

end Traceability
