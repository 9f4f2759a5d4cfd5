/-
# Traceability.Proofs.Patch.Locate -- where a block of lines is found

`OccursAt` says that a block stands among some lines at a place, up to carriage
returns at the ends of lines.  The list that `locate` searches holds exactly
these places (`mem_occurrences`), and what it picks from the list is nearest to
the expected place (`nearest_spec`).  So a block that stands at the expected
place is found there and nowhere else (`locate_eq_of_occursAt`), which is why there
is no need to look there first (`locate_eq_ite`), and wherever a block is found, it
stands (`occursAt_of_locate`).
-/
import Traceability.Patch.Apply

namespace Traceability

set_option autoImplicit false

/-- The block stands at a place among the lines, up to carriage returns at the ends of lines. -/
def OccursAt (lines block : List Text) (place : Nat) : Prop :=
  place ≤ lines.length ∧
    block.map Text.dropReturns <+: (lines.drop place).map Text.dropReturns

instance (lines block : List Text) (place : Nat) : Decidable (OccursAt lines block place) :=
  inferInstanceAs (Decidable (place ≤ lines.length ∧
    block.map Text.dropReturns <+: (lines.drop place).map Text.dropReturns))

theorem occursAt_append (before block after : List Text) :
    OccursAt (before ++ block ++ after) block before.length := by
  refine ⟨by simp only [List.length_append]; omega, ?_⟩
  rw [List.append_assoc, List.drop_left, List.map_append]
  exact List.prefix_append _ _

/-! ## The places of a block -/

theorem mem_occurrencesFrom (block : List Text) (number n : Nat) (lines : List Text) :
    n ∈ occurrencesFrom block number lines ↔
      ∃ place, n = number + place ∧ place ≤ lines.length ∧ block <+: lines.drop place := by
  induction lines generalizing number with
  | nil =>
      simp only [occurrencesFrom, List.isEmpty_iff, List.length_nil, Nat.le_zero_eq,
        List.drop_nil, List.prefix_nil]
      constructor
      · intro member
        split at member
        · rename_i empty
          exact ⟨0, List.mem_singleton.1 member, rfl, empty⟩
        · exact absurd member List.not_mem_nil
      · rintro ⟨place, rfl, rfl, empty⟩
        rw [if_pos empty, Nat.add_zero]
        exact List.mem_singleton.2 rfl
  | cons line rest ih =>
      have later : n ∈ occurrencesFrom block (number + 1) rest ↔
          ∃ place, n = number + (place + 1) ∧ place + 1 ≤ (line :: rest).length ∧
            block <+: (line :: rest).drop (place + 1) := by
        rw [ih (number + 1)]
        simp only [List.length_cons, List.drop_succ_cons, Nat.add_le_add_iff_right,
          Nat.add_assoc, Nat.add_comm 1]
      have split_ : n ∈ occurrencesFrom block number (line :: rest) ↔
          (n = number ∧ block <+: line :: rest) ∨ n ∈ occurrencesFrom block (number + 1) rest := by
        simp only [occurrencesFrom]
        split
        · rename_i here
          simp only [List.mem_cons, List.isPrefixOf_iff_prefix.1 here, and_true]
        · rename_i here
          rw [List.isPrefixOf_iff_prefix] at here
          simp only [here, and_false, false_or]
      rw [split_, later]
      constructor
      · rintro (⟨rfl, here⟩ | ⟨place, rfl, bound, found⟩)
        · exact ⟨0, rfl, Nat.zero_le _, here⟩
        · exact ⟨place + 1, rfl, bound, found⟩
      · rintro ⟨place, rfl, bound, found⟩
        cases place with
        | zero => exact Or.inl ⟨rfl, found⟩
        | succ place => exact Or.inr ⟨place, rfl, bound, found⟩

/-- The candidates for a block are the places where it stands. -/
theorem mem_occurrences (lines block : List Text) (place : Nat) :
    place ∈ occurrences lines block ↔ OccursAt lines block place := by
  rw [occurrences, mem_occurrencesFrom]
  simp only [Nat.zero_add, List.length_map, List.map_drop, OccursAt]
  constructor
  · rintro ⟨_, rfl, found⟩
    exact found
  · intro found
    exact ⟨place, rfl, found⟩

/-! ## The nearest place -/

theorem nearest_ne_none (place : Int) {candidates : List Nat} (nonempty : candidates ≠ []) :
    nearest place candidates ≠ none := by
  cases candidates with
  | nil => exact absurd rfl nonempty
  | cons first rest =>
      simp only [nearest]
      split
      · simp
      · split <;> simp

/-- What is picked is a candidate, and none is nearer. -/
theorem nearest_spec {place : Int} {candidates : List Nat} {chosen : Nat}
    (picked : nearest place candidates = some chosen) :
    chosen ∈ candidates ∧
      ∀ other ∈ candidates, ((chosen : Int) - place).natAbs ≤ ((other : Int) - place).natAbs := by
  induction candidates generalizing chosen with
  | nil => simp [nearest] at picked
  | cons first rest ih =>
      simp only [nearest] at picked
      split at picked
      · rename_i none_left
        have empty : rest = [] :=
          Decidable.byContradiction fun nonempty => nearest_ne_none place nonempty none_left
        cases picked
        simp [empty]
      · rename_i best found
        obtain ⟨member, least⟩ := ih found
        split at picked
        · rename_i nearer
          cases picked
          refine ⟨List.mem_cons_of_mem _ member, fun other among => ?_⟩
          rcases List.mem_cons.1 among with rfl | later
          · exact Nat.le_of_lt nearer
          · exact least other later
        · rename_i notNearer
          cases picked
          refine ⟨List.mem_cons_self, fun other among => ?_⟩
          rcases List.mem_cons.1 among with rfl | later
          · exact Nat.le_refl _
          · exact Nat.le_trans (Nat.le_of_not_lt notNearer) (least other later)

theorem nearest_of_mem {place : Nat} {candidates : List Nat} (member : place ∈ candidates) :
    nearest place candidates = some place := by
  obtain ⟨chosen, picked⟩ :=
    Option.ne_none_iff_exists'.1 (nearest_ne_none place (List.ne_nil_of_mem member))
  have distance := (nearest_spec picked).2 place member
  have same : chosen = place := by omega
  rw [picked, same]

/-- **A block that stands at the expected place is found there.** -/
theorem locate_eq_of_occursAt {lines block : List Text} {place : Nat}
    (stands : OccursAt lines block place) : locate lines block (some place) = some place := by
  unfold locate
  split
  · have bound := stands.1
    simp only [Option.some.injEq]
    omega
  · exact nearest_of_mem ((mem_occurrences lines block place).2 stands)

/-- Looking for a block at the expected place first, and for the nearest place only when it does not
stand there, comes to the same as looking for the nearest place. -/
theorem locate_eq_ite {lines block : List Text} (nonempty : block ≠ []) (place : Int) :
    locate lines block (some place) =
      if 0 ≤ place ∧ OccursAt lines block place.toNat then some place.toNat
      else nearest place (occurrences lines block) := by
  split
  · rename_i there
    rw [← locate_eq_of_occursAt there.2, Int.toNat_of_nonneg there.1]
  · rw [locate, if_neg (by rwa [List.isEmpty_iff])]

/-- **A block stands where it is found**, be it at the expected place or at another. -/
theorem occursAt_of_locate {lines block : List Text} {expected : Option Int} {place : Nat}
    (found : locate lines block expected = some place) : OccursAt lines block place := by
  unfold locate at found
  split at found
  · rename_i empty
    rw [List.isEmpty_iff] at empty
    have bound : place ≤ lines.length := by
      split at found <;> cases found <;> omega
    refine ⟨bound, ?_⟩
    rw [empty]
    exact List.nil_prefix
  · apply (mem_occurrences lines block place).1
    split at found
    · exact List.mem_of_head? found
    · exact (nearest_spec found).1

end Traceability
