/-
# Traceability.Proofs.Patch.Nearest -- a block of lines is found at its nearest place

`MatchesAt` compares a block with the lines of a file one by one, and all of the
block has to fit.  Of the places where it matches, `IsNearest` singles out the one
nearest to the expected place, the smaller one of two that are equally near; when
no place is expected it is the smallest.  There is at most one such place
(`IsNearest.unique`), and it is where the block is found
(`locate_eq_some_iff_isNearest`).  Only a block that matches nowhere is not found.

The search keeps the first of equally near candidates.  That is the smallest one
because the candidates come in increasing order (`occurrences_increasing`).
-/
import Traceability.Proofs.Patch.Matching

namespace Traceability

set_option autoImplicit false

/-- A whole block fits among the lines at a place, and the lines there are its lines up to carriage
returns at their ends. -/
structure MatchesAt (lines block : List Text) (place : Nat) : Prop where
  fits : place + block.length ≤ lines.length
  agrees : ∀ number < block.length,
    lines[place + number]?.map Text.dropReturns = block[number]?.map Text.dropReturns

/-- How far a place is from an expected one, which may lie outside of the file. -/
def distance (place : Nat) (expected : Int) : Nat := ((place : Int) - expected).natAbs

/-- The block matches at the place, and nowhere nearer to the expected place, nor as near further up.
When no place is expected, it matches nowhere further up. -/
structure IsNearest (lines block : List Text) (expected : Option Int) (place : Nat) : Prop where
  matchesThere : MatchesAt lines block place
  nearest : ∀ goal, expected = some goal → ∀ other, MatchesAt lines block other →
    distance place goal ≤ distance other goal ∧
      (distance other goal = distance place goal → place ≤ other)
  first : expected = none → ∀ other, MatchesAt lines block other → place ≤ other

/-! ## Matching line by line -/

theorem matchesAt_iff_occursAt {lines block : List Text} {place : Nat} :
    MatchesAt lines block place ↔ OccursAt lines block place := by
  constructor
  · intro matching
    have fits := matching.fits
    refine ⟨by omega, List.prefix_iff_getElem?.2 fun number inside => ?_⟩
    rw [List.length_map] at inside
    have agrees := matching.agrees number inside
    simp only [List.getElem?_eq_getElem inside, Option.map_some] at agrees
    simpa only [List.getElem?_map, List.getElem?_drop, List.getElem_map] using agrees
  · intro stands
    refine ⟨stands.end_le, fun number inside => ?_⟩
    have inMap : number < (block.map Text.dropReturns).length := by simpa using inside
    have agrees := List.prefix_iff_getElem?.1 stands.2 number inMap
    simp only [List.getElem?_map, List.getElem?_drop, List.getElem_map] at agrees
    rw [agrees, List.getElem?_eq_getElem inside, Option.map_some]

theorem mem_occurrences_iff_matchesAt {lines block : List Text} {place : Nat} :
    place ∈ occurrences lines block ↔ MatchesAt lines block place := by
  rw [mem_occurrences, matchesAt_iff_occursAt]

/-! ## Candidates in order -/

theorem occurrencesFrom_increasing (block : List Text) (number : Nat) (lines : List Text) :
    (occurrencesFrom block number lines).Pairwise (· < ·) := by
  induction lines generalizing number with
  | nil =>
      simp only [occurrencesFrom]
      split <;> simp
  | cons line rest ih =>
      simp only [occurrencesFrom]
      split
      · apply List.Pairwise.cons _ (ih (number + 1))
        intro later member
        obtain ⟨place, rfl, -, -⟩ := (mem_occurrencesFrom block (number + 1) later rest).1 member
        omega
      · exact ih (number + 1)

theorem occurrences_increasing (lines block : List Text) :
    (occurrences lines block).Pairwise (· < ·) :=
  occurrencesFrom_increasing _ 0 _

/-- Of equally near candidates the first one is picked, which is the smallest. -/
theorem le_of_nearest {goal : Int} {candidates : List Nat} {chosen : Nat}
    (increasing : candidates.Pairwise (· < ·)) (picked : nearest goal candidates = some chosen) :
    ∀ other ∈ candidates, distance other goal = distance chosen goal → chosen ≤ other := by
  induction candidates generalizing chosen with
  | nil => simp [nearest] at picked
  | cons first rest ih =>
      obtain ⟨before, increasing⟩ := List.pairwise_cons.1 increasing
      simp only [nearest] at picked
      intro other among equallyNear
      split at picked
      · rename_i none_left
        have empty : rest = [] :=
          Decidable.byContradiction fun nonempty => nearest_ne_none goal nonempty none_left
        cases picked
        rw [empty, List.mem_singleton] at among
        omega
      · rename_i best found
        split at picked
        · rename_i nearer
          cases picked
          rcases List.mem_cons.1 among with rfl | later
          · -- The first candidate is not as near as the one that is picked.
            unfold distance at equallyNear
            omega
          · exact ih increasing found other later equallyNear
        · cases picked
          rcases List.mem_cons.1 among with rfl | later
          · exact Nat.le_refl other
          · exact Nat.le_of_lt (before other later)

theorem head?_le {candidates : List Nat} {first : Nat} (increasing : candidates.Pairwise (· < ·))
    (head : candidates.head? = some first) : ∀ other ∈ candidates, first ≤ other := by
  obtain ⟨rest, rfl⟩ := List.head?_eq_some_iff.1 head
  intro other among
  rcases List.mem_cons.1 among with rfl | later
  · exact Nat.le_refl other
  · exact Nat.le_of_lt ((List.pairwise_cons.1 increasing).1 other later)

/-! ## The place of a block -/

/-- Only one place is the nearest. -/
theorem IsNearest.unique {lines block : List Text} {expected : Option Int} {place other : Nat}
    (here : IsNearest lines block expected place) (there : IsNearest lines block expected other) :
    place = other := by
  cases expected with
  | none =>
      apply Nat.le_antisymm
      · exact here.first rfl other there.matchesThere
      · exact there.first rfl place here.matchesThere
  | some goal =>
      obtain ⟨near, ifEqual⟩ := here.nearest goal rfl other there.matchesThere
      obtain ⟨near', ifEqual'⟩ := there.nearest goal rfl place here.matchesThere
      have same : distance place goal = distance other goal := Nat.le_antisymm near near'
      exact Nat.le_antisymm (ifEqual same.symm) (ifEqual' same)

variable {lines block : List Text} {expected : Option Int}

/-- A block that is found is found at its nearest place. -/
theorem isNearest_of_locate {place : Nat} (nonempty : block ≠ [])
    (found : locate lines block expected = some place) : IsNearest lines block expected place := by
  have standing : MatchesAt lines block place :=
    matchesAt_iff_occursAt.2 (occursAt_of_locate found)
  have increasing := occurrences_increasing lines block
  have given : ¬block.isEmpty = true := by rwa [List.isEmpty_iff]
  unfold locate at found
  rw [if_neg given] at found
  cases expected with
  | none =>
      refine ⟨standing, nofun, fun _ other matching => ?_⟩
      exact head?_le increasing found other (mem_occurrences_iff_matchesAt.2 matching)
  | some goal =>
      refine ⟨standing, ?_, nofun⟩
      rintro _ ⟨rfl⟩ other matching
      have among := mem_occurrences_iff_matchesAt.2 matching
      exact ⟨(nearest_spec found).2 other among, le_of_nearest increasing found other among⟩

theorem locate_eq_none_iff_matchesAt :
    locate lines block expected = none ↔ ∀ place, ¬MatchesAt lines block place := by
  constructor
  · intro missing place matching
    have occurs : Occurs lines block :=
      occurs_iff_exists_place.2 ⟨place, matchesAt_iff_occursAt.1 matching⟩
    exact locate_ne_none_iff.2 occurs missing
  · intro nowhere
    apply Decidable.byContradiction
    intro found
    obtain ⟨place, stands⟩ := occurs_iff_exists_place.1 (locate_ne_none_iff.1 found)
    exact nowhere place (matchesAt_iff_occursAt.2 stands)

theorem locate_eq_some_iff_isNearest {place : Nat} (nonempty : block ≠ []) :
    locate lines block expected = some place ↔ IsNearest lines block expected place := by
  constructor
  · exact isNearest_of_locate nonempty
  · intro isNearest
    have matching := isNearest.matchesThere
    obtain ⟨found, located⟩ : ∃ found, locate lines block expected = some found := by
      apply Option.ne_none_iff_exists'.1
      exact fun missing => locate_eq_none_iff_matchesAt.1 missing place matching
    rw [located, (isNearest_of_locate nonempty located).unique isNearest]

/-- **A block is found at its nearest place, and not found only if it matches nowhere**, whatever the
expected place, be it none or one outside of the file.  An empty block goes to a place within the
file. -/
theorem locate_finds_nearest (lines block : List Text) (expected : Option Int) :
    (block ≠ [] →
      (locate lines block expected = none ↔ ∀ place, ¬MatchesAt lines block place) ∧
      ∀ place, locate lines block expected = some place ↔
        IsNearest lines block expected place) ∧
    (block = [] → ∃ place, locate lines block expected = some place ∧ place ≤ lines.length) := by
  constructor
  · intro nonempty
    exact ⟨locate_eq_none_iff_matchesAt, fun place => locate_eq_some_iff_isNearest nonempty⟩
  · intro empty
    have matchesAtTop : MatchesAt lines block 0 := by
      rw [empty]
      exact ⟨Nat.zero_le _, by simp⟩
    obtain ⟨place, located⟩ : ∃ place, locate lines block expected = some place := by
      apply Option.ne_none_iff_exists'.1
      exact fun missing => locate_eq_none_iff_matchesAt.1 missing 0 matchesAtTop
    exact ⟨place, located, (occursAt_of_locate located).1⟩

/-- A block that overlaps itself matches at the first line and at the third.  From the second line
both are equally near, and the first one is taken. -/
theorem locate_finds_nearest_overlapping :
    [['a'], ['b'], ['a']] ≠ ([] : List Text) ∧
      IsNearest [['a'], ['b'], ['a', '\r'], ['b'], ['a']] [['a'], ['b'], ['a']] (some 1) 0 ∧
      MatchesAt [['a'], ['b'], ['a', '\r'], ['b'], ['a']] [['a'], ['b'], ['a']] 2 ∧
      ∃ place, locate [['a'], ['b']] [] (some (-3)) = some place ∧ place ≤ 2 := by
  have nonempty : [['a'], ['b'], ['a']] ≠ ([] : List Text) := by decide
  have located : locate [['a'], ['b'], ['a', '\r'], ['b'], ['a']] [['a'], ['b'], ['a']] (some 1) =
      some 0 := by decide
  refine ⟨nonempty, ?_, ⟨by decide, by decide⟩, ?_⟩
  · exact (((locate_finds_nearest _ _ _).1 nonempty).2 0).1 located
  · exact (locate_finds_nearest _ _ _).2 rfl

end Traceability
