/-
# Traceability.Proofs.Timestamp.Calendar -- days are ordered as their dates

A calendar cuts the days into blocks: years, and the months of a year.  Numbers that
are cut into blocks compare as the numbers of their blocks do, and within one block
as their places in it (`compare_blocks`).  The block in which `yearOf` and `monthAndDay`
put a day is the one it lies in, for every day there is (`yearOf_spec`,
`monthAndDay_spec`): the lengths of the months of a year add up to the days until
the next one, leap years and centuries included.  So two days compare as their
dates do (`compare_dates`).
-/
import Mathlib.Algebra.Order.Group.Nat
import Mathlib.Order.Monotone.Basic
import Traceability.Timestamp

namespace Traceability

set_option autoImplicit false

/-! ## Blocks -/

theorem compare_eq_of_lt_iff {a b c d : Nat} (less : a < b ↔ c < d) (more : b < a ↔ d < c) :
    compare a b = compare c d := by
  rcases lt_trichotomy c d with before | rfl | after
  · rw [Nat.compare_eq_lt.2 before, Nat.compare_eq_lt.2 (less.2 before)]
  · have same : a = b := by omega
    rw [same, Std.compare_self, Std.compare_self]
  · rw [Nat.compare_eq_gt.2 after, Nat.compare_eq_gt.2 (more.2 after)]

/-- Two numbers compare as their blocks, and in one block as their distances from its beginning.
Block `x` goes from `first x` up to the beginning of the next one. -/
theorem compare_blocks {first : Nat → Nat} (mono : Monotone first) {a b x y : Nat}
    (here : first x ≤ a) (below : a < first (x + 1)) (there : first y ≤ b)
    (under : b < first (y + 1)) :
    compare a b = (compare x y).then (compare (a - first x) (b - first y)) := by
  rcases lt_trichotomy x y with before | rfl | after
  · have apart : first (x + 1) ≤ first y := mono before
    rw [Nat.compare_eq_lt.2 before, Nat.compare_eq_lt.2 (by omega)]
    rfl
  · rw [Std.compare_self, Ordering.eq_then]
    exact compare_eq_of_lt_iff (by omega) (by omega)
  · have apart : first (y + 1) ≤ first x := mono after
    rw [Nat.compare_eq_gt.2 after, Nat.compare_eq_gt.2 (by omega)]
    rfl

/-- Blocks of one length. -/
theorem compare_div_mod {size : Nat} (pos : 0 < size) (a b : Nat) :
    compare a b = (compare (a / size) (b / size)).then (compare (a % size) (b % size)) := by
  have within (n : Nat) : n / size * size ≤ n ∧ n < (n / size + 1) * size :=
    ⟨Nat.div_mul_le_self n size, by rw [Nat.mul_comm]; exact Nat.lt_mul_div_succ n pos⟩
  have place (n : Nat) : n - n / size * size = n % size := by
    rw [Nat.mod_eq_sub_div_mul]
  rw [← place a, ← place b]
  exact compare_blocks (fun _ _ le => Nat.mul_le_mul_right size le) (within a).1 (within a).2
    (within b).1 (within b).2

namespace Calendar

/-! ## Years -/

theorem daysBeforeYear_eq (year : Nat) : daysBeforeYear year =
    365 * (year - 1) + (year - 1) / 4 - (year - 1) / 100 + (year - 1) / 400 := rfl

theorem monotone_daysBeforeYear : Monotone daysBeforeYear := by
  refine monotone_nat_of_le_succ fun year => ?_
  rw [daysBeforeYear_eq, daysBeforeYear_eq]
  omega

theorem isLeap_iff (year : Nat) :
    isLeap year = true ↔ 4 ∣ year ∧ (100 ∣ year → 400 ∣ year) := by
  simp only [isLeap, Bool.and_eq_true, Bool.or_eq_true, beq_iff_eq, bne_iff_ne, ne_eq,
    Nat.dvd_iff_mod_eq_zero, imp_iff_not_or]

theorem daysOf_monthLengths (year : Nat) :
    daysOf (monthLengths year) = 365 + if isLeap year then 1 else 0 := by
  unfold monthLengths
  split <;> rfl

/-- The months of a year make up the year. -/
theorem daysBeforeYear_succ {year : Nat} (counted : 1 ≤ year) :
    daysBeforeYear (year + 1) = daysBeforeYear year + daysOf (monthLengths year) := by
  obtain ⟨past, rfl⟩ := Nat.exists_eq_add_of_le' counted
  have centuries : past / 100 ≤ past / 4 := Nat.div_le_div_left (by decide) (by decide)
  rw [daysBeforeYear_eq, daysBeforeYear_eq, daysOf_monthLengths]
  simp only [Nat.add_sub_cancel, Nat.succ_div, isLeap_iff]
  by_cases fourth : 4 ∣ past + 1
  · by_cases century : 100 ∣ past + 1
    · by_cases fourHundredth : 400 ∣ past + 1
      · simp only [fourth, century, fourHundredth, if_true, imp_self, and_self]
        omega
      · simp only [fourth, century, fourHundredth, if_true, if_false, imp_false, not_true, and_false]
        omega
    · have never : ¬400 ∣ past + 1 := fun divides => century (Nat.dvd_trans (by decide) divides)
      simp only [fourth, century, never, if_true, if_false, false_imp_iff, and_self]
      omega
  · have noCentury : ¬100 ∣ past + 1 := fun divides => fourth (Nat.dvd_trans (by decide) divides)
    have never : ¬400 ∣ past + 1 := fun divides => fourth (Nat.dvd_trans (by decide) divides)
    simp only [fourth, noCentury, never, if_false, false_and]
    omega
/-- The search for a year ends in the year of the day, if it is long enough. -/
theorem yearFrom_spec {days fuel year : Nat} (reached : daysBeforeYear year ≤ days)
    (enough : days < daysBeforeYear (year + fuel + 1)) :
    daysBeforeYear (yearFrom days fuel year) ≤ days ∧
      days < daysBeforeYear (yearFrom days fuel year + 1) ∧ year ≤ yearFrom days fuel year := by
  induction fuel generalizing year with
  | zero => exact ⟨reached, enough, le_rfl⟩
  | succ fuel ih =>
      rw [yearFrom]
      split
      · rename_i later
        obtain ⟨lower, upper, after⟩ := ih later (by rwa [Nat.add_right_comm year 1 fuel])
        exact ⟨lower, upper, by omega⟩
      · exact ⟨reached, by omega, le_rfl⟩

theorem yearOf_spec (days : Nat) :
    daysBeforeYear (yearOf days) ≤ days ∧ days < daysBeforeYear (yearOf days + 1) ∧
      1 ≤ yearOf days := by
  have start : daysBeforeYear (days / 366 + 1) ≤ days := by
    rw [daysBeforeYear_eq]
    omega
  have enough : days < daysBeforeYear (days / 366 + 1 + days + 1) := by
    rw [daysBeforeYear_eq]
    omega
  obtain ⟨lower, upper, after⟩ := yearFrom_spec start enough
  exact ⟨lower, upper, le_trans (by omega) after⟩

theorem yearOf_lt {days year : Nat} (before : days < daysBeforeYear year) : yearOf days < year := by
  by_contra reaches
  have late := monotone_daysBeforeYear (not_lt.1 reaches)
  have here := (yearOf_spec days).1
  omega

/-- The day of the year, counted from zero. -/
def dayOfYear (days : Nat) : Nat := days - daysBeforeYear (yearOf days)

theorem dayOfYear_lt (days : Nat) : dayOfYear days < daysOf (monthLengths (yearOf days)) := by
  obtain ⟨lower, upper, counted⟩ := yearOf_spec days
  rw [daysBeforeYear_succ counted] at upper
  unfold dayOfYear
  omega

/-! ## Months -/

theorem monotone_daysOf_take (lengths : List Nat) : Monotone fun n => daysOf (lengths.take n) := by
  refine monotone_nat_of_le_succ fun n => ?_
  induction lengths generalizing n with
  | nil => simp
  | cons length rest ih =>
      cases n with
      | zero => exact Nat.zero_le _
      | succ n => exact Nat.add_le_add_left (ih n) length

/-- A day lies in the month it is put in, at the place it is given there. -/
theorem monthAndDay_spec {lengths : List Nat} (first : Nat) {days : Nat}
    (within : days < daysOf lengths) :
    ∃ n, n < lengths.length ∧ daysOf (lengths.take n) ≤ days ∧
      days < daysOf (lengths.take (n + 1)) ∧
      monthAndDay first days lengths = (first + n, days - daysOf (lengths.take n) + 1) := by
  induction lengths generalizing first days with
  | nil => exact absurd within (Nat.not_lt_zero days)
  | cons length rest ih =>
      rw [daysOf] at within
      rw [monthAndDay]
      split
      · rename_i here
        exact ⟨0, Nat.zero_lt_succ _, Nat.zero_le _, here, rfl⟩
      · have left : days - length < daysOf rest := by omega
        obtain ⟨n, less, lower, upper, same⟩ := ih (first + 1) left
        refine ⟨n + 1, Nat.succ_lt_succ less, ?_, ?_, ?_⟩
        · rw [List.take_succ_cons, daysOf]
          omega
        · rw [List.take_succ_cons, daysOf]
          omega
        · rw [same, List.take_succ_cons, daysOf, Nat.sub_sub, Nat.add_right_comm, Nat.add_assoc]

/-- The month and the day of the month of a day. -/
def monthDay (days : Nat) : Nat × Nat :=
  monthAndDay 1 (dayOfYear days) (monthLengths (yearOf days))

theorem daysOf_monthLengths_take_succ (year n : Nat) :
    daysOf ((monthLengths year).take (n + 1)) ≤ daysOf ((monthLengths year).take n) + 31 := by
  have lengths : ∀ length ∈ monthLengths year, length ≤ 31 := by
    unfold monthLengths
    split <;> decide
  generalize monthLengths year = list at lengths
  induction list generalizing n with
  | nil => simp [daysOf]
  | cons length rest ih =>
      cases n with
      | zero =>
          have short := lengths length List.mem_cons_self
          simpa [daysOf] using short
      | succ n =>
          have later := ih n fun other member => lengths other (List.mem_cons_of_mem _ member)
          rw [List.take_succ_cons, List.take_succ_cons, daysOf, daysOf]
          omega

/-- The days before the date of a day are the days before it. -/
theorem daysBefore_monthDay (days : Nat) :
    daysBefore (yearOf days) (monthDay days).1 (monthDay days).2 = days := by
  obtain ⟨n, -, lower, -, same⟩ := monthAndDay_spec 1 (dayOfYear_lt days)
  have begun := (yearOf_spec days).1
  rw [daysBefore, monthDay, same, Nat.add_sub_cancel_left, Nat.add_sub_cancel]
  unfold dayOfYear at lower ⊢
  omega

/-- A month has two digits, and so has a day. -/
theorem monthDay_le (days : Nat) : (monthDay days).1 ≤ 12 ∧ (monthDay days).2 ≤ 31 := by
  obtain ⟨n, less, lower, upper, same⟩ := monthAndDay_spec 1 (dayOfYear_lt days)
  have short := daysOf_monthLengths_take_succ (yearOf days) n
  have twelve : (monthLengths (yearOf days)).length = 12 := rfl
  rw [monthDay, same]
  constructor
  · show 1 + n ≤ 12
    omega
  · show dayOfYear days - daysOf ((monthLengths (yearOf days)).take n) + 1 ≤ 31
    omega

/-! ## Dates -/

/-- Days of one year compare as their months and days. -/
theorem compare_monthAndDay {lengths : List Nat} (first : Nat) {a b : Nat} (left : a < daysOf lengths)
    (right : b < daysOf lengths) :
    compare a b = (compare (monthAndDay first a lengths).1 (monthAndDay first b lengths).1).then
      (compare (monthAndDay first a lengths).2 (monthAndDay first b lengths).2) := by
  obtain ⟨m, -, lowerA, upperA, sameA⟩ := monthAndDay_spec first left
  obtain ⟨n, -, lowerB, upperB, sameB⟩ := monthAndDay_spec first right
  rw [sameA, sameB, compare_blocks (monotone_daysOf_take lengths) lowerA upperA lowerB upperB]
  exact congrArg₂ Ordering.then (compare_eq_of_lt_iff (by omega) (by omega))
    (compare_eq_of_lt_iff (by omega) (by omega))

/-- **Days compare as their dates**: by the year, then by the month, then by the day. -/
theorem compare_dates (a b : Nat) :
    compare a b = (compare (yearOf a) (yearOf b)).then
      ((compare (monthDay a).1 (monthDay b).1).then (compare (monthDay a).2 (monthDay b).2)) := by
  obtain ⟨lowerA, upperA, -⟩ := yearOf_spec a
  obtain ⟨lowerB, upperB, -⟩ := yearOf_spec b
  rw [compare_blocks monotone_daysBeforeYear lowerA upperA lowerB upperB]
  -- Months are told apart by the lengths of their own year, so they decide within one year only.
  by_cases same : yearOf a = yearOf b
  · have lengthB := dayOfYear_lt b
    rw [← same] at lengthB
    have months := compare_monthAndDay 1 (dayOfYear_lt a) lengthB
    rw [monthDay, monthDay, ← same, ← months, dayOfYear, dayOfYear, same]
  · cases order : compare (yearOf a) (yearOf b) with
    | lt => rfl
    | gt => rfl
    | eq => exact absurd (Nat.compare_eq_eq.1 order) same

end Calendar

end Traceability
