/-
# Traceability.Proofs.Timestamp.Order -- timestamps are ordered as time

A timestamp is a row of numbers of fixed width with the same marks between them, from
the year down to the millisecond.  Texts of one width compare one after the other
(`compare_append`), and a number that is filled up with zeros compares as the number
(`compare_zeroFilled`); so two timestamps compare as their numbers do (`ZonedTime.compare_text`).
Dates are ordered as days (`Calendar.compare_dates`), and what is left of an instant below
the millisecond is cut off.  So the text of an instant says when it was, and nothing
else (`utcText?_ordered`): the offset that a time was given with leaves no trace.
-/
import Mathlib.Data.String.Basic
import Traceability.Proofs.Timestamp.Calendar

namespace Traceability

set_option autoImplicit false

/-! ## Texts -/

theorem compare_text_eq_lt_iff {s t : List Char} : compare s t = .lt ↔ s < t := by
  induction s generalizing t with
  | nil =>
      cases t with
      | nil => exact ⟨nofun, fun less => absurd less (lt_irrefl _)⟩
      | cons d t => exact ⟨fun _ => List.nil_lt_cons d t, fun _ => rfl⟩
  | cons c s ih =>
      cases t with
      | nil => exact ⟨nofun, fun less => absurd less (List.not_lt_nil _)⟩
      | cons d t =>
          rw [List.compare_cons_cons, Ordering.then_eq_lt, ih, compare_lt_iff_lt,
            compare_eq_iff_eq, List.cons_lt_cons_iff]

/-- Texts that begin with parts of one length compare by these parts first. -/
theorem compare_append {a b : List Char} (same : a.length = b.length) (s t : List Char) :
    compare (a ++ s) (b ++ t) = (compare a b).then (compare s t) := by
  induction a generalizing b with
  | nil =>
      obtain rfl := List.length_eq_zero_iff.1 same.symm
      rw [Std.compare_self, Ordering.eq_then, List.nil_append, List.nil_append]
  | cons c a ih =>
      cases b with
      | nil => exact nomatch same
      | cons d b =>
          rw [List.cons_append, List.cons_append, List.compare_cons_cons, List.compare_cons_cons,
            ih (Nat.succ.inj same), Ordering.then_assoc]

/-! ## Numbers of fixed width -/

theorem zeroFilled_one {n : Nat} (small : n < 10) : (zeroFilled 1 n).toList = [n.digitChar] := by
  rw [zeroFilled, Nat.toDigits_of_lt_base small, String.toList_ofList]
  rfl

theorem zeroFilled_succ (width n : Nat) :
    (zeroFilled (width + 2) n).toList =
      (zeroFilled (width + 1) (n / 10)).toList ++ [(n % 10).digitChar] := by
  rw [zeroFilled, zeroFilled, String.toList_ofList, String.toList_ofList]
  by_cases small : n < 10
  · have zeros : List.replicate (width + 1) '0' = List.replicate width '0' ++ ['0'] :=
      List.replicate_succ'
    rw [Nat.div_eq_of_lt small, Nat.mod_eq_of_lt small, Nat.toDigits_of_lt_base small]
    exact congrArg (· ++ [n.digitChar]) zeros
  · have digits : Nat.toDigits 10 n = Nat.toDigits 10 (n / 10) ++ [(n % 10).digitChar] := by
      rw [Nat.toDigits_eq_if (by decide), if_neg small]
    have shorter : width + 2 - (Nat.toDigits 10 n).length =
        width + 1 - (Nat.toDigits 10 (n / 10)).length := by
      rw [digits, List.length_append, List.length_singleton]
      omega
    rw [shorter, digits, List.append_assoc]

theorem length_zeroFilled {width n : Nat} (fits : n < 10 ^ (width + 1)) :
    (zeroFilled (width + 1) n).toList.length = width + 1 := by
  induction width generalizing n with
  | zero => rw [zeroFilled_one fits]; rfl
  | succ width ih =>
      have shorter : n / 10 < 10 ^ (width + 1) :=
        Nat.div_lt_of_lt_mul (by rwa [Nat.pow_succ'] at fits)
      rw [zeroFilled_succ, List.length_append, ih shorter]
      rfl

/-- Digits are ordered as the numbers they stand for. -/
theorem compare_digitChar {a b : Nat} (left : a < 10) (right : b < 10) :
    compare a.digitChar b.digitChar = compare a b := by
  have digits : ∀ a < 10, ∀ b < 10, compare (Nat.digitChar a) (Nat.digitChar b) = compare a b := by
    decide
  exact digits a left b right

/-- **Numbers of one width compare as texts the way they do as numbers.** -/
theorem compare_zeroFilled {width a b : Nat} (left : a < 10 ^ (width + 1))
    (right : b < 10 ^ (width + 1)) :
    compare (zeroFilled (width + 1) a).toList (zeroFilled (width + 1) b).toList = compare a b := by
  induction width generalizing a b with
  | zero =>
      rw [zeroFilled_one left, zeroFilled_one right, List.compare_cons_cons,
        compare_digitChar left right, Std.compare_self, Ordering.then_eq]
  | succ width ih =>
      have leftFits : a / 10 < 10 ^ (width + 1) :=
        Nat.div_lt_of_lt_mul (by rwa [Nat.pow_succ'] at left)
      have rightFits : b / 10 < 10 ^ (width + 1) :=
        Nat.div_lt_of_lt_mul (by rwa [Nat.pow_succ'] at right)
      have lengths := (length_zeroFilled leftFits).trans (length_zeroFilled rightFits).symm
      have last : compare (a % 10).digitChar (b % 10).digitChar = compare (a % 10) (b % 10) :=
        compare_digitChar (Nat.mod_lt a (by decide)) (Nat.mod_lt b (by decide))
      rw [zeroFilled_succ, zeroFilled_succ, compare_append lengths, ih leftFits rightFits,
        List.compare_cons_cons, last, Std.compare_self, Ordering.then_eq,
        ← compare_div_mod (by decide) a b]

/-- A number of fixed width in front of a mark and more. -/
theorem compare_zeroFilled_append {width a b : Nat} (left : a < 10 ^ (width + 1))
    (right : b < 10 ^ (width + 1)) (mark : Char) (s t : List Char) :
    compare ((zeroFilled (width + 1) a).toList ++ mark :: s)
        ((zeroFilled (width + 1) b).toList ++ mark :: t) = (compare a b).then (compare s t) := by
  have lengths := (length_zeroFilled left).trans (length_zeroFilled right).symm
  rw [compare_append lengths, compare_zeroFilled left right, List.compare_cons_cons,
    Std.compare_self, Ordering.eq_then]

/-! ## Times -/

namespace ZonedTime

/-- No number of the time is wider than its place in the text. -/
structure Fits (time : ZonedTime) : Prop where
  year : time.year < 10000
  month : time.month < 100
  day : time.day < 100
  hour : time.hour < 100
  minute : time.minute < 100
  second : time.second < 100
  microsecond : time.microsecond < 1000000

/-- The order of times of one offset, to the millisecond. -/
def order (a b : ZonedTime) : Ordering :=
  (compare a.year b.year).then <| (compare a.month b.month).then <| (compare a.day b.day).then <|
    (compare a.hour b.hour).then <| (compare a.minute b.minute).then <|
      (compare a.second b.second).then <| compare (a.microsecond / 1000) (b.microsecond / 1000)

/-- The text of a time: its numbers, each of fixed width, and the marks behind them. -/
theorem toList_text (time : ZonedTime) : time.text.toList =
    (zeroFilled 4 time.year).toList ++ '-' :: ((zeroFilled 2 time.month).toList ++
      '-' :: ((zeroFilled 2 time.day).toList ++ 'T' :: ((zeroFilled 2 time.hour).toList ++
        ':' :: ((zeroFilled 2 time.minute).toList ++ ':' :: ((zeroFilled 2 time.second).toList ++
          '.' :: ((zeroFilled 3 (time.microsecond / 1000)).toList ++ ['Z'])))))) := by
  have hyphen : "-".toList = ['-'] := rfl
  have tee : "T".toList = ['T'] := rfl
  have colon : ":".toList = [':'] := rfl
  have point : ".".toList = ['.'] := rfl
  have zed : "Z".toList = ['Z'] := rfl
  simp only [text, String.toList_append, hyphen, tee, colon, point, zed, List.append_assoc,
    List.cons_append, List.nil_append]

/-- The texts of two times compare as the times, number by number. -/
theorem compare_text {a b : ZonedTime} (left : a.Fits) (right : b.Fits) :
    compare a.text.toList b.text.toList = order a b := by
  have leftThousandths : a.microsecond / 1000 < 10 ^ 3 := Nat.div_lt_of_lt_mul left.microsecond
  have rightThousandths : b.microsecond / 1000 < 10 ^ 3 := Nat.div_lt_of_lt_mul right.microsecond
  rw [toList_text, toList_text, order, compare_zeroFilled_append left.year right.year,
    compare_zeroFilled_append left.month right.month,
    compare_zeroFilled_append left.day right.day,
    compare_zeroFilled_append left.hour right.hour,
    compare_zeroFilled_append left.minute right.minute,
    compare_zeroFilled_append left.second right.second,
    compare_zeroFilled_append leftThousandths rightThousandths, Std.compare_self,
    Ordering.then_eq]

end ZonedTime

/-! ## Instants -/

/-- The first instant that lies behind the year 9999. -/
def endOfCalendar : Nat := Calendar.daysBeforeYear 10000 * 86400000000

namespace ZonedTime

/-- The time in UTC of an instant has that instant. -/
theorem instant_ofInstant (n : Nat) : (ofInstant n).instant = n := by
  have date : Calendar.daysBefore (ofInstant n).year (ofInstant n).month (ofInstant n).day =
      n / 1000000 / 86400 := Calendar.daysBefore_monthDay _
  have hour : (ofInstant n).hour = n / 1000000 % 86400 / 3600 := rfl
  have minute : (ofInstant n).minute = n / 1000000 % 3600 / 60 := rfl
  have second : (ofInstant n).second = n / 1000000 % 60 := rfl
  have microsecond : (ofInstant n).microsecond = n % 1000000 := rfl
  have offset : (ofInstant n).offset.microseconds = 0 := rfl
  simp only [instant, date, hour, minute, second, microsecond, offset]
  omega

theorem fits_ofInstant {instant : Nat} (inCalendar : instant < endOfCalendar) :
    (ofInstant instant).Fits := by
  have days : instant / 1000000 / 86400 < Calendar.daysBeforeYear 10000 := by
    rw [Nat.div_div_eq_div_mul]
    exact Nat.div_lt_of_lt_mul (by rw [Nat.mul_comm]; exact inCalendar)
  have date := Calendar.monthDay_le (instant / 1000000 / 86400)
  refine ⟨Calendar.yearOf_lt days, ?_, ?_, ?_, ?_, ?_, ?_⟩
  · exact Nat.lt_of_le_of_lt date.1 (by decide)
  · exact Nat.lt_of_le_of_lt date.2 (by decide)
  · show instant / 1000000 % 86400 / 3600 < 100
    omega
  · show instant / 1000000 % 3600 / 60 < 100
    omega
  · show instant / 1000000 % 60 < 100
    omega
  · exact Nat.mod_lt _ (by decide)

/-- Two instants compare to the millisecond as their times in UTC. -/
theorem order_ofInstant (i j : Nat) :
    order (ofInstant i) (ofInstant j) = compare (i / 1000) (j / 1000) := by
  have minuteOf (n : Nat) : n % 3600 / 60 = n / 60 % 60 := by omega
  have hourOf (n : Nat) : n % 86400 / 3600 = n / 60 / 60 % 24 := by omega
  have dayOf (n : Nat) : n / 86400 = n / 60 / 60 / 24 := by omega
  have secondOf (n : Nat) : n / 1000000 = n / 1000 / 1000 := by omega
  have thousandthOf (n : Nat) : n % 1000000 / 1000 = n / 1000 % 1000 := by omega
  symm
  calc compare (i / 1000) (j / 1000)
      = (compare (i / 1000 / 1000) (j / 1000 / 1000)).then
          (compare (i / 1000 % 1000) (j / 1000 % 1000)) := compare_div_mod (by decide) _ _
    _ = (compare (i / 1000000) (j / 1000000)).then
          (compare (i % 1000000 / 1000) (j % 1000000 / 1000)) := by
        rw [secondOf, secondOf, thousandthOf, thousandthOf]
    _ = order (ofInstant i) (ofInstant j) := by
        rw [compare_div_mod (show 0 < 60 by decide) (i / 1000000),
          compare_div_mod (show 0 < 60 by decide) (i / 1000000 / 60),
          compare_div_mod (show 0 < 24 by decide) (i / 1000000 / 60 / 60), ← dayOf, ← dayOf,
          ← hourOf, ← hourOf, ← minuteOf, ← minuteOf, Calendar.compare_dates]
        simp only [Ordering.then_assoc]
        rfl

/-- The text of an instant is less than another exactly if the instant is, to the millisecond. -/
theorem instantText_lt_iff {i j : Nat} (left : i < endOfCalendar) (right : j < endOfCalendar) :
    instantText i < instantText j ↔ i / 1000 < j / 1000 := by
  rw [String.lt_iff_toList_lt, ← compare_text_eq_lt_iff, instantText, instantText,
    compare_text (fits_ofInstant left) (fits_ofInstant right), order_ofInstant, Nat.compare_eq_lt]

/-- The instant lies in the years 1 to 9999. -/
def InCalendar (time : ZonedTime) : Prop := 0 ≤ time.instant ∧ time.instant < endOfCalendar

instance (time : ZonedTime) : Decidable time.InCalendar :=
  inferInstanceAs (Decidable (_ ∧ _))

theorem utcText?_of_inCalendar {time : ZonedTime} (inCalendar : time.InCalendar) :
    ∃ instant : Nat, time.instant = instant ∧ instant < endOfCalendar ∧
      time.utcText? = some (instantText instant) := by
  obtain ⟨begun, unended⟩ := inCalendar
  obtain ⟨instant, same⟩ := Int.eq_ofNat_of_zero_le begun
  rw [same] at unended
  refine ⟨instant, same, Int.ofNat_lt.1 unended, ?_⟩
  have passes : (decide (0 ≤ time.instant) &&
      decide (time.instant < Calendar.daysBeforeYear 10000 * 86400000000)) = true := by
    rw [same, Bool.and_eq_true, decide_eq_true_eq, decide_eq_true_eq]
    exact ⟨Int.natCast_nonneg instant, unended⟩
  rw [utcText?, instant?, if_pos passes, same, Int.toNat_natCast]
  rfl

/-- **Timestamps are ordered as time.**  Two times with whatever offsets, whose instants lie in the
years 1 to 9999, have timestamps, and these are ordered as the instants, cut off below the
millisecond; so one instant has one timestamp, however it is given. -/
theorem utcText?_ordered {a b : ZonedTime} (left : a.InCalendar) (right : b.InCalendar) :
    ∃ s t, a.utcText? = some s ∧ b.utcText? = some t ∧
      (s < t ↔ a.instant / 1000 < b.instant / 1000) ∧
      (s = t ↔ a.instant / 1000 = b.instant / 1000) ∧
      (t < s ↔ b.instant / 1000 < a.instant / 1000) := by
  obtain ⟨i, instantA, before, textA⟩ := utcText?_of_inCalendar left
  obtain ⟨j, instantB, unended, textB⟩ := utcText?_of_inCalendar right
  have less := instantText_lt_iff before unended
  have more := instantText_lt_iff unended before
  have equal : instantText i = instantText j ↔ i / 1000 = j / 1000 := by
    rw [eq_iff_le_not_lt, eq_iff_le_not_lt, less, ← not_lt, ← not_lt, more]
  refine ⟨_, _, textA, textB, ?_⟩
  rw [less, equal, more, instantA, instantB]
  exact ⟨by omega, by omega, by omega⟩

/-- The last moment of a leap day in UTC. -/
def leapDayEvening : ZonedTime := ⟨2024, 2, 29, 23, 59, 59, 999999, 0⟩

/-- That moment on a clock that is half past five hours and a microsecond ahead. -/
def marchMorning : ZonedTime := ⟨2024, 3, 1, 5, 30, 0, 0, ⟨19800000001⟩⟩

/-- The microseconds are cut off, and the offset is gone. -/
theorem utcText?_ordered_leap_day : leapDayEvening.InCalendar ∧ marchMorning.InCalendar ∧
    leapDayEvening.utcText? = some "2024-02-29T23:59:59.999Z" ∧
    marchMorning.utcText? = leapDayEvening.utcText? := by
  have evening : leapDayEvening.InCalendar := by decide +kernel
  have morning : marchMorning.InCalendar := by decide +kernel
  obtain ⟨s, t, eveningText, morningText, -, equal, -⟩ := utcText?_ordered evening morning
  have same : s = t := equal.2 (by decide +kernel)
  exact ⟨evening, morning, by decide +kernel, by rw [eveningText, morningText, same]⟩

end ZonedTime

end Traceability
