/-
# Traceability.Json.Binary64 -- numbers with a fraction

A number with a fraction or an exponent is kept as the nearest binary
floating-point number of 53 bits, a tie going to the even mantissa
(`Binary64.ofDecimal`), and is written with the fewest digits that read back
(`Binary64.shortest`), the nearest of them to the exact value, a tie going to
the even digit.  All arithmetic is on whole numbers.
-/
import Traceability.Text.Basic

namespace Traceability

set_option autoImplicit false

/-- A binary floating-point number: `mantissa * 2 ^ exponent`, or one of the three values that are no
number of that form.  A mantissa has at most 53 bits and the exponent is at least -1074. -/
inductive Binary64 where
  | nan
  | infinite (negative : Bool)
  | finite (negative : Bool) (mantissa : Nat) (exponent : Int)
deriving DecidableEq, Repr

namespace Binary64

/-- A power of two. -/
def twoTo (n : Nat) : Nat := Nat.pow 2 n

def tenTo (n : Nat) : Nat := Nat.pow 10 n

/-- The whole number nearest to `num / den`, a tie going to the even one. -/
def roundHalfEven (num den : Nat) : Nat :=
  let whole := num / den
  let rest := 2 * (num % den)
  if rest < den || (rest == den && whole % 2 == 0) then whole else whole + 1

/-- The mantissa of `num / den` at an exponent: the nearest multiple of the power of two. -/
def mantissaAt (num den : Nat) (exponent : Int) : Nat :=
  if exponent < 0 then roundHalfEven (num * twoTo exponent.natAbs) den
  else roundHalfEven num (den * twoTo exponent.natAbs)

/-- The number nearest to the positive quotient `num / den`. -/
def ofQuotient (negative : Bool) (num den : Nat) : Binary64 :=
  let low := (num.log2 : Int) - den.log2 - 53
  let fits (exponent : Int) : Bool :=
    if exponent < 0 then num * twoTo exponent.natAbs < den * twoTo 53
    else num < den * twoTo exponent.natAbs * twoTo 53
  let exponent := if fits low then low else low + 1
  let exponent := if exponent < -1074 then -1074 else exponent
  let mantissa := mantissaAt num den exponent
  let (mantissa, exponent) :=
    if mantissa == twoTo 53 then (twoTo 52, exponent + 1) else (mantissa, exponent)
  if 971 < exponent then .infinite negative else .finite negative mantissa exponent

/-- The number nearest to `digits * 10 ^ exponent`. -/
def ofDecimal (negative : Bool) (digits : Nat) (exponent : Int) : Binary64 :=
  let order : Int := (Nat.toDigits 10 digits).length + exponent
  if digits == 0 || order < -330 then .finite negative 0 (-1074)
  else if 310 < order then .infinite negative
  else if exponent < 0 then ofQuotient negative digits (tenTo exponent.natAbs)
  else ofQuotient negative (digits * tenTo exponent.natAbs) 1

/-- Is the number zero, of either sign? -/
def isZero : Binary64 → Bool
  | .finite _ mantissa _ => mantissa == 0
  | _ => false

/-! ## The fewest digits that read back -/

/-- A decimal number `digits * 10 ^ exponent`. -/
structure Decimal where
  digits : Nat
  exponent : Int

/-- Both sides of a comparison of `d` with `quarters * 2 ^ (exponent - 2)`, as whole numbers. -/
def Decimal.sides (d : Decimal) (quarters : Nat) (exponent : Int) : Nat × Nat :=
  let two := exponent - 2
  (d.digits * tenTo d.exponent.toNat * twoTo (-two).toNat,
    quarters * twoTo two.toNat * tenTo (-d.exponent).toNat)

/-- Does `d` read back as the number of this mantissa and exponent?  It does between the midpoints
to the neighbours, the midpoints included when the mantissa is even. -/
def readsBack (mantissa : Nat) (exponent : Int) (d : Decimal) : Bool :=
  let below := if mantissa == twoTo 52 && -1074 < exponent then 1 else 2
  let (low, bound) := d.sides (4 * mantissa - below) exponent
  let (high, bound') := d.sides (4 * mantissa + 2) exponent
  if mantissa % 2 == 0 then bound ≤ low && high ≤ bound' else bound < low && high < bound'

/-- The distance of `d` from the number, in a unit that depends on the exponents alone. -/
def distance (mantissa : Nat) (exponent : Int) (d : Decimal) : Nat :=
  let (x, y) := d.sides (4 * mantissa) exponent
  (x - y) + (y - x)

/-- The smallest power of ten above `num / den`, searched upwards from `order`. -/
def orderFrom (num den : Nat) : Nat → Int → Int
  | 0, order => order
  | fuel + 1, order =>
      let below :=
        if order < 0 then num * tenTo order.natAbs < den else num < den * tenTo order.natAbs
      if below then order else orderFrom num den fuel (order + 1)

/-- The multiple of `10 ^ exponent` that reads back and is nearest, if one does. -/
def onGrid (num den mantissa : Nat) (exponent grid : Int) : Option Decimal :=
  let whole :=
    if grid < 0 then num * tenTo grid.natAbs / den else num / (den * tenTo grid.natAbs)
  let lower : Decimal := ⟨whole, grid⟩
  let upper : Decimal := ⟨whole + 1, grid⟩
  match readsBack mantissa exponent lower, readsBack mantissa exponent upper with
  | false, false => none
  | true, false => some lower
  | false, true => some upper
  | true, true =>
      let a := distance mantissa exponent lower
      let b := distance mantissa exponent upper
      some (if a < b || (a == b && whole % 2 == 0) then lower else upper)

/-- The decimal of fewest digits that reads back as a positive number. -/
def shortest (mantissa : Nat) (exponent : Int) : Decimal :=
  let num := mantissa * twoTo exponent.toNat
  let den := twoTo (-exponent).toNat
  let order := orderFrom num den 700 (-330)
  ((List.range 17).findSome? fun (n : Nat) =>
    onGrid num den mantissa exponent (order - 1 - n)).getD ⟨0, 0⟩

/-- Digits with the point after the first `point` of them; zeros fill up where there are none. -/
def positional (digits : Text) (point : Int) : Text :=
  if point ≤ 0 then ['0', '.'] ++ List.replicate point.natAbs '0' ++ digits
  else if digits.length ≤ point.toNat then
    digits ++ List.replicate (point.toNat - digits.length) '0' ++ ['.', '0']
  else digits.take point.toNat ++ '.' :: digits.drop point.toNat

/-- Digits with an exponent of at least two digits. -/
def scientific (digits : Text) (exponent : Int) : Text :=
  let written := Nat.toDigits 10 exponent.natAbs
  let fraction := match digits.drop 1 with
    | [] => []
    | rest => '.' :: rest
  digits.take 1 ++ fraction ++ ['e', if exponent < 0 then '-' else '+'] ++
    List.replicate (2 - written.length) '0' ++ written

/-- The text of a positive number: positional from 0.0001 up to 10 ^ 16. -/
def magnitudeText (mantissa : Nat) (exponent : Int) : Text :=
  if mantissa == 0 then ['0', '.', '0']
  else
    let d := shortest mantissa exponent
    let all := Nat.toDigits 10 d.digits
    let digits := (all.reverse.dropWhile (· == '0')).reverse
    let point : Int := all.length + d.exponent
    if -4 < point && point ≤ 16 then positional digits point else scientific digits (point - 1)

/-- The words for the values that are no number. -/
structure SpecialWords where
  nan : String
  infinity : String

/-- The text of a number. -/
def text (words : SpecialWords) : Binary64 → Text
  | .nan => words.nan.toList
  | .infinite negative => (if negative then ['-'] else []) ++ words.infinity.toList
  | .finite negative mantissa exponent =>
      (if negative then ['-'] else []) ++ magnitudeText mantissa exponent

end Binary64

end Traceability
