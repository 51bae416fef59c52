/-
Doubles and decimal numbers: reading a decimal, and the shortest decimal that reads back.

* `Decimal.toDouble`: the double nearest to a decimal number, by one rounding of its exact value.
* `Double.shortest`: the decimal with the fewest digits that reads back to a given double, of
  several the nearest one; `Tie` says which of two equally near ones is taken.  The result always
  reads back: every candidate is read before it is taken, and when none is, the exact value of the
  double is written out.
-/
import ExamAdmission.Double.Arithmetic

namespace ExamAdmission

/-- The number `digits · 10 ^ exponent`. -/
structure Decimal where
  /-- All digits, as one natural number. -/
  digits : Nat
  /-- The weight of the last digit. -/
  exponent : Int
  deriving DecidableEq

namespace Decimal

/-- The decimal number as a rational. -/
def toRat (d : Decimal) : Rat := (d.digits : Rat) * (10 : Rat) ^ d.exponent

/-- Moves the decimal point `places` digits to the right. -/
def shift (d : Decimal) (places : Int) : Decimal := { d with exponent := d.exponent + places }

/-- How many digits are written before the decimal point; a number below one tenth has fewer
than none.  A positive `d` lies between `10 ^ (d.wholeDigits - 1)` and `10 ^ d.wholeDigits`. -/
def wholeDigits (d : Decimal) : Int := ((Nat.toDigits 10 d.digits).length : Int) + d.exponent

/-- The double nearest to a decimal number of the given sign.  No double reaches `10 ^ 310`, and
everything below `10 ^ (-330)` is nearest to zero, so those cases need no exact value. -/
def toDouble (negative : Bool) (d : Decimal) : Double :=
  if d.digits = 0 then .zero negative
  else if 310 < d.wholeDigits then .infinity negative
  else if d.wholeDigits < -330 then .zero negative
  else .nearest negative d.toRat

end Decimal

/-- Which of two equally near decimals is taken. -/
inductive Tie
  /-- The one whose last digit is even. -/
  | even
  /-- The one farther from zero. -/
  | away
  deriving DecidableEq

/-- The place of the first decimal digit of a positive rational:
`10 ^ leadingDigitPlace q ≤ q < 10 ^ (leadingDigitPlace q + 1)`. -/
def leadingDigitPlace (q : Rat) : Int :=
  let guess : Int :=
    ((Nat.toDigits 10 q.num.natAbs).length : Int) - ((Nat.toDigits 10 q.den).length : Int)
  if (10 : Rat) ^ guess ≤ q then guess else guess - 1

namespace Magnitude

/-- The decimal expansion of a magnitude in full. -/
def exactDecimal (m : Magnitude) : Decimal :=
  if 0 ≤ m.exponent then ⟨m.significand * Nat.pow 2 m.exponent.toNat, 0⟩
  else ⟨m.significand * Nat.pow 5 (-m.exponent).toNat, m.exponent⟩

/-- The decimal reads back to this magnitude. -/
def isReadFrom (m : Magnitude) (d : Decimal) : Bool := d.toDouble false = .finite false m

/-- A decimal of `count` digits that reads back: one of the two neighbours of the magnitude on the
grid of that many digits, the nearer one if both read back. -/
def shortestOfLength? (tie : Tie) (m : Magnitude) (count : Nat) : Option Decimal :=
  let place := leadingDigitPlace m.toRat - count + 1
  let scaled := m.toRat / (10 : Rat) ^ place
  let below := scaled.floor.toNat
  let rest := scaled - scaled.floor
  let lower : Decimal := ⟨below, place⟩
  -- A carry through all digits leaves a one and zeros, which are not written.
  let upper : Decimal :=
    if below + 1 = Nat.pow 10 count then ⟨1, place + count⟩ else ⟨below + 1, place⟩
  let takeLower :=
    rest < 1 / 2 || (rest = 1 / 2 && (tie = .even && below % 2 = 0))
  match m.isReadFrom lower, m.isReadFrom upper with
  | true, true => some (if takeLower then lower else upper)
  | true, false => some lower
  | false, true => some upper
  | false, false => none

/-- The shortest decimal that reads back to the magnitude. -/
def shortest (tie : Tie) (m : Magnitude) : Decimal :=
  if m.significand = 0 then ⟨0, 0⟩
  else ((List.range 17).findSome? fun i => m.shortestOfLength? tie (i + 1)).getD m.exactDecimal

end Magnitude

end ExamAdmission
