/-
Rounding of points, percentages and counts.

A course says by a `RoundingChoice` how values are rounded before they are compared; that names a
`Rounding`, unless its mode is not known.  Rounding to decimal places works on the digits with which
a value is written, so that 1.005 rounds to 1.01 although the double nearest to it lies below: the
decimal point is moved, the result rounded to a whole number, and the point moved back.
-/
import ExamAdmission.Double.Decimal

namespace ExamAdmission

/-- A rounding of doubles. -/
inductive Rounding
  /-- Leaves values as they are. -/
  | identity
  /-- To so many decimal places, a half going away from zero; negative places stand before the
  decimal point. -/
  | decimals (places : Int32)
  | floor
  | ceil
  deriving DecidableEq

namespace Double

/-- Moves the decimal point of the shortest written form `places` digits to the right. -/
def shiftPoint (places : Int) : Double → Double
  | finite negative m => ((m.shortest .away).shift places).toDouble negative
  | x => x

/-- Rounds the written digits to decimal places.  A value whose shifted form is out of range is
left as it is; it has no digits at those places. -/
def roundDecimals (places : Int) (x : Double) : Double :=
  let shifted := x.shiftPoint places
  if shifted.isFinite then shifted.round.shiftPoint (-places) else x

end Double

/-- The rounded value. -/
def Rounding.apply : Rounding → Double → Double
  | identity, x => x
  | decimals places, x => x.roundDecimals places.toInt
  | floor, x => x.floor
  | ceil, x => x.ceil

/-- The ways of rounding that a course may ask for. -/
inductive RoundingMode
  | none
  | decimals
  | floor
  | ceil
  /-- A way of rounding that is not known. -/
  | unrecognized
  deriving DecidableEq

/-- How a course asks for values to be rounded, with the number of decimal places. -/
structure RoundingChoice where
  mode : RoundingMode
  /-- Looked at only for rounding to decimal places, where it is zero when absent. -/
  decimals : Option Int32
  deriving DecidableEq

namespace RoundingChoice

/-- Values are to be left as they are. -/
def unrounded : RoundingChoice := ⟨.none, none⟩

/-- The rounding asked for, if its mode is known. -/
def rounding? (choice : RoundingChoice) : Option Rounding :=
  match choice.mode with
  | .none => some .identity
  | .decimals => some (.decimals (choice.decimals.getD 0))
  | .floor => some .floor
  | .ceil => some .ceil
  | .unrecognized => none

end RoundingChoice

end ExamAdmission
