/-
The three ways a double is written.

* `Double.toWire?`: in data sent to other programs.  Shortest digits, a half between two candidates
  going to the even one; positional notation from `10 ^ (-5)` to below `10 ^ 16`, with at least one
  digit after the point, and an exponent elsewhere.
* `Double.toText`: in reports.  Shortest digits, a half going away from zero; never an exponent,
  and no point on whole numbers.
* `Double.toHundredths`: in reports, where a percentage stands.  The exact value rounded to two
  decimal places, a half going to the even hundredth.
-/
import ExamAdmission.Double.Decimal

namespace ExamAdmission

namespace Decimal

/-- The digits, most significant first. -/
def digitChars (d : Decimal) : List Char := Nat.toDigits 10 d.digits

/-- Positional notation: the digits with a point where it belongs, and zeros where they are
needed.  A whole number is followed by `wholeSuffix`. -/
def positional (wholeSuffix : List Char) (d : Decimal) : List Char :=
  let digits := d.digitChars
  if 0 ≤ d.exponent then digits ++ List.replicate d.exponent.toNat '0' ++ wholeSuffix
  else if 0 < d.wholeDigits then
    digits.take d.wholeDigits.toNat ++ '.' :: digits.drop d.wholeDigits.toNat
  else '0' :: '.' :: List.replicate (-d.wholeDigits).toNat '0' ++ digits

/-- Notation with an exponent: one digit, the others behind a point, and the place of the first
digit, with a sign even when it is positive. -/
def scientific (d : Decimal) : List Char :=
  let place := d.wholeDigits - 1
  let exponent :=
    if 0 ≤ place then '+' :: Nat.toDigits 10 place.toNat else '-' :: Nat.toDigits 10 (-place).toNat
  match d.digitChars with
  | [] => []
  | [first] => first :: 'e' :: exponent
  | first :: others => first :: '.' :: others ++ 'e' :: exponent

/-- The notation of data sent to other programs. -/
def wire (d : Decimal) : List Char :=
  if -4 ≤ d.wholeDigits ∧ d.wholeDigits ≤ 16 then d.positional ['.', '0'] else d.scientific

end Decimal

namespace Double

/-- A minus sign in front of a negative number. -/
def withSign (negative : Bool) (text : List Char) : List Char :=
  if negative then '-' :: text else text

/-- The number as other programs read it; there is none for a double that is not finite. -/
def toWire? : Double → Option (List Char)
  | finite negative m => some (withSign negative (m.shortest .even).wire)
  | _ => none

/-- The texts of the doubles that are not finite. -/
def nonFiniteText : Double → String
  | infinity negative => if negative then "-inf" else "inf"
  | _ => "NaN"

/-- The number as reports show it. -/
def toText : Double → String
  | finite negative m => String.ofList (withSign negative ((m.shortest .away).positional []))
  | x => nonFiniteText x

/-- The number as reports show it, with two decimal places. -/
def toHundredths : Double → String
  | finite negative m =>
    let hundredths := (roundHalfEven (m.toRat * 100)).toNat
    let whole := Nat.toDigits 10 (hundredths / 100)
    let places := [(hundredths / 10 % 10).digitChar, (hundredths % 10).digitChar]
    String.ofList (withSign negative (whole ++ '.' :: places))
  | x => nonFiniteText x

end Double

end ExamAdmission
