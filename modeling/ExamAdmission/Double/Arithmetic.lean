/-
Arithmetic on doubles: the exact rational result, rounded once.

Every operation computes the exact result on ranks and takes the double nearest to it, of two
equally near ones the one with the even significand.  What the rational result does not tell is
decided by the operands: the sign of a zero, and the cases with an infinity.

* `Double.nearest`: the double nearest to a magnitude.
* `Double.add`, `mul`, `div`: the correctly rounded sum, product and quotient.
* `Double.floor`, `ceil`, `round`: the neighbouring integers, a result of zero keeping the sign.
* `Double.sum`: a list is added up from the left, starting at negative zero.
-/
import ExamAdmission.Double.Basic

namespace ExamAdmission

/-- The integer nearest to `q`; of two equally near ones the even one. -/
def roundHalfEven (q : Rat) : Int :=
  let below := q.floor
  let rest := q - below
  if rest < 1 / 2 then below
  else if 1 / 2 < rest then below + 1
  else if below % 2 = 0 then below
  else below + 1

/-- The place of the first binary digit of a positive rational:
`2 ^ leadingPlace q ≤ q < 2 ^ (leadingPlace q + 1)`. -/
def leadingPlace (q : Rat) : Int :=
  let guess : Int := (q.num.natAbs.log2 : Int) - (q.den.log2 : Int)
  if (2 : Rat) ^ guess ≤ q then guess else guess - 1

namespace Double

/-- The double nearest to the magnitude `q` with the given sign: `q` is rounded at the place of
its 53rd binary digit, or at the last place any double has. -/
def nearest (negative : Bool) (q : Rat) : Double :=
  if q = 0 then zero negative
  else
    let place := max (leadingPlace q - 52) (-1074)
    ofParts negative (roundHalfEven (q / (2 : Rat) ^ place)).toNat place

/-- The double nearest to `q`; the sign of a zero is given. -/
def ofRat (negativeZero : Bool) (q : Rat) : Double :=
  if q = 0 then zero negativeZero
  else if q < 0 then nearest true (-q)
  else nearest false q

/-- The double nearest to a natural number. -/
def ofNat (n : Nat) : Double := ofRat false (n : Rat)

/-- The double nearest to an integer. -/
def ofInt (n : Int) : Double := ofRat false (n : Rat)

instance (n : Nat) : OfNat Double n := ⟨ofNat n⟩

/-- The correctly rounded sum.  An exact zero is negative only if both operands are. -/
def add : Double → Double → Double
  | nan, _ => nan
  | _, nan => nan
  | infinity s, infinity t => if s = t then infinity s else nan
  | infinity s, finite _ _ => infinity s
  | finite _ _, infinity t => infinity t
  | finite s m, finite t n => ofRat (s && t) (signed s m.toRat + signed t n.toRat)

/-- The correctly rounded product, negative if exactly one operand is. -/
def mul : Double → Double → Double
  | nan, _ => nan
  | _, nan => nan
  | infinity s, infinity t => infinity (s != t)
  | infinity s, finite t n => if n.significand = 0 then nan else infinity (s != t)
  | finite s m, infinity t => if m.significand = 0 then nan else infinity (s != t)
  | finite s m, finite t n => nearest (s != t) (m.toRat * n.toRat)

/-- The correctly rounded quotient, negative if exactly one operand is. -/
def div : Double → Double → Double
  | nan, _ => nan
  | _, nan => nan
  | infinity _, infinity _ => nan
  | infinity s, finite t _ => infinity (s != t)
  | finite s _, infinity t => zero (s != t)
  | finite s m, finite t n =>
    if n.significand = 0 then
      if m.significand = 0 then nan else infinity (s != t)
    else nearest (s != t) (m.toRat / n.toRat)

instance : Add Double := ⟨add⟩
instance : Mul Double := ⟨mul⟩
instance : Div Double := ⟨div⟩

/-- Rounds a finite double by a function to the integers; a result of zero keeps the sign. -/
def mapInt (f : Rat → Int) : Double → Double
  | finite negative m => ofRat negative (f (signed negative m.toRat) : Rat)
  | x => x

/-- The greatest integer not above. -/
def floor (x : Double) : Double := x.mapInt Rat.floor

/-- The least integer not below. -/
def ceil (x : Double) : Double := x.mapInt Rat.ceil

/-- The integer nearest to `q`; of two equally near ones the one farther from zero. -/
def roundHalfAway (q : Rat) : Int :=
  if q < 0 then -(-q + 1 / 2).floor else (q + 1 / 2).floor

/-- The nearest integer, a half going away from zero. -/
def round (x : Double) : Double := x.mapInt roundHalfAway

/-- The sum of a list from the left.  Negative zero is what adding leaves unchanged, so the sum
of an empty list is negative zero. -/
def sum (xs : List Double) : Double := xs.foldl (· + ·) (zero true)

end Double

end ExamAdmission
