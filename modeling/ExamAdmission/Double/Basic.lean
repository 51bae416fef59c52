/-
Binary floating-point numbers of double precision, as exact data.

Points, percentages and thresholds are doubles: a sign, and `significand · 2 ^ exponent` with a
significand of at most 53 binary digits.  A finite double is stored in the one canonical form its
magnitude has, so equality of doubles is equality of the data, and what it stands for is the
rational number `rank`.

* `Double`: not-a-number, the two infinities, and the finite doubles with their sign.
* `Double.rank`: the place on the number line; the infinities stand at `± 2 ^ 1024`, the first
  power of two out of range.
* `x ≤ y` and `x < y` compare ranks, and no comparison holds of not-a-number.
-/

namespace ExamAdmission

/-- Significand and exponent are in canonical form: the exponent is the smallest one, or the
significand has all its 53 binary digits. -/
def IsCanonical (significand : Nat) (exponent : Int) : Prop :=
  significand < 9007199254740992 ∧
    (exponent = -1074 ∨ (4503599627370496 ≤ significand ∧ -1074 < exponent ∧ exponent ≤ 971))

instance (significand : Nat) (exponent : Int) : Decidable (IsCanonical significand exponent) :=
  inferInstanceAs (Decidable (_ ∧ _))

/-- The magnitude `significand · 2 ^ exponent` of a finite double. -/
structure Magnitude where
  /-- At most 53 binary digits. -/
  significand : Nat
  /-- The weight of the last binary digit. -/
  exponent : Int
  /-- A magnitude has one canonical form. -/
  canonical : IsCanonical significand exponent
  deriving DecidableEq

namespace Magnitude

/-- The magnitude zero. -/
def zero : Magnitude := ⟨0, -1074, by decide⟩

instance : Inhabited Magnitude := ⟨zero⟩

/-- The magnitude as a rational number. -/
def toRat (m : Magnitude) : Rat := (m.significand : Rat) * (2 : Rat) ^ m.exponent

end Magnitude

/-- A binary floating-point number of double precision. -/
inductive Double
  /-- The result of an operation that has none, as zero divided by zero. -/
  | nan
  /-- Beyond all finite doubles, on one side. -/
  | infinity (negative : Bool)
  /-- A finite double; zero has a sign too. -/
  | finite (negative : Bool) (magnitude : Magnitude)
  deriving DecidableEq

namespace Double

/-- Zero with the given sign. -/
def zero (negative : Bool) : Double := finite negative .zero

instance : Inhabited Double := ⟨zero false⟩

/-- The double with this sign and `significand · 2 ^ exponent`, where the significand may have
carried into a 54th binary digit; infinity when the exponent is out of range. -/
def ofParts (negative : Bool) (significand : Nat) (exponent : Int) : Double :=
  if h : IsCanonical significand exponent then
    finite negative ⟨significand, exponent, h⟩
  else if h : IsCanonical (significand / 2) (exponent + 1) then
    finite negative ⟨significand / 2, exponent + 1, h⟩
  else infinity negative

/-- The sign bit. -/
def isNegative : Double → Bool
  | nan => false
  | infinity negative => negative
  | finite negative _ => negative

/-- Neither infinite nor not-a-number. -/
def isFinite : Double → Bool
  | finite _ _ => true
  | _ => false

/-- One of the two infinities. -/
def isInfinite : Double → Bool
  | infinity _ => true
  | _ => false

/-- One of the two zeros. -/
def isZero : Double → Bool
  | finite _ m => m.significand == 0
  | _ => false

/-- The other sign. -/
def neg : Double → Double
  | nan => nan
  | infinity negative => infinity !negative
  | finite negative m => finite (!negative) m

instance : Neg Double := ⟨neg⟩

/-- A rational with the given sign. -/
def signed (negative : Bool) (q : Rat) : Rat := if negative then -q else q

/-- The place on the number line.  The infinities stand at the first power of two that no finite
double reaches, and not-a-number, which no comparison looks at, at zero. -/
def rank : Double → Rat
  | nan => 0
  | infinity negative => signed negative ((2 : Rat) ^ (1024 : Int))
  | finite negative m => signed negative m.toRat

instance : LE Double := ⟨fun x y => x ≠ nan ∧ y ≠ nan ∧ x.rank ≤ y.rank⟩

instance : LT Double := ⟨fun x y => x ≠ nan ∧ y ≠ nan ∧ x.rank < y.rank⟩

instance (x y : Double) : Decidable (x ≤ y) :=
  inferInstanceAs (Decidable (x ≠ nan ∧ y ≠ nan ∧ x.rank ≤ y.rank))

instance (x y : Double) : Decidable (x < y) :=
  inferInstanceAs (Decidable (x ≠ nan ∧ y ≠ nan ∧ x.rank < y.rank))

theorem le_def (x y : Double) : x ≤ y ↔ x ≠ nan ∧ y ≠ nan ∧ x.rank ≤ y.rank := Iff.rfl

theorem lt_def (x y : Double) : x < y ↔ x ≠ nan ∧ y ≠ nan ∧ x.rank < y.rank := Iff.rfl

@[simp] theorem neg_neg (x : Double) : - -x = x := by
  cases x <;> simp [Neg.neg, neg]

end Double

end ExamAdmission
