/-
Rounding is symmetric about zero.

The sign of a value goes through every step of a rounding unchanged: the decimal point of a negative
value is moved by writing and reading its digits behind the same minus, a half goes away from zero on
both sides, and what is out of range on one side is so on the other.  Only rounding down and rounding
up change places:

* `Double.mapInt_neg` — rounding to whole numbers, by functions that mirror each other;
* `Double.shiftPoint_neg` — moving the decimal point;
* `Double.roundDecimals_neg` — rounding to decimal places;
* `Rounding.odd_on_texts` — **roundings of opposite values are opposite**, by way of the texts, and a
  result keeps the sign of the value even if it is zero.
-/
import ExamAdmission.Proofs.Rounding.Text
import ExamAdmission.Proofs.Rounding.Written

namespace ExamAdmission

namespace Double

theorem signed_not (negative : Bool) (q : Rat) : signed (!negative) q = -signed negative q := by
  cases negative with
  | false => rfl
  | true => exact (Rat.neg_neg q).symm

/-- Under the opposite sign the nearest double is the opposite one. -/
theorem nearest_not (negative : Bool) (q : Rat) : nearest (!negative) q = -nearest negative q := by
  unfold nearest ofParts
  split
  · rfl
  · dsimp only
    split
    · rfl
    · split
      · rfl
      · rfl

/-- The doubles nearest to opposite rationals are opposite, the two zeros included. -/
theorem ofRat_neg (negativeZero : Bool) (q : Rat) :
    ofRat (!negativeZero) (-q) = -ofRat negativeZero q := by
  rcases lt_trichotomy q 0 with below | rfl | above
  · rw [ofRat, ofRat, if_neg (neg_ne_zero.mpr below.ne),
      if_neg (not_lt.mpr (neg_nonneg.mpr below.le)), if_neg below.ne, if_pos below]
    exact nearest_not true (-q)
  · rw [neg_zero, ofRat, ofRat, if_pos rfl, if_pos rfl]
    rfl
  · rw [ofRat, ofRat, if_neg (neg_ne_zero.mpr above.ne'), if_pos (neg_neg_of_pos above),
      if_neg above.ne', if_neg (not_lt.mpr above.le), Rat.neg_neg]
    exact nearest_not false q

/-- Rounding to whole numbers by functions that mirror each other. -/
theorem mapInt_neg {f g : Rat → Int} (mirrored : ∀ q, f (-q) = -g q) (x : Double) :
    (-x).mapInt f = -x.mapInt g := by
  cases x with
  | nan => rfl
  | infinity negative => rfl
  | finite negative m =>
    show ofRat (!negative) (f (signed (!negative) m.toRat)) = _
    rw [signed_not, mirrored, Int.cast_neg]
    exact ofRat_neg negative _

theorem round_neg (x : Double) : (-x).round = -x.round := mapInt_neg roundHalfAway_neg x

theorem toDouble_not (negative : Bool) (d : Decimal) :
    d.toDouble (!negative) = -d.toDouble negative := by
  unfold Decimal.toDouble
  split
  · rfl
  · split
    · rfl
    · split
      · rfl
      · exact nearest_not negative d.toRat

/-- Moving the decimal point leaves the sign in front of the digits. -/
theorem shiftPoint_neg (places : Int) (x : Double) :
    (-x).shiftPoint places = -x.shiftPoint places := by
  cases x with
  | nan => rfl
  | infinity negative => rfl
  | finite negative m => exact toDouble_not negative _

theorem isFinite_neg (x : Double) : (-x).isFinite = x.isFinite := by
  cases x <;> rfl

/-- Opposite values are rounded to opposite ones, or both left as they are. -/
theorem roundDecimals_neg (places : Int) (x : Double) :
    (-x).roundDecimals places = -x.roundDecimals places := by
  unfold roundDecimals
  dsimp only
  rw [shiftPoint_neg, isFinite_neg]
  split
  · rw [round_neg, shiftPoint_neg]
  · rfl

/-- Rounding to decimal places keeps the sign, even of what becomes zero. -/
theorem isNegative_roundDecimals (places : Int) (x : Double) :
    (x.roundDecimals places).isNegative = x.isNegative := by
  unfold roundDecimals
  dsimp only
  split
  · next shifted => rw [isNegative_shiftPoint, isNegative_round shifted, isNegative_shiftPoint]
  · rfl

end Double

/-- **Roundings of opposite values are opposite.**  Rounding the texts of two opposite values to
decimal places succeeds on both and gives opposite results, each of the sign of its value; what is
rounded down is the opposite of the opposite value rounded up. -/
theorem Rounding.odd_on_texts {places : Int32} (notLeast : places ≠ Int32.minValue) (x : Double) :
    (∃ result, Rounding.result? (decimals places) x = some result ∧
      Rounding.result? (decimals places) (-x) = some (-result) ∧
      result = (decimals places).apply x ∧ -result = (decimals places).apply (-x) ∧
      result.isNegative = x.isNegative) ∧
    floor.apply (-x) = -ceil.apply x := by
  have opposite : (decimals places).apply (-x) = -(decimals places).apply x :=
    Double.roundDecimals_neg places.toInt x
  have reversible := isReversible_decimals notLeast
  refine ⟨⟨(decimals places).apply x, Rounding.result?_eq reversible x, ?_, rfl, opposite.symm,
    Double.isNegative_roundDecimals places.toInt x⟩, Double.mapInt_neg (fun q => ?_) x⟩
  · rw [Rounding.result?_eq reversible, opposite]
  · rw [Rat.ceil_eq_neg_floor_neg, neg_neg]

/-- At one place 10.25 and -10.25 are rounded to 10.3 and -10.3, and 0.04 and -0.04 to the two
zeros; with the point moved by 400 places 1.5 is out of range on both sides, and at 308 places before
the point `1.6 · 10 ^ 308` becomes infinite on both sides. -/
theorem Rounding.demo_odd_on_texts :
    let hundredths (digits : Nat) := (Decimal.mk digits (-2)).toDouble false
    let great := (Decimal.mk 16 307).toDouble false
    (Rounding.result? (decimals 1) (hundredths 1025) = some (hundredths 1030) ∧
      Rounding.result? (decimals 1) (-hundredths 1025) = some (-hundredths 1030)) ∧
    (Rounding.result? (decimals 1) (hundredths 4) = some (.zero false) ∧
      Rounding.result? (decimals 1) (-hundredths 4) = some (.zero true)) ∧
    (Rounding.result? (decimals 400) (hundredths 150) = some (hundredths 150) ∧
      Rounding.result? (decimals 400) (-hundredths 150) = some (-hundredths 150)) ∧
    (Rounding.result? (decimals (-308)) great = some (.infinity false) ∧
      Rounding.result? (decimals (-308)) (-great) = some (.infinity true)) ∧
    floor.apply (-hundredths 150) = -ceil.apply (hundredths 150) := by
  intro hundredths great
  have both : ∀ (places : Int32) (x y : Double), places ≠ Int32.minValue →
      (decimals places).apply x = y →
      Rounding.result? (decimals places) x = some y ∧
        Rounding.result? (decimals places) (-x) = some (-y) := by
    intro places x y notLeast value
    obtain ⟨⟨result, plus, minus, rfl, -, -⟩, -⟩ := odd_on_texts notLeast x
    exact ⟨value ▸ plus, value ▸ minus⟩
  have down := (@odd_on_texts 1 (by decide) (hundredths 150)).2
  have computed : (decimals 1).apply (hundredths 1025) = hundredths 1030 ∧
      (decimals 1).apply (hundredths 4) = .zero false ∧
      (decimals 400).apply (hundredths 150) = hundredths 150 ∧
      (decimals (-308)).apply great = .infinity false := by decide +kernel
  obtain ⟨tenths, nothing, far, back⟩ := computed
  exact ⟨both 1 _ _ (by decide) tenths, both 1 _ _ (by decide) nothing, both 400 _ _ (by decide) far,
    both (-308) _ _ (by decide) back, down⟩

end ExamAdmission
