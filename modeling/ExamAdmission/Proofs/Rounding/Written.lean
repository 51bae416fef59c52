/-
Rounding to decimal places, on the written digits.

What a value is to be rounded to is said of the digits it is written with: these, rounded at a
place, a half going away from zero, and read as a double (`Double.roundWritten`).  On the way the
moved point is read as a double, too, and a double has no more than 53 binary digits:

* `Double.rank_round_eq` — rounding a double to a whole number is exact;
* `Double.shiftPoint_eq_ofRat` — moving the point is correctly rounded, by the written digits;
* `Double.roundHalfAway_nearestRank` — a number that is read as a double first is rounded to the
  same whole number, unless that double is a half which the number lies below (`Double.Crosses`);
* `Double.written_round_of_digits` — fifteen digits do not come so near to a half;
* `Rounding.decimals_on_written_digits` — **so fifteen digits are rounded as they are written**, and
  more of them where no half is crossed;
* `Rounding.half_crossed` — 0.44999999999999996 is rounded to 0.5 at one place.
-/
import ExamAdmission.Proofs.Double.Shortest
import ExamAdmission.Proofs.Rounding.Bounded

namespace ExamAdmission

namespace Double

variable {x y : Double} {q : Rat} {negative : Bool} {places : Int}

/-! ### Rounding to a whole number -/

theorem roundHalfAway_of_nonneg (h : 0 ≤ q) : roundHalfAway q = (q + 1 / 2).floor := by
  rw [roundHalfAway, if_neg (not_lt.mpr h)]

theorem roundHalfAway_neg (q : Rat) : roundHalfAway (-q) = -roundHalfAway q := by
  rcases lt_trichotomy q 0 with below | rfl | above
  · rw [roundHalfAway_of_nonneg (neg_nonneg.mpr below.le), roundHalfAway, if_pos below, Int.neg_neg]
  · decide +kernel
  · rw [roundHalfAway_of_nonneg above.le, roundHalfAway, if_pos (neg_lt_zero.mpr above),
      Rat.neg_neg]

/-- A value is rounded to the whole number that it is within a half of, the half below it
included. -/
theorem roundHalfAway_eq {n : Nat} (nonneg : 0 ≤ q) (low : n - 1 / 2 ≤ q) (high : q < n + 1 / 2) :
    roundHalfAway q = n := by
  rw [roundHalfAway_of_nonneg nonneg]
  refine le_antisymm (Int.lt_add_one_iff.mp (Rat.floor_lt_iff.mpr ?_)) (Rat.le_floor_iff.mpr ?_)
  · push_cast
    linarith
  · push_cast
    linarith

theorem roundHalfAway_spec (nonneg : 0 ≤ q) :
    ∃ n : Nat, roundHalfAway q = n ∧ (n : Rat) - 1 / 2 ≤ q ∧ q < n + 1 / 2 := by
  have shifted : 0 ≤ q + 1 / 2 := by linarith
  have low := Rat.floor_le (q + 1 / 2)
  have high := Rat.lt_floor_add_one (q + 1 / 2)
  push_cast at high
  rw [← Magnitude.floor_toNat_cast shifted] at low high
  have above : ((q + 1 / 2).floor.toNat : Rat) - 1 / 2 ≤ q := by linarith
  have below : q < (q + 1 / 2).floor.toNat + 1 / 2 := by linarith
  exact ⟨_, roundHalfAway_eq nonneg above below, above, below⟩

theorem abs_roundHalfAway_sub_le (q : Rat) : |(roundHalfAway q : Rat) - q| ≤ 1 / 2 := by
  have nonneg : ∀ r : Rat, 0 ≤ r → |(roundHalfAway r : Rat) - r| ≤ 1 / 2 := by
    intro r hr
    obtain ⟨n, hn, low, high⟩ := roundHalfAway_spec hr
    rw [hn, Int.cast_natCast, abs_le]
    constructor <;> linarith
  rcases le_total 0 q with above | below
  · exact nonneg q above
  · -- mirrored at zero
    have mirrored := nonneg (-q) (neg_nonneg.mpr below)
    rwa [roundHalfAway_neg, Int.cast_neg, ← abs_neg, neg_sub_neg, neg_sub] at mirrored

/-- A double from `2 ^ 52` on has no digits behind the point. -/
theorem exists_int_eq_rank (finite : x.isFinite = true) (large : 2 ^ 52 ≤ |x.rank|) :
    ∃ n : Int, x.rank = n := by
  obtain ⟨negative, m, rfl⟩ := exists_of_isFinite finite
  rw [abs_rank_finite, ← zpow_natCast] at large
  have canonical := m.canonical
  unfold IsCanonical at canonical
  have below : m.toRat < 2 ^ (53 + m.exponent) := mul_two_zpow_lt (k := 53) canonical.1 le_rfl
  have place := two_zpow_lt_iff.mp (large.trans_lt below)
  obtain ⟨n, hn⟩ := exists_int_eq_toRat (m := m) (by omega)
  cases negative with
  | false => exact ⟨n, hn⟩
  | true => exact ⟨-n, by rw [Int.cast_neg, ← hn]; rfl⟩

/-- Rounding to a whole number keeps 53 binary digits. -/
theorem natAbs_roundHalfAway_lt (small : |q| ≤ 2 ^ 52) : (roundHalfAway q).natAbs < 2 ^ 53 := by
  have near := abs_roundHalfAway_sub_le q
  have triangle := abs_sub_abs_le_abs_sub (roundHalfAway q : Rat) q
  have cast : ((roundHalfAway q).natAbs : Rat) < ((2 ^ 53 : Nat) : Rat) := by
    rw [Nat.cast_natAbs, Int.cast_abs]
    push_cast
    linarith
  exact_mod_cast cast

theorem nearestRank_intCast {n : Int} (small : n.natAbs ≤ 2 ^ 53) : nearestRank (n : Rat) = n := by
  have magnitude := Magnitude.nearestRank_natCast small
  rcases Int.natAbs_eq n with nonneg | neg
  · rw [nonneg, Int.cast_natCast]
    exact magnitude
  · rw [neg, Int.cast_neg, Int.cast_natCast, nearestRank_neg, magnitude]

/-- **Rounding a double to a whole number is exact.** -/
theorem rank_round_eq (finite : x.isFinite = true) : x.round.rank = roundHalfAway x.rank := by
  rw [rank_round finite]
  by_cases large : 2 ^ 52 ≤ |x.rank|
  · obtain ⟨n, hn⟩ := exists_int_eq_rank finite large
    have fixed := nearestRank_rank x
    rw [hn] at fixed ⊢
    rwa [roundHalfAway_intCast]
  · exact nearestRank_intCast (natAbs_roundHalfAway_lt (not_le.mp large).le).le

/-! ### Sign and place -/

/-- A double is known by its place and its sign. -/
theorem eq_of_rank_eq (hx : x ≠ nan) (hy : y ≠ nan) (place : x.rank = y.rank)
    (sign : x.isNegative = y.isNegative) : x = y := by
  cases x with
  | nan => exact absurd rfl hx
  | infinity s =>
    cases y with
    | nan => exact absurd rfl hy
    | infinity t => exact congrArg infinity sign
    | finite t n =>
      obtain rfl : s = t := sign
      exact absurd (signed_injective s place) n.toRat_lt.ne'
  | finite s m =>
    cases y with
    | nan => exact absurd rfl hy
    | infinity t =>
      obtain rfl : s = t := sign
      exact absurd (signed_injective s place) m.toRat_lt.ne
    | finite t n =>
      obtain rfl : s = t := sign
      rw [Magnitude.toRat_injective (signed_injective s place)]

theorem isNegative_nearest (negative : Bool) (q : Rat) :
    (nearest negative q).isNegative = negative := by
  rcases nearest_cases negative q with far | ⟨m, near⟩
  · rw [far, isNegative]
  · rw [near, isNegative]

/-- The double nearest to a rational of the given sign has that sign. -/
theorem isNegative_ofRat (sign : 0 ≤ signed negative q) :
    (ofRat negative q).isNegative = negative := by
  unfold ofRat
  split
  · rfl
  · next nonzero =>
    split
    · next below =>
      cases negative with
      | false => exact absurd below (not_lt.mpr sign)
      | true => exact isNegative_nearest _ _
    · next above =>
      cases negative with
      | false => exact isNegative_nearest _ _
      | true => exact absurd (le_antisymm (neg_nonneg.mp sign) (not_lt.mp above)) nonzero

theorem signed_signed (negative : Bool) (q : Rat) : signed negative (signed negative q) = q := by
  cases negative with
  | false => rfl
  | true => exact Rat.neg_neg q

theorem signed_mul (negative : Bool) (q r : Rat) :
    signed negative (q * r) = signed negative q * r := by
  cases negative with
  | false => rfl
  | true => exact (neg_mul q r).symm

theorem abs_signed (negative : Bool) (q : Rat) : |signed negative q| = |q| := by
  cases negative with
  | false => rfl
  | true => exact abs_neg q

theorem signed_roundHalfAway (negative : Bool) (q : Rat) :
    signed negative (roundHalfAway (signed negative q)) = roundHalfAway q := by
  cases negative with
  | false => rfl
  | true =>
    show -((roundHalfAway (-q) : Int) : Rat) = _
    rw [roundHalfAway_neg, Int.cast_neg, Rat.neg_neg]

theorem roundHalfAway_signed_natCast (negative : Bool) (n : Nat) :
    (roundHalfAway (signed negative n) : Rat) = signed negative n := by
  have fixed : roundHalfAway (n : Rat) = n := roundHalfAway_intCast n
  rw [← signed_signed negative (roundHalfAway (signed negative n)), signed_roundHalfAway, fixed,
    Int.cast_natCast]

theorem isNegative_round (finite : x.isFinite = true) : x.round.isNegative = x.isNegative := by
  obtain ⟨negative, m, rfl⟩ := exists_of_isFinite finite
  refine isNegative_ofRat ?_
  obtain ⟨n, hn, -⟩ := roundHalfAway_spec m.toRat_nonneg
  rw [signed_roundHalfAway, hn]
  exact Nat.cast_nonneg n

theorem isNegative_shiftPoint (places : Int) (x : Double) :
    (x.shiftPoint places).isNegative = x.isNegative := by
  cases x with
  | nan => rfl
  | infinity negative => rfl
  | finite negative m =>
    rw [shiftPoint]
    rcases ((m.shortest .away).shift places).toDouble_cases negative with far | ⟨n, near⟩
    · rw [far]
      rfl
    · rw [near]
      rfl

theorem signed_written_nonneg (x : Double) : 0 ≤ signed x.isNegative x.written := by
  cases x with
  | nan => exact le_rfl
  | infinity negative =>
    cases negative with
    | false => exact le_rfl
    | true => exact neg_zero.ge
  | finite negative m =>
    rw [written, isNegative, signed_signed]
    exact (m.shortest .away).toRat_nonneg

/-- **Moving the decimal point is correctly rounded**, by the digits that are written. -/
theorem shiftPoint_eq_ofRat (places : Int) (finite : x.isFinite = true) :
    x.shiftPoint places = ofRat x.isNegative (x.written * 10 ^ places) := by
  refine eq_of_rank_eq (shiftPoint_ne_nan places (ne_nan_of_isFinite finite)) (ofRat_ne_nan _ _)
    ?_ ?_
  · rw [rank_shiftPoint places finite, rank_ofRat]
  · rw [isNegative_shiftPoint, isNegative_ofRat]
    rw [signed_mul]
    exact mul_nonneg x.signed_written_nonneg (ten_zpow_pos places).le

/-- Rounding to decimal places writes the rounded double, and moves the point back. -/
theorem roundDecimals_eq_ofRat (shifted : (x.shiftPoint places).isFinite = true) :
    x.roundDecimals places =
      ofRat x.isNegative ((x.shiftPoint places).round.written * 10 ^ (-places)) := by
  rw [roundDecimals, if_pos shifted, shiftPoint_eq_ofRat _ (isFinite_round shifted),
    isNegative_round shifted, isNegative_shiftPoint]

/-! ### Crossing a half -/

/-- The double nearest to the value is a half that the value lies below, so that rounding it to a
whole number goes one farther from zero. -/
def Crosses (q : Rat) : Prop := ∃ n : Nat, |q| < n + 1 / 2 ∧ |nearestRank q| = n + 1 / 2

theorem nearestRank_half {n : Nat} (small : 2 * n + 1 ≤ 2 ^ 53) :
    nearestRank (n + 1 / 2) = n + 1 / 2 := by
  have value : (n : Rat) + 1 / 2 = (2 * n + 1 : Nat) * 2 ^ (-1 : Int) := by
    push_cast
    rw [zpow_neg_one]
    ring
  rw [value]
  exact nearestRank_of_digits small (by decide) (mul_two_zpow_le (k := 53) small (by decide))

theorem nearestRank_two_pow : nearestRank (2 ^ 52) = 2 ^ 52 := by
  rw [← zpow_natCast]
  exact nearestRank_two_zpow (by decide) (by decide)

theorem normal_two_pow : (2 : Rat) ^ (-1021 : Int) ≤ 2 ^ 52 := by
  rw [← zpow_natCast]
  exact two_zpow_le_iff.mpr (by decide)

theorem normal_quarter : (2 : Rat) ^ (-1022 : Int) ≤ 1 / 4 := by
  rw [show (1 : Rat) / 4 = 2 ^ (-2 : Int) by norm_num]
  exact two_zpow_le_iff.mpr (by decide)

theorem abs_nearestRank_le (small : |q| ≤ 2 ^ 52) : |nearestRank q| ≤ 2 ^ 52 := by
  obtain ⟨low, high⟩ := abs_le.mp small
  refine abs_le.mpr ⟨?_, (nearestRank_mono high).trans_eq nearestRank_two_pow⟩
  rw [← nearestRank_two_pow, ← nearestRank_neg]
  exact nearestRank_mono low

theorem le_abs_nearestRank (large : 2 ^ 52 ≤ |q|) : 2 ^ 52 ≤ |nearestRank q| := by
  rcases le_abs.mp large with above | below
  · exact (nearestRank_two_pow.symm.trans_le (nearestRank_mono above)).trans (le_abs_self _)
  · have mirrored := nearestRank_two_pow.symm.trans_le (nearestRank_mono below)
    rw [nearestRank_neg] at mirrored
    exact mirrored.trans (neg_le_abs _)

theorem roundHalfAway_nearestRank_of_nonneg (nonneg : 0 ≤ q) (small : q ≤ 2 ^ 52) :
    roundHalfAway (nearestRank q) = roundHalfAway q ∨ Crosses q := by
  obtain ⟨n, hn, low, high⟩ := roundHalfAway_spec nonneg
  have rounded := nearestRank_nonneg nonneg
  have top : nearestRank q ≤ 2 ^ 52 := (nearestRank_mono small).trans_eq nearestRank_two_pow
  have low' : (n : Rat) - 1 / 2 ≤ nearestRank q := by
    rcases Nat.eq_zero_or_pos n with rfl | some
    · push_cast
      linarith
    · -- the half below is a double, which rounding does not pass
      obtain ⟨k, rfl⟩ : ∃ k, n = k + 1 := ⟨n - 1, by omega⟩
      have few : ((k : Nat) : Rat) < (2 ^ 52 : Nat) := by
        push_cast at low ⊢
        linarith
      have half := nearestRank_half (n := k) (by have := Nat.cast_lt.mp few; omega)
      push_cast at low ⊢
      rw [show (k : Rat) + 1 - 1 / 2 = k + 1 / 2 by ring] at low ⊢
      exact half.symm.trans_le (nearestRank_mono low)
  rw [hn]
  by_cases below : nearestRank q < n + 1 / 2
  · exact Or.inl (roundHalfAway_eq rounded low' below)
  · right
    refine ⟨n, by rwa [abs_of_nonneg nonneg], ?_⟩
    rw [abs_of_nonneg rounded]
    have few : ((n : Nat) : Rat) < (2 ^ 52 : Nat) := by
      push_cast
      linarith [not_lt.mp below]
    refine le_antisymm ?_ (not_lt.mp below)
    have half := nearestRank_half (n := n) (by have := Nat.cast_lt.mp few; omega)
    exact (nearestRank_mono high.le).trans_eq half

/-- **A value that is read as a double first is rounded to the same whole number**, unless it
crosses a half. -/
theorem roundHalfAway_nearestRank (small : |q| ≤ 2 ^ 52) :
    roundHalfAway (nearestRank q) = roundHalfAway q ∨ Crosses q := by
  rcases le_total 0 q with above | below
  · exact roundHalfAway_nearestRank_of_nonneg above (abs_of_nonneg above ▸ small)
  · have mirrored := roundHalfAway_nearestRank_of_nonneg (neg_nonneg.mpr below)
      (abs_of_nonpos below ▸ small)
    unfold Crosses at mirrored ⊢
    rwa [nearestRank_neg, roundHalfAway_neg, roundHalfAway_neg, abs_neg, abs_neg, neg_inj]
      at mirrored

/-! ### The digits that are rounded -/

theorem nearestRank_signed (negative : Bool) (q : Rat) :
    nearestRank (signed negative q) = signed negative (nearestRank q) := by
  cases negative with
  | false => rfl
  | true => exact nearestRank_neg q

theorem crosses_signed (negative : Bool) (q : Rat) : Crosses (signed negative q) ↔ Crosses q := by
  unfold Crosses
  rw [nearestRank_signed, abs_signed, abs_signed]

theorem exists_nat_of_whole {d : Decimal} (whole : 0 ≤ d.exponent) : ∃ n : Nat, d.toRat = n := by
  obtain ⟨n, hn⟩ := Magnitude.exists_multiple_of_le whole (rfl : d.toRat = d.digits * _)
  rw [zpow_zero, mul_one] at hn
  exact ⟨n, hn⟩

/-- Fifteen digits with one of them behind the point are not very many. -/
theorem toRat_lt_of_behind {d : Decimal} (few : d.digits < 10 ^ 15) (behind : d.exponent < 0) :
    d.toRat < 2 ^ 52 := by
  have tenth : (10 : Rat) ^ d.exponent ≤ 10 ^ (-1 : Int) := ten_zpow_le_iff.mpr (by omega)
  calc d.toRat ≤ d.digits * 10 ^ (-1 : Int) := mul_le_mul_of_nonneg_left tenth (Nat.cast_nonneg _)
    _ ≤ (10 ^ 15 : Nat) * 10 ^ (-1 : Int) :=
      mul_le_mul_of_nonneg_right (by exact_mod_cast few.le) (ten_zpow_pos _).le
    _ < 2 ^ 52 := by norm_num

/-- Fifteen digits do not cross a half: with one of them behind the point they are a step of their
last place below it, which is more than rounding moves them. -/
theorem not_crosses_of_digits {d : Decimal} (few : d.digits < 10 ^ 15) (small : d.toRat ≤ 2 ^ 52) :
    ¬ Crosses d.toRat := by
  rintro ⟨n, below, half⟩
  rw [abs_of_nonneg d.toRat_nonneg] at below
  rw [abs_of_nonneg (nearestRank_nonneg d.toRat_nonneg)] at half
  have behind : d.exponent < 0 := by
    by_contra whole
    obtain ⟨k, hk⟩ := exists_nat_of_whole (not_lt.mp whole)
    have few : ((k : Nat) : Rat) ≤ (2 ^ 52 : Nat) := by
      rw [← hk]
      exact_mod_cast small
    have fixed := Magnitude.nearestRank_natCast (n := k) (by have := Nat.cast_le.mp few; omega)
    rw [hk] at below half
    exact absurd (fixed.symm.trans half) below.ne
  have step := ten_zpow_pos d.exponent
  have normal : 2 ^ (-1022 : Int) ≤ d.toRat := by
    by_contra tiny
    have mono := nearestRank_mono (not_le.mp tiny).le
    rw [nearestRank_two_zpow (by decide) (by decide), half] at mono
    have small : (2 : Rat) ^ (-1022 : Int) < 2 ^ (-1 : Int) := two_zpow_lt_iff.mpr (by decide)
    rw [zpow_neg_one] at small
    linarith [(Nat.cast_nonneg n : (0 : Rat) ≤ n)]
  have moved := (movesLittle_of_normal normal).le_mul
  obtain ⟨k, hk⟩ : ∃ k : Nat, d.exponent = -(k + 1 : Nat) := ⟨(-d.exponent - 1).toNat, by omega⟩
  -- the half is a multiple of the step
  have multiple : (n : Rat) + 1 / 2 = (n * 10 ^ (k + 1) + 5 * 10 ^ k : Nat) * 10 ^ d.exponent := by
    rw [hk, zpow_neg, zpow_natCast]
    push_cast
    field_simp
    ring
  have apart : d.digits + 1 ≤ n * 10 ^ (k + 1) + 5 * 10 ^ k := by
    rw [multiple, Decimal.toRat] at below
    exact_mod_cast lt_of_mul_lt_mul_right below step.le
  have above : d.toRat + 10 ^ d.exponent ≤ n + 1 / 2 := by
    rw [multiple, Decimal.toRat]
    calc (d.digits : Rat) * 10 ^ d.exponent + 10 ^ d.exponent
        = ((d.digits + 1 : Nat) : Rat) * 10 ^ d.exponent := by push_cast; ring
      _ ≤ _ := mul_le_mul_of_nonneg_right (by exact_mod_cast apart) step.le
  have share : roundoff * d.toRat < 10 ^ d.exponent := by
    have digits : roundoff * d.digits < 1 := by
      calc roundoff * d.digits ≤ roundoff * (10 ^ 15 : Nat) :=
            mul_le_mul_of_nonneg_left (by exact_mod_cast few.le) roundoff_pos.le
        _ < 1 := by
          unfold roundoff
          norm_num
    calc roundoff * d.toRat = roundoff * d.digits * 10 ^ d.exponent := by
          rw [Decimal.toRat, mul_assoc]
      _ < 1 * 10 ^ d.exponent := mul_lt_mul_of_pos_right digits step
      _ = 10 ^ d.exponent := one_mul _
  linarith

/-- The number of a finite double's written digits, read without point and sign. -/
def writtenDigits : Double → Nat
  | finite _ m => (m.shortest .away).digits
  | _ => 0

theorem abs_rank_lt_limit (finite : x.isFinite = true) : |x.rank| < 2 ^ (1024 : Int) := by
  obtain ⟨negative, m, rfl⟩ := exists_of_isFinite finite
  rw [abs_rank_finite]
  exact m.toRat_lt

/-- Less than a quarter is rounded to nothing, also after it has been read as a double. -/
theorem roundHalfAway_nearestRank_of_tiny (tiny : |q| < 1 / 4) :
    roundHalfAway (nearestRank q) = 0 := by
  have moved := abs_nearestRank_sub_le q (zero false)
  have near := abs_roundHalfAway_sub_le (nearestRank q)
  have first := abs_sub_abs_le_abs_sub (nearestRank q) q
  have second := abs_sub_abs_le_abs_sub (roundHalfAway (nearestRank q) : Rat) (nearestRank q)
  rw [rank_zero, zero_sub, abs_neg] at moved
  have less : |(roundHalfAway (nearestRank q) : Rat)| < 1 := by linarith
  rw [← Int.cast_abs] at less
  exact Int.abs_lt_one_iff.mp (by exact_mod_cast less)

/-- Reading a normal number moves it little. -/
theorem abs_nearestRank_sub_le_share (normal : 2 ^ (-1022 : Int) ≤ |q|)
    (inRange : |nearestRank q| < 2 ^ (1024 : Int)) : |nearestRank q - q| ≤ roundoff * |q| := by
  rcases le_total 0 q with above | below
  · rw [abs_of_nonneg above] at normal ⊢
    exact Magnitude.abs_nearestRank_sub_le_share normal ((le_abs_self _).trans_lt inRange)
  · rw [abs_of_nonpos below] at normal ⊢
    have mirrored := Magnitude.abs_nearestRank_sub_le_share normal
      (by rw [nearestRank_neg]; exact (neg_le_abs _).trans_lt inRange)
    rwa [nearestRank_neg, ← abs_neg, neg_sub_neg, neg_sub] at mirrored

section Shifted

variable (finite : x.isFinite = true)
include finite

theorem rank_round_shiftPoint (shifted : (x.shiftPoint places).isFinite = true) :
    (x.shiftPoint places).round.rank = roundHalfAway (nearestRank (x.written * 10 ^ places)) := by
  rw [rank_round_eq shifted, rank_shiftPoint places finite]

/-- What has no more than 52 binary digits before the point is rounded to a whole number that is
written out. -/
theorem written_round_of_small (small : |x.written * 10 ^ places| ≤ 2 ^ 52)
    (shifted : (x.shiftPoint places).isFinite = true) :
    (x.shiftPoint places).round.written =
      roundHalfAway (nearestRank (x.written * 10 ^ places)) := by
  have few := natAbs_roundHalfAway_lt (abs_nearestRank_le small)
  exact written_of_int few (isFinite_round shifted) (rank_round_shiftPoint finite shifted)

/-- Beyond them there is nothing to round. -/
theorem rank_round_of_large (large : 2 ^ 52 < |x.written * 10 ^ places|)
    (shifted : (x.shiftPoint places).isFinite = true) :
    (x.shiftPoint places).round.rank = nearestRank (x.written * 10 ^ places) := by
  have rank := rank_shiftPoint places finite
  have whole : 2 ^ 52 ≤ |(x.shiftPoint places).rank| := by
    rw [rank]
    exact le_abs_nearestRank large.le
  obtain ⟨n, hn⟩ := exists_int_eq_rank shifted whole
  rw [rank_round_shiftPoint finite shifted, ← rank, hn, roundHalfAway_intCast]

/-- Fifteen digits are rounded as they are written. -/
theorem written_round_of_digits (few : x.writtenDigits < 10 ^ 15)
    (shifted : (x.shiftPoint places).isFinite = true) :
    (x.shiftPoint places).round.written = roundHalfAway (x.written * 10 ^ places) := by
  obtain ⟨negative, m, rfl⟩ := exists_of_isFinite finite
  set d := (m.shortest .away).shift places with hd
  have value : (Double.finite negative m).written * 10 ^ places = signed negative d.toRat := by
    rw [written, hd, Decimal.toRat_shift, signed_mul]
  have few : d.digits < 10 ^ 15 := few
  by_cases small : |(Double.finite negative m).written * 10 ^ places| ≤ 2 ^ 52
  · rw [written_round_of_small finite small shifted]
    rcases roundHalfAway_nearestRank small with same | crosses
    · rw [same]
    · rw [value, crosses_signed] at crosses
      rw [value, abs_signed, abs_of_nonneg d.toRat_nonneg] at small
      exact absurd crosses (not_crosses_of_digits few small)
  · have large := not_le.mp small
    have rank := rank_round_of_large finite large shifted
    rw [value, abs_signed, abs_of_nonneg d.toRat_nonneg] at large
    have whole : 0 ≤ d.exponent := by
      by_contra behind
      exact absurd (toRat_lt_of_behind few (not_le.mp behind)) (not_lt.mpr large.le)
    rw [value, nearestRank_signed] at rank
    have place : nearestRank d.toRat =
        |((Double.finite negative m).shiftPoint places).round.rank| := by
      rw [rank, abs_signed, abs_of_nonneg (nearestRank_nonneg d.toRat_nonneg)]
    have normal : 2 ^ (-1021 : Int) ≤
        |((Double.finite negative m).shiftPoint places).round.rank| := by
      rw [← place]
      exact normal_two_pow.trans (nearestRank_two_pow.symm.trans_le (nearestRank_mono large.le))
    have sign : ((Double.finite negative m).shiftPoint places).round.isNegative = negative := by
      rw [isNegative_round shifted, isNegative_shiftPoint]
      rfl
    obtain ⟨n, hn⟩ := exists_nat_of_whole whole
    rw [written_of_read few (isFinite_round shifted) normal place, sign, value, hn,
      roundHalfAway_signed_natCast]

/-- However many digits there are, what is written for the rounded value is half a unit away, and
the share that reading twice and writing once may lose. -/
theorem abs_written_round_sub_le (shifted : (x.shiftPoint places).isFinite = true) :
    |(x.shiftPoint places).round.written - x.written * 10 ^ places| ≤
      1 / 2 + 4 * roundoff * |x.written * 10 ^ places| := by
  have inRange := abs_rank_lt_limit shifted
  have rank := rank_shiftPoint places finite
  have rounded := rank_round_shiftPoint finite shifted
  rw [rank] at inRange
  set point := x.written * 10 ^ places
  have unit := mul_nonneg roundoff_pos.le (abs_nonneg point)
  rcases lt_or_ge |point| (1 / 4) with tiny | normal
  · -- nothing is left of it
    have none : roundHalfAway (nearestRank point) = 0 := roundHalfAway_nearestRank_of_tiny tiny
    rw [none, Int.cast_zero] at rounded
    rw [written_of_int (n := 0) (by decide) (isFinite_round shifted) rounded, Int.cast_zero,
      zero_sub, abs_neg]
    linarith
  · have moved := abs_nearestRank_sub_le_share (normal_quarter.trans normal) inRange
    rcases le_or_gt |point| (2 ^ 52) with small | large
    · rw [written_round_of_small finite small shifted]
      have near := abs_roundHalfAway_sub_le (nearestRank point)
      have triangle :=
        abs_sub_le (roundHalfAway (nearestRank point) : Rat) (nearestRank point) point
      linarith
    · have kept := rank_round_of_large finite large shifted
      have written := abs_written_sub_le (isFinite_round shifted)
        (normal_two_pow.trans (kept ▸ le_abs_nearestRank large.le))
      rw [kept] at written
      have triangle := abs_sub_le (x.shiftPoint places).round.written (nearestRank point) point
      have size := abs_sub_abs_le_abs_sub (nearestRank point) point
      have share := mul_le_mul_of_nonneg_left (show |nearestRank point| ≤
        (1 + roundoff) * |point| by linarith) roundoff_pos.le
      have square := mul_le_mul_of_nonneg_right roundoff_le_half unit
      linarith

end Shifted

/-! ### The rounded value -/

/-- The double nearest to so many units of the last place that is kept, of the sign of a value. -/
def units (x : Double) (places : Int) (count : Rat) : Double :=
  ofRat x.isNegative (count * 10 ^ (-places))

/-- The written digits, rounded to decimal places, a half going away from zero, and read as a
double. -/
def roundWritten (places : Int) (x : Double) : Double :=
  x.units places (roundHalfAway (x.written * 10 ^ places))

end Double

namespace Rounding

open Double

/-- **Rounding to decimal places rounds the written digits** of a finite value.  It leaves the value
as it is if the moved point takes it out of range.  Else it gives the double nearest to the digits
rounded at that place, a half going away from zero, if there are no more than fifteen digits, or if
at most 52 binary digits stand before the moved point and no half is crossed; where one is crossed,
the digits are rounded as the half is.  However many digits there are, the decimal that is read as
the result differs from the value by half a unit and a few units of roundoff at most. -/
theorem decimals_on_written_digits (places : Int32) {x : Double} (finite : x.isFinite = true) :
    let point := x.written * 10 ^ places.toInt
    let result := (Rounding.decimals places).apply x
    (2 ^ (1024 : Int) ≤ |nearestRank point| → result = x) ∧
    (|nearestRank point| < 2 ^ (1024 : Int) →
      (x.writtenDigits < 10 ^ 15 ∨ |point| ≤ 2 ^ 52 ∧ ¬ Crosses point →
        result = x.roundWritten places.toInt) ∧
      (|point| ≤ 2 ^ 52 →
        result = x.units places.toInt (roundHalfAway (nearestRank point))) ∧
      ∃ count, result = x.units places.toInt count ∧
        |count - point| ≤ 1 / 2 + 4 * roundoff * |point|) := by
  intro point result
  have rank := rank_shiftPoint places.toInt finite
  constructor
  · intro far
    have infinite : ¬ (x.shiftPoint places.toInt).isFinite = true := fun shifted =>
      absurd (rank ▸ abs_rank_lt_limit shifted) (not_lt.mpr far)
    exact if_neg infinite
  · intro inRange
    have shifted : (x.shiftPoint places.toInt).isFinite = true :=
      isFinite_of_abs_rank_lt (shiftPoint_ne_nan _ (ne_nan_of_isFinite finite)) (rank ▸ inRange)
    have moved : result = x.units places.toInt (x.shiftPoint places.toInt).round.written :=
      roundDecimals_eq_ofRat shifted
    refine ⟨?_, ?_, ⟨_, moved, abs_written_round_sub_le finite shifted⟩⟩
    · rintro (few | ⟨small, kept⟩)
      · rw [moved, written_round_of_digits finite few shifted]
        rfl
      · rw [moved, written_round_of_small finite small shifted,
          (roundHalfAway_nearestRank small).resolve_right kept]
        rfl
    · intro small
      rw [moved, written_round_of_small finite small shifted]

/-- At two places 1.005 is rounded to 1.01, although the double nearest to it lies below. -/
theorem demo_decimals_on_written_digits :
    let x := (Decimal.mk 1005 (-3)).toDouble false
    x.isFinite = true ∧ x.rank < 1005 / 1000 ∧ x.written = 1005 / 1000 ∧
      (Rounding.decimals 2).apply x = x.roundWritten 2 ∧
      x.roundWritten 2 = (Decimal.mk 101 (-2)).toDouble false := by
  intro x
  have finite : x.isFinite = true := by decide +kernel
  obtain ⟨-, inRange⟩ := decimals_on_written_digits 2 finite
  obtain ⟨rounded, -⟩ := inRange (by decide +kernel)
  exact ⟨finite, by decide +kernel, by decide +kernel, rounded (Or.inl (by decide +kernel)),
    by decide +kernel⟩

/-- At one place 0.44999999999999996 is less than half a unit above 0.4, but its moved point is read
as 4.5, which is rounded to 5.  At fourteen places 92.33022084623151 needs no rounding, but its
moved point has 54 binary digits, and is read as another whole number. -/
theorem half_crossed :
    let x := (Decimal.mk 44999999999999996 (-17)).toDouble false
    let y := (Decimal.mk 9233022084623151 (-14)).toDouble false
    x.written = 44999999999999996 / 10 ^ 17 ∧ y.written = 9233022084623151 / 10 ^ 14 ∧
      (x.shiftPoint 1).isFinite = true ∧ (y.shiftPoint 14).isFinite = true ∧
      (Rounding.decimals 1).apply x = (Decimal.mk 5 (-1)).toDouble false ∧
      x.roundWritten 1 = (Decimal.mk 4 (-1)).toDouble false ∧
      (Rounding.decimals 1).apply x ≠ x.roundWritten 1 ∧
      (Rounding.decimals 14).apply y = (Decimal.mk 9233022084623153 (-14)).toDouble false ∧
      y.roundWritten 14 = y ∧ (Rounding.decimals 14).apply y ≠ y.roundWritten 14 := by
  decide +kernel

end Rounding

end ExamAdmission
