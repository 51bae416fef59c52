/-
Rounding to the nearest double.

`Double.nearest` rounds a magnitude at the place of its 53rd binary digit and carries into the next
binade where that overflows.  All that later proofs need of it is that the result is as near as any
double, the infinities standing where `Double.rank` puts them:

* `leadingPlace_spec` — the place of the first binary digit is found exactly;
* `Double.rank_ofParts` — parts with a significand carried to `2 ^ 53` still have their value, capped
  at `2 ^ 1024`;
* `Double.abs_nearestRank_sub_le` — **no double is nearer** than the one that rounding finds;
* `Double.nearestRank_mono`, `Double.nearestRank_rank` — rounding keeps the order and leaves what a
  double already stands for unchanged, both from nearness alone.
-/
import ExamAdmission.Double.Arithmetic
import Mathlib.Algebra.Order.Field.Power
import Mathlib.Data.Rat.Floor
import Mathlib.Tactic.Linarith
import Mathlib.Tactic.Ring

namespace ExamAdmission

/-! ### The nearest integer -/

theorem abs_roundHalfEven_sub_le_half (q : Rat) : |(roundHalfEven q : Rat) - q| ≤ 1 / 2 := by
  have below : ((q.floor : Int) : Rat) ≤ q := Int.floor_le q
  have above : q < (q.floor : Int) + 1 := Int.lt_floor_add_one q
  unfold roundHalfEven
  dsimp only
  -- the distance to the floor decides, and each branch bounds it
  split
  · rw [abs_le]
    constructor <;> linarith
  · split
    · push_cast
      rw [abs_le]
      constructor <;> linarith
    · split
      · rw [abs_le]
        constructor <;> linarith
      · push_cast
        rw [abs_le]
        constructor <;> linarith

/-- No integer is nearer than the one that rounding finds. -/
theorem abs_roundHalfEven_sub_le (q : Rat) (n : Int) :
    |(roundHalfEven q : Rat) - q| ≤ |(n : Rat) - q| := by
  by_cases h : n = roundHalfEven q
  · rw [h]
  · have half := abs_roundHalfEven_sub_le_half q
    -- another integer is a whole step away, and half of that remains
    have one : (1 : Rat) ≤ |(n : Rat) - roundHalfEven q| := by
      exact_mod_cast Int.one_le_abs (sub_ne_zero.mpr h)
    have triangle := abs_sub_le (n : Rat) q (roundHalfEven q)
    rw [abs_sub_comm q] at triangle
    linarith

theorem roundHalfEven_le {q : Rat} {n : Int} (h : q ≤ n) : roundHalfEven q ≤ n := by
  by_contra above
  have step : (n : Rat) + 1 ≤ roundHalfEven q := by exact_mod_cast not_le.mp above
  have near := abs_roundHalfEven_sub_le q n
  rw [abs_of_nonneg (by linarith), abs_of_nonneg (by linarith)] at near
  linarith

theorem le_roundHalfEven {q : Rat} {n : Int} (h : n ≤ q) : n ≤ roundHalfEven q := by
  by_contra below
  have step : (roundHalfEven q : Rat) + 1 ≤ n := by exact_mod_cast not_le.mp below
  have near := abs_roundHalfEven_sub_le q n
  rw [abs_of_nonpos (by linarith), abs_of_nonpos (by linarith)] at near
  linarith

/-! ### The first binary digit -/

theorem two_zpow_pos (e : Int) : (0 : Rat) < 2 ^ e := zpow_pos (by norm_num) e

theorem two_zpow_le_iff {e f : Int} : (2 : Rat) ^ e ≤ 2 ^ f ↔ e ≤ f :=
  zpow_le_zpow_iff_right₀ (by norm_num)

theorem two_zpow_lt_iff {e f : Int} : (2 : Rat) ^ e < 2 ^ f ↔ e < f :=
  zpow_lt_zpow_iff_right₀ (by norm_num)

theorem two_zpow_add (e f : Int) : (2 : Rat) ^ (e + f) = 2 ^ e * 2 ^ f :=
  zpow_add₀ (by norm_num) e f

theorem two_pow_cast (k : Nat) : ((2 ^ k : Nat) : Rat) = 2 ^ (k : Int) := by
  rw [zpow_natCast]
  norm_cast

section Scaled

variable {n k : Nat} {e f : Int}

/-- At most `k` digits, scaled, stay below a power of two. -/
theorem mul_two_zpow_le (digits : n ≤ 2 ^ k) (h : k + e ≤ f) : (n : Rat) * 2 ^ e ≤ 2 ^ f := by
  calc (n : Rat) * 2 ^ e ≤ (2 ^ k : Nat) * 2 ^ e :=
        mul_le_mul_of_nonneg_right (by exact_mod_cast digits) (two_zpow_pos e).le
    _ = 2 ^ (k + e) := by rw [two_pow_cast, two_zpow_add]
    _ ≤ 2 ^ f := two_zpow_le_iff.mpr h

theorem mul_two_zpow_lt (digits : n < 2 ^ k) (h : k + e ≤ f) : (n : Rat) * 2 ^ e < 2 ^ f := by
  calc (n : Rat) * 2 ^ e < (2 ^ k : Nat) * 2 ^ e :=
        mul_lt_mul_of_pos_right (by exact_mod_cast digits) (two_zpow_pos e)
    _ = 2 ^ (k + e) := by rw [two_pow_cast, two_zpow_add]
    _ ≤ 2 ^ f := two_zpow_le_iff.mpr h

/-- More than `k` digits, scaled, reach a power of two. -/
theorem two_zpow_le_mul (digits : 2 ^ k ≤ n) (h : f ≤ k + e) : (2 : Rat) ^ f ≤ n * 2 ^ e := by
  calc (2 : Rat) ^ f ≤ 2 ^ (k + e) := two_zpow_le_iff.mpr h
    _ = (2 ^ k : Nat) * 2 ^ e := by rw [two_pow_cast, two_zpow_add]
    _ ≤ n * 2 ^ e := mul_le_mul_of_nonneg_right (by exact_mod_cast digits) (two_zpow_pos e).le

end Scaled

/-- The binade of a natural number, as rationals. -/
theorem log2_spec {n : Nat} (hn : n ≠ 0) :
    (2 : Rat) ^ (n.log2 : Int) ≤ n ∧ (n : Rat) < 2 ^ ((n.log2 : Int) + 1) := by
  constructor
  · rw [← two_pow_cast]
    exact_mod_cast Nat.log2_self_le hn
  · rw [show ((n.log2 : Int) + 1) = ((n.log2 + 1 : Nat) : Int) from rfl, ← two_pow_cast]
    exact_mod_cast Nat.lt_log2_self

/-- The place of the first binary digit is found exactly. -/
theorem leadingPlace_spec {q : Rat} (hq : 0 < q) :
    (2 : Rat) ^ leadingPlace q ≤ q ∧ q < 2 ^ (leadingPlace q + 1) := by
  have hnum : 0 < q.num := Rat.num_pos.mpr hq
  have hden : (0 : Rat) < q.den := by exact_mod_cast q.den_pos
  obtain ⟨numLow, numHigh⟩ := log2_spec (n := q.num.natAbs) (by omega)
  obtain ⟨denLow, denHigh⟩ := log2_spec q.den_ne_zero
  have value : q * q.den = q.num.natAbs := by
    rw [Rat.mul_den_eq_num, Nat.cast_natAbs, abs_of_pos hnum]
  set a : Int := ((q.num.natAbs.log2 : Nat) : Int)
  set b : Int := ((q.den.log2 : Nat) : Int)
  -- the digits of numerator and denominator leave only two places for the quotient
  have high : q < 2 ^ (a - b + 1) := by
    refine lt_of_mul_lt_mul_right ?_ hden.le
    calc q * q.den < 2 ^ (a + 1) := by rw [value]; exact numHigh
      _ = 2 ^ (a - b + 1) * 2 ^ b := by rw [← two_zpow_add]; congr 1; ring
      _ ≤ 2 ^ (a - b + 1) * q.den := mul_le_mul_of_nonneg_left denLow (two_zpow_pos _).le
  have low : (2 : Rat) ^ (a - b - 1) < q := by
    refine lt_of_mul_lt_mul_right ?_ hden.le
    calc (2 : Rat) ^ (a - b - 1) * q.den < 2 ^ (a - b - 1) * 2 ^ (b + 1) :=
          mul_lt_mul_of_pos_left denHigh (two_zpow_pos _)
      _ = 2 ^ a := by rw [← two_zpow_add]; congr 1; ring
      _ ≤ q * q.den := by rw [value]; exact numLow
  unfold leadingPlace
  dsimp only
  split
  · next fits => exact ⟨fits, high⟩
  · next misses => exact ⟨low.le, by rw [sub_add_cancel]; exact not_le.mp misses⟩

/-! ### Magnitudes on the number line -/

namespace Magnitude

theorem toRat_nonneg (m : Magnitude) : 0 ≤ m.toRat :=
  mul_nonneg (Nat.cast_nonneg _) (two_zpow_pos _).le

@[simp] theorem toRat_zero : zero.toRat = 0 := by simp [zero, toRat]

theorem toRat_eq_zero_iff {m : Magnitude} : m.toRat = 0 ↔ m.significand = 0 := by
  rw [toRat, mul_eq_zero, Nat.cast_eq_zero]
  exact or_iff_left (two_zpow_pos _).ne'

theorem exponent_ge (m : Magnitude) : -1074 ≤ m.exponent := by
  have h := m.canonical
  unfold IsCanonical at h
  omega

theorem toRat_lt (m : Magnitude) : m.toRat < 2 ^ (1024 : Int) := by
  have h := m.canonical
  unfold IsCanonical at h
  exact mul_two_zpow_lt (k := 53) (by omega) (by omega)

end Magnitude

/-- Parts that rounding produces: a carry into the 54th digit gives exactly `2 ^ 53`, and above the
smallest exponent the significand has all its digits. -/
structure IsRounded (significand : Nat) (exponent : Int) : Prop where
  carried : significand ≤ 2 ^ 53
  smallest : -1074 ≤ exponent
  full : exponent = -1074 ∨ 2 ^ 52 ≤ significand

namespace Double

theorem rank_ofParts_sign (negative : Bool) (significand : Nat) (exponent : Int) :
    (ofParts negative significand exponent).rank =
      signed negative (ofParts false significand exponent).rank := by
  unfold ofParts
  split
  · cases negative <;> rfl
  · split
    · cases negative <;> rfl
    · cases negative <;> rfl

/-- Rounded parts stand at their value, or with the infinities if that is farther out. -/
theorem rank_ofParts {significand : Nat} {exponent : Int} (h : IsRounded significand exponent) :
    (ofParts false significand exponent).rank =
      min ((significand : Rat) * 2 ^ exponent) (2 ^ (1024 : Int)) := by
  obtain ⟨carried, smallest, full⟩ := h
  unfold ofParts
  split
  · next fits =>
    exact (min_eq_left (Magnitude.toRat_lt ⟨_, _, fits⟩).le).symm
  · next misses =>
    unfold IsCanonical at misses
    split
    · next fits =>
      -- only a full carry fits in the next binade and not in its own
      have range := fits
      unfold IsCanonical at range
      have carry : significand = significand / 2 * 2 := by omega
      have value : (Magnitude.mk _ _ fits).toRat = significand * 2 ^ exponent := by
        conv_rhs => rw [carry]
        rw [Magnitude.toRat, two_zpow_add]
        push_cast
        ring
      show (Magnitude.mk _ _ fits).toRat = _
      rw [← value]
      exact (min_eq_left (Magnitude.toRat_lt _).le).symm
    · next misses' =>
      -- neither form fits, so the exponent is too large for any digits
      unfold IsCanonical at misses'
      refine (min_eq_right ?_).symm
      have far : (2 ^ 53 ≤ significand ∧ 971 ≤ exponent) ∨
          (2 ^ 52 ≤ significand ∧ 972 ≤ exponent) := by omega
      rcases far with ⟨digits, place⟩ | ⟨digits, place⟩
      · exact two_zpow_le_mul (k := 53) digits (by omega)
      · exact two_zpow_le_mul (k := 52) digits (by omega)

/-- The place at which a positive rational is rounded: that of its 53rd binary digit, or the last
place of any double. -/
def roundingPlace (q : Rat) : Int := max (leadingPlace q - 52) (-1074)

/-- The multiple of its rounding place that a rational is rounded to. -/
def onGrid (q : Rat) : Rat := roundHalfEven (q / 2 ^ roundingPlace q) * 2 ^ roundingPlace q

section Positive

variable {q : Rat}

theorem nearest_of_pos (hq : 0 < q) (negative : Bool) :
    nearest negative q =
      ofParts negative (roundHalfEven (q / 2 ^ roundingPlace q)).toNat (roundingPlace q) := by
  rw [nearest, if_neg hq.ne']
  rfl

theorem roundHalfEven_place_nonneg (hq : 0 < q) :
    0 ≤ roundHalfEven (q / 2 ^ roundingPlace q) := by
  refine le_roundHalfEven ?_
  push_cast
  exact div_nonneg hq.le (two_zpow_pos _).le

theorem isRounded_of_pos (hq : 0 < q) :
    IsRounded (roundHalfEven (q / 2 ^ roundingPlace q)).toNat (roundingPlace q) := by
  obtain ⟨low, high⟩ := leadingPlace_spec hq
  have hplace : (2 : Rat) ^ roundingPlace q > 0 := two_zpow_pos _
  refine ⟨?_, le_max_right _ _, ?_⟩
  · -- below the next binade there are at most `2 ^ 53` multiples of the place
    have bound : roundHalfEven (q / 2 ^ roundingPlace q) ≤ ((2 ^ 53 : Nat) : Int) := by
      refine roundHalfEven_le ?_
      rw [Int.cast_natCast, two_pow_cast, div_le_iff₀ hplace, ← two_zpow_add]
      refine high.le.trans (two_zpow_le_iff.mpr ?_)
      unfold roundingPlace
      push_cast
      omega
    omega
  · by_cases smallest : roundingPlace q = -1074
    · exact Or.inl smallest
    · right
      -- the first digit of `q` is the first of the significand
      have bound : ((2 ^ 52 : Nat) : Int) ≤ roundHalfEven (q / 2 ^ roundingPlace q) := by
        refine le_roundHalfEven ?_
        rw [Int.cast_natCast, two_pow_cast, le_div_iff₀ hplace, ← two_zpow_add]
        refine le_trans (two_zpow_le_iff.mpr ?_) low
        unfold roundingPlace at *
        push_cast
        omega
      omega

theorem rank_nearest_of_pos (hq : 0 < q) :
    (nearest false q).rank = min (onGrid q) (2 ^ (1024 : Int)) := by
  rw [nearest_of_pos hq, rank_ofParts (isRounded_of_pos hq), onGrid]
  congr 2
  exact_mod_cast Int.toNat_of_nonneg (roundHalfEven_place_nonneg hq)

/-- No multiple of the rounding place is nearer. -/
theorem abs_onGrid_sub_le (q : Rat) (k : Int) :
    |onGrid q - q| ≤ |(k : Rat) * 2 ^ roundingPlace q - q| := by
  have hplace : (2 : Rat) ^ roundingPlace q > 0 := two_zpow_pos _
  have scale : ∀ r : Rat, |r * 2 ^ roundingPlace q - q| =
      |r - q / 2 ^ roundingPlace q| * 2 ^ roundingPlace q := by
    intro r
    rw [← abs_of_pos hplace, ← abs_mul, abs_of_pos hplace, sub_mul, div_mul_cancel₀ _ hplace.ne']
  rw [onGrid, scale, scale]
  exact mul_le_mul_of_nonneg_right (abs_roundHalfEven_sub_le _ k) hplace.le

/-- No magnitude is nearer, those between the multiples of the rounding place included. -/
theorem abs_onGrid_sub_le_magnitude (hq : 0 < q) (m : Magnitude) :
    |onGrid q - q| ≤ |m.toRat - q| := by
  obtain ⟨low, -⟩ := leadingPlace_spec hq
  by_cases coarse : roundingPlace q ≤ m.exponent
  · -- the magnitude is on the grid itself
    obtain ⟨shift, hshift⟩ := Int.le.dest coarse
    have value : m.toRat = ((m.significand * 2 ^ shift : Nat) : Int) * 2 ^ roundingPlace q := by
      rw [Magnitude.toRat, ← hshift, two_zpow_add, Int.cast_natCast, Nat.cast_mul, two_pow_cast]
      ring
    rw [value]
    exact abs_onGrid_sub_le q _
  · -- it is between two multiples, hence below the first digit of `q`, which is one
    have smallest := m.exponent_ge
    have place : roundingPlace q = leadingPlace q - 52 := by
      unfold roundingPlace at *
      omega
    have below : m.toRat ≤ 2 ^ leadingPlace q := by
      have h := m.canonical
      unfold IsCanonical at h
      exact mul_two_zpow_le (k := 53) (by omega) (by omega)
    have first : ((2 ^ 52 : Nat) : Int) * (2 : Rat) ^ roundingPlace q = 2 ^ leadingPlace q := by
      rw [Int.cast_natCast, two_pow_cast, ← two_zpow_add, place]
      congr 1
      push_cast
      ring
    calc |onGrid q - q| ≤ |2 ^ leadingPlace q - q| := first ▸ abs_onGrid_sub_le q _
      _ ≤ |m.toRat - q| := by
        rw [abs_of_nonpos (by linarith), abs_of_nonpos (by linarith)]
        linarith

theorem roundingPlace_le (hq : 0 < q) (inRange : q < 2 ^ (1024 : Int)) : roundingPlace q ≤ 971 := by
  have low := (leadingPlace_spec hq).1
  have place : leadingPlace q < 1024 := two_zpow_lt_iff.mp (low.trans_lt inRange)
  unfold roundingPlace
  omega

theorem onGrid_le (hq : 0 < q) (inRange : q < 2 ^ (1024 : Int)) : onGrid q ≤ 2 ^ (1024 : Int) := by
  have parts := isRounded_of_pos hq
  have place := roundingPlace_le hq inRange
  rw [onGrid, ← Int.toNat_of_nonneg (roundHalfEven_place_nonneg hq), Int.cast_natCast]
  exact mul_two_zpow_le parts.carried (by push_cast; omega)

theorem le_onGrid (outOfRange : 2 ^ (1024 : Int) ≤ q) : 2 ^ (1024 : Int) ≤ onGrid q := by
  have hq : 0 < q := (two_zpow_pos _).trans_le outOfRange
  have parts := isRounded_of_pos hq
  have high := (leadingPlace_spec hq).2
  have place : 1024 < leadingPlace q + 1 := two_zpow_lt_iff.mp (outOfRange.trans_lt high)
  have digits : 2 ^ 52 ≤ (roundHalfEven (q / 2 ^ roundingPlace q)).toNat := by
    refine parts.full.resolve_left ?_
    unfold roundingPlace
    omega
  rw [onGrid, ← Int.toNat_of_nonneg (roundHalfEven_place_nonneg hq), Int.cast_natCast]
  refine two_zpow_le_mul digits ?_
  unfold roundingPlace
  push_cast
  omega

end Positive

/-! ### The nearest double -/

theorem rank_neg (x : Double) : (-x).rank = -x.rank := by
  cases x with
  | nan => exact neg_zero.symm
  | infinity negative =>
    cases negative with
    | true => exact (Rat.neg_neg _).symm
    | false => rfl
  | finite negative m =>
    cases negative with
    | true => exact (Rat.neg_neg _).symm
    | false => rfl

/-- A double stands at or below zero, at a magnitude, or where the infinities are. -/
theorem rank_cases (x : Double) :
    x.rank ≤ 0 ∨ (∃ m : Magnitude, x.rank = m.toRat) ∨ x.rank = 2 ^ (1024 : Int) := by
  cases x with
  | nan => exact Or.inl le_rfl
  | infinity negative =>
    cases negative with
    | true => exact Or.inl (neg_nonpos.mpr (two_zpow_pos _).le)
    | false => exact Or.inr (Or.inr rfl)
  | finite negative m =>
    cases negative with
    | true => exact Or.inl (neg_nonpos.mpr m.toRat_nonneg)
    | false => exact Or.inr (Or.inl ⟨m, rfl⟩)

theorem rank_le_limit (x : Double) : x.rank ≤ 2 ^ (1024 : Int) := by
  rcases rank_cases x with h | ⟨m, h⟩ | h
  · exact h.trans (two_zpow_pos _).le
  · rw [h]
    exact m.toRat_lt.le
  · exact h.le

theorem abs_rank_nearest_sub_le {q : Rat} (hq : 0 < q) (x : Double) :
    |(nearest false q).rank - q| ≤ |x.rank - q| := by
  rw [rank_nearest_of_pos hq]
  by_cases inRange : q < 2 ^ (1024 : Int)
  · rw [min_eq_left (onGrid_le hq inRange)]
    rcases rank_cases x with h | ⟨m, h⟩ | h
    · -- zero is nearer to `q` than anything below it
      refine (abs_onGrid_sub_le_magnitude hq .zero).trans ?_
      rw [Magnitude.toRat_zero, abs_of_nonpos (by linarith), abs_of_nonpos (by linarith)]
      linarith
    · rw [h]
      exact abs_onGrid_sub_le_magnitude hq m
    · -- the place of the infinities is a multiple of the rounding place, too
      have place := roundingPlace_le hq inRange
      obtain ⟨shift, hshift⟩ := Int.le.dest (show roundingPlace q ≤ 1024 by omega)
      have value : x.rank = ((2 ^ shift : Nat) : Int) * 2 ^ roundingPlace q := by
        rw [h, ← hshift, two_zpow_add, Int.cast_natCast, two_pow_cast, mul_comm]
      rw [value]
      exact abs_onGrid_sub_le q _
  · -- out of range the infinity is the last place before `q`
    have outOfRange := not_lt.mp inRange
    rw [min_eq_right (le_onGrid outOfRange)]
    have bound := rank_le_limit x
    rw [abs_of_nonpos (by linarith), abs_of_nonpos (by linarith)]
    linarith

/-- The place on the number line to which a rational is rounded. -/
def nearestRank (q : Rat) : Rat := (ofRat false q).rank

theorem rank_nearest_sign (negative : Bool) (q : Rat) :
    (nearest negative q).rank = signed negative (nearest false q).rank := by
  unfold nearest
  split
  · cases negative <;> simp [zero, rank, signed]
  · exact rank_ofParts_sign _ _ _

@[simp] theorem nearestRank_zero : nearestRank 0 = 0 := by
  simp [nearestRank, ofRat, zero, rank, signed]

theorem rank_ofRat (negativeZero : Bool) (q : Rat) :
    (ofRat negativeZero q).rank = nearestRank q := by
  unfold nearestRank ofRat
  split
  · cases negativeZero <;> simp [zero, rank, signed]
  · rfl

theorem rank_nearest (negative : Bool) {q : Rat} (hq : 0 ≤ q) :
    (nearest negative q).rank = nearestRank (signed negative q) := by
  rcases hq.eq_or_lt with rfl | hq
  · cases negative <;> simp [nearest, zero, rank, signed]
  · rw [rank_nearest_sign]
    cases negative with
    | false => simp [signed, nearestRank, ofRat, hq.ne', not_lt.mpr hq.le]
    | true =>
      simp [signed, nearestRank, ofRat, hq.ne', hq, rank_nearest_sign true q]

theorem nearestRank_neg (q : Rat) : nearestRank (-q) = -nearestRank q := by
  have nonneg : ∀ r : Rat, 0 ≤ r → nearestRank (-r) = -nearestRank r := by
    intro r hr
    have plus := rank_nearest false hr
    have minus := rank_nearest true hr
    rw [rank_nearest_sign, plus] at minus
    exact minus.symm
  rcases le_total 0 q with hq | hq
  · exact nonneg q hq
  · have h := nonneg (-q) (neg_nonneg.mpr hq)
    rw [Rat.neg_neg] at h
    rw [h, Rat.neg_neg]

/-- **No double is nearer** to a rational than the one it is rounded to. -/
theorem abs_nearestRank_sub_le (q : Rat) (x : Double) : |nearestRank q - q| ≤ |x.rank - q| := by
  rcases lt_trichotomy q 0 with hq | rfl | hq
  · -- mirrored at zero
    have near := abs_rank_nearest_sub_le (neg_pos.mpr hq) (-x)
    rw [rank_nearest false (neg_nonneg.mpr hq.le), signed, if_neg (by simp), nearestRank_neg,
      rank_neg, ← abs_neg, ← abs_neg (-x.rank - -q)] at near
    convert near using 2 <;> ring
  · rw [nearestRank_zero, sub_zero, abs_zero]
    exact abs_nonneg _
  · have near := abs_rank_nearest_sub_le hq x
    rwa [rank_nearest false hq.le] at near

/-- A value that is not nearer to the lower of two places is not below their middle. -/
theorem add_le_two_mul_of_nearer {a b q : Rat} (h : a < b) (near : |b - q| ≤ |a - q|) :
    a + b ≤ 2 * q := by
  by_contra below
  have closer : |a - q| < b - q := abs_lt.mpr ⟨by linarith, by linarith⟩
  have self := le_abs_self (b - q)
  linarith

theorem two_mul_le_add_of_nearer {a b q : Rat} (h : a < b) (near : |a - q| ≤ |b - q|) :
    2 * q ≤ a + b := by
  by_contra above
  have closer : |b - q| < q - a := abs_lt.mpr ⟨by linarith, by linarith⟩
  have self := neg_le_abs (a - q)
  linarith

/-- Rounding keeps the order. -/
theorem nearestRank_mono {q r : Rat} (h : q ≤ r) : nearestRank q ≤ nearestRank r := by
  rcases h.eq_or_lt with rfl | h
  · exact le_rfl
  · by_contra crossed
    have crossed := not_le.mp crossed
    -- `q` lies above the middle of the two places and `r` below it
    have low := add_le_two_mul_of_nearer crossed (abs_nearestRank_sub_le q (ofRat false r))
    have high := two_mul_le_add_of_nearer crossed (abs_nearestRank_sub_le r (ofRat false q))
    linarith

/-- Rounding leaves what a double stands for unchanged. -/
@[simp] theorem nearestRank_rank (x : Double) : nearestRank x.rank = x.rank := by
  have near := abs_nearestRank_sub_le x.rank x
  rw [sub_self, abs_zero] at near
  exact sub_eq_zero.mp (abs_nonpos_iff.mp near)

end Double

end ExamAdmission
