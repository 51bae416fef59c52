/-
Rounding keeps the order.

Rounding to whole numbers lifts a monotone function.  Rounding to decimal places goes through the
written digits twice, and leaves out both ways for a value whose shifted form is out of range; what
joins the two parts of its domain is that a number which stays below such a shifted form also stays
below the value when the point is moved back:

* `Double.shiftPoint_le` — moving the point keeps the order;
* `Double.shiftPoint_neg_le` and `Double.le_shiftPoint_neg` — moving it back does not overtake;
* `Double.roundDecimals_le` — rounding to decimal places keeps the order;
* `Rounding.apply_le_apply` — **every rounding keeps the order**, the infinities included;
* `Rounding.floor_below_identity`, `Rounding.identity_below_ceil` — rounding down gives no larger
  values than no rounding, and that no larger ones than rounding up.
-/
import ExamAdmission.Rounding
import ExamAdmission.Proofs.Double.Written

namespace ExamAdmission

namespace Double

variable {x y w : Double}

/-! ### Whole numbers -/

theorem ceil_mono (q r : Rat) (h : q ≤ r) : q.ceil ≤ r.ceil := by
  rw [Rat.ceil_eq_neg_floor_neg, Rat.ceil_eq_neg_floor_neg]
  exact neg_le_neg (Rat.floor_monotone (neg_le_neg h))

theorem roundHalfAway_mono (q r : Rat) (h : q ≤ r) : roundHalfAway q ≤ roundHalfAway r := by
  unfold roundHalfAway
  split
  · next hq =>
    split
    · exact neg_le_neg (Rat.floor_monotone (by linarith))
    · next hr =>
      -- the sign of the result is that of the argument
      have left : 0 ≤ (-q + 1 / 2).floor := Rat.le_floor_iff.mpr (by push_cast; linarith)
      have right : 0 ≤ (r + 1 / 2).floor := Rat.le_floor_iff.mpr (by push_cast; linarith)
      omega
  · next hq =>
    rw [if_neg (by linarith)]
    exact Rat.floor_monotone (by linarith)

theorem roundHalfAway_intCast (n : Int) : roundHalfAway n = n := by
  have half : ∀ k : Int, ((k : Rat) + 1 / 2).floor = k := by
    intro k
    refine le_antisymm ?_ (Rat.le_floor_iff.mpr (by linarith))
    have below : ((k : Rat) + 1 / 2).floor < k + 1 :=
      Rat.floor_lt_iff.mpr (by push_cast; linarith)
    omega
  unfold roundHalfAway
  split
  · rw [← Int.cast_neg, half]
    ring
  · exact half n

/-- The greatest magnitude. -/
def greatest : Magnitude := ⟨2 ^ 53 - 1, 971, by decide⟩

theorem rank_le_greatest (h : x.isFinite = true) : x.rank ≤ greatest.toRat := by
  obtain ⟨negative, m, rfl⟩ := exists_of_isFinite h
  have bound : m.toRat ≤ greatest.toRat := by
    have canonical := m.canonical
    unfold IsCanonical at canonical
    refine mul_le_mul ?_ (two_zpow_le_iff.mpr ?_) (two_zpow_pos _).le (Nat.cast_nonneg _)
    · exact_mod_cast Nat.le_pred_of_lt canonical.1
    · show m.exponent ≤ 971
      omega
  exact (le_abs_self _).trans ((abs_rank_finite negative m).trans_le bound)

/-- A magnitude without digits behind the point is a whole number. -/
theorem exists_int_eq_toRat {m : Magnitude} (whole : 0 ≤ m.exponent) : ∃ n : Int, m.toRat = n := by
  obtain ⟨e, he⟩ := Int.eq_ofNat_of_zero_le whole
  refine ⟨(m.significand : Int) * 2 ^ e, ?_⟩
  rw [Magnitude.toRat, he, zpow_natCast]
  push_cast
  rfl

/-- Rounding a finite double to a whole number gives a finite one. -/
theorem isFinite_mapInt {f : Rat → Int} (hf : ∀ q r, q ≤ r → f q ≤ f r) (fixed : ∀ n : Int, f n = n)
    (h : x.isFinite = true) : (x.mapInt f).isFinite = true := by
  obtain ⟨top, htop⟩ := exists_int_eq_toRat (m := greatest) (by decide)
  -- the greatest magnitude is whole, hence stays where it is and bounds the result
  have high : x.rank ≤ top := htop ▸ rank_le_greatest h
  have low : ((-top : Int) : Rat) ≤ x.rank := by
    have negated : (-x).isFinite = true := by
      obtain ⟨negative, m, rfl⟩ := exists_of_isFinite h
      rfl
    have bound := rank_le_greatest negated
    rw [rank_neg, htop] at bound
    push_cast
    linarith
  have highInt : f x.rank ≤ top := (hf _ _ high).trans (fixed top).le
  have lowInt : -top ≤ f x.rank := (fixed (-top)).ge.trans (hf _ _ low)
  have place : (x.mapInt f).rank = nearestRank (f x.rank) := by
    obtain ⟨negative, m, rfl⟩ := exists_of_isFinite h
    exact (lifts_mapInt f).rank negative m
  have top_fixed : nearestRank (top : Rat) = top := htop ▸ greatest.nearestRank_toRat
  refine isFinite_of_abs_rank_lt ((lifts_mapInt f).apply_ne_nan (ne_nan_of_isFinite h)) ?_
  refine lt_of_le_of_lt ?_ greatest.toRat_lt
  rw [place, abs_le, htop]
  constructor
  · rw [← top_fixed, ← nearestRank_neg]
    exact nearestRank_mono (by exact_mod_cast lowInt)
  · rw [← top_fixed]
    exact nearestRank_mono (by exact_mod_cast highInt)

/-! ### Moving the decimal point -/

theorem rank_shiftPoint (places : Int) (h : x.isFinite = true) :
    (x.shiftPoint places).rank = nearestRank (x.written * 10 ^ places) := by
  obtain ⟨negative, m, rfl⟩ := exists_of_isFinite h
  rw [shiftPoint, Decimal.rank_toDouble, Decimal.toRat_shift, written]
  cases negative with
  | false => rfl
  | true => rw [signed, signed, if_pos rfl, if_pos rfl, neg_mul]

theorem shiftPoint_ne_nan (places : Int) (h : x ≠ nan) : x.shiftPoint places ≠ nan := by
  cases x with
  | nan => exact absurd rfl h
  | infinity negative => exact Double.noConfusion
  | finite negative m => exact Decimal.toDouble_ne_nan _ _

theorem shiftPoint_infinity (places : Int) (negative : Bool) :
    (infinity negative).shiftPoint places = infinity negative := rfl

/-- What is not finite above a finite double is the positive infinity. -/
theorem eq_infinity_of_finite_le (finiteX : x.isFinite = true) (infiniteY : ¬ y.isFinite = true)
    (h : x ≤ y) : y = infinity false := by
  obtain ⟨negative, m, rfl⟩ := exists_of_isFinite finiteX
  obtain ⟨sign, rfl⟩ := exists_eq_infinity h.2.1 infiniteY
  cases sign with
  | false => rfl
  | true => exact Double.noConfusion (eq_infinity_of_ge h)

/-- What is not finite below a finite double is the negative infinity. -/
theorem eq_infinity_of_le_finite (infiniteX : ¬ x.isFinite = true) (finiteY : y.isFinite = true)
    (h : x ≤ y) : x = infinity true := by
  obtain ⟨negative, m, rfl⟩ := exists_of_isFinite finiteY
  obtain ⟨sign, rfl⟩ := exists_eq_infinity h.1 infiniteX
  cases sign with
  | false => exact Double.noConfusion (eq_infinity_of_le h)
  | true => rfl

/-- Moving the decimal point keeps the order. -/
theorem shiftPoint_le (places : Int) (h : x ≤ y) : x.shiftPoint places ≤ y.shiftPoint places := by
  have hx := shiftPoint_ne_nan places h.1
  have hy := shiftPoint_ne_nan places h.2.1
  by_cases finiteX : x.isFinite = true
  · by_cases finiteY : y.isFinite = true
    · refine ⟨hx, hy, ?_⟩
      rw [rank_shiftPoint places finiteX, rank_shiftPoint places finiteY]
      exact nearestRank_mono (mul_le_mul_of_nonneg_right
        (written_le_written finiteX finiteY h.2.2) (ten_zpow_pos _).le)
    · rw [eq_infinity_of_finite_le finiteX finiteY h, shiftPoint_infinity]
      exact le_infinity hx
  · obtain ⟨sign, rfl⟩ := exists_eq_infinity h.1 finiteX
    cases sign with
    | false => rw [eq_infinity_of_le h]; exact Double.le_refl hx
    | true => exact infinity_le hy

/-- A double below the shifted form of another stays below when the point is moved back. -/
theorem shiftPoint_neg_le (places : Int) (finiteW : w.isFinite = true) (hy : y ≠ nan)
    (h : w < y.shiftPoint places) : w.shiftPoint (-places) ≤ y := by
  have hw := shiftPoint_ne_nan (-places) (ne_nan_of_isFinite finiteW)
  by_cases finiteY : y.isFinite = true
  · -- rounding `y` once shifted did not pass `w`, so the written digits are in the same order
    have below : w.written < y.written * 10 ^ places := by
      by_contra above
      have crossed := nearestRank_mono (not_lt.mp above)
      rw [nearestRank_written finiteW, ← rank_shiftPoint places finiteY] at crossed
      exact absurd h.2.2 (not_lt.mpr crossed)
    refine ⟨hw, hy, ?_⟩
    rw [rank_shiftPoint (-places) finiteW, ← nearestRank_written finiteY]
    refine nearestRank_mono ?_
    rw [zpow_neg, ← div_eq_mul_inv]
    exact (div_le_iff₀ (ten_zpow_pos places)).mpr below.le
  · obtain ⟨sign, rfl⟩ := exists_eq_infinity hy finiteY
    rw [eq_infinity_of_finite_le finiteW finiteY ⟨h.1, h.2.1, h.2.2.le⟩]
    exact le_infinity hw

/-- A double above the shifted form of another stays above when the point is moved back. -/
theorem le_shiftPoint_neg (places : Int) (finiteW : w.isFinite = true) (hx : x ≠ nan)
    (h : x.shiftPoint places < w) : x ≤ w.shiftPoint (-places) := by
  have hw := shiftPoint_ne_nan (-places) (ne_nan_of_isFinite finiteW)
  by_cases finiteX : x.isFinite = true
  · have above : x.written * 10 ^ places < w.written := by
      by_contra below
      have crossed := nearestRank_mono (not_lt.mp below)
      rw [nearestRank_written finiteW, ← rank_shiftPoint places finiteX] at crossed
      exact absurd h.2.2 (not_lt.mpr crossed)
    refine ⟨hx, hw, ?_⟩
    rw [rank_shiftPoint (-places) finiteW, ← nearestRank_written finiteX]
    refine nearestRank_mono ?_
    rw [zpow_neg, ← div_eq_mul_inv]
    exact (le_div_iff₀ (ten_zpow_pos places)).mpr above.le
  · obtain ⟨sign, rfl⟩ := exists_eq_infinity hx finiteX
    rw [eq_infinity_of_le_finite finiteX finiteW ⟨h.1, h.2.1, h.2.2.le⟩]
    exact infinity_le hw

/-! ### The roundings -/

theorem isFinite_round (h : x.isFinite = true) : x.round.isFinite = true :=
  isFinite_mapInt roundHalfAway_mono roundHalfAway_intCast h

theorem lt_infinity (h : x.isFinite = true) : x < infinity false := by
  obtain ⟨negative, m, rfl⟩ := exists_of_isFinite h
  exact ⟨Double.noConfusion, Double.noConfusion, rank_lt_limit negative m⟩

theorem infinity_lt (h : x.isFinite = true) : infinity true < x := by
  obtain ⟨negative, m, rfl⟩ := exists_of_isFinite h
  exact ⟨Double.noConfusion, Double.noConfusion, neg_limit_lt_rank negative m⟩

/-- Rounding to decimal places keeps the order. -/
theorem roundDecimals_le (places : Int) (h : x ≤ y) :
    x.roundDecimals places ≤ y.roundDecimals places := by
  have shifted := shiftPoint_le places h
  unfold roundDecimals
  by_cases finiteX : (x.shiftPoint places).isFinite = true
  · by_cases finiteY : (y.shiftPoint places).isFinite = true
    · rw [if_pos finiteX, if_pos finiteY]
      exact shiftPoint_le _ (mapInt_le_mapInt roundHalfAway_mono shifted)
    · -- `y` is left as it is, being out of range once shifted
      rw [if_pos finiteX, if_neg finiteY]
      refine shiftPoint_neg_le places (isFinite_round finiteX) h.2.1 ?_
      rw [eq_infinity_of_finite_le finiteX finiteY shifted]
      exact lt_infinity (isFinite_round finiteX)
  · by_cases finiteY : (y.shiftPoint places).isFinite = true
    · rw [if_neg finiteX, if_pos finiteY]
      refine le_shiftPoint_neg places (isFinite_round finiteY) h.1 ?_
      rw [eq_infinity_of_le_finite finiteX finiteY shifted]
      exact infinity_lt (isFinite_round finiteY)
    · rw [if_neg finiteX, if_neg finiteY]
      exact h

end Double

/-- **Every rounding keeps the order.** -/
theorem Rounding.apply_le_apply (rounding : Rounding) {x y : Double} (h : x ≤ y) :
    rounding.apply x ≤ rounding.apply y := by
  cases rounding with
  | identity => exact h
  | decimals places => exact Double.roundDecimals_le places.toInt h
  | floor => exact Double.mapInt_le_mapInt (fun _ _ => Rat.floor_monotone) h
  | ceil => exact Double.mapInt_le_mapInt Double.ceil_mono h

/-! ### Rounding down and rounding up -/

namespace Double

variable {x : Double}

/-- Rounding to a whole number that is no greater gives no more than the value itself. -/
theorem mapInt_le_self {f : Rat → Int} (below : ∀ q, (f q : Rat) ≤ q) (h : x ≠ nan) :
    x.mapInt f ≤ x := by
  cases x with
  | nan => exact absurd rfl h
  | infinity negative => exact Double.le_refl h
  | finite negative m =>
    refine ⟨(lifts_mapInt f).apply_ne_nan h, h, ?_⟩
    rw [(lifts_mapInt f).rank]
    exact (nearestRank_mono (below _)).trans_eq (nearestRank_rank _)

/-- Rounding to a whole number that is no smaller gives no less than the value itself. -/
theorem le_mapInt_self {f : Rat → Int} (above : ∀ q, q ≤ (f q : Rat)) (h : x ≠ nan) :
    x ≤ x.mapInt f := by
  cases x with
  | nan => exact absurd rfl h
  | infinity negative => exact Double.le_refl h
  | finite negative m =>
    refine ⟨h, (lifts_mapInt f).apply_ne_nan h, ?_⟩
    rw [(lifts_mapInt f).rank]
    exact (nearestRank_rank _).symm.trans_le (nearestRank_mono (above _))

end Double

namespace Rounding

/-- One rounding gives no larger values than another. -/
def Below (lower upper : Rounding) : Prop :=
  ∀ x : Double, x ≠ .nan → lower.apply x ≤ upper.apply x

theorem floor_below_identity : Below .floor .identity := fun _ h =>
  Double.mapInt_le_self (fun _ => Rat.floor_le _) h

theorem identity_below_ceil : Below .identity .ceil := fun _ h =>
  Double.le_mapInt_self (fun _ => Rat.le_ceil) h

/-- A value that is no number stays one. -/
theorem apply_nan (rounding : Rounding) : rounding.apply .nan = .nan := by
  cases rounding with
  | identity => rfl
  | decimals places => rfl
  | floor => rfl
  | ceil => rfl

namespace Below

variable {lower upper : Rounding} (below : lower.Below upper) {x y : Double}
include below

/-- What reaches a mark when rounded lower reaches it when rounded higher. -/
theorem le_apply (reached : y ≤ lower.apply x) : y ≤ upper.apply x := by
  have defined : x ≠ .nan := fun h => reached.2.1 (h ▸ lower.apply_nan)
  exact Double.le_trans reached (below x defined)

/-- What stays below a mark when rounded higher stays below it when rounded lower. -/
theorem apply_lt (missed : upper.apply x < y) : lower.apply x < y := by
  have defined : x ≠ .nan := fun h => missed.1 (h ▸ upper.apply_nan)
  exact Double.lt_of_le_of_lt (below x defined) missed

/-- What meets a mark that is rounded higher meets the mark that is rounded lower. -/
theorem apply_le (met : upper.apply x ≤ y) : lower.apply x ≤ y := by
  have defined : x ≠ .nan := fun h => met.1 (h ▸ upper.apply_nan)
  exact Double.le_trans (below x defined) met

end Below

end Rounding

end ExamAdmission
