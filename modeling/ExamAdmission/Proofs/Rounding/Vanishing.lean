/-
What is rounded to zero.

Rounding up takes nothing to zero that is not zero, rounding down what is below one, and rounding to
decimal places what is less than half a unit of the last place.  For the last of these the point has
to be moved back without loss: what is not rounded to zero there is half of the value at least, and
half of the smallest value that is written is still read as a double above zero.

* `Double.le_nearestRank_of_half_lt` — more than half of the smallest step up to the next double is
  rounded up;
* `Rounding.apply_le_zero_iff` — **which values that are not below zero are rounded to zero**.
-/
import ExamAdmission.Proofs.Rounding.Text
import ExamAdmission.Proofs.Rounding.Written
import ExamAdmission.Proofs.Percent

namespace ExamAdmission

namespace Double

variable {x y : Double} {q : Rat} {places : Int}

/-! ### The smallest doubles -/

/-- The distance of the smallest doubles. -/
def smallestStep : Rat := 2 ^ (-1074 : Int)

theorem smallestStep_pos : 0 < smallestStep := two_zpow_pos _

theorem nearestRank_smallestSteps {n : Nat} (few : n ≤ 2 ^ 53) :
    nearestRank (n * smallestStep) = n * smallestStep :=
  nearestRank_of_digits few (by decide) (mul_two_zpow_le (k := 53) few (by decide))

/-- Among the smallest doubles, what is more than half a step above one of them is rounded up. -/
theorem le_nearestRank_of_half_lt {n : Nat} (few : n < 2 ^ 53)
    (above : ((n : Rat) + 1 / 2) * smallestStep < q) :
    (n + 1 : Nat) * smallestStep ≤ nearestRank q := by
  have step := smallestStep_pos
  have next := nearestRank_smallestSteps (n := n + 1) few
  rcases le_or_gt ((n + 1 : Nat) * smallestStep) q with beyond | between
  · exact next.symm.trans_le (nearestRank_mono beyond)
  · have nonneg : 0 ≤ q := (mul_nonneg (by positivity) step.le).trans above.le
    have finite : (ofRat false q).isFinite = true := by
      refine isFinite_of_abs_rank_lt (ofRat_ne_nan _ _) ?_
      rw [rank_ofRat, abs_of_nonneg (nearestRank_nonneg nonneg)]
      refine ((nearestRank_mono between.le).trans_eq next).trans_lt ?_
      have bound : ((n + 1 : Nat) : Rat) * smallestStep ≤ 2 ^ (0 : Int) :=
        mul_two_zpow_le (k := 53) few (by decide)
      exact bound.trans_lt (two_zpow_lt_iff.mpr (by decide))
    have rank : (ofRat false q).rank = nearestRank q := rank_ofRat _ _
    obtain ⟨k, hk⟩ := exists_multiple_of_nonneg finite (rank ▸ nearestRank_nonneg nonneg)
    rw [rank] at hk
    -- the double above is nearer than the one below, or any other below that
    have near := abs_nearestRank_sub_le q (ofRat false ((n + 1 : Nat) * smallestStep))
    rw [rank_ofRat, next, abs_of_nonneg (sub_nonneg.mpr between.le)] at near
    have low := neg_abs_le (nearestRank q - q)
    have more : (n : Rat) * smallestStep < k * smallestStep := by
      rw [show (k : Rat) * smallestStep = nearestRank q from hk.symm]
      push_cast at near
      linarith
    have least : n + 1 ≤ k := by exact_mod_cast lt_of_mul_lt_mul_right more step.le
    rw [hk]
    exact mul_le_mul_of_nonneg_right (by exact_mod_cast least) step.le

/-- More than half of the smallest double is not rounded to zero. -/
theorem nearestRank_pos (above : 1 / 2 * smallestStep < q) : 0 < nearestRank q := by
  have least := le_nearestRank_of_half_lt (n := 0) (q := q) (by decide)
    (by rwa [Nat.cast_zero, zero_add])
  exact (mul_pos (by positivity) smallestStep_pos).trans_le least

/-- What is written for a positive double is the smallest such number at least. -/
theorem smallest_le_written (finite : x.isFinite = true) (pos : 0 < x.rank) :
    5 * 10 ^ (-324 : Int) ≤ x.written := by
  set least : Double := .finite false ⟨1, -1074, by decide⟩
  have digits : least.written = 5 * 10 ^ (-324 : Int) := by decide +kernel
  rw [← digits]
  refine written_le_written rfl finite ?_
  have value : least.rank = smallestStep := by
    show ((1 : Nat) : Rat) * smallestStep = _
    rw [Nat.cast_one, one_mul]
  rw [value]
  exact smallest_le_rank pos

/-! ### Rounding to zero -/

theorem le_zero_iff (nonneg : 0 ≤ x) : x ≤ 0 ↔ x.rank = 0 := by
  have low := nonneg.2.2
  rw [rank_ofNat_zero] at low
  rw [le_def, rank_ofNat_zero]
  exact ⟨fun h => le_antisymm h.2.2 low, fun h => ⟨nonneg.2.1, nonneg.1, h.le⟩⟩

theorem floor_le_zero_iff (nonneg : 0 ≤ x) : x.floor ≤ 0 ↔ x < 1 := by
  constructor
  · intro below
    by_contra reached
    have one : (1 : Double) ≤ x :=
      ⟨ofNat_ne_nan 1, nonneg.2.1, not_lt.mp fun h => reached ⟨nonneg.2.1, ofNat_ne_nan 1, h⟩⟩
    have floored := Rounding.floor.apply_le_apply one
    exact absurd (Double.le_trans floored below) (by decide +kernel)
  · intro below
    have rank_one : (1 : Double).rank = 1 := rank_ofNat (n := 1) (by decide)
    have low := nonneg.2.2
    have high := below.2.2
    rw [rank_ofNat_zero] at low
    rw [rank_one] at high
    have finite : x.isFinite = true := by
      refine isFinite_of_abs_rank_lt nonneg.2.1 ?_
      rw [abs_of_nonneg low]
      exact high.trans (one_lt_zpow₀ (by norm_num) (by decide))
    have whole : x.rank.floor = 0 := by
      refine le_antisymm ?_ (Rat.le_floor_iff.mpr (by simpa using low))
      exact Int.lt_add_one_iff.mp (Rat.floor_lt_iff.mpr (by simpa using high))
    have lifted := lifts_mapInt Rat.floor
    refine ⟨lifted.apply_ne_nan nonneg.2.1, nonneg.1, ?_⟩
    rw [show x.floor.rank = _ from lifted.rank_apply finite, whole, Int.cast_zero, nearestRank_zero,
      rank_ofNat_zero]

theorem roundoff_le : roundoff ≤ 1 / 16 := by
  unfold roundoff
  norm_num

/-- What is not rounded to zero keeps half of its digits' value at least. -/
theorem half_le_written_round (finite : x.isFinite = true)
    (shifted : (x.shiftPoint places).isFinite = true) (half : 1 / 2 ≤ (x.shiftPoint places).rank) :
    1 / 2 * (x.written * 10 ^ places) ≤ (x.shiftPoint places).round.written := by
  have inRange := abs_rank_lt_limit shifted
  have rounded := rank_round_eq shifted
  obtain ⟨n, hn, -, high⟩ := roundHalfAway_spec ((by norm_num : (0 : Rat) ≤ 1 / 2).trans half)
  have some : 0 < n := by
    by_contra none
    rw [Nat.eq_zero_of_not_pos none, Nat.cast_zero, zero_add] at high
    exact absurd half (not_le.mpr high)
  have one : (1 : Rat) ≤ n := by exact_mod_cast some
  rw [hn, Int.cast_natCast] at rounded
  rw [rank_shiftPoint places finite] at half high hn inRange
  set point := x.written * 10 ^ places
  have normal : 1 / 4 ≤ |point| := by
    by_contra tiny
    rw [roundHalfAway_nearestRank_of_tiny (not_le.mp tiny)] at hn
    omega
  have nonneg : 0 ≤ point := by
    by_contra below
    have mono := nearestRank_mono (not_le.mp below).le
    rw [nearestRank_zero] at mono
    linarith
  have moved := abs_nearestRank_sub_le_share (normal_quarter.trans normal) inRange
  have written := abs_written_sub_le (isFinite_round shifted) (by
    rw [rounded, Nat.abs_cast]
    exact (two_zpow_le_iff.mpr (by decide : (-1021 : Int) ≤ 0)).trans one)
  rw [rounded, Nat.abs_cast] at written
  rw [abs_of_nonneg nonneg] at moved
  -- neither reading nor writing takes more than a sixteenth, and rounding a third
  have share := mul_le_mul_of_nonneg_right roundoff_le nonneg
  have unit := mul_le_mul_of_nonneg_right roundoff_le (Nat.cast_nonneg n : (0 : Rat) ≤ n)
  have low := (abs_le.mp moved).1
  have kept := (abs_le.mp written).1
  linarith

/-- So the point is moved back without a loss. -/
theorem roundDecimals_pos (nonneg : 0 ≤ x.rank) (shifted : (x.shiftPoint places).isFinite = true)
    (half : 1 / 2 ≤ (x.shiftPoint places).rank) : 0 < (x.roundDecimals places).rank := by
  have finite := isFinite_of_isFinite_shiftPoint shifted
  have some : 0 < x.rank := by
    refine lt_of_le_of_ne nonneg fun zero => ?_
    rw [rank_shiftPoint places finite, written_of_rank_zero finite zero.symm, zero_mul,
      nearestRank_zero] at half
    norm_num at half
  have least := smallest_le_written finite some
  have kept := half_le_written_round finite shifted half
  rw [roundDecimals_eq_ofRat shifted, rank_ofRat]
  refine nearestRank_pos ?_
  have back : x.written * 10 ^ places * 10 ^ (-places) = x.written := by
    rw [mul_assoc, ← ten_zpow_add, add_neg_cancel, zpow_zero, mul_one]
  have small : 1 / 2 * smallestStep < 1 / 2 * (5 * 10 ^ (-324 : Int)) := by decide +kernel
  have moved := mul_le_mul_of_nonneg_right kept (ten_zpow_pos (-places)).le
  rw [mul_assoc, back] at moved
  linarith

theorem zero_le_rank_shiftPoint (places : Int) (nonneg : 0 ≤ x) :
    0 ≤ (x.shiftPoint places).rank := by
  have moved := (shiftPoint_le places nonneg).2.2
  rwa [rank_shiftPoint_zero] at moved

theorem roundDecimals_le_zero_iff (nonneg : 0 ≤ x) :
    x.roundDecimals places ≤ 0 ↔ (x.shiftPoint places).rank < 1 / 2 := by
  have low := nonneg.2.2
  rw [rank_ofNat_zero] at low
  have above := zero_le_rank_shiftPoint places nonneg
  by_cases shifted : (x.shiftPoint places).isFinite = true
  · constructor
    · intro none
      by_contra half
      have pos := roundDecimals_pos low shifted (not_lt.mp half)
      exact absurd none.2.2 (not_le.mpr (rank_ofNat_zero ▸ pos))
    · intro small
      have none : (x.shiftPoint places).round.rank = 0 := by
        rw [rank_round_eq shifted, roundHalfAway_eq (n := 0) above (by push_cast; linarith)
          (by push_cast; linarith)]
        rfl
      refine ⟨?_, nonneg.1, ?_⟩
      · rw [roundDecimals_eq_ofRat shifted]
        exact ofRat_ne_nan _ _
      · rw [roundDecimals_eq_ofRat shifted, rank_ofRat,
          written_of_rank_zero (isFinite_round shifted) none, zero_mul, nearestRank_zero,
          rank_ofNat_zero]
  · -- what is out of range is left as it is, which is not zero
    rw [roundDecimals, if_neg shifted, le_zero_iff nonneg]
    refine iff_of_false (fun zero => shifted ?_) (not_lt.mpr ?_)
    · have finite : x.isFinite = true :=
        isFinite_of_abs_rank_lt nonneg.2.1 (by rw [zero, abs_zero]; exact two_zpow_pos _)
      exact isFinite_shiftPoint_of_rank_eq_zero finite zero places
    · have infinite := (isFinite_or_eq_infinity (shiftPoint_ne_nan places nonneg.2.1)
        above).resolve_left shifted
      rw [infinite]
      exact (by norm_num : (1 : Rat) / 2 ≤ 1).trans (one_le_zpow₀ (by norm_num) (by decide))

end Double

/-- What is not below zero is rounded to zero: it is zero already, or below one where it is rounded
down, or less than half a unit of the last decimal place. -/
def Rounding.Vanishes (rounding : Rounding) (x : Double) : Prop :=
  match rounding with
  | identity => x ≤ 0
  | decimals places => (x.shiftPoint places.toInt).rank < 1 / 2
  | floor => x < 1
  | ceil => x ≤ 0

/-- **Which values are rounded to zero.** -/
theorem Rounding.apply_le_zero_iff (rounding : Rounding) {x : Double} (nonneg : 0 ≤ x) :
    rounding.apply x ≤ 0 ↔ rounding.Vanishes x := by
  cases rounding with
  | identity => exact Iff.rfl
  | decimals places => exact Double.roundDecimals_le_zero_iff nonneg
  | floor => exact Double.floor_le_zero_iff nonneg
  | ceil =>
    refine ⟨identity_below_ceil.apply_le, fun none => ?_⟩
    have zero : (0 : Double).ceil = 0 := by decide +kernel
    exact zero ▸ ceil.apply_le_apply none

end ExamAdmission
