/-
Rounding a percentage does not overflow.

Rounding to decimal places moves the point and moves it back, and a great double may be out of range
after that.  A percentage is not: whatever the places, what a hundred is rounded to lies below a
thousand, and the roundings keep the order.

* `Double.isFinite_roundDecimals_hundred` — a hundred, rounded to decimal places;
* `Rounding.isFinite_apply` — **every percentage that is not above a hundred, however it is
  rounded**.
-/
import ExamAdmission.Proofs.Double.Shortest
import ExamAdmission.Proofs.Rounding.Monotone
import Mathlib.Data.Int.Log

namespace ExamAdmission

namespace Double

variable {x y z : Double}

/-- What lies between finite doubles is finite. -/
theorem isFinite_of_le_of_le (finiteX : x.isFinite = true) (finiteZ : z.isFinite = true)
    (low : x ≤ y) (high : y ≤ z) : y.isFinite = true := by
  by_contra infinite
  have above := eq_infinity_of_finite_le finiteX infinite low
  have below := eq_infinity_of_le_finite infinite finiteZ high
  cases above.symm.trans below

/-- A power of two lies within twice a positive value. -/
theorem exists_two_zpow_between {q : Rat} (hq : 0 < q) : ∃ j : Int, q < 2 ^ j ∧ 2 ^ j ≤ 2 * q := by
  refine ⟨Int.log 2 q + 1, Int.lt_zpow_succ_log_self (by decide) q, ?_⟩
  have below := Int.zpow_log_le_self (b := 2) (by decide) hq
  rw [zpow_add_one₀ (by norm_num)]
  push_cast at below
  linarith

theorem isFinite_shiftPoint_of_rank_eq_zero (finite : x.isFinite = true) (zero : x.rank = 0)
    (places : Int) : (x.shiftPoint places).isFinite = true := by
  refine isFinite_of_abs_rank_lt (shiftPoint_ne_nan places (ne_nan_of_isFinite finite)) ?_
  rw [rank_shiftPoint places finite, written_of_rank_zero finite zero, zero_mul, nearestRank_zero,
    abs_zero]
  exact two_zpow_pos _

theorem rank_round (finite : x.isFinite = true) :
    x.round.rank = nearestRank (roundHalfAway x.rank) := by
  obtain ⟨negative, m, rfl⟩ := exists_of_isFinite finite
  exact (lifts_mapInt roundHalfAway).rank negative m

/-- What is rounded to zero is zero wherever the point is moved. -/
theorem isFinite_roundDecimals_of_small {places : Int} (finite : x.isFinite = true)
    (nonneg : 0 ≤ (x.shiftPoint places).rank) (small : (x.shiftPoint places).rank ≤ 1 / 4) :
    (x.roundDecimals places).isFinite = true := by
  unfold roundDecimals
  dsimp only
  split
  · next shifted =>
    have zero : roundHalfAway (x.shiftPoint places).rank = 0 := by
      have above := roundHalfAway_mono _ _ nonneg
      have below := roundHalfAway_mono _ _ small
      have none : roundHalfAway 0 = 0 := by decide +kernel
      have quarter : roundHalfAway (1 / 4) = 0 := by decide +kernel
      omega
    refine isFinite_shiftPoint_of_rank_eq_zero (isFinite_round shifted) ?_ _
    rw [rank_round shifted, zero, Int.cast_zero, nearestRank_zero]
  · exact finite

theorem rank_shiftPoint_ofNat {n : Nat} (small : n < 2 ^ 53) (places : Int) :
    ((ofNat n).shiftPoint places).rank = nearestRank (n * 10 ^ places) := by
  rw [rank_shiftPoint places (isFinite_ofNat small.le), written_ofNat small]

theorem rank_shiftPoint_zero (places : Int) : ((0 : Double).shiftPoint places).rank = 0 := by
  have moved := rank_shiftPoint_ofNat (n := 0) (by decide) places
  rwa [Nat.cast_zero, zero_mul, nearestRank_zero] at moved

theorem rank_shiftPoint_hundred (places : Int) :
    ((100 : Double).shiftPoint places).rank = nearestRank (100 * 10 ^ places) :=
  rank_shiftPoint_ofNat (n := 100) (by decide) places

theorem rank_shiftPoint_thousand (places : Int) :
    ((1000 : Double).shiftPoint places).rank = nearestRank (1000 * 10 ^ places) :=
  rank_shiftPoint_ofNat (n := 1000) (by decide) places

theorem isFinite_roundDecimals_zero (places : Int) :
    ((0 : Double).roundDecimals places).isFinite = true := by
  refine isFinite_roundDecimals_of_small isFinite_zero (rank_shiftPoint_zero places).ge ?_
  rw [rank_shiftPoint_zero]
  norm_num

/-- Rounding to a whole number keeps below a power of two. -/
theorem rank_round_le_two_pow {x : Double} (finite : x.isFinite = true) {k : Nat} (inRange : k ≤ 1023)
    (h : x.rank ≤ 2 ^ (k : Int)) : x.round.rank ≤ 2 ^ (k : Int) := by
  have power : ((2 ^ k : Int) : Rat) = 2 ^ (k : Int) := by
    push_cast
    rfl
  rw [← power] at h
  have whole := roundHalfAway_mono _ _ h
  rw [roundHalfAway_intCast] at whole
  rw [rank_round finite, ← nearestRank_two_zpow (e := k) (by omega) (by omega), ← power]
  exact nearestRank_mono (by exact_mod_cast whole)

/-- With its point moved, a hundred is still rounded below what a thousand becomes: a power of two,
which is a whole number and a double, lies between them. -/
theorem round_shiftPoint_hundred_lt {places : Int} (some_digit : -2 ≤ places)
    (shifted : ((100 : Double).shiftPoint places).isFinite = true) :
    ((100 : Double).shiftPoint places).round < (1000 : Double).shiftPoint places := by
  have least : (10 : Rat) ^ (-2 : Int) ≤ 10 ^ places := ten_zpow_le_iff.mpr some_digit
  norm_num at least
  have thousand : (1000 : Double).shiftPoint places ≠ nan :=
    shiftPoint_ne_nan places (ofNat_ne_nan 1000)
  obtain ⟨j, above, below⟩ :=
    exists_two_zpow_between (show (0 : Rat) < 100 * 10 ^ places by linarith)
  have whole : 0 ≤ j := by
    have one : (2 : Rat) ^ (0 : Int) < 2 ^ j := by
      rw [zpow_zero]
      linarith
    exact (two_zpow_lt_iff.mp one).le
  obtain ⟨k, rfl⟩ := Int.eq_ofNat_of_zero_le whole
  refine ⟨ne_nan_of_isFinite (isFinite_round shifted), thousand, ?_⟩
  rw [rank_shiftPoint_thousand]
  by_cases inRange : k ≤ 1023
  · have fixed : nearestRank (2 ^ (k : Int)) = 2 ^ (k : Int) :=
      nearestRank_two_zpow (by omega) (by omega)
    have rank : ((100 : Double).shiftPoint places).rank ≤ 2 ^ (k : Int) := by
      rw [rank_shiftPoint_hundred, ← fixed]
      exact nearestRank_mono above.le
    have rounded := rank_round_le_two_pow shifted inRange rank
    have double : (2 : Rat) ^ ((k : Int) + 1) ≤ 1000 * 10 ^ places := by
      rw [zpow_add_one₀ (by norm_num)]
      linarith only [least, below]
    have greater := nearestRank_mono double
    rw [nearestRank_two_zpow (by omega) (by omega)] at greater
    have strict : (2 : Rat) ^ (k : Int) < 2 ^ ((k : Int) + 1) := two_zpow_lt_iff.mpr (by omega)
    exact rounded.trans_lt (strict.trans_le greater)
  · -- beyond the range of doubles a thousand has become infinite
    have far : (2 : Rat) ^ (1024 : Int) ≤ 1000 * 10 ^ places := by
      refine (two_zpow_le_iff.mpr (show (1024 : Int) ≤ k by omega)).trans (below.trans ?_)
      linarith only [least]
    have limit := nearestRank_mono far
    rw [nearestRank_two_zpow (by decide) (by decide)] at limit
    obtain ⟨negative, m, same⟩ := exists_of_isFinite (isFinite_round shifted)
    rw [same]
    exact (rank_lt_limit negative m).trans_le limit

theorem roundDecimals_hundred_le {places : Int} (some_digit : -2 ≤ places) :
    (100 : Double).roundDecimals places ≤ 1000 := by
  unfold roundDecimals
  dsimp only
  split
  · next shifted =>
    exact shiftPoint_neg_le places (isFinite_round shifted) (ofNat_ne_nan 1000)
      (round_shiftPoint_hundred_lt some_digit shifted)
  · exact ofNat_le_ofNat (m := 100) (n := 1000) (by decide)

theorem isFinite_roundDecimals_hundred (places : Int) :
    ((100 : Double).roundDecimals places).isFinite = true := by
  by_cases some_digit : -2 ≤ places
  · have low : (0 : Double).roundDecimals places ≤ (100 : Double).roundDecimals places :=
      roundDecimals_le places (zero_le_ofNat 100)
    have thousand : (1000 : Double).isFinite = true := isFinite_ofNat (n := 1000) (by decide)
    exact isFinite_of_le_of_le (isFinite_roundDecimals_zero places) thousand low
      (roundDecimals_hundred_le some_digit)
  · refine isFinite_roundDecimals_of_small isFinite_hundred ?_ ?_
    · rw [rank_shiftPoint_hundred]
      exact nearestRank_nonneg (by positivity)
    · have few : (10 : Rat) ^ places ≤ 10 ^ (-3 : Int) := ten_zpow_le_iff.mpr (by omega)
      have quarter : nearestRank (2 ^ (-2 : Int)) = 2 ^ (-2 : Int) :=
        nearestRank_two_zpow (by decide) (by decide)
      norm_num at few quarter
      rw [rank_shiftPoint_hundred, ← quarter]
      refine nearestRank_mono ?_
      linarith only [few]

end Double

/-- **However it is rounded, a percentage that is not above a hundred stays finite.** -/
theorem Rounding.isFinite_apply (rounding : Rounding) {x : Double} (low : 0 ≤ x) (high : x ≤ 100) :
    (rounding.apply x).isFinite = true := by
  have finite : x.isFinite = true :=
    Double.isFinite_of_le_of_le Double.isFinite_zero Double.isFinite_hundred low high
  cases rounding with
  | identity => exact finite
  | decimals places =>
    exact Double.isFinite_of_le_of_le (Double.isFinite_roundDecimals_zero places.toInt)
      (Double.isFinite_roundDecimals_hundred places.toInt)
      (Double.roundDecimals_le places.toInt low) (Double.roundDecimals_le places.toInt high)
  | floor => exact Double.isFinite_mapInt (fun _ _ => Rat.floor_monotone) Rat.floor_intCast finite
  | ceil => exact Double.isFinite_mapInt Double.ceil_mono Rat.ceil_intCast finite

end ExamAdmission
