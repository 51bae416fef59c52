/-
How far rounding moves a value.

A value is rounded at the place of its 53rd binary digit, so it moves by half a unit of that place
at most.  From `2 ^ (-1022)` on, where doubles have all their digits, that is the share
`2 ^ (-53)` of the value itself; what is out of range moves to the place of the infinities first.

* `Double.nearestRank_of_digits` — a value of at most 53 binary digits does not move;
* `Double.rank_ofNat` — nor does a natural number that small;
* `Double.movesLittle_of_normal` — a value from `2 ^ (-1022)` on moves by the share `2 ^ (-53)`;
* `Double.movesLittle_rank_add_rank` — and so does every sum of two doubles, however small.
-/
import ExamAdmission.Proofs.Double.Order

namespace ExamAdmission

/-- Every magnitude is a multiple of the smallest one. -/
theorem Magnitude.exists_multiple (m : Magnitude) : ∃ k : Nat, m.toRat = k * 2 ^ (-1074 : Int) := by
  obtain ⟨shift, hshift⟩ := Int.le.dest m.exponent_ge
  refine ⟨m.significand * 2 ^ shift, ?_⟩
  rw [toRat, ← hshift, two_zpow_add, Nat.cast_mul, two_pow_cast]
  ring

namespace Double

variable {x : Double} {q : Rat}

/-- An operation that lifts a function computes it on finite doubles and rounds once. -/
theorem Lifts.rank_apply {f : Double → Double} {g : Rat → Rat} (h : Lifts f g)
    (finite : x.isFinite = true) : (f x).rank = nearestRank (g x.rank) := by
  obtain ⟨negative, m, rfl⟩ := exists_of_isFinite finite
  exact h.rank negative m

/-- A double that is not below zero is finite or the positive infinity. -/
theorem isFinite_or_eq_infinity (ne_nan : x ≠ nan) (nonneg : 0 ≤ x.rank) :
    x.isFinite = true ∨ x = infinity false := by
  by_cases finite : x.isFinite = true
  · exact Or.inl finite
  · obtain ⟨negative, rfl⟩ := exists_eq_infinity ne_nan finite
    cases negative with
    | false => exact Or.inr rfl
    | true => exact absurd nonneg (not_le.mpr (neg_lt_zero.mpr (two_zpow_pos 1024)))

theorem nearestRank_nonneg (h : 0 ≤ q) : 0 ≤ nearestRank q := by
  have mono := nearestRank_mono h
  rwa [nearestRank_zero] at mono

/-! ### Values that do not move -/

theorem nearestRank_of_pos (hq : 0 < q) : nearestRank q = min (onGrid q) (2 ^ (1024 : Int)) := by
  rw [← rank_nearest_of_pos hq, rank_nearest false hq.le]
  rfl

theorem nearestRank_of_limit_le (h : 2 ^ (1024 : Int) ≤ q) : nearestRank q = 2 ^ (1024 : Int) := by
  rw [nearestRank_of_pos ((two_zpow_pos _).trans_le h), min_eq_right (le_onGrid h)]

/-- A multiple of its own rounding place is on the grid. -/
theorem onGrid_of_multiple {k : Int} (h : q = k * 2 ^ roundingPlace q) : onGrid q = q := by
  have near := abs_onGrid_sub_le q k
  rw [← h, sub_self, abs_zero] at near
  exact sub_eq_zero.mp (abs_nonpos_iff.mp near)

/-- A value of at most 53 binary digits, the last of them at a place that doubles have, is on the
grid. -/
theorem onGrid_of_digits {k : Nat} {e : Int} (some_digit : k ≠ 0) (digits : k ≤ 2 ^ 53)
    (place : -1074 ≤ e) : onGrid ((k : Rat) * 2 ^ e) = k * 2 ^ e := by
  have hq : (0 : Rat) < k * 2 ^ e :=
    mul_pos (by exact_mod_cast Nat.pos_of_ne_zero some_digit) (two_zpow_pos e)
  obtain ⟨low, -⟩ := leadingPlace_spec hq
  have high : (k : Rat) * 2 ^ e ≤ 2 ^ (53 + e) := mul_two_zpow_le (k := 53) digits (by simp)
  have top : leadingPlace ((k : Rat) * 2 ^ e) ≤ 53 + e := two_zpow_le_iff.mp (low.trans high)
  by_cases coarse : roundingPlace ((k : Rat) * 2 ^ e) ≤ e
  · obtain ⟨shift, hshift⟩ := Int.le.dest coarse
    refine onGrid_of_multiple (k := ((k * 2 ^ shift : Nat) : Int)) ?_
    conv_lhs => rw [← hshift]
    rw [two_zpow_add, Int.cast_natCast, Nat.cast_mul, two_pow_cast]
    ring
  · -- the place is too coarse only for the 54th digit of a power of two
    have up : leadingPlace ((k : Rat) * 2 ^ e) = 53 + e := by
      unfold roundingPlace at coarse
      omega
    have value : (k : Rat) * 2 ^ e = 2 ^ (53 + e) := le_antisymm high (up ▸ low)
    have next : roundingPlace ((k : Rat) * 2 ^ e) = e + 1 := by
      unfold roundingPlace
      omega
    refine onGrid_of_multiple (k := ((2 ^ 52 : Nat) : Int)) ?_
    rw [next, value, Int.cast_natCast, two_pow_cast, ← two_zpow_add]
    congr 1
    push_cast
    ring

/-- **A value of at most 53 binary digits does not move.** -/
theorem nearestRank_of_digits {k : Nat} {e : Int} (digits : k ≤ 2 ^ 53) (place : -1074 ≤ e)
    (inRange : (k : Rat) * 2 ^ e ≤ 2 ^ (1024 : Int)) :
    nearestRank ((k : Rat) * 2 ^ e) = k * 2 ^ e := by
  by_cases none : k = 0
  · simp [none]
  · have hq : (0 : Rat) < k * 2 ^ e :=
      mul_pos (by exact_mod_cast Nat.pos_of_ne_zero none) (two_zpow_pos e)
    rw [nearestRank_of_pos hq, onGrid_of_digits none digits place, min_eq_left inRange]

theorem nearestRank_two_zpow {e : Int} (place : -1074 ≤ e) (inRange : e ≤ 1024) :
    nearestRank (2 ^ e) = 2 ^ e := by
  have fixed := nearestRank_of_digits (k := 1) (by decide) place
    (by rw [Nat.cast_one, one_mul]; exact two_zpow_le_iff.mpr inRange)
  rwa [Nat.cast_one, one_mul] at fixed

/-- A natural number of at most 53 binary digits is a double. -/
theorem rank_ofNat {n : Nat} (small : n ≤ 2 ^ 53) : (ofNat n).rank = n := by
  have inRange : (n : Rat) * 2 ^ (0 : Int) ≤ 2 ^ (1024 : Int) :=
    mul_two_zpow_le (k := 53) small (by decide)
  have fixed := nearestRank_of_digits small (by decide) inRange
  rw [zpow_zero, mul_one] at fixed
  exact fixed

theorem isFinite_ofNat {n : Nat} (small : n ≤ 2 ^ 53) : (ofNat n).isFinite = true := by
  refine isFinite_of_abs_rank_lt (ofRat_ne_nan _ _) ?_
  rw [rank_ofNat small, abs_of_nonneg (Nat.cast_nonneg n)]
  refine (Nat.cast_le.mpr small).trans_lt ?_
  rw [two_pow_cast]
  exact two_zpow_lt_iff.mpr (by decide)

theorem ofNat_pos {n : Nat} (small : n ≤ 2 ^ 53) (h : 0 < n) : 0 < ofNat n := by
  refine ⟨ofNat_ne_nan 0, ofNat_ne_nan n, ?_⟩
  rw [rank_ofNat_zero, rank_ofNat small]
  exact_mod_cast h

theorem isFinite_zero : (0 : Double).isFinite = true := isFinite_ofNat (Nat.zero_le _)

theorem isFinite_hundred : (100 : Double).isFinite = true := isFinite_ofNat (n := 100) (by decide)

theorem rank_hundred : (100 : Double).rank = 100 := rank_ofNat (n := 100) (by decide)

theorem hundred_pos : (0 : Double) < 100 := ofNat_pos (n := 100) (by decide) (by decide)

/-- An integer of 64 binary digits is a finite number, though not always itself. -/
theorem isFinite_ofInt {n : Int} (few : n.natAbs < 2 ^ 64) : (ofInt n).isFinite = true := by
  refine isFinite_of_abs_rank_lt (ofRat_ne_nan _ _) ?_
  have range : -2 ^ 64 ≤ n ∧ n ≤ 2 ^ 64 := by omega
  have above : (ofInt n).rank ≤ nearestRank (2 ^ (64 : Int)) := by
    refine nearestRank_mono ?_
    exact_mod_cast range.2
  have below : nearestRank (-2 ^ (64 : Int)) ≤ (ofInt n).rank := by
    refine nearestRank_mono ?_
    exact_mod_cast range.1
  rw [nearestRank_neg, nearestRank_two_zpow (by decide) (by decide)] at below
  rw [nearestRank_two_zpow (by decide) (by decide)] at above
  exact (abs_le.mpr ⟨below, above⟩).trans_lt (two_zpow_lt_iff.mpr (by decide))

/-! ### Values that move little -/

/-- The share of a value by which rounding moves it at most. -/
def roundoff : Rat := 2 ^ (-53 : Int)

theorem roundoff_pos : 0 < roundoff := two_zpow_pos _

theorem roundoff_le_half : roundoff ≤ 1 / 2 := by
  unfold roundoff
  norm_num

/-- Rounding moves the value, or the place of the infinities if that is nearer, by the share
`roundoff` of it at most. -/
structure MovesLittle (q : Rat) : Prop where
  le : nearestRank q ≤ (1 + roundoff) * min q (2 ^ (1024 : Int))
  ge : (1 - roundoff) * min q (2 ^ (1024 : Int)) ≤ nearestRank q

namespace MovesLittle

theorem le_mul (h : MovesLittle q) : nearestRank q ≤ (1 + roundoff) * q :=
  h.le.trans (mul_le_mul_of_nonneg_left (min_le_left _ _) (by linarith [roundoff_pos]))

theorem mul_le (h : MovesLittle q) (inRange : q ≤ 2 ^ (1024 : Int)) :
    (1 - roundoff) * q ≤ nearestRank q := by
  have low := h.ge
  rwa [min_eq_left inRange] at low

end MovesLittle

theorem abs_onGrid_sub_le_half (q : Rat) : |onGrid q - q| ≤ 2 ^ (roundingPlace q - 1) := by
  have hplace : (2 : Rat) ^ roundingPlace q > 0 := two_zpow_pos _
  have half := abs_roundHalfEven_sub_le_half (q / 2 ^ roundingPlace q)
  have moved : onGrid q - q =
      (roundHalfEven (q / 2 ^ roundingPlace q) - q / 2 ^ roundingPlace q) *
        2 ^ roundingPlace q := by
    rw [onGrid, sub_mul, div_mul_cancel₀ _ hplace.ne']
  rw [moved, abs_mul, abs_of_pos hplace, zpow_sub_one₀ (by norm_num)]
  linarith [mul_le_mul_of_nonneg_right half hplace.le]

theorem abs_onGrid_sub_le_of_normal (normal : 2 ^ (-1022 : Int) ≤ q) :
    |onGrid q - q| ≤ roundoff * q := by
  have hq : 0 < q := (two_zpow_pos _).trans_le normal
  obtain ⟨low, high⟩ := leadingPlace_spec hq
  have first : -1022 < leadingPlace q + 1 := two_zpow_lt_iff.mp (normal.trans_lt high)
  -- the value has all its digits, so half a unit of the last is a share of the first
  have place : roundingPlace q - 1 = -53 + leadingPlace q := by
    unfold roundingPlace
    omega
  refine (abs_onGrid_sub_le_half q).trans ?_
  rw [place, two_zpow_add]
  exact mul_le_mul_of_nonneg_left low (two_zpow_pos _).le

theorem movesLittle_of_abs_sub_le
    (near : |nearestRank q - min q (2 ^ (1024 : Int))| ≤ roundoff * min q (2 ^ (1024 : Int))) :
    MovesLittle q := by
  obtain ⟨low, high⟩ := abs_le.mp near
  constructor
  · linarith
  · linarith

/-- A value that moves to the place of the infinities, or not at all, moves little. -/
theorem movesLittle_of_eq_min (nonneg : 0 ≤ q)
    (rounded : nearestRank q = min q (2 ^ (1024 : Int))) : MovesLittle q := by
  refine movesLittle_of_abs_sub_le ?_
  rw [rounded, sub_self, abs_zero]
  exact mul_nonneg roundoff_pos.le (le_min nonneg (two_zpow_pos _).le)

/-- A value with all its digits moves little. -/
theorem movesLittle_of_normal (normal : 2 ^ (-1022 : Int) ≤ q) : MovesLittle q := by
  have hq : 0 < q := (two_zpow_pos _).trans_le normal
  by_cases inRange : q < 2 ^ (1024 : Int)
  · refine movesLittle_of_abs_sub_le ?_
    rw [nearestRank_of_pos hq, min_eq_left (onGrid_le hq inRange), min_eq_left inRange.le]
    exact abs_onGrid_sub_le_of_normal normal
  · refine movesLittle_of_eq_min hq.le ?_
    rw [nearestRank_of_limit_le (not_lt.mp inRange), min_eq_right (not_lt.mp inRange)]

theorem movesLittle_of_multiple (k : Nat) : MovesLittle (k * 2 ^ (-1074 : Int)) := by
  by_cases normal : (2 : Rat) ^ (-1022 : Int) ≤ k * 2 ^ (-1074 : Int)
  · exact movesLittle_of_normal normal
  · -- below, a multiple of the last place has few digits
    have below := not_le.mp normal
    have few : k ≤ 2 ^ 53 := by
      by_contra many
      have high : (2 : Rat) ^ (-1022 : Int) ≤ k * 2 ^ (-1074 : Int) :=
        two_zpow_le_mul (k := 53) (not_le.mp many).le (by decide)
      exact normal high
    have inRange : (k : Rat) * 2 ^ (-1074 : Int) ≤ 2 ^ (1024 : Int) :=
      below.le.trans (two_zpow_le_iff.mpr (by decide))
    refine movesLittle_of_eq_min (mul_nonneg (Nat.cast_nonneg k) (two_zpow_pos _).le) ?_
    rw [nearestRank_of_digits few le_rfl inRange, min_eq_left inRange]

theorem exists_multiple_of_nonneg (finite : x.isFinite = true) (nonneg : 0 ≤ x.rank) :
    ∃ k : Nat, x.rank = k * 2 ^ (-1074 : Int) := by
  obtain ⟨negative, m, rfl⟩ := exists_of_isFinite finite
  cases negative with
  | false => exact m.exists_multiple
  | true =>
    have zero : m.toRat = 0 := le_antisymm (neg_nonneg.mp nonneg) m.toRat_nonneg
    refine ⟨0, ?_⟩
    show -m.toRat = _
    rw [zero, neg_zero, Nat.cast_zero, zero_mul]

/-- **A sum of two doubles moves little**, also where doubles have fewer digits. -/
theorem movesLittle_rank_add_rank {y : Double} (finiteX : x.isFinite = true)
    (finiteY : y.isFinite = true) (nonnegX : 0 ≤ x.rank) (nonnegY : 0 ≤ y.rank) :
    MovesLittle (x.rank + y.rank) := by
  obtain ⟨k, hk⟩ := exists_multiple_of_nonneg finiteX nonnegX
  obtain ⟨l, hl⟩ := exists_multiple_of_nonneg finiteY nonnegY
  rw [hk, hl, ← add_mul, ← Nat.cast_add]
  exact movesLittle_of_multiple (k + l)

end Double

end ExamAdmission
