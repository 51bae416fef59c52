/-
Which digits are written.

The search for the shortest decimal tries coarse grids first.  If a point of a grid reads back, so
does one of the two neighbours on it that the search looks at, and what is written lies on that grid
or on a coarser one.  For some numbers this says which digits are written:

* `Magnitude.exists_shortest_multiple` — what is written lies on every grid with a point that reads
  back;
* `Magnitude.shortest_of_whole` — a whole number below `2 ^ 53` is written out;
* `Magnitude.shortest_of_read` — **fifteen digits survive**: a decimal of so many digits is what is
  written for the double that it is read as;
* `Double.written_of_int`, `Double.written_of_read` — the same of doubles with a sign;
* `Double.abs_written_sub_le` — and what is written for any other double is near to it.
-/
import ExamAdmission.Proofs.Double.Digits
import ExamAdmission.Proofs.Double.Error

namespace ExamAdmission

open Double

namespace Magnitude

variable {m : Magnitude} {tie : Tie}

/-! ### The search -/

/-- What lies between a magnitude and a value that is read as it is read as it, too. -/
theorem isReadFrom_of_between {d : Decimal} {q : Rat} (read : nearestRank q = m.toRat)
    (between : (q ≤ d.toRat ∧ d.toRat ≤ m.toRat) ∨ (m.toRat ≤ d.toRat ∧ d.toRat ≤ q)) :
    m.isReadFrom d = true := by
  refine decide_eq_true (Decimal.toDouble_eq_finite false ?_)
  rcases between with ⟨low, high⟩ | ⟨low, high⟩
  · exact le_antisymm ((nearestRank_mono high).trans_eq m.nearestRank_toRat)
      (read.symm.trans_le (nearestRank_mono low))
  · exact le_antisymm ((nearestRank_mono high).trans_eq read)
      (m.nearestRank_toRat.symm.trans_le (nearestRank_mono low))

/-- If a point of a grid reads back, the search on that grid succeeds. -/
theorem exists_shortestOfLength?_of_read {count n : Nat} (tie : Tie)
    (read : nearestRank (n * 10 ^ (leadingDigitPlace m.toRat - count + 1)) = m.toRat) :
    ∃ d, m.shortestOfLength? tie count = some d := by
  have step := ten_zpow_pos (leadingDigitPlace m.toRat - count + 1)
  have nonneg := div_nonneg m.toRat_nonneg step.le
  unfold shortestOfLength?
  dsimp only
  split
  · exact ⟨_, rfl⟩
  · exact ⟨_, rfl⟩
  · exact ⟨_, rfl⟩
  · next lower upper =>
    rcases le_or_gt ((n : Rat) * 10 ^ (leadingDigitPlace m.toRat - count + 1)) m.toRat with
      below | above
    · -- the lower neighbour lies between the point and the magnitude
      have point : (n : Int) ≤ (m.toRat / 10 ^ (leadingDigitPlace m.toRat - count + 1)).floor :=
        Rat.le_floor_iff.mpr ((le_div_iff₀ step).mpr below)
      rw [isReadFrom_of_between read (Or.inl ⟨?_, ?_⟩)] at lower
      · cases lower
      · rw [toRat_lower, floor_toNat_cast nonneg]
        exact mul_le_mul_of_nonneg_right (by exact_mod_cast point) step.le
      · rw [toRat_lower, floor_toNat_cast nonneg]
        exact (le_div_iff₀ step).mp (Rat.floor_le _)
    · -- and else the upper one does
      have point : (m.toRat / 10 ^ (leadingDigitPlace m.toRat - count + 1)).floor < (n : Int) :=
        Rat.floor_lt_iff.mpr ((div_lt_iff₀ step).mpr above)
      rw [isReadFrom_of_between read (Or.inr ⟨?_, ?_⟩)] at upper
      · cases upper
      · rw [toRat_upper, floor_toNat_cast nonneg]
        have next := Rat.lt_floor_add_one (m.toRat / 10 ^ (leadingDigitPlace m.toRat - count + 1))
        push_cast at next
        exact ((div_lt_iff₀ step).mp next).le
      · rw [toRat_upper, floor_toNat_cast nonneg]
        exact mul_le_mul_of_nonneg_right (by exact_mod_cast point) step.le

theorem exists_multiple_of_shortestOfLength? {count : Nat} {d : Decimal}
    (h : m.shortestOfLength? tie count = some d) :
    ∃ k : Nat, d.toRat = k * 10 ^ (leadingDigitPlace m.toRat - count + 1) := by
  unfold shortestOfLength? at h
  dsimp only at h
  have upper : ∀ below : Nat, ((below : Rat) + 1) = (below + 1 : Nat) := fun _ => by push_cast; rfl
  split at h
  · cases h
    split
    · exact ⟨_, toRat_lower _ _⟩
    · exact ⟨_, (toRat_upper _ _ _).trans (by rw [upper])⟩
  · cases h
    exact ⟨_, toRat_lower _ _⟩
  · cases h
    exact ⟨_, (toRat_upper _ _ _).trans (by rw [upper])⟩
  · cases h

/-- A point of a grid is a point of every finer one. -/
theorem exists_multiple_of_le {k : Nat} {q : Rat} {e f : Int} (le : f ≤ e)
    (h : q = k * 10 ^ e) : ∃ n : Nat, q = n * 10 ^ f := by
  obtain ⟨shift, rfl⟩ := Int.le.dest le
  refine ⟨k * 10 ^ shift, ?_⟩
  rw [h, ten_zpow_add, zpow_natCast]
  push_cast
  ring

/-- **What is written lies on every grid with a point that reads back.** -/
theorem exists_shortest_multiple (hm : 0 < m.toRat) {count n : Nat} (tie : Tie)
    (some_digit : 0 < count) (few : count ≤ 17)
    (read : nearestRank (n * 10 ^ (leadingDigitPlace m.toRat - count + 1)) = m.toRat) :
    ∃ k : Nat, (m.shortest tie).toRat = k * 10 ^ (leadingDigitPlace m.toRat - count + 1) := by
  have nonzero : m.significand ≠ 0 := fun zero => hm.ne' (toRat_eq_zero_iff.mpr zero)
  obtain ⟨d, hd⟩ := exists_shortestOfLength?_of_read tie read
  have range : count - 1 ∈ List.range 17 := List.mem_range.mpr (by omega)
  have tried : m.shortestOfLength? tie (count - 1 + 1) ≠ none := by
    rw [Nat.sub_add_cancel some_digit, hd]
    exact Option.some_ne_none d
  rw [shortest, if_neg nonzero]
  cases found : (List.range 17).findSome? fun i => m.shortestOfLength? tie (i + 1) with
  | none => exact absurd (List.findSome?_eq_none_iff.mp found _ range) tried
  | some taken =>
    -- no shorter count succeeds before the one that is taken
    obtain ⟨before, i, after, split, hi, missed⟩ := List.findSome?_eq_some_iff.mp found
    have least : i ≤ count - 1 := by
      rw [split] at range
      rcases List.mem_append.mp range with early | late
      · exact absurd (missed _ early) tried
      · rcases List.mem_cons.mp late with same | later
        · exact same.ge
        · have ascending := List.pairwise_lt_range (n := 17)
          rw [split, List.pairwise_append, List.pairwise_cons] at ascending
          exact (ascending.2.1.1 _ later).le
    obtain ⟨k, hk⟩ := exists_multiple_of_shortestOfLength? hi
    exact exists_multiple_of_le (by push_cast; omega) hk

/-! ### Whole numbers -/

theorem nearestRank_natCast {n : Nat} (small : n ≤ 2 ^ 53) : nearestRank (n : Rat) = n :=
  rank_ofNat small

/-- A whole number of at most 53 binary digits, the last one excepted, is written out. -/
theorem shortest_of_whole {n : Nat} (small : n < 2 ^ 53) (h : m.toRat = n) :
    (m.shortest tie).toRat = n := by
  rcases Nat.eq_zero_or_pos n with rfl | some_digit
  · rw [Nat.cast_zero] at h ⊢
    exact m.shortest_zero tie h
  · have hm : 0 < m.toRat := by
      rw [h]
      exact_mod_cast some_digit
    obtain ⟨low, high⟩ := leadingDigitPlace_spec hm
    -- the grid of the whole numbers has at most sixteen digits up to the number
    have nonneg : 0 ≤ leadingDigitPlace m.toRat := by
      have one : (10 : Rat) ^ (0 : Int) < 10 ^ (leadingDigitPlace m.toRat + 1) := by
        rw [zpow_zero]
        refine lt_of_le_of_lt ?_ high
        rw [h]
        exact_mod_cast some_digit
      have place := (zpow_lt_zpow_iff_right₀ (by norm_num : (1 : Rat) < 10)).mp one
      omega
    have few : leadingDigitPlace m.toRat < 16 := by
      have sixteen : (10 : Rat) ^ leadingDigitPlace m.toRat < 10 ^ (16 : Int) := by
        refine low.trans_lt ?_
        rw [h]
        exact_mod_cast small.trans (by decide)
      exact (zpow_lt_zpow_iff_right₀ (by norm_num : (1 : Rat) < 10)).mp sixteen
    obtain ⟨place, hplace⟩ := Int.eq_ofNat_of_zero_le nonneg
    have whole : leadingDigitPlace m.toRat - (place + 1 : Nat) + 1 = 0 := by
      rw [hplace]
      push_cast
      ring
    have read : nearestRank (n * 10 ^ (leadingDigitPlace m.toRat - (place + 1 : Nat) + 1)) =
        m.toRat := by
      rw [whole, zpow_zero, mul_one, ← h, m.nearestRank_toRat]
    obtain ⟨k, hk⟩ := exists_shortest_multiple hm tie place.succ_pos (by omega) read
    rw [whole, zpow_zero, mul_one] at hk
    have back : nearestRank (k : Rat) = n := by rw [← hk, m.nearestRank_shortest, h]
    rw [hk]
    -- the other whole numbers are read as other doubles
    rcases lt_trichotomy k n with less | same | more
    · have below := nearestRank_natCast (n := k) (by omega)
      rw [back] at below
      exact below.symm
    · rw [same]
    · have above := nearestRank_mono (Nat.cast_le.mpr more : ((n + 1 : Nat) : Rat) ≤ k)
      rw [back, nearestRank_natCast small, Nat.cast_le] at above
      omega

/-! ### Fifteen digits -/

/-- A normal number that is read as a finite double is near to it. -/
theorem abs_nearestRank_sub_le_share {q : Rat} (normal : 2 ^ (-1022 : Int) ≤ q)
    (inRange : nearestRank q < 2 ^ (1024 : Int)) : |nearestRank q - q| ≤ roundoff * q := by
  have range : q ≤ 2 ^ (1024 : Int) := by
    by_contra far
    exact absurd (nearestRank_of_limit_le (not_le.mp far).le) inRange.ne
  have high := (movesLittle_of_normal normal).le_mul
  have low := (movesLittle_of_normal normal).mul_le range
  rw [abs_le]
  constructor <;> linarith

theorem near_of_read {q : Rat} (normal : 2 ^ (-1022 : Int) ≤ q) (read : nearestRank q = m.toRat) :
    m.toRat ≤ (1 + roundoff) * q ∧ (1 - roundoff) * q ≤ m.toRat := by
  have near := abs_nearestRank_sub_le_share normal (read ▸ m.toRat_lt)
  rw [read, abs_le] at near
  constructor <;> linarith

/-- What is read as a double that is normal, and not the first one, is so itself. -/
theorem normal_of_read {q : Rat} (normal : 2 ^ (-1021 : Int) ≤ m.toRat)
    (read : nearestRank q = m.toRat) : 2 ^ (-1022 : Int) ≤ q := by
  by_contra below
  have mono := nearestRank_mono (not_le.mp below).le
  rw [read, nearestRank_two_zpow (by decide) (by decide)] at mono
  exact absurd (normal.trans mono) (not_le.mpr (two_zpow_lt_iff.mpr (by decide)))

/-- On a grid of fifteen digits two points that are near to a magnitude are less than a step
apart. -/
theorem le_of_near {a b : Nat} {step : Rat} (pos : 0 < step) (top : m.toRat < 10 ^ 15 * step)
    (below : (1 - roundoff) * (a * step) ≤ m.toRat)
    (above : m.toRat ≤ (1 + roundoff) * (b * step)) : a ≤ b := by
  by_contra apart
  have next : (b : Rat) + 1 ≤ a := by exact_mod_cast not_le.mp apart
  have share : roundoff * m.toRat < 1 / 8 * step := by
    calc roundoff * m.toRat < roundoff * (10 ^ 15 * step) := mul_lt_mul_of_pos_left top roundoff_pos
      _ = roundoff * 10 ^ 15 * step := by ring
      _ ≤ 1 / 8 * step := by
        refine mul_le_mul_of_nonneg_right ?_ pos.le
        unfold roundoff
        norm_num
  have stepped : (1 - roundoff) * (((b : Rat) + 1) * step) ≤ m.toRat := by
    refine le_trans (mul_le_mul_of_nonneg_left ?_ (by linarith [roundoff_le_half])) below
    exact mul_le_mul_of_nonneg_right next pos.le
  have nonneg : 0 ≤ (b : Rat) * step := mul_nonneg (Nat.cast_nonneg b) pos.le
  have half := mul_nonneg (sub_nonneg.mpr roundoff_le_half) nonneg
  have halfStep := mul_nonneg (sub_nonneg.mpr roundoff_le_half) pos.le
  have twice : (b : Rat) * step ≤ 2 * m.toRat := by linarith
  have moved := mul_le_mul_of_nonneg_left twice roundoff_pos.le
  linarith

section Digits

variable {d : Decimal} (few : d.digits < 10 ^ 15) (normal : 2 ^ (-1021 : Int) ≤ m.toRat)
  (read : nearestRank d.toRat = m.toRat)
include few normal read

/-- A decimal of fifteen digits lies on the grid of fifteen digits of the double it is read as, also
if that has one digit more before the point. -/
theorem exists_multiple_of_read :
    ∃ n : Nat, d.toRat = n * 10 ^ (leadingDigitPlace m.toRat - (15 : Nat) + 1) := by
  have hm : 0 < m.toRat := (two_zpow_pos _).trans_le normal
  by_cases fine : leadingDigitPlace m.toRat - (15 : Nat) + 1 ≤ d.exponent
  · exact exists_multiple_of_le fine rfl
  · exfalso
    set step : Rat := 10 ^ (leadingDigitPlace m.toRat - 15) with hstep
    have pos : 0 < step := ten_zpow_pos _
    have low : 10 ^ 15 * step ≤ m.toRat := by
      refine le_trans (le_of_eq ?_) (leadingDigitPlace_spec hm).1
      rw [hstep, ← zpow_natCast (10 : Rat) 15, ← ten_zpow_add]
      congr 1
      push_cast
      ring
    have high : d.toRat ≤ (10 ^ 15 - 1) * step := by
      have digits : (d.digits : Rat) ≤ 10 ^ 15 - 1 := by
        have whole : d.digits + 1 ≤ 10 ^ 15 := few
        have cast : ((d.digits + 1 : Nat) : Rat) ≤ (10 ^ 15 : Nat) := Nat.cast_le.mpr whole
        push_cast at cast
        linarith
      refine mul_le_mul digits ?_ (ten_zpow_pos _).le (by norm_num)
      exact ten_zpow_le_iff.mpr (by push_cast at fine; omega)
    have near := (near_of_read (normal_of_read normal read) read).1
    have share : (1 + roundoff) * (10 ^ 15 - 1) < 10 ^ 15 := by
      unfold roundoff
      norm_num
    have reached : (1 + roundoff) * d.toRat ≤ (1 + roundoff) * ((10 ^ 15 - 1) * step) :=
      mul_le_mul_of_nonneg_left high (by linarith [roundoff_pos])
    have missed := mul_lt_mul_of_pos_right share pos
    linarith

/-- **Fifteen digits survive**: the decimal is what is written for the double it is read as. -/
theorem shortest_of_read : (m.shortest tie).toRat = d.toRat := by
  have hm : 0 < m.toRat := (two_zpow_pos _).trans_le normal
  have back := m.nearestRank_shortest tie
  obtain ⟨n, hn⟩ := exists_multiple_of_read few normal read
  obtain ⟨k, hk⟩ := exists_shortest_multiple hm tie (by decide) (by decide) (hn ▸ read)
  have nearRead := near_of_read (normal_of_read normal read) read
  have nearBack := near_of_read (normal_of_read normal back) back
  have pos := ten_zpow_pos (leadingDigitPlace m.toRat - (15 : Nat) + 1)
  have top := (div_lt_iff₀ pos).mp (scaled_lt hm 15)
  rw [hn] at nearRead ⊢
  rw [hk] at nearBack ⊢
  have same : k = n := le_antisymm (le_of_near pos top nearBack.2 nearRead.1)
    (le_of_near pos top nearRead.2 nearBack.1)
  rw [same]

end Digits

end Magnitude

/-! ### Doubles with a sign -/

namespace Double

variable {x : Double}

/-- A whole number of at most 53 binary digits, the last one excepted, is written out. -/
theorem written_of_int {n : Int} (small : n.natAbs < 2 ^ 53) (finite : x.isFinite = true)
    (h : x.rank = n) : x.written = n := by
  obtain ⟨negative, m, rfl⟩ := exists_of_isFinite finite
  have whole : m.toRat = (n.natAbs : Nat) := by
    rw [← abs_rank_finite negative m, h, Nat.cast_natAbs, Int.cast_abs]
  rw [written, Magnitude.shortest_of_whole small whole, ← whole]
  exact h

theorem written_of_rank_zero (finite : x.isFinite = true) (zero : x.rank = 0) : x.written = 0 :=
  written_of_int (n := 0) (by decide) finite zero

theorem written_ofNat {n : Nat} (small : n < 2 ^ 53) : (ofNat n).written = n :=
  written_of_int (n := n) small (isFinite_ofNat small.le) (rank_ofNat small.le)

/-- A decimal of fifteen digits is what is written for a double of the same sign that it is read
as. -/
theorem written_of_read {d : Decimal} (few : d.digits < 10 ^ 15) (finite : x.isFinite = true)
    (normal : 2 ^ (-1021 : Int) ≤ |x.rank|) (read : nearestRank d.toRat = |x.rank|) :
    x.written = signed x.isNegative d.toRat := by
  obtain ⟨negative, m, rfl⟩ := exists_of_isFinite finite
  rw [abs_rank_finite] at normal read
  rw [written, Magnitude.shortest_of_read few normal read]
  rfl

/-- What is written for a double is near to it. -/
theorem abs_written_sub_le (finite : x.isFinite = true) (normal : 2 ^ (-1021 : Int) ≤ |x.rank|) :
    |x.written - x.rank| ≤ 2 * roundoff * |x.rank| := by
  obtain ⟨negative, m, rfl⟩ := exists_of_isFinite finite
  have back := m.nearestRank_shortest .away
  have distance : |(Double.finite negative m).written - (Double.finite negative m).rank| =
      |(m.shortest .away).toRat - m.toRat| := by
    cases negative with
    | false => rfl
    | true =>
      show |-(m.shortest .away).toRat - -m.toRat| = _
      rw [← abs_neg]
      congr 1
      ring
  rw [distance, abs_rank_finite]
  rw [abs_rank_finite] at normal
  obtain ⟨high, low⟩ := Magnitude.near_of_read (Magnitude.normal_of_read normal back) back
  have nonneg := (m.shortest .away).toRat_nonneg
  -- what is written is at most twice the magnitude, so that its share is at most twice as great
  have half := mul_nonneg (sub_nonneg.mpr roundoff_le_half) nonneg
  have twice : (m.shortest .away).toRat ≤ 2 * m.toRat := by linarith
  have share := mul_le_mul_of_nonneg_left twice roundoff_pos.le
  rw [abs_le]
  constructor <;> linarith

end Double

end ExamAdmission
