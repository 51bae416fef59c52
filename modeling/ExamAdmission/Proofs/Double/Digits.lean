/-
Seventeen digits suffice.

Two doubles differ by the share `2 ^ (-53)` of either at least, and on the grid of seventeen digits
one of the two neighbours of a number differs from it by the share `5 / 10 ^ 17` at most, which is
less than half of that.  So one of the two reads back, and the search for the shortest decimal that
does ends in its range:

* `leadingDigitPlace_spec` — the place of the first decimal digit is found exactly;
* `Magnitude.gap_le` — the distance of two doubles;
* `Magnitude.nearestRank_of_near` — what is nearer to a magnitude than half of it is rounded to it;
* `Magnitude.shortest_digits_lt` — **what is written for a magnitude has at most seventeen digits**;
* `Decimal.toDouble_congr`, `Magnitude.toDouble_shortest` — a decimal is read by its value, and the
  one that is written for a magnitude is read as the magnitude.
-/
import ExamAdmission.Proofs.Double.Written

namespace ExamAdmission

/-! ### The first decimal digit -/

theorem toDigits_spec {n : Nat} (hn : n ≠ 0) :
    (10 : Rat) ^ (((Nat.toDigits 10 n).length : Int) - 1) ≤ n ∧
      (n : Rat) < 10 ^ ((Nat.toDigits 10 n).length : Int) := by
  have size := Decimal.wholeDigits_spec (d := ⟨n, 0⟩) hn
  simpa [Decimal.wholeDigits, Decimal.toRat] using size

/-- The place of the first decimal digit is found exactly. -/
theorem leadingDigitPlace_spec {q : Rat} (hq : 0 < q) :
    (10 : Rat) ^ leadingDigitPlace q ≤ q ∧ q < 10 ^ (leadingDigitPlace q + 1) := by
  have hnum : 0 < q.num := Rat.num_pos.mpr hq
  have hden : (0 : Rat) < q.den := by exact_mod_cast q.den_pos
  obtain ⟨numLow, numHigh⟩ := toDigits_spec (n := q.num.natAbs) (by omega)
  obtain ⟨denLow, denHigh⟩ := toDigits_spec q.den_ne_zero
  have value : q * q.den = q.num.natAbs := by
    rw [Rat.mul_den_eq_num, Nat.cast_natAbs, abs_of_pos hnum]
  set a : Int := (((Nat.toDigits 10 q.num.natAbs).length : Nat) : Int)
  set b : Int := (((Nat.toDigits 10 q.den).length : Nat) : Int)
  -- the digits of numerator and denominator leave only two places for the quotient
  have high : q < 10 ^ (a - b + 1) := by
    refine lt_of_mul_lt_mul_right ?_ hden.le
    calc q * q.den < 10 ^ a := by rw [value]; exact numHigh
      _ = 10 ^ (a - b + 1) * 10 ^ (b - 1) := by rw [← ten_zpow_add]; congr 1; ring
      _ ≤ 10 ^ (a - b + 1) * q.den := mul_le_mul_of_nonneg_left denLow (ten_zpow_pos _).le
  have low : (10 : Rat) ^ (a - b - 1) < q := by
    refine lt_of_mul_lt_mul_right ?_ hden.le
    calc (10 : Rat) ^ (a - b - 1) * q.den < 10 ^ (a - b - 1) * 10 ^ b :=
          mul_lt_mul_of_pos_left denHigh (ten_zpow_pos _)
      _ = 10 ^ (a - 1) := by rw [← ten_zpow_add]; congr 1; ring
      _ ≤ q * q.den := by rw [value]; exact numLow
  unfold leadingDigitPlace
  dsimp only
  split
  · next fits => exact ⟨fits, high⟩
  · next misses => exact ⟨low.le, by rw [sub_add_cancel]; exact not_le.mp misses⟩

/-! ### The distance of two doubles -/

namespace Magnitude

variable {m n : Magnitude}

theorem exponent_le_of_toRat_le (h : m.toRat ≤ n.toRat) : m.exponent ≤ n.exponent := by
  by_contra above
  exact absurd h (not_le.mpr (toRat_lt_of_exponent_lt (not_le.mp above)))

/-- The share `2 ^ (-53)` of a magnitude is at most a unit of its last place. -/
theorem share_le_unit (m : Magnitude) : 2 ^ (-53 : Int) * m.toRat ≤ 2 ^ m.exponent := by
  have digits := m.canonical.1
  have top : m.toRat ≤ 2 ^ (53 + m.exponent) := mul_two_zpow_le (k := 53) (by omega) le_rfl
  have scaled := mul_le_mul_of_nonneg_left top (two_zpow_pos (-53)).le
  rwa [← two_zpow_add, show -53 + (53 + m.exponent) = m.exponent by ring] at scaled

/-- Above a magnitude there is no other within a unit of its last place. -/
theorem add_unit_le (h : m.toRat < n.toRat) : m.toRat + 2 ^ m.exponent ≤ n.toRat := by
  -- the upper one is a multiple of the same unit
  obtain ⟨shift, hshift⟩ := Int.le.dest (exponent_le_of_toRat_le h.le)
  have value : n.toRat = (n.significand * 2 ^ shift : Nat) * 2 ^ m.exponent := by
    rw [toRat, ← hshift, two_zpow_add, Nat.cast_mul, two_pow_cast]
    ring
  rw [value, toRat] at h
  have digits : m.significand < n.significand * 2 ^ shift := by
    exact_mod_cast lt_of_mul_lt_mul_right h (two_zpow_pos _).le
  have step : ((m.significand + 1 : Nat) : Rat) ≤ (n.significand * 2 ^ shift : Nat) := by
    exact_mod_cast digits
  have scaled := mul_le_mul_of_nonneg_right step (two_zpow_pos m.exponent).le
  rw [value, toRat]
  push_cast at scaled ⊢
  linarith

theorem add_unit_le_limit (m : Magnitude) : m.toRat + 2 ^ m.exponent ≤ 2 ^ (1024 : Int) := by
  have canonical := m.canonical
  unfold IsCanonical at canonical
  calc m.toRat + 2 ^ m.exponent = ((m.significand + 1 : Nat) : Rat) * 2 ^ m.exponent := by
        rw [toRat]
        push_cast
        ring
    _ ≤ 2 ^ (1024 : Int) := mul_two_zpow_le (k := 53) (by omega) (by omega)

/-- A magnitude of a lower binade stays below the first of a binade by half a unit. -/
theorem add_half_unit_le (lower : n.exponent < m.exponent) :
    n.toRat + 2 ^ (m.exponent - 1) ≤ (2 ^ 53 : Nat) * 2 ^ (m.exponent - 1) := by
  have low := n.canonical
  unfold IsCanonical at low
  have digits : ((n.significand + 1 : Nat) : Rat) ≤ (2 ^ 53 : Nat) := by
    exact_mod_cast low.1
  have place : (2 : Rat) ^ n.exponent ≤ 2 ^ (m.exponent - 1) := two_zpow_le_iff.mpr (by omega)
  have value : n.toRat ≤ n.significand * 2 ^ (m.exponent - 1) :=
    mul_le_mul_of_nonneg_left place (Nat.cast_nonneg _)
  have scaled := mul_le_mul_of_nonneg_right digits (two_zpow_pos (m.exponent - 1)).le
  push_cast at scaled ⊢
  linarith

/-- Below a magnitude there is no other within its share `2 ^ (-53)`. -/
theorem add_share_le (h : n.toRat < m.toRat) : n.toRat + 2 ^ (-53 : Int) * m.toRat ≤ m.toRat := by
  rcases (exponent_le_of_toRat_le h.le).eq_or_lt with same | lower
  · have step := add_unit_le h
    rw [same] at step
    linarith [m.share_le_unit]
  · have below := add_half_unit_le lower
    have high := m.canonical
    have low := n.canonical
    unfold IsCanonical at high low
    have unit : (2 : Rat) ^ m.exponent = 2 * 2 ^ (m.exponent - 1) := by
      rw [← zpow_one_add₀ (by norm_num)]
      congr 1
      ring
    have pos := two_zpow_pos (m.exponent - 1)
    by_cases first : m.significand = 2 ^ 52
    · have value : m.toRat = (2 ^ 53 : Nat) * 2 ^ (m.exponent - 1) := by
        rw [toRat, first, unit]
        push_cast
        ring
      have share : 2 ^ (-53 : Int) * m.toRat = 2 ^ (m.exponent - 1) := by
        rw [value, two_pow_cast, ← mul_assoc, ← two_zpow_add]
        norm_num
      rw [share, value]
      exact below
    · -- any other is a whole unit above the first
      have digits : ((2 ^ 52 + 1 : Nat) : Rat) ≤ m.significand := by
        exact_mod_cast (show 2 ^ 52 + 1 ≤ m.significand by omega)
      have scaled := mul_le_mul_of_nonneg_right digits (two_zpow_pos m.exponent).le
      have value : m.toRat = m.significand * 2 ^ m.exponent := rfl
      have share := m.share_le_unit
      rw [← value, unit] at scaled
      rw [unit] at share
      push_cast at scaled below
      linarith

/-- **Two doubles differ by the share `2 ^ (-53)` at least.** -/
theorem gap_le {x : Double} (h : x.rank ≠ m.toRat) :
    2 ^ (-53 : Int) * m.toRat ≤ |x.rank - m.toRat| := by
  have share := m.share_le_unit
  have unit := m.add_unit_le_limit
  rcases Double.rank_cases x with hx | ⟨n, hx⟩ | hx
  · -- at or below zero the distance is the whole magnitude
    have whole : 2 ^ (-53 : Int) * m.toRat ≤ 1 * m.toRat :=
      mul_le_mul_of_nonneg_right (by norm_num) m.toRat_nonneg
    rw [abs_of_nonpos (by linarith [m.toRat_nonneg])]
    linarith
  · rw [hx] at h ⊢
    rcases lt_or_gt_of_ne h with below | above
    · have step := add_share_le below
      rw [abs_of_neg (by linarith)]
      linarith
    · have step := add_unit_le above
      rw [abs_of_pos (by linarith)]
      linarith
  · rw [hx, abs_of_nonneg (by linarith [m.toRat_lt])]
    linarith

/-- What is nearer to a magnitude than half the distance of two doubles is rounded to it. -/
theorem nearestRank_of_near {q : Rat} (near : |q - m.toRat| < 2 ^ (-54 : Int) * m.toRat) :
    Double.nearestRank q = m.toRat := by
  by_contra other
  have gap := gap_le (x := Double.ofRat false q) other
  have nearest := Double.abs_nearestRank_sub_le q (.finite false m)
  have triangle := abs_sub_le (Double.nearestRank q) q m.toRat
  have half : (2 : Rat) ^ (-53 : Int) = 2 * 2 ^ (-54 : Int) := by norm_num
  have place : (Double.finite false m).rank = m.toRat := rfl
  have rounded : (Double.ofRat false q).rank = Double.nearestRank q := rfl
  rw [place, abs_sub_comm m.toRat] at nearest
  rw [rounded, half] at gap
  linarith

end Magnitude

/-! ### Reading by value -/

namespace Double

/-- A rounded magnitude keeps its sign. -/
theorem nearest_cases (negative : Bool) (q : Rat) :
    nearest negative q = infinity negative ∨ ∃ m, nearest negative q = finite negative m := by
  unfold nearest
  split
  · exact Or.inr ⟨_, rfl⟩
  · dsimp only
    unfold ofParts
    split
    · exact Or.inr ⟨_, rfl⟩
    · split
      · exact Or.inr ⟨_, rfl⟩
      · exact Or.inl rfl

theorem signed_injective (negative : Bool) {q r : Rat} (h : signed negative q = signed negative r) :
    q = r := by
  cases negative with
  | false => exact h
  | true => exact neg_injective h

end Double

namespace Decimal

variable {d d' : Decimal} {m : Magnitude}

theorem toDouble_cases (negative : Bool) (d : Decimal) :
    d.toDouble negative = .infinity negative ∨ ∃ m, d.toDouble negative = .finite negative m := by
  unfold toDouble
  split
  · exact Or.inr ⟨_, rfl⟩
  · split
    · exact Or.inl rfl
    · split
      · exact Or.inr ⟨_, rfl⟩
      · exact Double.nearest_cases _ _

theorem rank_toDouble_eq_signed (negative : Bool) (d : Decimal) :
    (d.toDouble negative).rank = Double.signed negative (Double.nearestRank d.toRat) := by
  rw [rank_toDouble]
  cases negative with
  | false => rfl
  | true => exact Double.nearestRank_neg _

/-- A decimal is read as the magnitude that its value is rounded to. -/
theorem toDouble_eq_finite (negative : Bool) (h : Double.nearestRank d.toRat = m.toRat) :
    d.toDouble negative = .finite negative m := by
  have place := d.rank_toDouble_eq_signed negative
  rw [h] at place
  rcases d.toDouble_cases negative with far | ⟨n, hn⟩
  · rw [far] at place
    exact absurd (Double.signed_injective negative place).symm m.toRat_lt.ne
  · rw [hn] at place ⊢
    rw [Magnitude.toRat_injective (Double.signed_injective negative place)]

theorem toDouble_eq_infinity (negative : Bool)
    (h : Double.nearestRank d.toRat = 2 ^ (1024 : Int)) :
    d.toDouble negative = .infinity negative := by
  have place := d.rank_toDouble_eq_signed negative
  rw [h] at place
  rcases d.toDouble_cases negative with far | ⟨n, hn⟩
  · exact far
  · rw [hn] at place
    exact absurd (Double.signed_injective negative place) n.toRat_lt.ne

/-- **A decimal is read by its value**, however it is written. -/
theorem toDouble_congr (negative : Bool) (h : d.toRat = d'.toRat) :
    d.toDouble negative = d'.toDouble negative := by
  have place := d'.rank_toDouble_eq_signed negative
  rw [← h] at place
  rcases d'.toDouble_cases negative with far | ⟨n, hn⟩
  · rw [far] at place ⊢
    exact toDouble_eq_infinity negative (Double.signed_injective negative place).symm
  · rw [hn] at place ⊢
    exact toDouble_eq_finite negative (Double.signed_injective negative place).symm

end Decimal

/-! ### The shortest decimal -/

namespace Magnitude

variable {m : Magnitude} {tie : Tie}

/-- The decimal that is written for a magnitude is read as the magnitude. -/
theorem toDouble_shortest (tie : Tie) (negative : Bool) (m : Magnitude) :
    (m.shortest tie).toDouble negative = .finite negative m :=
  Decimal.toDouble_eq_finite negative (m.nearestRank_shortest tie)

theorem isReadFrom_of_near {d : Decimal} (near : |d.toRat - m.toRat| < 2 ^ (-54 : Int) * m.toRat) :
    m.isReadFrom d = true :=
  decide_eq_true (Decimal.toDouble_eq_finite false (nearestRank_of_near near))

/-- On the grid of `count` digits a magnitude has so many digits before the point. -/
theorem scaled_lt (hm : 0 < m.toRat) (count : Nat) :
    m.toRat / 10 ^ (leadingDigitPlace m.toRat - count + 1) < 10 ^ count := by
  rw [div_lt_iff₀ (ten_zpow_pos _), ← zpow_natCast, ← ten_zpow_add]
  refine (leadingDigitPlace_spec hm).2.trans_eq ?_
  congr 1
  ring

/-- A step of the grid of seventeen digits is less than the distance of two doubles. -/
theorem half_step_lt (hm : 0 < m.toRat) :
    1 / 2 * 10 ^ (leadingDigitPlace m.toRat - (17 : Nat) + 1) < 2 ^ (-54 : Int) * m.toRat := by
  have low := (leadingDigitPlace_spec hm).1
  have step : (10 : Rat) ^ (leadingDigitPlace m.toRat - (17 : Nat) + 1) =
      10 ^ leadingDigitPlace m.toRat * 10 ^ (-16 : Int) := by
    rw [← ten_zpow_add]
    congr 1
    push_cast
    ring
  have share : 1 / 2 * (10 : Rat) ^ (-16 : Int) < 2 ^ (-54 : Int) := by norm_num
  calc 1 / 2 * 10 ^ (leadingDigitPlace m.toRat - (17 : Nat) + 1)
      = 1 / 2 * 10 ^ (-16 : Int) * 10 ^ leadingDigitPlace m.toRat := by rw [step]; ring
    _ ≤ 1 / 2 * 10 ^ (-16 : Int) * m.toRat := mul_le_mul_of_nonneg_left low (by positivity)
    _ < 2 ^ (-54 : Int) * m.toRat := mul_lt_mul_of_pos_right share hm

section Neighbours

variable {count below : Nat} {place : Int}

theorem toRat_lower (below : Nat) (place : Int) :
    (⟨below, place⟩ : Decimal).toRat = below * 10 ^ place := rfl

/-- The upper neighbour is the next step of the grid, also where it carries through all digits. -/
theorem toRat_upper (below count : Nat) (place : Int) :
    (if below + 1 = Nat.pow 10 count then (⟨1, place + count⟩ : Decimal)
      else ⟨below + 1, place⟩).toRat = (below + 1) * 10 ^ place := by
  split
  · next carry =>
    have digits : ((below + 1 : Nat) : Rat) = 10 ^ (count : Int) := by
      rw [carry, zpow_natCast]
      exact Nat.cast_pow 10 count
    rw [Decimal.toRat, ten_zpow_add, ← digits]
    push_cast
    ring
  · rw [Decimal.toRat]
    push_cast
    rfl

theorem digits_upper_lt (below_lt : below < 10 ^ count) (some_digit : count ≠ 0) :
    (if below + 1 = Nat.pow 10 count then (⟨1, place + count⟩ : Decimal)
      else ⟨below + 1, place⟩).digits < 10 ^ count := by
  split
  · exact Nat.one_lt_pow some_digit (by omega)
  · next carry => exact lt_of_le_of_ne below_lt carry

end Neighbours

theorem floor_toNat_cast {q : Rat} (hq : 0 ≤ q) : (q.floor.toNat : Rat) = q.floor := by
  have nonneg : 0 ≤ q.floor := Rat.le_floor_iff.mpr (by simpa using hq)
  exact_mod_cast Int.toNat_of_nonneg nonneg

/-- Of the two neighbours on a grid one is at most half a step away. -/
theorem neighbour_near {q step : Rat} (hq : 0 ≤ q) (pos : 0 < step) :
    |((q / step).floor.toNat : Rat) * step - q| ≤ 1 / 2 * step ∨
      |((q / step).floor.toNat + 1 : Rat) * step - q| ≤ 1 / 2 * step := by
  rw [floor_toNat_cast (div_nonneg hq pos.le)]
  have value : q = q / step * step := (div_mul_cancel₀ _ pos.ne').symm
  have low := Rat.floor_le (q / step)
  have high := Rat.lt_floor_add_one (q / step)
  push_cast at high
  set scaled := q / step
  rw [value, ← sub_mul, ← sub_mul, abs_mul, abs_mul, abs_of_pos pos,
    abs_of_nonpos (show (scaled.floor : Rat) - scaled ≤ 0 by linarith),
    abs_of_nonneg (show 0 ≤ (scaled.floor : Rat) + 1 - scaled by linarith)]
  rcases le_total (scaled - scaled.floor) (1 / 2) with nearer | nearer
  · exact Or.inl (mul_le_mul_of_nonneg_right (by linarith) pos.le)
  · exact Or.inr (mul_le_mul_of_nonneg_right (by linarith) pos.le)

theorem floor_toNat_lt (hm : 0 < m.toRat) (count : Nat) :
    (m.toRat / 10 ^ (leadingDigitPlace m.toRat - count + 1)).floor.toNat < 10 ^ count := by
  have nonneg := div_nonneg m.toRat_nonneg (ten_zpow_pos (leadingDigitPlace m.toRat - count + 1)).le
  have below := (Rat.floor_le _).trans_lt (scaled_lt hm count)
  rw [← floor_toNat_cast nonneg] at below
  exact_mod_cast below

theorem digits_lt_of_shortestOfLength? {count : Nat} {d : Decimal} (hm : 0 < m.toRat)
    (some_digit : count ≠ 0) (h : m.shortestOfLength? tie count = some d) :
    d.digits < 10 ^ count := by
  have lower := floor_toNat_lt hm count
  unfold shortestOfLength? at h
  dsimp only at h
  split at h
  · cases h
    split
    · exact lower
    · exact digits_upper_lt lower some_digit
  · cases h
    exact lower
  · cases h
    exact digits_upper_lt lower some_digit
  · cases h

/-- On a grid that is finer than the distance of two doubles one of the neighbours reads back. -/
theorem exists_shortestOfLength? {count : Nat} (tie : Tie)
    (fine : 1 / 2 * 10 ^ (leadingDigitPlace m.toRat - count + 1) < 2 ^ (-54 : Int) * m.toRat) :
    ∃ d, m.shortestOfLength? tie count = some d := by
  have near := neighbour_near m.toRat_nonneg (ten_zpow_pos (leadingDigitPlace m.toRat - count + 1))
  unfold shortestOfLength?
  dsimp only
  split
  · exact ⟨_, rfl⟩
  · exact ⟨_, rfl⟩
  · exact ⟨_, rfl⟩
  · next lower upper =>
    rcases near with near | near
    · rw [← toRat_lower] at near
      rw [isReadFrom_of_near (near.trans_lt fine)] at lower
      cases lower
    · rw [← toRat_upper _ count] at near
      rw [isReadFrom_of_near (near.trans_lt fine)] at upper
      cases upper

/-- **What is written for a magnitude has at most seventeen digits.** -/
theorem shortest_digits_lt (tie : Tie) (m : Magnitude) : (m.shortest tie).digits < 10 ^ 17 := by
  unfold shortest
  split
  · exact Nat.pow_pos (by omega)
  · next nonzero =>
    have hm : 0 < m.toRat := lt_of_le_of_ne m.toRat_nonneg
      fun zero => nonzero (toRat_eq_zero_iff.mp zero.symm)
    obtain ⟨d, hd⟩ := exists_shortestOfLength? tie (half_step_lt hm)
    cases found : (List.range 17).findSome? fun i => m.shortestOfLength? tie (i + 1) with
    | none =>
      have missing := List.findSome?_eq_none_iff.mp found 16 (List.mem_range.mpr (by omega))
      rw [hd] at missing
      cases missing
    | some d =>
      obtain ⟨i, hi, taken⟩ := List.exists_of_findSome?_eq_some found
      have few := List.mem_range.mp hi
      exact (digits_lt_of_shortestOfLength? hm i.succ_ne_zero taken).trans_le
        (Nat.pow_le_pow_right (by omega) (by omega))

/-- Only zero is written without a digit. -/
theorem shortest_exponent_of_zero (tie : Tie) (m : Magnitude)
    (h : (m.shortest tie).digits = 0) : (m.shortest tie).exponent = 0 := by
  have back := m.nearestRank_shortest tie
  rw [Decimal.toRat, h, Nat.cast_zero, zero_mul, Double.nearestRank_zero] at back
  rw [shortest, if_pos (toRat_eq_zero_iff.mp back.symm)]

end Magnitude

end ExamAdmission
