/-
Written digits: decimals read as doubles, and doubles written as decimals.

Reading cuts off decimals that are far out of range before it looks at their exact value, and
writing takes the first candidate that reads back.  Neither shows on the number line:

* `Decimal.rank_toDouble` — a decimal is read as the double nearest to it, however large or small;
* `Magnitude.nearestRank_shortest` — what is written for a magnitude reads back to it;
* `Magnitude.toRat_injective` — the canonical form of a magnitude is unique;
* `Double.written_le_written` — written digits keep the order of the doubles they are written for.
-/
import ExamAdmission.Double.Decimal
import ExamAdmission.Proofs.Double.Order

namespace ExamAdmission

/-! ### Reading a decimal -/

namespace Double

/-- From the first power of two out of range on, everything is rounded to the infinities. -/
theorem nearestRank_eq_limit {q : Rat} (h : 2 ^ (1024 : Int) ≤ q) :
    nearestRank q = 2 ^ (1024 : Int) := by
  refine le_antisymm (rank_le_limit (ofRat false q)) ?_
  calc (2 : Rat) ^ (1024 : Int) = (infinity false).rank := rfl
    _ = nearestRank (2 ^ (1024 : Int)) := (nearestRank_rank (infinity false)).symm
    _ ≤ nearestRank q := nearestRank_mono h

/-- Next to zero there is no double up to the smallest magnitude. -/
theorem smallest_le_rank {x : Double} (h : 0 < x.rank) : (2 : Rat) ^ (-1074 : Int) ≤ x.rank := by
  rcases rank_cases x with hx | ⟨m, hx⟩ | hx
  · exact absurd h (not_lt.mpr hx)
  · rw [hx] at h ⊢
    have digits : m.significand ≠ 0 := fun none => h.ne' (Magnitude.toRat_eq_zero_iff.mpr none)
    have place := m.exponent_ge
    exact two_zpow_le_mul (k := 0) (Nat.one_le_iff_ne_zero.mpr digits) (by push_cast; omega)
  · rw [hx]
    exact two_zpow_le_iff.mpr (by omega)

/-- Less than half of the smallest magnitude is rounded to zero. -/
theorem nearestRank_eq_zero {q : Rat} (hq : 0 ≤ q) (h : q < 2 ^ (-1075 : Int)) :
    nearestRank q = 0 := by
  have nonneg : 0 ≤ nearestRank q := nearestRank_zero ▸ nearestRank_mono hq
  by_contra nonzero
  -- then the smallest magnitude would be nearer than zero
  have large : (2 : Rat) ^ (-1074 : Int) ≤ nearestRank q :=
    smallest_le_rank (lt_of_le_of_ne nonneg (Ne.symm nonzero))
  have double : (2 : Rat) ^ (-1074 : Int) = 2 * 2 ^ (-1075 : Int) := by
    rw [show (-1074 : Int) = 1 + -1075 by norm_num, two_zpow_add, zpow_one]
  have near := abs_nearestRank_sub_le q (zero false)
  rw [rank_zero, zero_sub, abs_neg, abs_of_nonneg hq] at near
  have far := le_abs_self (nearestRank q - q)
  linarith

end Double

theorem ten_zpow_pos (e : Int) : (0 : Rat) < 10 ^ e := zpow_pos (by norm_num) e

theorem ten_zpow_le_iff {e f : Int} : (10 : Rat) ^ e ≤ 10 ^ f ↔ e ≤ f :=
  zpow_le_zpow_iff_right₀ (by norm_num)

theorem ten_zpow_add (e f : Int) : (10 : Rat) ^ (e + f) = 10 ^ e * 10 ^ f :=
  zpow_add₀ (by norm_num) e f

theorem limit_le_ten_zpow : (2 : Rat) ^ (1024 : Int) ≤ 10 ^ (310 : Int) := by
  rw [show (1024 : Int) = ((1024 : Nat) : Int) from rfl, show (310 : Int) = ((310 : Nat) : Int) from rfl,
    zpow_natCast, zpow_natCast]
  exact_mod_cast (by decide +kernel : 2 ^ 1024 ≤ 10 ^ 310)

theorem ten_zpow_lt_smallest : (10 : Rat) ^ (-331 : Int) < 2 ^ (-1075 : Int) := by
  rw [show (-331 : Int) = -((331 : Nat) : Int) from rfl,
    show (-1075 : Int) = -((1075 : Nat) : Int) from rfl, zpow_neg, zpow_neg, zpow_natCast,
    zpow_natCast, inv_lt_inv₀ (by positivity) (by positivity)]
  exact_mod_cast (by decide +kernel : 2 ^ 1075 < 10 ^ 331)

namespace Decimal

theorem toRat_nonneg (d : Decimal) : 0 ≤ d.toRat :=
  mul_nonneg (Nat.cast_nonneg _) (ten_zpow_pos _).le

theorem toRat_shift (d : Decimal) (places : Int) :
    (d.shift places).toRat = d.toRat * 10 ^ places := by
  rw [toRat, toRat, shift, ten_zpow_add, mul_assoc]

/-- The number of digits before the point tells the size of a decimal. -/
theorem wholeDigits_spec {d : Decimal} (h : d.digits ≠ 0) :
    (10 : Rat) ^ (d.wholeDigits - 1) ≤ d.toRat ∧ d.toRat < 10 ^ d.wholeDigits := by
  have some_digit : 0 < (Nat.toDigits 10 d.digits).length := Nat.length_toDigits_pos
  set count := (Nat.toDigits 10 d.digits).length with hcount
  have high : d.digits < 10 ^ count :=
    (Nat.length_toDigits_le_iff (by omega) some_digit).mp hcount.ge
  have low : 10 ^ (count - 1) ≤ d.digits := by
    by_cases one : count = 1
    · rw [one]
      exact Nat.one_le_iff_ne_zero.mpr h
    · by_contra fewer
      have short := (Nat.length_toDigits_le_iff (by omega) (by omega : 0 < count - 1)).mpr
        (not_le.mp fewer)
      omega
  have whole : d.wholeDigits = count + d.exponent := rfl
  constructor
  · rw [whole, show (count : Int) + d.exponent - 1 = ((count - 1 : Nat) : Int) + d.exponent by omega,
      ten_zpow_add, zpow_natCast, toRat]
    exact mul_le_mul_of_nonneg_right (by exact_mod_cast low) (ten_zpow_pos _).le
  · rw [whole, ten_zpow_add, zpow_natCast, toRat]
    exact mul_lt_mul_of_pos_right (by exact_mod_cast high) (ten_zpow_pos _)

/-- **A decimal is read as the double nearest to it**, also where its size alone decides. -/
theorem rank_toDouble (negative : Bool) (d : Decimal) :
    (d.toDouble negative).rank = Double.nearestRank (Double.signed negative d.toRat) := by
  have sign : ∀ q : Rat, Double.nearestRank (Double.signed negative q) =
      Double.signed negative (Double.nearestRank q) := by
    intro q
    cases negative with
    | false => rfl
    | true => exact Double.nearestRank_neg q
  unfold toDouble
  split
  · next none =>
    rw [Double.rank_zero, toRat, none, Nat.cast_zero, zero_mul]
    cases negative <;> simp [Double.signed]
  · next digits =>
    obtain ⟨low, high⟩ := wholeDigits_spec digits
    split
    · next large =>
      -- at least `10 ^ 310`
      have outOfRange : (2 : Rat) ^ (1024 : Int) ≤ d.toRat :=
        limit_le_ten_zpow.trans ((ten_zpow_le_iff.mpr (by omega)).trans low)
      rw [sign, Double.nearestRank_eq_limit outOfRange]
      rfl
    · split
      · next small =>
        -- below `10 ^ -331`
        have inGap : d.toRat < 2 ^ (-1075 : Int) :=
          high.trans_le ((ten_zpow_le_iff.mpr (by omega)).trans ten_zpow_lt_smallest.le)
        rw [sign, Double.nearestRank_eq_zero d.toRat_nonneg inGap, Double.rank_zero]
        cases negative <;> simp [Double.signed]
      · exact Double.rank_nearest negative d.toRat_nonneg

theorem toDouble_ne_nan (negative : Bool) (d : Decimal) : d.toDouble negative ≠ .nan := by
  unfold toDouble
  split
  · exact Double.noConfusion
  · split
    · exact Double.noConfusion
    · split
      · exact Double.noConfusion
      · exact Double.nearest_ne_nan _ _

end Decimal

/-! ### Writing a magnitude -/

namespace Magnitude

variable {m n : Magnitude}

theorem toRat_exactDecimal (m : Magnitude) : m.exactDecimal.toRat = m.toRat := by
  unfold exactDecimal
  split
  · next nonneg =>
    -- a whole number
    obtain ⟨e, he⟩ := Int.eq_ofNat_of_zero_le nonneg
    rw [Decimal.toRat, toRat, he, Int.toNat_natCast, zpow_zero, mul_one, zpow_natCast,
      show Nat.pow 2 e = 2 ^ e from rfl]
    push_cast
    rfl
  · next negative =>
    -- so many fives in the numerator leave the twos of the denominator
    obtain ⟨e, he⟩ := Int.eq_ofNat_of_zero_le (show 0 ≤ -m.exponent by omega)
    have place : m.exponent = -(e : Int) := by omega
    have tens : (10 : Rat) ^ (-(e : Int)) = (5 ^ e)⁻¹ * 2 ^ (-(e : Int)) := by
      rw [show (10 : Rat) = 5 * 2 by norm_num, mul_zpow, zpow_neg, zpow_natCast]
    rw [Decimal.toRat, toRat, he, Int.toNat_natCast, place, tens]
    have five : (5 : Rat) ^ e ≠ 0 := pow_ne_zero _ (by norm_num)
    show ((m.significand * 5 ^ e : Nat) : Rat) * ((5 ^ e)⁻¹ * 2 ^ (-(e : Int))) = _
    push_cast
    rw [← mul_assoc, mul_assoc (m.significand : Rat), mul_inv_cancel₀ five, mul_one]

theorem nearestRank_toRat (m : Magnitude) : Double.nearestRank m.toRat = m.toRat :=
  Double.nearestRank_rank (.finite false m)

theorem nearestRank_of_isReadFrom {d : Decimal} (h : m.isReadFrom d = true) :
    Double.nearestRank d.toRat = m.toRat := by
  have read : d.toDouble false = .finite false m := of_decide_eq_true h
  have place := d.rank_toDouble false
  rw [read] at place
  exact place.symm

/-- A candidate is taken only if it reads back. -/
theorem isReadFrom_of_shortestOfLength? {tie : Tie} {count : Nat} {d : Decimal}
    (h : m.shortestOfLength? tie count = some d) : m.isReadFrom d = true := by
  unfold shortestOfLength? at h
  dsimp only at h
  split at h
  · next lower upper =>
    cases h
    split
    · exact lower
    · exact upper
  · next lower _ =>
    cases h
    exact lower
  · next _ upper =>
    cases h
    exact upper
  · cases h

/-- **What is written for a magnitude reads back to it.** -/
theorem nearestRank_shortest (tie : Tie) (m : Magnitude) :
    Double.nearestRank (m.shortest tie).toRat = m.toRat := by
  unfold shortest
  split
  · next zero =>
    simp [Decimal.toRat, toRat, zero]
  · -- the first candidate that reads back, or else the exact decimal, which does
    cases found : (List.range 17).findSome? fun i => m.shortestOfLength? tie (i + 1) with
    | none => rw [Option.getD_none, toRat_exactDecimal, nearestRank_toRat]
    | some d =>
      obtain ⟨i, -, hi⟩ := List.exists_of_findSome?_eq_some found
      exact nearestRank_of_isReadFrom (isReadFrom_of_shortestOfLength? hi)

/-- A canonical magnitude in a lower binade is smaller. -/
theorem toRat_lt_of_exponent_lt (h : m.exponent < n.exponent) : m.toRat < n.toRat := by
  have low := m.canonical
  have high := n.canonical
  unfold IsCanonical at low high
  calc m.toRat < 2 ^ (53 + m.exponent) := mul_two_zpow_lt (k := 53) low.1 le_rfl
    _ ≤ n.toRat := two_zpow_le_mul (k := 52) (by omega) (by push_cast; omega)

/-- The canonical form of a magnitude is unique. -/
theorem toRat_injective (h : m.toRat = n.toRat) : m = n := by
  rcases lt_trichotomy m.exponent n.exponent with lt | eq | gt
  · exact absurd h (toRat_lt_of_exponent_lt lt).ne
  · have digits : m.significand = n.significand := by
      rw [toRat, toRat, eq] at h
      exact_mod_cast mul_right_cancel₀ (two_zpow_pos _).ne' h
    cases m
    cases n
    simp only at digits eq
    subst digits eq
    rfl
  · exact absurd h.symm (toRat_lt_of_exponent_lt gt).ne

theorem shortest_zero (tie : Tie) (h : m.toRat = 0) : (m.shortest tie).toRat = 0 := by
  rw [shortest, if_pos (toRat_eq_zero_iff.mp h)]
  simp [Decimal.toRat]

end Magnitude

/-! ### The written digits of a double -/

namespace Double

/-- The number that the digits of a finite double say. -/
def written : Double → Rat
  | finite negative m => signed negative (m.shortest .away).toRat
  | _ => 0

variable {x y : Double}

theorem nearestRank_written (h : x.isFinite = true) : nearestRank x.written = x.rank := by
  obtain ⟨negative, m, rfl⟩ := exists_of_isFinite h
  have read := m.nearestRank_shortest .away
  cases negative with
  | false => exact read
  | true => exact (nearestRank_neg _).trans (congrArg (-·) read)

theorem abs_rank_finite (negative : Bool) (m : Magnitude) :
    |(finite negative m).rank| = m.toRat := by
  cases negative with
  | false => exact abs_of_nonneg m.toRat_nonneg
  | true => exact (abs_neg _).trans (abs_of_nonneg m.toRat_nonneg)

/-- Only zero has two signs. -/
theorem sign_eq_of_signed_eq {s t : Bool} {q : Rat} (hq : q ≠ 0) (h : signed s q = signed t q) :
    s = t := by
  cases s with
  | false =>
    cases t with
    | false => rfl
    | true => exact absurd (self_eq_neg.mp h) hq
  | true =>
    cases t with
    | false => exact absurd (neg_eq_self.mp h) hq
    | true => rfl

/-- The digits depend on the place alone. -/
theorem written_eq_of_rank_eq (hx : x.isFinite = true) (hy : y.isFinite = true)
    (h : x.rank = y.rank) : x.written = y.written := by
  obtain ⟨s, m, rfl⟩ := exists_of_isFinite hx
  obtain ⟨t, n, rfl⟩ := exists_of_isFinite hy
  have same : m = n := by
    refine Magnitude.toRat_injective ?_
    rw [← abs_rank_finite s m, h, abs_rank_finite]
  subst same
  by_cases zero : m.toRat = 0
  · -- the zeros of both signs are at one place, and have no digits
    have digits := Magnitude.shortest_zero .away zero
    cases s <;> cases t <;> simp [written, signed, digits]
  · rw [sign_eq_of_signed_eq zero h]

/-- **Written digits keep the order** of the doubles they are written for. -/
theorem written_le_written (hx : x.isFinite = true) (hy : y.isFinite = true)
    (h : x.rank ≤ y.rank) : x.written ≤ y.written := by
  by_contra above
  have above := not_le.mp above
  -- digits in the wrong order would read back in it
  have back : y.rank ≤ x.rank := by
    rw [← nearestRank_written hx, ← nearestRank_written hy]
    exact nearestRank_mono above.le
  have same := written_eq_of_rank_eq hx hy (le_antisymm h back)
  linarith

end Double

end ExamAdmission
