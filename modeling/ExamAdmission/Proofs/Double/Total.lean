/-
Adding up a list, in doubles and exactly.

A list is added up from the left, and every addition rounds, so the total depends on the order of
the terms.  How far it can be from the exact sum does not:

* `Double.Within.add` — one more term adds two units of roundoff to the error at most;
* `Double.AddsExactly`, `Double.rank_sum_of_addsExactly` — terms that are few multiples of one unit
  add up without any rounding;
* `Double.IsTotal`, `Double.sum_isTotal` — what is known of a total whatever the order, and that
  adding from the left gives such a total;
* `Double.IsTotal.perm` — what is a total in one order is one in every other.
-/
import ExamAdmission.Proofs.Double.Error
import Mathlib.Algebra.Order.BigOperators.Group.List

namespace ExamAdmission

namespace Double

variable {x total : Double} {xs ys : List Double} {k : Nat} {exact : Rat}

/-- The sum of what the terms stand for. -/
def exactSum (xs : List Double) : Rat := (xs.map rank).sum

@[simp] theorem exactSum_nil : exactSum [] = 0 := rfl

@[simp] theorem exactSum_cons (x : Double) (xs : List Double) :
    exactSum (x :: xs) = x.rank + exactSum xs := List.sum_cons

theorem exactSum_perm (perm : xs.Perm ys) : exactSum xs = exactSum ys := (perm.map rank).sum_eq

/-- The terms are finite, and none is below zero. -/
def IsNonneg (x : Double) : Prop := x.isFinite = true ∧ 0 ≤ x.rank

theorem exactSum_nonneg (terms : ∀ x ∈ xs, IsNonneg x) : 0 ≤ exactSum xs :=
  List.sum_nonneg (by simpa using fun x hx => (terms x hx).2)

/-! ### The error of a total -/

/-- The total differs from the exact value, or from the place of the infinities if that is nearer,
by the share of `2 * k` units of roundoff at most. -/
structure Within (k : Nat) (exact : Rat) (total : Double) : Prop where
  ne_nan : total ≠ nan
  nonneg : 0 ≤ total.rank
  le : total.rank ≤ (1 + k * (2 * roundoff)) * min exact (2 ^ (1024 : Int))
  ge : (1 - k * (2 * roundoff)) * min exact (2 ^ (1024 : Int)) ≤ total.rank

/-- Adding a term rounds the exact sum once, and moves it little, also when the total has reached
the place of the infinities. -/
theorem rank_add_of_isNonneg (ne_nan : total ≠ nan) (nonneg : 0 ≤ total.rank) (hx : IsNonneg x) :
    (total + x).rank = nearestRank (total.rank + x.rank) ∧ MovesLittle (total.rank + x.rank) := by
  rcases isFinite_or_eq_infinity ne_nan nonneg with finite | rfl
  · exact ⟨(lifts_add hx.1).rank_apply finite, movesLittle_rank_add_rank finite hx.1 nonneg hx.2⟩
  · have far : (2 : Rat) ^ (1024 : Int) ≤ (infinity false).rank + x.rank :=
      le_add_of_nonneg_right hx.2
    refine ⟨?_, movesLittle_of_normal ((two_zpow_le_iff.mpr (by decide)).trans far)⟩
    rw [nearestRank_of_limit_le far]
    exact congrArg rank ((lifts_add hx.1).infinity false)

section Shares

variable {t exact total value rounded limit y : Rat}

/-- Adding the same to a total and to the exact sum keeps the share of error. -/
theorem share_add (t_nonneg : 0 ≤ t) (t_le : t ≤ 1) (limit_nonneg : 0 ≤ limit)
    (nonneg : 0 ≤ exact) (hy : 0 ≤ y) (le : total ≤ (1 + t) * min exact limit)
    (ge : (1 - t) * min exact limit ≤ total) :
    min (total + y) limit ≤ (1 + t) * min (exact + y) limit ∧
      (1 - t) * min (exact + y) limit ≤ min (total + y) limit := by
  have gain := mul_nonneg t_nonneg hy
  have old : 0 ≤ min exact limit := le_min nonneg limit_nonneg
  have new : 0 ≤ min (exact + y) limit := le_min (add_nonneg nonneg hy) limit_nonneg
  constructor
  · rcases le_total (exact + y) limit with small | large
    · rw [min_eq_left (by linarith)] at le
      rw [min_eq_left small]
      refine (min_le_left _ _).trans ?_
      linarith
    · rw [min_eq_right large]
      refine (min_le_right _ _).trans ?_
      linarith [mul_nonneg t_nonneg limit_nonneg]
  · have step : min (exact + y) limit ≤ min exact limit + y := by
      rcases le_total exact limit with small | large
      · rw [min_eq_left small]
        exact min_le_left _ _
      · rw [min_eq_right large]
        exact (min_le_right _ _).trans (by linarith)
    refine le_min ?_ ?_
    · linarith [mul_le_mul_of_nonneg_left step (sub_nonneg.mpr t_le)]
    · linarith [mul_nonneg t_nonneg new, min_le_right (exact + y) limit]

/-- A share of error grows by little more than the roundoff when a value within it is rounded. -/
theorem share_step (t_nonneg : 0 ≤ t) (t_le : t ≤ 1) (nonneg : 0 ≤ value)
    (le : rounded ≤ (1 + t) * value) (ge : (1 - t) * value ≤ rounded) :
    (1 + roundoff) * rounded ≤ (1 + (t + 2 * roundoff)) * value ∧
      (1 - (t + 2 * roundoff)) * value ≤ (1 - roundoff) * rounded := by
  have product : 0 ≤ roundoff * value := mul_nonneg roundoff_pos.le nonneg
  have gain : 0 ≤ t * (roundoff * value) := mul_nonneg t_nonneg product
  have less : t * (roundoff * value) ≤ 1 * (roundoff * value) :=
    mul_le_mul_of_nonneg_right t_le product
  have up := mul_le_mul_of_nonneg_left le (by linarith [roundoff_pos] : 0 ≤ 1 + roundoff)
  have down := mul_le_mul_of_nonneg_left ge (by linarith [roundoff_le_half] : 0 ≤ 1 - roundoff)
  constructor
  · linarith
  · linarith

end Shares

/-- One more term adds two units of roundoff to the error at most. -/
theorem Within.add (h : Within k exact total) (nonneg : 0 ≤ exact) (hx : IsNonneg x)
    (few : k ≤ 2 ^ 52) : Within (k + 1) (exact + x.rank) (total + x) := by
  obtain ⟨rounded, moves⟩ := rank_add_of_isNonneg h.ne_nan h.nonneg hx
  have unit_nonneg : 0 ≤ 2 * roundoff := by linarith [roundoff_pos]
  have share_nonneg : 0 ≤ (k : Rat) * (2 * roundoff) := mul_nonneg (Nat.cast_nonneg k) unit_nonneg
  have share_le : (k : Rat) * (2 * roundoff) ≤ 1 := by
    have cast : (k : Rat) ≤ 2 ^ 52 := by exact_mod_cast few
    have unit : (2 : Rat) ^ 52 * (2 * roundoff) = 1 := by
      unfold roundoff
      norm_num
    exact unit ▸ mul_le_mul_of_nonneg_right cast unit_nonneg
  have limit_nonneg := (two_zpow_pos 1024).le
  obtain ⟨high, low⟩ := share_add share_nonneg share_le limit_nonneg nonneg hx.2 h.le h.ge
  obtain ⟨most, least⟩ := share_step share_nonneg share_le
    (le_min (add_nonneg nonneg hx.2) limit_nonneg) high low
  have next : ((k + 1 : Nat) : Rat) * (2 * roundoff) = k * (2 * roundoff) + 2 * roundoff := by
    push_cast
    ring
  refine ⟨add_ne_nan hx.1 h.ne_nan, ?_, ?_, ?_⟩
  · rw [rounded]
    exact nearestRank_nonneg (add_nonneg h.nonneg hx.2)
  · rw [rounded, next]
    exact moves.le.trans most
  · rw [rounded, next]
    exact least.trans moves.ge

theorem Within.foldl (h : Within k exact total) (nonneg : 0 ≤ exact) (terms : ∀ x ∈ xs, IsNonneg x)
    (few : k + xs.length ≤ 2 ^ 52) :
    Within (k + xs.length) (exact + exactSum xs) (xs.foldl (· + ·) total) := by
  induction xs generalizing k exact total with
  | nil => simpa using h
  | cons x xs ih =>
    have hx := terms x List.mem_cons_self
    rw [List.length_cons] at few
    have rest := ih (h.add nonneg hx (by omega)) (add_nonneg nonneg hx.2)
      (fun y hy => terms y (List.mem_cons_of_mem x hy)) (by omega)
    rwa [add_assoc exact, ← exactSum_cons, add_assoc k, add_comm 1, ← List.length_cons] at rest

/-! ### Terms that add up without rounding -/

/-- The terms are multiples of one unit, and so few of it in all that every part of the sum is a
double. -/
def AddsExactly (xs : List Double) : Prop :=
  ∃ e : Int, -1074 ≤ e ∧ (∀ x ∈ xs, ∃ n : Nat, x.rank = n * 2 ^ e) ∧
    exactSum xs ≤ 2 ^ 53 * 2 ^ e ∧ exactSum xs < 2 ^ (1024 : Int)

theorem AddsExactly.perm (h : AddsExactly xs) (perm : xs.Perm ys) : AddsExactly ys := by
  obtain ⟨e, place, multiples, digits, inRange⟩ := h
  rw [exactSum_perm perm] at digits inRange
  exact ⟨e, place, fun x hx => multiples x (perm.mem_iff.mpr hx), digits, inRange⟩

theorem rank_foldl_of_multiples {e : Int} {n : Nat} (place : -1074 ≤ e)
    (terms : ∀ x ∈ xs, IsNonneg x) (multiples : ∀ x ∈ xs, ∃ n : Nat, x.rank = n * 2 ^ e)
    (ne_nan : total ≠ nan) (value : total.rank = n * 2 ^ e)
    (digits : n * 2 ^ e + exactSum xs ≤ 2 ^ 53 * 2 ^ e)
    (inRange : n * 2 ^ e + exactSum xs < 2 ^ (1024 : Int)) :
    (xs.foldl (· + ·) total).rank = n * 2 ^ e + exactSum xs := by
  induction xs generalizing n total with
  | nil => simpa using value
  | cons x xs ih =>
    have hx := terms x List.mem_cons_self
    have others := fun y hy => terms y (List.mem_cons_of_mem x hy)
    obtain ⟨l, hl⟩ := multiples x List.mem_cons_self
    have rest := exactSum_nonneg others
    have split : (n : Rat) * 2 ^ e + exactSum (x :: xs) =
        ((n + l : Nat) : Rat) * 2 ^ e + exactSum xs := by
      rw [exactSum_cons, hl]
      push_cast
      ring
    rw [split] at digits inRange ⊢
    -- what has been added so far has few digits, too
    have few : n + l ≤ 2 ^ 53 := by
      have bound : ((n + l : Nat) : Rat) * 2 ^ e ≤ (2 ^ 53 : Nat) * 2 ^ e := by
        push_cast at digits ⊢
        linarith
      exact_mod_cast le_of_mul_le_mul_right bound (two_zpow_pos e)
    have nonneg : 0 ≤ total.rank := value ▸ mul_nonneg (Nat.cast_nonneg n) (two_zpow_pos e).le
    have sum : (total + x).rank = ((n + l : Nat) : Rat) * 2 ^ e := by
      rw [(rank_add_of_isNonneg ne_nan nonneg hx).1, value, hl, ← add_mul, ← Nat.cast_add]
      exact nearestRank_of_digits few place (by linarith)
    exact ih others (fun y hy => multiples y (List.mem_cons_of_mem x hy))
      (add_ne_nan hx.1 ne_nan) sum digits inRange

/-- Such terms add up to their exact sum. -/
theorem rank_sum_of_addsExactly (terms : ∀ x ∈ xs, IsNonneg x) (h : AddsExactly xs) :
    (sum xs).rank = exactSum xs := by
  obtain ⟨e, place, multiples, digits, inRange⟩ := h
  have start : (zero true).rank = ((0 : Nat) : Rat) * 2 ^ e := by
    rw [Nat.cast_zero, zero_mul, rank_zero]
  have added := rank_foldl_of_multiples place terms multiples Double.noConfusion start
    (by simpa using digits) (by simpa using inRange)
  rwa [Nat.cast_zero, zero_mul, zero_add] at added

/-! ### Totals in any order -/

/-- What is known of a total of the terms, in whatever order they are added up. -/
structure IsTotal (xs : List Double) (total : Double) : Prop
    extends Within xs.length (exactSum xs) total where
  exact : AddsExactly xs → total.rank = exactSum xs

/-- **Adding up from the left gives a total.** -/
theorem sum_isTotal (terms : ∀ x ∈ xs, IsNonneg x) (few : xs.length ≤ 2 ^ 52) :
    IsTotal xs (sum xs) := by
  have rank_start : (zero true).rank = 0 := rank_zero true
  have start : Within 0 0 (zero true) := by
    refine ⟨Double.noConfusion, rank_start.ge, ?_, ?_⟩
    · simp [rank_start]
    · simp [rank_start]
  have within := start.foldl le_rfl terms (by omega)
  rw [Nat.zero_add, zero_add] at within
  exact { within with exact := rank_sum_of_addsExactly terms }

/-- Where terms add up exactly, a total is finite. -/
theorem IsTotal.isFinite (h : IsTotal xs total) (adds : AddsExactly xs) : total.isFinite = true := by
  refine isFinite_of_abs_rank_lt h.ne_nan ?_
  rw [abs_of_nonneg h.nonneg, h.exact adds]
  obtain ⟨e, -, -, -, inRange⟩ := adds
  exact inRange

/-- What is a total in one order is one in every other. -/
theorem IsTotal.perm (h : IsTotal xs total) (perm : xs.Perm ys) : IsTotal ys total := by
  have within := h.toWithin
  rw [perm.length_eq, exactSum_perm perm] at within
  refine { within with exact := fun adds => ?_ }
  rw [h.exact (adds.perm perm.symm), exactSum_perm perm]

end Double

end ExamAdmission
