/-
The order on doubles, and the operations that keep it.

An operation by which points become percentages leaves the infinities where they are and rounds an
exact rational function once (`Double.Lifts`).  Such an operation keeps the order as soon as the
rational function does:

* `Double.Lifts.le` — an operation that lifts a monotone function keeps the order;
* `Double.add_le_add`, `Double.mul_le_mul_right`, `Double.div_le_div_right` — sums, and products and
  quotients by a positive double;
* `Double.mul_le_mul_left` — products of finite doubles by one that is not below zero;
* `Double.mapInt_le_mapInt` — rounding to integers;
* `Double.sum_le_sum` — sums of lists, term by term;
* `Double.isFinite_of_isFinite_sum` — a sum is finite only if every term is.
-/
import ExamAdmission.Proofs.Double.Nearest
import Mathlib.Data.List.Forall2

namespace ExamAdmission

namespace Double

/-! ### Comparing -/

variable {x y z : Double}

protected theorem le_refl (h : x ≠ nan) : x ≤ x := ⟨h, h, le_rfl⟩

protected theorem le_trans (h : x ≤ y) (h' : y ≤ z) : x ≤ z :=
  ⟨h.1, h'.2.1, h.2.2.trans h'.2.2⟩

protected theorem lt_of_le_of_lt (h : x ≤ y) (h' : y < z) : x < z :=
  ⟨h.1, h'.2.1, h.2.2.trans_lt h'.2.2⟩

protected theorem lt_of_lt_of_le (h : x < y) (h' : y ≤ z) : x < z :=
  ⟨h.1, h'.2.1, h.2.2.trans_le h'.2.2⟩

theorem rank_zero (negative : Bool) : (zero negative).rank = 0 := by
  cases negative <;> simp [zero, rank, signed]

theorem rank_ofNat_zero : (0 : Double).rank = 0 := nearestRank_zero

theorem rank_pos_of_pos (h : 0 < x) : 0 < x.rank := rank_ofNat_zero ▸ h.2.2

theorem zero_le_of_rank (hx : x ≠ nan) (h : 0 ≤ x.rank) : 0 ≤ x :=
  ⟨by decide, hx, by rwa [rank_ofNat_zero]⟩

theorem ne_nan_of_isFinite (h : x.isFinite = true) : x ≠ nan := by
  rintro rfl
  cases h

theorem exists_of_isFinite (h : x.isFinite = true) : ∃ negative m, x = finite negative m := by
  cases x with
  | nan => cases h
  | infinity negative => cases h
  | finite negative m => exact ⟨negative, m, rfl⟩

theorem exists_eq_infinity (hx : x ≠ nan) (h : ¬ x.isFinite = true) :
    ∃ negative, x = infinity negative := by
  cases x with
  | nan => exact absurd rfl hx
  | infinity negative => exact ⟨negative, rfl⟩
  | finite negative m => exact absurd rfl h

theorem neg_limit_le_rank (x : Double) : -2 ^ (1024 : Int) ≤ x.rank := by
  have h := rank_le_limit (-x)
  rw [rank_neg] at h
  linarith

theorem rank_lt_limit (negative : Bool) (m : Magnitude) :
    (finite negative m).rank < 2 ^ (1024 : Int) := by
  cases negative with
  | false => exact m.toRat_lt
  | true => exact (neg_nonpos.mpr m.toRat_nonneg).trans_lt (two_zpow_pos _)

theorem neg_limit_lt_rank (negative : Bool) (m : Magnitude) :
    -2 ^ (1024 : Int) < (finite negative m).rank := by
  have h := rank_lt_limit (!negative) m
  have flip : (finite (!negative) m).rank = -(finite negative m).rank := rank_neg (finite negative m)
  linarith

theorem isFinite_of_abs_rank_lt (hx : x ≠ nan) (h : |x.rank| < 2 ^ (1024 : Int)) :
    x.isFinite = true := by
  cases x with
  | nan => exact absurd rfl hx
  | infinity negative =>
    have far : |(infinity negative).rank| = 2 ^ (1024 : Int) := by
      cases negative with
      | false => exact abs_of_pos (two_zpow_pos _)
      | true => exact (abs_neg _).trans (abs_of_pos (two_zpow_pos _))
    exact absurd far h.ne
  | finite negative m => rfl

/-- Nothing lies beyond the infinities. -/
theorem le_infinity (h : x ≠ nan) : x ≤ infinity false :=
  ⟨h, by decide, rank_le_limit x⟩

theorem infinity_le (h : x ≠ nan) : infinity true ≤ x :=
  ⟨by decide, h, neg_limit_le_rank x⟩

theorem eq_infinity_of_le (h : infinity false ≤ x) : x = infinity false := by
  cases x with
  | nan => exact absurd rfl h.2.1
  | infinity negative =>
    cases negative with
    | false => rfl
    | true =>
      exact absurd h.2.2 (not_le.mpr (neg_lt_self (two_zpow_pos 1024)))
  | finite negative m => exact absurd h.2.2 (not_le.mpr (rank_lt_limit negative m))

theorem eq_infinity_of_ge (h : x ≤ infinity true) : x = infinity true := by
  cases x with
  | nan => exact absurd rfl h.1
  | infinity negative =>
    cases negative with
    | true => rfl
    | false =>
      exact absurd h.2.2 (not_le.mpr (neg_lt_self (two_zpow_pos 1024)))
  | finite negative m => exact absurd h.2.2 (not_le.mpr (neg_limit_lt_rank negative m))

theorem ofParts_ne_nan (negative : Bool) (significand : Nat) (exponent : Int) :
    ofParts negative significand exponent ≠ nan := by
  unfold ofParts
  split
  · exact Double.noConfusion
  · split <;> exact Double.noConfusion

theorem nearest_ne_nan (negative : Bool) (q : Rat) : nearest negative q ≠ nan := by
  unfold nearest
  split
  · exact Double.noConfusion
  · exact ofParts_ne_nan _ _ _

theorem ofRat_ne_nan (negativeZero : Bool) (q : Rat) : ofRat negativeZero q ≠ nan := by
  unfold ofRat
  split
  · exact Double.noConfusion
  · split <;> exact nearest_ne_nan _ _

theorem ofRat_le_ofRat {a b : Bool} {q r : Rat} (h : q ≤ r) : ofRat a q ≤ ofRat b r := by
  refine ⟨ofRat_ne_nan a q, ofRat_ne_nan b r, ?_⟩
  rw [rank_ofRat, rank_ofRat]
  exact nearestRank_mono h

theorem ofNat_le_ofNat {m n : Nat} (h : m ≤ n) : ofNat m ≤ ofNat n :=
  ofRat_le_ofRat (by exact_mod_cast h)

theorem zero_le_ofNat (n : Nat) : 0 ≤ ofNat n := ofNat_le_ofNat (Nat.zero_le n)

theorem ofNat_ne_nan (n : Nat) : ofNat n ≠ nan := ofRat_ne_nan _ _

/-! ### Operations that lift a rational function -/

/-- The operation computes `g` on what a double stands for, rounded once, and leaves the infinities
where they are. -/
structure Lifts (f : Double → Double) (g : Rat → Rat) : Prop where
  infinity : ∀ negative, f (infinity negative) = infinity negative
  ne_nan : ∀ negative m, f (finite negative m) ≠ nan
  rank : ∀ negative m, (f (finite negative m)).rank = nearestRank (g (finite negative m).rank)

namespace Lifts

variable {f : Double → Double} {g : Rat → Rat}

theorem apply_ne_nan (h : Lifts f g) (hx : x ≠ nan) : f x ≠ nan := by
  cases x with
  | nan => exact absurd rfl hx
  | infinity negative => rw [h.infinity]; exact Double.noConfusion
  | finite negative m => exact h.ne_nan negative m

/-- An operation that lifts a monotone function keeps the order. -/
protected theorem le (h : Lifts f g) (hg : Monotone g) (hxy : x ≤ y) : f x ≤ f y := by
  have hx := h.apply_ne_nan hxy.1
  have hy := h.apply_ne_nan hxy.2.1
  cases x with
  | nan => exact absurd rfl hxy.1
  | infinity negative =>
    cases negative with
    | false => rw [eq_infinity_of_le hxy]; exact Double.le_refl hx
    | true => rw [h.infinity]; exact infinity_le hy
  | finite negative m =>
    cases y with
    | nan => exact absurd rfl hxy.2.1
    | infinity negative' =>
      -- only the positive infinity is above a finite double
      cases negative' with
      | false => rw [h.infinity]; exact le_infinity hx
      | true => exact Double.noConfusion (eq_infinity_of_ge hxy)
    | finite negative' n =>
      refine ⟨hx, hy, ?_⟩
      rw [h.rank, h.rank]
      exact nearestRank_mono (hg hxy.2.2)

end Lifts

theorem finite_add_finite (s t : Bool) (m n : Magnitude) :
    finite s m + finite t n = ofRat (s && t) ((finite s m).rank + (finite t n).rank) := rfl

/-- Adding a finite double is adding what it stands for. -/
theorem lifts_add {c : Double} (hc : c.isFinite = true) : Lifts (· + c) (· + c.rank) := by
  obtain ⟨t, n, rfl⟩ := exists_of_isFinite hc
  refine ⟨fun s => rfl, fun s m => ?_, fun s m => ?_⟩
  · exact ofRat_ne_nan _ _
  · exact rank_ofRat _ _

theorem signed_mul_signed (s t : Bool) (q r : Rat) :
    signed (s != t) (q * r) = signed s q * signed t r := by
  cases s <;> cases t <;> simp [signed]

theorem signed_div_signed (s t : Bool) (q r : Rat) :
    signed (s != t) (q / r) = signed s q / signed t r := by
  cases s <;> cases t <;> simp [signed, neg_div, div_neg]

/-- A positive finite double is a magnitude other than zero. -/
theorem exists_of_pos {c : Double} (hc : c.isFinite = true) (pos : 0 < c) :
    ∃ n : Magnitude, c = finite false n ∧ n.significand ≠ 0 := by
  obtain ⟨t, n, rfl⟩ := exists_of_isFinite hc
  have hpos := rank_pos_of_pos pos
  cases t with
  | true => exact absurd hpos (not_lt.mpr (neg_nonpos.mpr n.toRat_nonneg))
  | false => exact ⟨n, rfl, fun none => hpos.ne' (Magnitude.toRat_eq_zero_iff.mpr none)⟩

theorem finite_mul_finite (s t : Bool) (m n : Magnitude) :
    finite s m * finite t n = nearest (s != t) (m.toRat * n.toRat) := rfl

/-- A product of finite doubles is the exact product, rounded once. -/
theorem rank_mul (hx : x.isFinite = true) (hy : y.isFinite = true) :
    (x * y).rank = nearestRank (x.rank * y.rank) := by
  obtain ⟨s, m, rfl⟩ := exists_of_isFinite hx
  obtain ⟨t, n, rfl⟩ := exists_of_isFinite hy
  rw [finite_mul_finite, rank_nearest _ (mul_nonneg m.toRat_nonneg n.toRat_nonneg),
    signed_mul_signed]
  rfl

theorem mul_ne_nan (hx : x.isFinite = true) (hy : y.isFinite = true) : x * y ≠ nan := by
  obtain ⟨s, m, rfl⟩ := exists_of_isFinite hx
  obtain ⟨t, n, rfl⟩ := exists_of_isFinite hy
  exact nearest_ne_nan _ _

theorem lifts_mul {c : Double} (hc : c.isFinite = true) (pos : 0 < c) :
    Lifts (· * c) (· * c.rank) := by
  obtain ⟨n, rfl, hn⟩ := exists_of_pos hc pos
  refine ⟨fun s => ?_, fun s m => ?_, fun s m => ?_⟩
  · show (if n.significand = 0 then nan else infinity (s != false)) = infinity s
    rw [if_neg hn, Bool.bne_false]
  · exact nearest_ne_nan _ _
  · exact rank_mul rfl rfl

theorem lifts_div {c : Double} (hc : c.isFinite = true) (pos : 0 < c) :
    Lifts (· / c) (· / c.rank) := by
  obtain ⟨n, rfl, hn⟩ := exists_of_pos hc pos
  have quotient : ∀ s m, finite s m / finite false n = nearest (s != false) (m.toRat / n.toRat) := by
    intro s m
    show (if n.significand = 0 then _ else _) = _
    rw [if_neg hn]
  refine ⟨fun s => ?_, fun s m => ?_, fun s m => ?_⟩
  · show infinity (s != false) = infinity s
    rw [Bool.bne_false]
  · rw [quotient]
    exact nearest_ne_nan _ _
  · rw [quotient, rank_nearest _ (div_nonneg m.toRat_nonneg n.toRat_nonneg), signed_div_signed]
    rfl

theorem lifts_mapInt (f : Rat → Int) : Lifts (mapInt f) (fun q => f q) where
  infinity _ := rfl
  ne_nan _ _ := ofRat_ne_nan _ _
  rank _ _ := rank_ofRat _ _

/-! ### Operations that keep the order -/

theorem mul_le_mul_right {c : Double} (hc : c.isFinite = true) (pos : 0 < c) (h : x ≤ y) :
    x * c ≤ y * c :=
  (lifts_mul hc pos).le (fun _ _ hqr => mul_le_mul_of_nonneg_right hqr (rank_pos_of_pos pos).le) h

/-- A product by a double that may be zero keeps the order of finite doubles. -/
theorem mul_le_mul_left {c : Double} (hc : c.isFinite = true) (nonneg : 0 ≤ c)
    (hx : x.isFinite = true) (hy : y.isFinite = true) (h : x ≤ y) : c * x ≤ c * y := by
  refine ⟨mul_ne_nan hc hx, mul_ne_nan hc hy, ?_⟩
  rw [rank_mul hc hx, rank_mul hc hy]
  exact nearestRank_mono (mul_le_mul_of_nonneg_left h.2.2 (rank_ofNat_zero ▸ nonneg.2.2))

theorem div_le_div_right {c : Double} (hc : c.isFinite = true) (pos : 0 < c) (h : x ≤ y) :
    x / c ≤ y / c :=
  (lifts_div hc pos).le (fun _ _ hqr => div_le_div_of_nonneg_right hqr (rank_pos_of_pos pos).le) h

theorem mapInt_le_mapInt {f : Rat → Int} (hf : ∀ q r, q ≤ r → f q ≤ f r) (h : x ≤ y) :
    x.mapInt f ≤ y.mapInt f :=
  (lifts_mapInt f).le (fun q r hqr => Int.cast_le.mpr (hf q r hqr)) h

theorem add_ne_nan {c : Double} (hc : c.isFinite = true) (hx : x ≠ nan) : x + c ≠ nan :=
  (lifts_add hc).apply_ne_nan hx

/-- Sums keep the order; the terms on the right are finite, so that no sum is undefined. -/
theorem add_le_add {c d : Double} (hc : c.isFinite = true) (hd : d.isFinite = true) (h : x ≤ y)
    (h' : c ≤ d) : x + c ≤ y + d := by
  -- first the sum is raised on the left, then on the right
  have left : x + c ≤ y + c := (lifts_add hc).le (fun _ _ hqr => by linarith) h
  refine Double.le_trans left ⟨add_ne_nan hc h.2.1, add_ne_nan hd h.2.1, ?_⟩
  obtain ⟨t, n, rfl⟩ := exists_of_isFinite hc
  obtain ⟨t', n', rfl⟩ := exists_of_isFinite hd
  cases y with
  | nan => exact absurd rfl h.2.1
  | infinity negative => exact le_rfl
  | finite s m =>
    rw [finite_add_finite, finite_add_finite, rank_ofRat, rank_ofRat]
    exact nearestRank_mono (by linarith [h'.2.2])

theorem foldl_add_le {xs ys : List Double}
    (h : List.Forall₂ (fun c d => c.isFinite = true ∧ d.isFinite = true ∧ c ≤ d) xs ys)
    (hxy : x ≤ y) : xs.foldl (· + ·) x ≤ ys.foldl (· + ·) y := by
  induction h generalizing x y with
  | nil => exact hxy
  | cons step _ ih =>
    obtain ⟨hc, hd, hcd⟩ := step
    exact ih (add_le_add hc hd hxy hcd)

/-- Sums of lists keep the order of their terms. -/
theorem sum_le_sum {xs ys : List Double}
    (h : List.Forall₂ (fun c d => c.isFinite = true ∧ d.isFinite = true ∧ c ≤ d) xs ys) :
    sum xs ≤ sum ys :=
  foldl_add_le h (Double.le_refl Double.noConfusion)

/-- A sum is finite only if both terms are. -/
theorem isFinite_of_isFinite_add (h : (x + y).isFinite = true) :
    x.isFinite = true ∧ y.isFinite = true := by
  cases x with
  | nan => cases h
  | infinity s =>
    cases y with
    | nan => cases h
    | infinity t => cases s <;> cases t <;> cases h
    | finite t n => cases h
  | finite s m =>
    cases y with
    | nan => cases h
    | infinity t => cases h
    | finite t n => exact ⟨rfl, rfl⟩

theorem isFinite_of_isFinite_foldl {xs : List Double}
    (h : (xs.foldl (· + ·) x).isFinite = true) :
    x.isFinite = true ∧ ∀ c ∈ xs, c.isFinite = true := by
  induction xs generalizing x with
  | nil => exact ⟨h, fun c hc => absurd hc List.not_mem_nil⟩
  | cons c xs ih =>
    obtain ⟨head, tail⟩ := ih h
    obtain ⟨hx, hc⟩ := isFinite_of_isFinite_add head
    refine ⟨hx, fun d hd => ?_⟩
    rcases List.mem_cons.mp hd with rfl | hd
    · exact hc
    · exact tail d hd

/-- A sum is finite only if every term is. -/
theorem isFinite_of_isFinite_sum {xs : List Double} (h : (sum xs).isFinite = true) :
    ∀ c ∈ xs, c.isFinite = true :=
  (isFinite_of_isFinite_foldl h).2

end Double

end ExamAdmission
