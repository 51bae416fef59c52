/-
When what a verdict shows does not overflow.

A verdict is made of finite numbers by sums, quotients and roundings, and each of them may go beyond
all doubles.  Three things keep them in range: a count is small, a share of at least a hundredth of
something is a moderate multiple, and points that are not above their maximum add up to no more than
the maxima do:

* `isFinite_percentOf` — a share of what is not too small;
* `AllowedFailures.allFinite_check` — a verdict that counts failures never overflows;
* `OverallPercent.allFinite_check` — one on all points together does not, if no points are below
  zero or above their maximum;
* `PassedAssignments.allFinite_check` — one that counts passed assignments does not, if none or at
  least a hundredth of one is required;
* `Ruleset.allFinite_evaluate` — all of it together.
-/
import ExamAdmission.Proofs.Course.Numbers
import ExamAdmission.Proofs.Rounding.Bounded
import ExamAdmission.Proofs.Ruleset.Arithmetic

namespace ExamAdmission

/-! ### Shares -/

section Shares

open Double

variable {part whole : Double}

theorem rank_div (finite : part.isFinite = true) (finiteWhole : whole.isFinite = true)
    (pos : 0 < whole) : (part / whole).rank = nearestRank (part.rank / whole.rank) := by
  obtain ⟨s, m, rfl⟩ := exists_of_isFinite finite
  exact (lifts_div finiteWhole pos).rank s m

theorem isFinite_of_rank_le {x : Double} {e : Int} (defined : x ≠ nan) (nonneg : 0 ≤ x.rank)
    (bound : x.rank ≤ 2 ^ e) (inRange : e < 1024) : x.isFinite = true := by
  refine isFinite_of_abs_rank_lt defined ?_
  rw [abs_of_nonneg nonneg]
  exact bound.trans_lt (two_zpow_lt_iff.mpr inRange)

/-- Rounding keeps a value between zero and a power of two. -/
theorem nearestRank_between {q : Rat} {e : Int} (nonneg : 0 ≤ q) (bound : q ≤ 2 ^ e)
    (place : -1074 ≤ e) (inRange : e ≤ 1024) : 0 ≤ nearestRank q ∧ nearestRank q ≤ 2 ^ e := by
  refine ⟨nearestRank_nonneg nonneg, ?_⟩
  rw [← nearestRank_two_zpow place inRange]
  exact nearestRank_mono bound

/-- A share of an infinity is zero, and a share of a hundredth or more is moderate. -/
theorem rank_div_between (finite : part.isFinite = true) (nonneg : 0 ≤ part.rank)
    (few : part.rank ≤ 2 ^ (64 : Int)) (moderate : 1 / 100 ≤ whole.rank) :
    part / whole ≠ nan ∧ 0 ≤ (part / whole).rank ∧ (part / whole).rank ≤ 2 ^ (71 : Int) := by
  obtain ⟨s, m, rfl⟩ := exists_of_isFinite finite
  cases whole with
  | nan =>
    have none : (1 : Rat) / 100 ≤ 0 := moderate
    norm_num at none
  | infinity t =>
    exact ⟨Double.noConfusion, (rank_zero (s != t)).ge,
      (rank_zero (s != t)).le.trans (two_zpow_pos 71).le⟩
  | finite t n =>
    have pos : 0 < Double.finite t n :=
      ⟨ofNat_ne_nan 0, Double.noConfusion, by rw [rank_ofNat_zero]; linarith⟩
    rw [rank_div finite rfl pos]
    refine ⟨(lifts_div rfl pos).ne_nan s m, ?_⟩
    refine nearestRank_between (div_nonneg nonneg (by linarith)) ?_ (by decide) (by decide)
    rw [div_le_iff₀ (by linarith)]
    norm_num at few ⊢
    linarith

theorem isFinite_percentOf (finite : part.isFinite = true) (nonneg : 0 ≤ part.rank)
    (few : part.rank ≤ 2 ^ (64 : Int)) (moderate : 1 / 100 ≤ whole.rank) :
    (percentOf part whole).isFinite = true := by
  obtain ⟨defined, low, high⟩ := rank_div_between finite nonneg few moderate
  have finiteShare := isFinite_of_rank_le defined low high (by decide)
  have product : (percentOf part whole).rank = nearestRank ((part / whole).rank * 100) := by
    rw [percentOf, rank_mul finiteShare isFinite_hundred, rank_hundred]
  have bound : (part / whole).rank * 100 ≤ 2 ^ (78 : Int) := by
    norm_num at high ⊢
    linarith
  have between := nearestRank_between (by linarith) bound (by decide) (by decide)
  rw [← product] at between
  exact isFinite_of_rank_le (mul_ne_nan finiteShare isFinite_hundred) between.1 between.2
    (by decide)

/-- A part is at most a hundred percent of its whole. -/
theorem percentOf_le_hundred (finite : whole.isFinite = true) (pos : 0 < whole) (h : part ≤ whole) :
    percentOf part whole ≤ 100 := by
  have one : whole / whole ≤ 1 := by
    refine ⟨div_ne_nan finite finite (not_isZero_of_pos finite pos), ofNat_ne_nan 1, ?_⟩
    rw [rank_div finite finite pos, div_self (rank_pos_of_pos pos).ne']
    exact le_of_eq (congrArg nearestRank Nat.cast_one.symm)
  have share : part / whole ≤ 1 := Double.le_trans (div_le_div_right finite pos h) one
  have hundred : (1 : Double) * 100 = 100 := by decide +kernel
  exact hundred ▸ Double.mul_le_mul_right isFinite_hundred hundred_pos share

theorem zero_le_percentOf (finite : whole.isFinite = true) (pos : 0 < whole) (nonneg : 0 ≤ part) :
    0 ≤ percentOf part whole := by
  have none : 0 ≤ 0 / whole := by
    refine zero_le_of_rank ((lifts_div finite pos).apply_ne_nan (ofNat_ne_nan 0)) ?_
    rw [rank_div isFinite_zero finite pos, rank_ofNat_zero, zero_div, nearestRank_zero]
  have share : 0 ≤ part / whole := Double.le_trans none (div_le_div_right finite pos nonneg)
  have zero : (0 : Double) * 100 = 0 := by decide +kernel
  exact zero ▸ Double.mul_le_mul_right isFinite_hundred hundred_pos share

end Shares

/-! ### The rules -/

/-- What is shown where there is nothing to look at: no points, and a hundred percent. -/
theorem allFinite_neutral : AllFinite [(0 : Double), 100] :=
  List.forall_mem_cons.mpr
    ⟨Double.isFinite_zero, List.forall_mem_singleton.mpr Double.isFinite_hundred⟩

theorem Scope.allFinite_ignoredVerdict (scope : Scope) (kind : RuleKind) :
    AllFinite (scope.ignoredVerdict kind).numbers := allFinite_neutral

/-- What counts is a finite number that is moderate. -/
theorem rank_ofNat_between {n : Nat} (few : n < 2 ^ 64) :
    0 ≤ (Double.ofNat n).rank ∧ (Double.ofNat n).rank ≤ 2 ^ (64 : Int) := by
  refine nearestRank_between (Nat.cast_nonneg n) ?_ (by decide) (by decide)
  exact_mod_cast few.le

/-- A verdict that counts failures never overflows. -/
theorem AllowedFailures.allFinite_check (rule : AllowedFailures) (participant : Participant) :
    AllFinite (rule.check participant).numbers := by
  have used : ∀ failures allowed : UInt32, (usedPercent failures allowed).isFinite = true := by
    intro failures allowed
    unfold usedPercent
    split
    · split
      · exact Double.isFinite_zero
      · exact Double.isFinite_hundred
    · next some_allowed =>
      have nonzero : allowed.toNat ≠ 0 := fun none => some_allowed (UInt32.toNat_inj.mp none)
      have least : (1 : Rat) ≤ allowed.toNat := by exact_mod_cast Nat.one_le_iff_ne_zero.mpr nonzero
      have between := rank_ofNat_between (n := failures.toNat) (failures.toNat_lt.trans (by decide))
      refine isFinite_percentOf (Double.isFinite_ofNat (word_le_digits failures)) between.1
        between.2 ?_
      rw [Double.rank_ofNat (word_le_digits allowed)]
      linarith
  unfold check
  split
  · exact rule.scope.allFinite_ignoredVerdict .allowedFailures
  · refine List.forall_mem_cons.mpr ⟨?_, List.forall_mem_singleton.mpr (used _ _)⟩
    exact Double.isFinite_ofNat (word_le_digits _)

/-- A verdict on all points together does not overflow where all points lie between zero and their
maximum. -/
theorem OverallPercent.allFinite_check {scope : Scope} {assignments : List Assignment}
    {participant : Participant}
    (total : (ofScope scope assignments).totalAchievable.isFinite = true)
    (points : ∀ a ∈ Assignment.ofCategory scope.category assignments,
      0 ≤ participant.pointsFor a.id ∧ participant.pointsFor a.id ≤ a.maxPoints) :
    AllFinite ((ofScope scope assignments).check participant).numbers := by
  have maxima : ∀ a ∈ Assignment.ofCategory scope.category assignments,
      a.maxPoints.isFinite = true := fun a mem =>
    Double.isFinite_of_isFinite_sum total _ (List.mem_map_of_mem mem)
  have finite : ∀ a ∈ Assignment.ofCategory scope.category assignments,
      (participant.pointsFor a.id).isFinite = true := fun a mem =>
    Double.isFinite_of_le_of_le Double.isFinite_zero (maxima a mem) (points a mem).1 (points a mem).2
  -- the sums are over the same assignments, so their terms can be compared one by one
  let achieved := Double.sum ((ofScope scope assignments).assignments.map participant.pointsFor)
  have low : 0 ≤ achieved := by
    refine Double.zero_le_sum fun x mem => ?_
    obtain ⟨id, hid, rfl⟩ := List.mem_map.mp mem
    obtain ⟨a, ha, rfl⟩ := List.mem_map.mp hid
    exact ⟨finite a ha, (points a ha).1⟩
  have high : achieved ≤ (ofScope scope assignments).totalAchievable := by
    refine Double.sum_le_sum ?_
    show List.Forall₂ _ ((List.map _ (Assignment.ofCategory scope.category assignments)).map _)
      (List.map _ (Assignment.ofCategory scope.category assignments))
    rw [List.map_map, List.forall₂_map_left_iff, List.forall₂_map_right_iff, List.forall₂_same]
    exact fun a ha => ⟨finite a ha, maxima a ha, (points a ha).2⟩
  have sum : achieved.isFinite = true :=
    Double.isFinite_of_le_of_le Double.isFinite_zero total low high
  unfold check
  split
  · exact scope.allFinite_ignoredVerdict .overallPercent
  · split
    · exact allFinite_neutral
    · next nonzero =>
      have pos := Double.pos_of_zero_le (Double.le_trans low high) nonzero
      refine List.forall_mem_cons.mpr ⟨sum, List.forall_mem_singleton.mpr ?_⟩
      exact scope.rounding.isFinite_apply (zero_le_percentOf total pos low)
        (percentOf_le_hundred total pos high)

/-- A verdict that counts passed assignments does not overflow where none is required, or at least
a hundredth of one. -/
theorem PassedAssignments.allFinite_check {rule : PassedAssignments}
    (few : rule.thresholds.length < 2 ^ 64)
    (required : rule.requiredCount.isZero = true ∨ 1 / 100 ≤ rule.requiredCount.rank)
    (participant : Participant) : AllFinite (rule.check participant).numbers := by
  have passed : rule.passedCount participant < 2 ^ 64 := List.countP_le_length.trans_lt few
  have count := Double.isFinite_ofNat_of_lt passed
  unfold check
  split
  · exact rule.scope.allFinite_ignoredVerdict .passedAssignments
  · dsimp only
    split
    · exact List.forall_mem_cons.mpr
        ⟨count, List.forall_mem_singleton.mpr Double.isFinite_hundred⟩
    · next nonzero =>
      have between := rank_ofNat_between passed
      refine List.forall_mem_cons.mpr ⟨count, List.forall_mem_singleton.mpr ?_⟩
      exact isFinite_percentOf count between.1 between.2 (required.resolve_left nonzero)

/-! ### All rules -/

/-- How many assignments a rule on their number requires. -/
def Gate.requiredCounts : Gate → List Double
  | passedAssignments rule => [rule.requiredCount]
  | _ => []

namespace Ruleset

variable {criteria : List Criterion} {assignments : List Assignment} {ruleset : Ruleset}

/-- **No verdict overflows** on a participant whose points lie between zero and their maximum, where
what the assignments are worth together is in range, and where no criterion requires less than a
hundredth of an assignment to be passed, but none. -/
theorem allFinite_evaluate (built : ofCriteria criteria assignments = .ok ruleset)
    (few : assignments.length < 2 ^ 64)
    (totals : ∀ criterion ∈ criteria, (Double.sum ((Assignment.ofCategory criterion.category
      (Assignment.evaluated assignments)).map (·.maxPoints))).isFinite = true)
    (required : ∀ gate ∈ ruleset.gates, ∀ count ∈ gate.requiredCounts,
      count.isZero = true ∨ 1 / 100 ≤ count.rank)
    {participant : Participant}
    (points : ∀ a ∈ Assignment.evaluated assignments,
      0 ≤ participant.pointsFor a.id ∧ participant.pointsFor a.id ≤ a.maxPoints) :
    AllFinite (ruleset.evaluate participant).numbers := by
  rw [evaluate_eq_gates]
  refine List.forall_mem_flatMap.mpr fun verdict mem => ?_
  obtain ⟨gate, hgate, rfl⟩ := List.mem_map.mp mem
  obtain ⟨criterion, given, states⟩ := exists_of_forall₂ (gates_stated built) hgate
  have given := List.mem_of_mem_filter given
  cases states with
  | overallPercent kind stated =>
    obtain ⟨rounding, -, rfl⟩ := Scope.ofCriterion_eq_ok_iff.mp stated
    exact OverallPercent.allFinite_check (totals criterion given) fun a ha =>
      points a (List.mem_of_mem_filter ha)
  | allowedFailures kind allowed stated => exact AllowedFailures.allFinite_check _ participant
  | passedAssignments kind percent rounded stated =>
    refine PassedAssignments.allFinite_check ?_ (required _ hgate _ List.mem_cons_self)
      participant
    rw [PassedAssignments.ofScope, List.length_map]
    exact (List.length_filter_le _ _).trans_lt ((List.length_filter_le _ _).trans_lt few)

end Ruleset

end ExamAdmission
