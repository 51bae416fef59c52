/-
A count of failures and a list tell the same story.

A rule on every assignment counts those below the required percentage, and a list marks those that
reach it.  The two comparisons are complements as long as no percentage is undefined, which no
finite points make it:

* `Scope.assignmentPercent_ne_nan` — finite points are a percentage of finite points;
* `AllowedFailures.isFailed_eq_not` — a missed assignment is one that is not marked;
* `Rule.failures_eq_count_listed` — the failures in a verdict are the assignments that the list does
  not mark, whether the rules count for a participant or not.
-/
import ExamAdmission.Course.Demo
import ExamAdmission.Proofs.Double.Error
import ExamAdmission.Proofs.Percent
import ExamAdmission.Proofs.Rule.Construction
import ExamAdmission.Proofs.Rule.Passing
import ExamAdmission.Proofs.Ruleset.Improvement

namespace ExamAdmission

/-! ### Percentages are defined -/

namespace Double

variable {x y : Double}

/-- Of two defined doubles one is not above the other, or below it. -/
theorem not_le_iff_lt (hx : x ≠ nan) (hy : y ≠ nan) : ¬ x ≤ y ↔ y < x := by
  simp [le_def, lt_def, hx, hy]

end Double

theorem Rounding.apply_ne_nan (rounding : Rounding) {x : Double} (h : x ≠ .nan) :
    rounding.apply x ≠ .nan :=
  (rounding.apply_le_apply (Double.le_refl h)).1

/-- Finite points are a percentage of what an assignment is worth. -/
theorem Scope.assignmentPercent_ne_nan (scope : Scope) {points maxPoints : Double}
    (finite : points.isFinite = true) (finiteMax : maxPoints.isFinite = true) :
    scope.assignmentPercent points maxPoints ≠ .nan := by
  unfold assignmentPercent
  split
  · exact Double.ofNat_ne_nan 100
  · next nonzero => exact scope.rounding.apply_ne_nan (percentOf_ne_nan finite finiteMax nonzero)

/-! ### Criteria of the same scope -/

/-- Criteria that look at the same assignments, require the same percentage, round alike and leave
out the same participants. -/
structure Criterion.SameScope (criterion other : Criterion) : Prop where
  category : other.category = criterion.category
  requiredPercent : other.requiredPercent = criterion.requiredPercent
  pointsRounding : other.pointsRounding = criterion.pointsRounding
  ignored : other.ignoredParticipants = criterion.ignoredParticipants

theorem Criterion.SameScope.scope_eq {criterion other : Criterion}
    (same : criterion.SameScope other) {scope otherScope : Scope}
    (stated : Scope.ofCriterion criterion = .ok scope)
    (statedOther : Scope.ofCriterion other = .ok otherScope) : otherScope = scope := by
  have equal : Scope.ofCriterion other = Scope.ofCriterion criterion := by
    rw [Scope.ofCriterion, Scope.ofCriterion, same.category, same.requiredPercent,
      same.pointsRounding, same.ignored]
  exact Except.ok.inj (statedOther.symm.trans (equal.trans stated))

/-! ### Failures and marks -/

/-- Assignments that are worth finitely many points, and of which a participant has finitely many. -/
structure FinitePoints (assignments : List Assignment) (participant : Participant) : Prop where
  worth : ∀ assignment ∈ assignments, assignment.maxPoints.isFinite = true
  points : ∀ assignment ∈ assignments, (participant.pointsFor assignment.id).isFinite = true

theorem FinitePoints.ofCategory {assignments : List Assignment} {participant : Participant}
    (h : FinitePoints assignments participant) (category : Category) :
    FinitePoints (Assignment.ofCategory category assignments) participant where
  worth assignment mem := h.worth assignment (Assignment.mem_ofCategory.mp mem).1
  points assignment mem := h.points assignment (Assignment.mem_ofCategory.mp mem).1

section Failures

variable {scope : Scope} {assignments : List Assignment} {allowed : UInt32}
  {participant : Participant}

/-- A missed assignment is one that does not reach the percentage. -/
theorem AllowedFailures.isFailed_eq_not {rule : AllowedFailures} {assignment : Assignment}
    (required : rule.scope.requiredPercent.isFinite = true)
    (worth : assignment.maxPoints.isFinite = true)
    (points : (participant.pointsFor assignment.id).isFinite = true) :
    rule.isFailed participant assignment =
      !decide (rule.scope.requiredPercent ≤
        rule.scope.assignmentPercent (participant.pointsFor assignment.id)
          assignment.maxPoints) := by
  have defined := rule.scope.assignmentPercent_ne_nan points worth
  have complement := Double.not_le_iff_lt (Double.ne_nan_of_isFinite required) defined
  rw [isFailed, ← decide_not]
  exact decide_eq_decide.mpr complement.symm

theorem IndividualPercent.length_passed (rule : IndividualPercent) (participant : Participant) :
    (rule.check participant).passed.length = rule.assignments.length :=
  (rule.length_check participant).2.2

/-- A list marks everything for a participant for whom it does not count. -/
theorem IndividualPercent.count_false_of_ignored {rule : IndividualPercent}
    (ignored : participant.id ∈ rule.scope.ignored) :
    (rule.check participant).passed.count false = 0 := by
  rw [check, if_pos ignored]
  simp [List.count_eq_zero]

/-- For the others it leaves out those that are missed. -/
theorem IndividualPercent.count_false_eq_failures
    (required : scope.requiredPercent.isFinite = true)
    (finite : FinitePoints assignments participant) (counts : participant.id ∉ scope.ignored) :
    ((⟨scope, assignments⟩ : IndividualPercent).check participant).passed.count false =
      assignments.countP ((⟨scope, assignments, allowed⟩ : AllowedFailures).isFailed
        participant) := by
  rw [check, if_neg counts, List.count, List.countP_map]
  refine List.countP_congr fun assignment mem => ?_
  rw [AllowedFailures.isFailed_eq_not required (finite.worth assignment mem)
    (finite.points assignment mem)]
  simp only [Function.comp_apply, percent, beq_false, Bool.not_eq_true']
  exact Iff.rfl

/-- The verdict counts the assignments that the list does not mark. -/
theorem AllowedFailures.check_eq_listed (allowed : UInt32) (few : assignments.length < 2 ^ 32)
    (required : scope.requiredPercent.isFinite = true)
    (finite : FinitePoints assignments participant) :
    let verdict := (⟨scope, assignments, allowed⟩ : AllowedFailures).check participant
    let listed := ((⟨scope, assignments⟩ : IndividualPercent).check participant).passed
    verdict.achievedPoints = .ofNat (listed.count false) ∧
      (verdict.passed = true ↔ listed.count false ≤ allowed.toNat) := by
  intro verdict listed
  by_cases ignored : participant.id ∈ scope.ignored
  · have none : listed.count false = 0 := IndividualPercent.count_false_of_ignored ignored
    have passes : verdict = scope.ignoredVerdict .allowedFailures := if_pos ignored
    rw [none, passes]
    exact ⟨rfl, iff_of_true rfl (Nat.zero_le _)⟩
  · have counted : ((⟨scope, assignments, allowed⟩ : AllowedFailures).failures participant).toNat =
        _ := toNat_failures few participant
    rw [← IndividualPercent.count_false_eq_failures required finite ignored] at counted
    constructor
    · show (check _ participant).achievedPoints = _
      rw [← counted, check, if_neg ignored]
      rfl
    · rw [check_passed_iff, UInt32.le_iff_toNat_le, counted]
      exact or_iff_right ignored

end Failures

/-- **A count of failures and a list tell the same story.**  Over the same assignments and for the
same percentage, a verdict on allowed failures shows the number of assignments that the list does
not mark, and passes if that number is allowed. -/
theorem Rule.failures_eq_count_listed {counting listing : Criterion} {assignments : List Assignment}
    {rule list : Rule} (counts : counting.kind = .allowedFailures)
    (lists : listing.kind = .individualPercent) (same : counting.SameScope listing)
    (built : ofCriterion counting assignments = .ok rule)
    (builtList : ofCriterion listing assignments = .ok list) (few : assignments.length < 2 ^ 32)
    (required : counting.requiredPercent.isFinite = true) {participant : Participant}
    (finite : FinitePoints assignments participant) :
    ∃ allowed verdict breakdown, counting.allowedFailures = some allowed ∧
      rule.check participant = .verdict verdict ∧
      list.check participant = .breakdown breakdown ∧
      verdict.achievedPoints = .ofNat (breakdown.passed.count false) ∧
      verdict.achievedPoints.rank = breakdown.passed.count false ∧
      (verdict.passed = true ↔ breakdown.passed.count false ≤ allowed.toNat) := by
  obtain ⟨listScope, statedList, rfl⟩ := (ofCriterion_eq_ok_iff.mp builtList).eq_listing lists
  cases ofCriterion_eq_ok_iff.mp built with
  | overallPercent kind => cases counts.symm.trans kind
  | passedAssignments kind => cases counts.symm.trans kind
  | individualPercent kind => cases counts.symm.trans kind
  | @allowedFailures scope allowed _ given stated =>
    obtain rfl := same.scope_eq stated statedList
    have matching := List.length_filter_le (·.category = listScope.category) assignments
    have required : listScope.requiredPercent.isFinite = true := by
      obtain ⟨rounding, -, rfl⟩ := Scope.ofCriterion_eq_ok_iff.mp stated
      exact required
    obtain ⟨shown, passes⟩ := AllowedFailures.check_eq_listed allowed (matching.trans_lt few)
      required (finite.ofCategory listScope.category)
    refine ⟨allowed, _, _, given, rfl, rfl, shown, ?_, passes⟩
    -- so few assignments are counted exactly
    refine (congrArg Double.rank shown).trans (Double.rank_ofNat ?_)
    refine List.count_le_length.trans ?_
    rw [IndividualPercent.length_passed]
    exact matching.trans (few.le.trans (by decide))

/-- Half of the points of each sheet of the demo course, one of which may be missed, for all but the
exchange student. -/
def Demo.eachSheet (kind : RuleKind) : Criterion :=
  { Criterion.plain kind .homework 50 with
    allowedFailures := some 1
    ignoredParticipants := .ofList ["exchange-student"] }

/-- In the demo course brendan misses one sheet. -/
theorem Rule.demo_failures_eq_count_listed :
    ∃ rule list,
      ofCriterion (Demo.eachSheet .allowedFailures) Demo.course.assignments = .ok rule ∧
      ofCriterion (Demo.eachSheet .individualPercent) Demo.course.assignments = .ok list ∧
      ∀ participant ∈ Demo.course.participants, ∃ verdict breakdown,
        rule.check participant = .verdict verdict ∧
        list.check participant = .breakdown breakdown ∧
        verdict.achievedPoints.rank = breakdown.passed.count false ∧
        (verdict.passed = true ↔ breakdown.passed.count false ≤ 1) := by
  have worth : ∀ assignment ∈ Demo.course.assignments,
      assignment.maxPoints.isFinite = true := by decide +kernel
  have points : ∀ participant ∈ Demo.course.participants,
      ∀ assignment ∈ Demo.course.assignments,
        (participant.pointsFor assignment.id).isFinite = true := by decide +kernel
  have counts : (Demo.eachSheet .allowedFailures).kind = .allowedFailures := rfl
  have lists : (Demo.eachSheet .individualPercent).kind = .individualPercent := rfl
  refine ⟨_, _, rfl, rfl, fun participant mem => ?_⟩
  obtain ⟨allowed, verdict, breakdown, given, counted, listed, -, shown, passes⟩ :=
    failures_eq_count_listed counts lists ⟨rfl, rfl, rfl, rfl⟩ rfl rfl (by decide)
      (by decide +kernel) ⟨worth, points participant mem⟩
  obtain rfl : 1 = allowed := Option.some.inj given
  exact ⟨verdict, breakdown, counted, listed, shown, passes⟩

end ExamAdmission
