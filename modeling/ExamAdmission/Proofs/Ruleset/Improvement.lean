/-
Better points never lose admission.

Two runs of the same rules are compared: one participant, before and after their points have
improved on the assignments that count (`Improves`).  Each kind of rule sees the improvement in its
own number, and compares that number the same way both times:

* `OverallPercent.passed_of_improves` — the percentage of all points is no smaller;
* `AllowedFailures.passed_of_improves` — no more assignments are missed;
* `PassedAssignments.passed_of_improves` — no fewer assignments are passed;
* `Ruleset.hasAdmission_of_improves` — so every verdict that passed passes again, and who was
  admitted stays admitted.
-/
import ExamAdmission.Course.Demo
import ExamAdmission.Proofs.Percent
import ExamAdmission.Proofs.Rule.Passing
import ExamAdmission.Proofs.Ruleset.Verdicts

namespace ExamAdmission

/-- Assignments over which points can be compared: few enough to be counted, none worth less than
nothing, and of each category finitely many points. -/
structure Comparable (assignments : List Assignment) : Prop where
  few : assignments.length < 2 ^ 32
  nonneg : ∀ assignment ∈ assignments, 0 ≤ assignment.maxPoints
  total : ∀ category, (Double.sum
    ((Assignment.ofCategory category assignments).map (·.maxPoints))).isFinite = true

/-- The same participant before and after their points have improved on these assignments. -/
structure Improves (assignments : List Assignment) (before after : Participant) : Prop where
  same : after.id = before.id
  finiteBefore : ∀ assignment ∈ assignments, (before.pointsFor assignment.id).isFinite = true
  finiteAfter : ∀ assignment ∈ assignments, (after.pointsFor assignment.id).isFinite = true
  le : ∀ assignment ∈ assignments,
    before.pointsFor assignment.id ≤ after.pointsFor assignment.id

variable {assignments : List Assignment} {before after : Participant} {category : Category}

namespace Comparable

theorem finite (h : Comparable assignments) {assignment : Assignment}
    (mem : assignment ∈ assignments) : assignment.maxPoints.isFinite = true :=
  Double.isFinite_of_isFinite_sum (h.total assignment.category) _
    (List.mem_map_of_mem (Assignment.mem_ofCategory.mpr ⟨mem, rfl⟩))

theorem zero_le_total (h : Comparable assignments) (category : Category) :
    0 ≤ Double.sum ((Assignment.ofCategory category assignments).map (·.maxPoints)) := by
  refine Double.zero_le_sum fun points mem => ?_
  obtain ⟨assignment, hmem, rfl⟩ := List.mem_map.mp mem
  have counts := (Assignment.mem_ofCategory.mp hmem).1
  exact ⟨h.finite counts, h.nonneg assignment counts⟩

theorem few_ofCategory (h : Comparable assignments) (category : Category) :
    (Assignment.ofCategory category assignments).length < 2 ^ 32 :=
  (List.length_filter_le _ _).trans_lt h.few

end Comparable

/-! ### The rules -/

/-- The points of all assignments of a category together are no fewer. -/
theorem Improves.sum_le (h : Improves assignments before after) (category : Category) :
    Double.sum (((Assignment.ofCategory category assignments).map (·.id)).map before.pointsFor) ≤
      Double.sum (((Assignment.ofCategory category assignments).map (·.id)).map
        after.pointsFor) := by
  rw [List.map_map, List.map_map]
  refine Double.sum_le_sum ?_
  rw [List.forall₂_map_left_iff, List.forall₂_map_right_iff, List.forall₂_same]
  intro assignment mem
  have counts := (Assignment.mem_ofCategory.mp mem).1
  exact ⟨h.finiteBefore assignment counts, h.finiteAfter assignment counts,
    h.le assignment counts⟩

theorem OverallPercent.passed_of_improves (comparable : Comparable assignments)
    (improves : Improves assignments before after) (scope : Scope)
    (passed : ((ofScope scope assignments).check before).passed = true) :
    ((ofScope scope assignments).check after).passed = true := by
  rw [check_passed_iff] at passed ⊢
  rw [improves.same]
  by_cases nothing : (ofScope scope assignments).totalAchievable.isZero = true
  · exact Or.inr (Or.inl nothing)
  · rcases passed with ignored | nothing' | reached
    · exact Or.inl ignored
    · exact absurd nothing' nothing
    · -- the whole is the same both times, and the part is no smaller
      have pos : 0 < (ofScope scope assignments).totalAchievable :=
        Double.pos_of_zero_le (comparable.zero_le_total scope.category) nothing
      have share := percentOf_le (comparable.total scope.category) pos
        (improves.sum_le scope.category)
      exact Or.inr (Or.inr (Double.le_trans reached (scope.rounding.apply_le_apply share)))

namespace AllowedFailures

variable {rule : AllowedFailures}

/-- An assignment that is missed after the improvement was missed before. -/
theorem isFailed_of_improves (comparable : Comparable assignments)
    (improves : Improves assignments before after) {assignment : Assignment}
    (mem : assignment ∈ assignments) (failed : rule.isFailed after assignment = true) :
    rule.isFailed before assignment = true := by
  have below := of_decide_eq_true failed
  have percent := rule.scope.assignmentPercent_le (comparable.finite mem)
    (comparable.nonneg assignment mem) (improves.le assignment mem)
  exact decide_eq_true (Double.lt_of_le_of_lt percent below)

/-- The count of failures is exact, as long as 32 bits can count the assignments. -/
theorem toNat_failures (few : rule.assignments.length < 2 ^ 32) (participant : Participant) :
    (rule.failures participant).toNat = rule.assignments.countP (rule.isFailed participant) :=
  UInt32.toNat_ofNat_of_lt' (List.countP_le_length.trans_lt few)

/-- No more assignments are missed after the improvement. -/
theorem failures_le_of_improves (comparable : Comparable assignments)
    (improves : Improves assignments before after)
    (own : rule.assignments = Assignment.ofCategory rule.scope.category assignments) :
    rule.failures after ≤ rule.failures before := by
  have few : rule.assignments.length < 2 ^ 32 := own ▸ comparable.few_ofCategory _
  -- without wrapping around, the two counts compare as numbers
  rw [UInt32.le_iff_toNat_le, toNat_failures few, toNat_failures few]
  refine List.countP_mono_left fun assignment mem failed => ?_
  rw [own, Assignment.mem_ofCategory] at mem
  exact isFailed_of_improves comparable improves mem.1 failed

theorem passed_of_improves (comparable : Comparable assignments)
    (improves : Improves assignments before after)
    (own : rule.assignments = Assignment.ofCategory rule.scope.category assignments)
    (passed : (rule.check before).passed = true) : (rule.check after).passed = true := by
  rw [check_passed_iff] at passed ⊢
  rw [improves.same]
  rcases passed with ignored | within
  · exact Or.inl ignored
  · exact Or.inr (UInt32.le_trans (failures_le_of_improves comparable improves own) within)

end AllowedFailures

theorem PassedAssignments.passed_of_improves (improves : Improves assignments before after)
    (scope : Scope) (percent : Double) (countRounding : Rounding)
    (passed : ((ofScope scope percent countRounding assignments).check before).passed = true) :
    ((ofScope scope percent countRounding assignments).check after).passed = true := by
  rw [check_passed_iff] at passed ⊢
  rw [improves.same]
  rcases passed with ignored | none | reached
  · exact Or.inl ignored
  · exact Or.inr (Or.inl none)
  · have more : (ofScope scope percent countRounding assignments).passedCount before ≤
        (ofScope scope percent countRounding assignments).passedCount after := by
      -- the thresholds are fixed, so each one that was reached is reached again
      refine List.countP_mono_left fun threshold mem passed => ?_
      obtain ⟨assignment, hmem, rfl⟩ := List.mem_map.mp mem
      have points := improves.le assignment (Assignment.mem_ofCategory.mp hmem).1
      exact decide_eq_true (Double.le_trans (of_decide_eq_true passed) points)
    exact Or.inr (Or.inr (Double.le_trans reached (Double.ofNat_le_ofNat more)))

/-- Every deciding rule that passed passes again. -/
theorem Gate.passed_of_improves {criterion : Criterion} {gate : Gate}
    (comparable : Comparable assignments) (improves : Improves assignments before after)
    (stated : Rule.States criterion assignments (.gate gate))
    (passed : (gate.check before).passed = true) : (gate.check after).passed = true := by
  cases stated with
  | overallPercent => exact OverallPercent.passed_of_improves comparable improves _ passed
  | allowedFailures => exact AllowedFailures.passed_of_improves comparable improves rfl passed
  | passedAssignments => exact PassedAssignments.passed_of_improves improves _ _ _ passed

/-! ### Admission -/

namespace Ruleset

variable {criteria : List Criterion} {ruleset : Ruleset}

/-- **Better points never lose admission.**  If the points of a participant improve on the
assignments that count, every verdict that passed passes again, and admission is kept. -/
theorem hasAdmission_of_improves (built : ofCriteria criteria assignments = .ok ruleset)
    (comparable : Comparable (Assignment.evaluated assignments))
    (improves : Improves (Assignment.evaluated assignments) before after) :
    List.Forall₂ (fun old new => new.kind = old.kind ∧ new.category = old.category ∧
        (old.passed = true → new.passed = true))
      (ruleset.evaluate before).results (ruleset.evaluate after).results ∧
    ((ruleset.evaluate before).hasAdmission = true →
      (ruleset.evaluate after).hasAdmission = true) := by
  have again : ∀ gate ∈ ruleset.gates,
      (gate.check before).passed = true → (gate.check after).passed = true := by
    intro gate mem
    obtain ⟨criterion, stated⟩ := exists_stated_of_mem built (gate_mem_rules mem)
    exact Gate.passed_of_improves comparable improves stated
  -- both statuses ask the same rules, in the same order
  rw [evaluate_eq_gates, evaluate_eq_gates]
  constructor
  · refine List.forall₂_map_left_iff.mpr (List.forall₂_map_right_iff.mpr ?_)
    refine List.forall₂_same.mpr fun gate mem => ⟨?_, ?_, again gate mem⟩
    · rw [Gate.check_kind, Gate.check_kind]
    · rw [Gate.check_category, Gate.check_category]
  · rw [Status.hasAdmission_iff, Status.hasAdmission_iff]
    intro admitted verdict mem
    obtain ⟨gate, hgate, rfl⟩ := List.mem_map.mp mem
    exact again gate hgate (admitted _ (List.mem_map_of_mem hgate))

/-- A participant of the demo course is graded again: the talk and two of the sheets get more points,
one of them entered twice. -/
theorem demo_hasAdmission_of_improves :
    ∃ ruleset, ofCriteria Demo.course.criteria Demo.course.assignments = .ok ruleset ∧
      (ruleset.evaluate (Demo.participant "ada"
        [("sheet-1", some 18), ("sheet-2", some (Demo.tenths 155)), ("sheet-3", some 12),
         ("talk", some 8)])).hasAdmission = true ∧
      (ruleset.evaluate (Demo.participant "ada"
        [("talk", some 10), ("sheet-3", some 0), ("sheet-1", some 18),
         ("sheet-2", some (Demo.tenths 156)), ("sheet-3", some 19)])).hasAdmission = true := by
  have computed : ((ofCriteria Demo.course.criteria Demo.course.assignments).map fun ruleset =>
      (ruleset.evaluate (Demo.participant "ada"
        [("sheet-1", some 18), ("sheet-2", some (Demo.tenths 155)), ("sheet-3", some 12),
         ("talk", some 8)])).hasAdmission) = .ok true := by
    decide +kernel
  obtain ⟨ruleset, built, admitted⟩ := map_eq_ok_iff.mp computed
  refine ⟨ruleset, built, admitted, (hasAdmission_of_improves built ?_ ?_).2 admitted⟩
  · refine ⟨by decide, by decide +kernel, fun category => ?_⟩
    cases category <;> decide +kernel
  · exact ⟨rfl, by decide +kernel, by decide +kernel, by decide +kernel⟩

end Ruleset

end ExamAdmission
