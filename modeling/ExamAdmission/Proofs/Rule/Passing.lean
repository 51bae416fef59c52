/-
When a deciding rule passes.

Every deciding rule passes a participant for whom it does not count.  For the others it compares one
number with what it requires:

* `OverallPercent.check_passed_iff` — the rounded percentage of all points;
* `AllowedFailures.check_passed_iff` — the number of missed assignments;
* `PassedAssignments.check_passed_iff` — the number of passed assignments.
-/
import ExamAdmission.Rule.Basic

namespace ExamAdmission

variable {participant : Participant}

/-- A rule on all points passes by the percentage achieved, and always where nothing can be
achieved. -/
theorem OverallPercent.check_passed_iff {rule : OverallPercent} :
    (rule.check participant).passed = true ↔
      participant.id ∈ rule.scope.ignored ∨ rule.totalAchievable.isZero = true ∨
        rule.scope.requiredPercent ≤ rule.scope.rounding.apply (percentOf
          (Double.sum (rule.assignments.map participant.pointsFor)) rule.totalAchievable) := by
  rw [check]
  by_cases ignored : participant.id ∈ rule.scope.ignored
  · rw [if_pos ignored]
    exact iff_of_true rfl (Or.inl ignored)
  · rw [if_neg ignored]
    by_cases nothing : rule.totalAchievable.isZero = true
    · rw [if_pos nothing]
      exact iff_of_true rfl (Or.inr (Or.inl nothing))
    · rw [if_neg nothing]
      simp [Scope.verdict, ignored, nothing]

/-- A rule on every assignment passes by the number of failures. -/
theorem AllowedFailures.check_passed_iff {rule : AllowedFailures} :
    (rule.check participant).passed = true ↔
      participant.id ∈ rule.scope.ignored ∨ rule.failures participant ≤ rule.allowed := by
  rw [check]
  by_cases ignored : participant.id ∈ rule.scope.ignored
  · rw [if_pos ignored]
    exact iff_of_true rfl (Or.inl ignored)
  · rw [if_neg ignored]
    simp [Scope.verdict, ignored]

/-- A rule on the number of passed assignments passes by that number, and always where none is
required. -/
theorem PassedAssignments.check_passed_iff {rule : PassedAssignments} :
    (rule.check participant).passed = true ↔
      participant.id ∈ rule.scope.ignored ∨ rule.requiredCount.isZero = true ∨
        rule.requiredCount ≤ Double.ofNat (rule.passedCount participant) := by
  rw [check]
  by_cases ignored : participant.id ∈ rule.scope.ignored
  · rw [if_pos ignored]
    exact iff_of_true rfl (Or.inl ignored)
  · rw [if_neg ignored]
    by_cases none : rule.requiredCount.isZero = true
    · rw [if_pos none]
      exact iff_of_true rfl (Or.inr (Or.inl none))
    · rw [if_neg none]
      simp [Scope.verdict, ignored, none]

end ExamAdmission
