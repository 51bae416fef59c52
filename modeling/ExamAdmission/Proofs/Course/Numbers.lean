/-
The numbers in the data of a course, and in what is said about it.

Maximal points, achieved points and percentages are the doubles that a course states; everything
else in it is names, marks and whole numbers.  Data that was read holds finite numbers alone, so
what is proved of finite numbers is said about these lists:

* `AllFinite` — the numbers of a list are finite;
* `Course.forall_numbers` — the numbers of a course are those of its parts;
* `Participant.isFinite_pointsFor` — points that count are among the numbers of a participant, or
  zero.
-/
import ExamAdmission.Course.Basic
import ExamAdmission.Verdict

namespace ExamAdmission

def Assignment.numbers (assignment : Assignment) : List Double := [assignment.maxPoints]

def Assessment.numbers (assessment : Assessment) : List Double := assessment.points.toList

def Participant.numbers (participant : Participant) : List Double :=
  participant.assessments.flatMap Assessment.numbers

def Criterion.numbers (criterion : Criterion) : List Double :=
  criterion.requiredPercent :: criterion.passedAssignmentsPercent.toList

def Course.numbers (course : Course) : List Double :=
  course.assignments.flatMap Assignment.numbers ++
    (course.criteria.flatMap Criterion.numbers ++ course.participants.flatMap Participant.numbers)

def Snapshot.numbers (snapshot : Snapshot) : List Double :=
  snapshot.courses.flatMap Course.numbers

def Verdict.numbers (verdict : Verdict) : List Double :=
  [verdict.achievedPoints, verdict.achievedPercent]

def Status.numbers (status : Status) : List Double := status.results.flatMap Verdict.numbers

/-- The numbers are finite. -/
def AllFinite (numbers : List Double) : Prop := ∀ x ∈ numbers, x.isFinite = true

/-- What holds of all numbers of a course holds of those of all its parts, and conversely. -/
theorem Course.forall_numbers {course : Course} {p : Double → Prop} :
    (∀ x ∈ course.numbers, p x) ↔
      (∀ assignment ∈ course.assignments, ∀ x ∈ assignment.numbers, p x) ∧
      (∀ criterion ∈ course.criteria, ∀ x ∈ criterion.numbers, p x) ∧
      ∀ participant ∈ course.participants, ∀ x ∈ participant.numbers, p x := by
  simp only [Course.numbers, List.forall_mem_append, List.forall_mem_flatMap]

/-- Points that count are stated in an assessment, or zero. -/
theorem Assessment.pointsFor_cases (assessments : List Assessment) (assignment : AssignmentId) :
    pointsFor assessments assignment = .zero false ∨
      ∃ assessment ∈ assessments, assessment.points = some (pointsFor assessments assignment) := by
  unfold pointsFor
  cases found : assessments.reverse.find? (·.assignment = assignment) with
  | none => exact Or.inl rfl
  | some assessment =>
    rw [Option.bind_some]
    cases given : assessment.points with
    | none => exact Or.inl rfl
    | some points =>
      have mem := List.mem_reverse.mp (List.mem_of_find?_eq_some found)
      exact Or.inr ⟨assessment, mem, given⟩

theorem Participant.isFinite_pointsFor {participant : Participant}
    (finite : ∀ x ∈ participant.numbers, x.isFinite = true) (assignment : AssignmentId) :
    (participant.pointsFor assignment).isFinite = true := by
  rcases Assessment.pointsFor_cases participant.assessments assignment with none | given
  · exact (congrArg Double.isFinite none).trans rfl
  · obtain ⟨assessment, mem, given⟩ := given
    refine finite _ (List.mem_flatMap.mpr ⟨assessment, mem, ?_⟩)
    exact Option.mem_toList.mpr given

end ExamAdmission
