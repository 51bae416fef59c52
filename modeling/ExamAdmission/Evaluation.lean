/-
Evaluating a course that is not kept anywhere.
-/
import ExamAdmission.PointsTable
import ExamAdmission.Ruleset
import ExamAdmission.Wire.Answer

namespace ExamAdmission

/-- Everything that can be said about a course. -/
structure Evaluation where
  course : CourseId
  admission : List Status
  points : PointsTable

namespace Evaluation

/-- The evaluation of a course, if its criteria make rules. -/
def ofCourse (course : Course) : Except CriteriaError Evaluation := do
  let ruleset ← Ruleset.ofCriteria course.criteria course.assignments
  return {
    course := course.id
    admission := ruleset.evaluateAll course.participants
    points := PointsTable.compute course.assignments course.participants }

/-- The evaluation in data. -/
def toJson (evaluation : Evaluation) : Json :=
  .object
    [("course", .string evaluation.course),
     ("admission", .list (evaluation.admission.map (·.toJson))),
     ("pointsOverview", evaluation.points.toJson)]

end Evaluation

end ExamAdmission
