/-
Reports in plain text, line by line.
-/
import ExamAdmission.PointsTable
import ExamAdmission.Verdict

namespace ExamAdmission.Report

/-- Passed or failed, in one word. -/
def passWord (passed : Bool) : String := if passed then "pass" else "fail"

/-- The lines of one verdict. -/
def verdictLines (verdict : Verdict) : List String :=
  ("    [" ++ passWord verdict.passed ++ "] " ++ verdict.kind.label ++ " on " ++
      verdict.category.label ++ ": " ++ verdict.achievedPoints.toText ++ " (" ++
      verdict.achievedPercent.toHundredths ++ "%)") ::
    (verdict.comment.map ("      note: " ++ ·)).toList

/-- The lines of one participant, with a blank line before them. -/
def statusLines (status : Status) : List String :=
  ["", "- " ++ status.summary] ++ status.results.flatMap verdictLines

/-- The report on the admission to a course. -/
def admissionLines (course : CourseId) (statuses : List Status) : List String :=
  ("Admission report for " ++ course ++ " (" ++
      toString (statuses.filter (·.hasAdmission)).length ++ " of " ++
      toString statuses.length ++ " admitted)") ::
    statuses.flatMap statusLines

/-- Cells with bars between them. -/
def cells (texts : List String) : String := " | ".intercalate texts

/-- The row of a participant. -/
def rowLine (row : PointsRow) : String :=
  "  " ++ row.participant ++ " | " ++ cells (row.points.map (·.toText)) ++ " | " ++
    row.total.toText

/-- The table of points, with a blank line before it. -/
def pointsLines (table : PointsTable) : List String :=
  ["",
   "Points overview (max " ++ table.maxPoints.toText ++ " points)",
   "  participant | " ++
    cells (table.assignments.map fun assignment =>
      assignment.id ++ " /" ++ assignment.maxPoints.toText) ++
    " | total"] ++
  table.rows.map rowLine

/-- One assignment of a breakdown. -/
def breakdownRow (assignment : AssignmentId) (points percent : Double) (passed : Bool) : String :=
  "    " ++ passWord passed ++ " " ++ assignment ++ ": " ++ points.toText ++ " points (" ++
    percent.toHundredths ++ "%)"

/-- The rows of a breakdown, one for each position at which all its lists have an entry. -/
def breakdownRows : List AssignmentId → List Double → List Double → List Bool → List String
  | assignment :: assignments, point :: points, percent :: percents, passed :: passes =>
    breakdownRow assignment point percent passed ::
      breakdownRows assignments points percents passes
  | _, _, _, _ => []

/-- The lines of one breakdown of a participant. -/
def breakdownLines (participant : ParticipantId) (breakdown : Breakdown) : List String :=
  ("- " ++ participant ++ " (" ++ breakdown.category.label ++ "):") ::
    (breakdown.comment.map ("    note: " ++ ·)).toList ++
    breakdownRows breakdown.assignments breakdown.achievedPoints breakdown.achievedPercent
      breakdown.passed

/-- The lines of all breakdowns of a participant. -/
def breakdownsLines (participant : ParticipantId) (breakdowns : List Breakdown) : List String :=
  if breakdowns.isEmpty then
    ["- " ++ participant ++ ": no individual-percent rules configured"]
  else breakdowns.flatMap (breakdownLines participant)

end ExamAdmission.Report
