/-
Answers as JSON: verdicts, statuses, breakdowns and tables of points.
-/
import ExamAdmission.PointsTable
import ExamAdmission.Verdict
import ExamAdmission.Wire.Course

namespace ExamAdmission

namespace Verdict

/-- A verdict of which some fields have been read. -/
structure Draft where
  passed : Option Bool := none
  achievedPoints : Option Double := none
  achievedPercent : Option Double := none
  comment : Option (Option String) := none
  kind : Option RuleKind := none
  category : Option Category := none

/-- The fields of a verdict. -/
def layout : Layout Draft Verdict where
  name := "RuleCheckResult"
  fields :=
    [.needed "passed" .boolean (·.passed) fun draft value => { draft with passed := some value },
     .needed "achievedPoints" .double (·.achievedPoints)
      fun draft value => { draft with achievedPoints := some value },
     .needed "achievedPercent" .double (·.achievedPercent)
      fun draft value => { draft with achievedPercent := some value },
     .optional "comment" (.optional .text) (·.comment)
      fun draft value => { draft with comment := some value },
     .needed "ruleKind" RuleKind.decoder (·.kind)
      fun draft value => { draft with kind := some value },
     .needed "assignmentCategory" Category.decoder (·.category)
      fun draft value => { draft with category := some value }]
  empty := {}
  finish draft := do
    let passed ← Field.require "passed" draft.passed
    let achievedPoints ← Field.require "achievedPoints" draft.achievedPoints
    let achievedPercent ← Field.require "achievedPercent" draft.achievedPercent
    let kind ← Field.require "ruleKind" draft.kind
    let category ← Field.require "assignmentCategory" draft.category
    return {
      passed := passed
      achievedPoints := achievedPoints
      achievedPercent := achievedPercent
      comment := draft.comment.getD none
      kind := kind
      category := category }

/-- The verdict in data. -/
def toJson (verdict : Verdict) : Json :=
  .object
    ([("passed", .boolean verdict.passed),
      ("achievedPoints", .float verdict.achievedPoints),
      ("achievedPercent", .float verdict.achievedPercent)] ++
     Json.optionalMember "comment" .string verdict.comment ++
     [("ruleKind", verdict.kind.toJson),
      ("assignmentCategory", verdict.category.toJson)])

end Verdict

namespace Status

/-- A status of which some fields have been read. -/
structure Draft where
  participant : Option ParticipantId := none
  hasAdmission : Option Bool := none
  results : Option (List Verdict) := none

/-- The fields of a status. -/
def layout : Layout Draft Status where
  name := "AdmissionStatus"
  fields :=
    [.needed "participant" .text (·.participant)
      fun draft value => { draft with participant := some value },
     .needed "hasAdmission" .boolean (·.hasAdmission)
      fun draft value => { draft with hasAdmission := some value },
     .needed "results" (.list Verdict.layout.decoder) (·.results)
      fun draft value => { draft with results := some value }]
  empty := {}
  finish draft := do
    let participant ← Field.require "participant" draft.participant
    let hasAdmission ← Field.require "hasAdmission" draft.hasAdmission
    let results ← Field.require "results" draft.results
    return { participant := participant, hasAdmission := hasAdmission, results := results }

/-- The status in data. -/
def toJson (status : Status) : Json :=
  .object
    [("participant", .string status.participant),
     ("hasAdmission", .boolean status.hasAdmission),
     ("results", .list (status.results.map (·.toJson)))]

end Status

namespace Breakdown

/-- A breakdown of which some fields have been read. -/
structure Draft where
  kind : Option RuleKind := none
  category : Option Category := none
  assignments : Option (List AssignmentId) := none
  achievedPoints : Option (List Double) := none
  achievedPercent : Option (List Double) := none
  passed : Option (List Bool) := none
  comment : Option (Option String) := none

/-- The fields of a breakdown. -/
def layout : Layout Draft Breakdown where
  name := "AssignmentBreakdown"
  fields :=
    [.needed "ruleKind" RuleKind.decoder (·.kind)
      fun draft value => { draft with kind := some value },
     .needed "assignmentCategory" Category.decoder (·.category)
      fun draft value => { draft with category := some value },
     .needed "assignments" (.list .text) (·.assignments)
      fun draft value => { draft with assignments := some value },
     .needed "achievedPoints" (.list .double) (·.achievedPoints)
      fun draft value => { draft with achievedPoints := some value },
     .needed "achievedPercent" (.list .double) (·.achievedPercent)
      fun draft value => { draft with achievedPercent := some value },
     .needed "passed" (.list .boolean) (·.passed)
      fun draft value => { draft with passed := some value },
     .optional "comment" (.optional .text) (·.comment)
      fun draft value => { draft with comment := some value }]
  empty := {}
  finish draft := do
    let kind ← Field.require "ruleKind" draft.kind
    let category ← Field.require "assignmentCategory" draft.category
    let assignments ← Field.require "assignments" draft.assignments
    let achievedPoints ← Field.require "achievedPoints" draft.achievedPoints
    let achievedPercent ← Field.require "achievedPercent" draft.achievedPercent
    let passed ← Field.require "passed" draft.passed
    return {
      kind := kind
      category := category
      assignments := assignments
      achievedPoints := achievedPoints
      achievedPercent := achievedPercent
      passed := passed
      comment := draft.comment.getD none }

/-- The breakdown in data. -/
def toJson (breakdown : Breakdown) : Json :=
  .object
    ([("ruleKind", breakdown.kind.toJson),
      ("assignmentCategory", breakdown.category.toJson),
      ("assignments", .list (breakdown.assignments.map .string)),
      ("achievedPoints", .list (breakdown.achievedPoints.map .float)),
      ("achievedPercent", .list (breakdown.achievedPercent.map .float)),
      ("passed", .list (breakdown.passed.map .boolean))] ++
     Json.optionalMember "comment" .string breakdown.comment)

end Breakdown

namespace PointsRow

/-- A row of which some fields have been read. -/
structure Draft where
  participant : Option ParticipantId := none
  points : Option (List Double) := none

/-- The fields of a row. -/
def layout : Layout Draft PointsRow where
  name := "ParticipantPoints"
  fields :=
    [.needed "participant" .text (·.participant)
      fun draft value => { draft with participant := some value },
     .needed "achievedPoints" (.list .double) (·.points)
      fun draft value => { draft with points := some value }]
  empty := {}
  finish draft := do
    let participant ← Field.require "participant" draft.participant
    let points ← Field.require "achievedPoints" draft.points
    return { participant := participant, points := points }

/-- The row in data. -/
def toJson (row : PointsRow) : Json :=
  .object
    [("participant", .string row.participant),
     ("achievedPoints", .list (row.points.map .float))]

end PointsRow

namespace PointsTable

/-- A table of which some fields have been read. -/
structure Draft where
  assignments : Option (List Assignment) := none
  rows : Option (List PointsRow) := none

/-- The fields of a table. -/
def layout : Layout Draft PointsTable where
  name := "PointsOverview"
  fields :=
    [.needed "assignments" (.list Assignment.layout.decoder) (·.assignments)
      fun draft value => { draft with assignments := some value },
     .needed "results" (.list PointsRow.layout.decoder) (·.rows)
      fun draft value => { draft with rows := some value }]
  empty := {}
  finish draft := do
    let assignments ← Field.require "assignments" draft.assignments
    let rows ← Field.require "results" draft.rows
    return { assignments := assignments, rows := rows }

/-- The table in data. -/
def toJson (table : PointsTable) : Json :=
  .object
    [("assignments", .list (table.assignments.map (·.toJson))),
     ("results", .list (table.rows.map (·.toJson)))]

end PointsTable

end ExamAdmission
