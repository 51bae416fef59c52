/-
Courses as JSON.

For each type its layout as a record or its names as a tag, for reading, and its JSON value, for
writing.  Fields that may be absent are read as empty, and the fields that are absent more often
than not are left out in writing.
-/
import ExamAdmission.Course.Basic
import ExamAdmission.Json.Decoder
import ExamAdmission.Json.Value

namespace ExamAdmission

/-- A member of a written object that is left out when it is absent. -/
def Json.optionalMember {α : Type} (name : String) (encode : α → Json) :
    Option α → List (String × Json)
  | some value => [(name, encode value)]
  | none => []

namespace Category

/-- The name of a category in data. -/
def name : Category → String
  | homework => "HOMEWORK"
  | presentation => "PRESENTATION"
  | attendance => "ATTENDANCE"
  | project => "PROJECT"
  | seminar => "SEMINAR"
  | other => "OTHER"

/-- All categories in their order. -/
def all : List Category := [homework, presentation, attendance, project, seminar, other]

/-- Reads a category. -/
def decoder : Decoder Category := .oneOf (all.map fun c => (c.name, c))

/-- The category in data. -/
def toJson (c : Category) : Json := .string c.name

end Category

namespace AssignmentState

/-- The name of a state in data. -/
def name : AssignmentState → String
  | created => "CREATED"
  | published => "PUBLISHED"
  | inReview => "IN_REVIEW"
  | evaluated => "EVALUATED"

/-- All states in their order. -/
def all : List AssignmentState := [created, published, inReview, evaluated]

/-- Reads a state. -/
def decoder : Decoder AssignmentState := .oneOf (all.map fun s => (s.name, s))

/-- The state in data. -/
def toJson (s : AssignmentState) : Json := .string s.name

end AssignmentState

namespace RuleKind

/-- The name of a kind in data. -/
def name : RuleKind → String
  | overallPercent => "OVERALL_PERCENT"
  | allowedFailures => "ALLOWED_FAILURES"
  | passedAssignments => "PASSED_ASSIGNMENTS"
  | individualPercent => "INDIVIDUAL_PERCENT"
  | unrecognized => "UNRECOGNIZED"

/-- The known kinds. -/
def known : List RuleKind :=
  [overallPercent, allowedFailures, passedAssignments, individualPercent]

/-- Reads a kind; any name that is not known is read as such. -/
def decoder : Decoder RuleKind := .oneOfOr unrecognized (known.map fun k => (k.name, k))

/-- The kind in data. -/
def toJson (k : RuleKind) : Json := .string k.name

end RuleKind

namespace RoundingMode

/-- The name of a mode in data. -/
def name : RoundingMode → String
  | none => "NONE"
  | decimals => "DECIMALS"
  | floor => "FLOOR"
  | ceil => "CEIL"
  | unrecognized => "UNRECOGNIZED"

/-- The known modes. -/
def known : List RoundingMode := [none, decimals, floor, ceil]

/-- Reads a mode; any name that is not known is read as such. -/
def decoder : Decoder RoundingMode := .oneOfOr unrecognized (known.map fun m => (m.name, m))

/-- The mode in data. -/
def toJson (m : RoundingMode) : Json := .string m.name

end RoundingMode

namespace RoundingChoice

/-- A rounding of which some fields have been read. -/
structure Draft where
  mode : Option RoundingMode := none
  decimals : Option (Option Int32) := none

/-- The fields of a rounding. -/
def layout : Layout Draft RoundingChoice where
  name := "RoundingSpec"
  fields :=
    [.needed "method" RoundingMode.decoder (·.mode)
      fun draft value => { draft with mode := some value },
     .optional "decimals" (.optional .int32) (·.decimals)
      fun draft value => { draft with decimals := some value }]
  empty := {}
  finish draft := do
    let mode ← Field.require "method" draft.mode
    return { mode := mode, decimals := draft.decimals.getD none }

/-- The rounding in data. -/
def toJson (choice : RoundingChoice) : Json :=
  .object (("method", choice.mode.toJson) ::
    Json.optionalMember "decimals" (fun n => .integer n.toInt) choice.decimals)

end RoundingChoice

namespace IdSet

/-- Reads a set from the list of its members, in any order and with repetitions. -/
def decoder : Decoder IdSet := fun d => ((Decoder.list Decoder.text) d).map ofList

/-- The members in data. -/
def toJson (set : IdSet) : Json := .list (set.toList.map .string)

end IdSet

namespace Assignment

/-- An assignment of which some fields have been read. -/
structure Draft where
  id : Option AssignmentId := none
  category : Option Category := none
  maxPoints : Option Double := none
  state : Option AssignmentState := none

/-- The fields of an assignment. -/
def layout : Layout Draft Assignment where
  name := "AssignmentSummary"
  fields :=
    [.needed "id" .text (·.id) fun draft value => { draft with id := some value },
     .needed "category" Category.decoder (·.category)
      fun draft value => { draft with category := some value },
     .needed "maxPoints" .double (·.maxPoints)
      fun draft value => { draft with maxPoints := some value },
     .needed "workflowState" AssignmentState.decoder (·.state)
      fun draft value => { draft with state := some value }]
  empty := {}
  finish draft := do
    let id ← Field.require "id" draft.id
    let category ← Field.require "category" draft.category
    let maxPoints ← Field.require "maxPoints" draft.maxPoints
    let state ← Field.require "workflowState" draft.state
    return { id := id, category := category, maxPoints := maxPoints, state := state }

/-- The assignment in data. -/
def toJson (assignment : Assignment) : Json :=
  .object
    [("id", .string assignment.id),
     ("category", assignment.category.toJson),
     ("maxPoints", .float assignment.maxPoints),
     ("workflowState", assignment.state.toJson)]

end Assignment

namespace Assessment

/-- An assessment of which some fields have been read. -/
structure Draft where
  assignment : Option AssignmentId := none
  points : Option (Option Double) := none

/-- The fields of an assessment. -/
def layout : Layout Draft Assessment where
  name := "AssessmentRecord"
  fields :=
    [.needed "assignmentId" .text (·.assignment)
      fun draft value => { draft with assignment := some value },
     .optional "achievedPoints" (.optional .double) (·.points)
      fun draft value => { draft with points := some value }]
  empty := {}
  finish draft := do
    let assignment ← Field.require "assignmentId" draft.assignment
    return { assignment := assignment, points := draft.points.getD none }

/-- The assessment in data. -/
def toJson (assessment : Assessment) : Json :=
  .object
    [("assignmentId", .string assessment.assignment),
     ("achievedPoints", .ofOption .float assessment.points)]

end Assessment

namespace Participant

/-- A participant of whom some fields have been read. -/
structure Draft where
  id : Option ParticipantId := none
  assessments : Option (List Assessment) := none

/-- The fields of a participant. -/
def layout : Layout Draft Participant where
  name := "ParticipantAssessments"
  fields :=
    [.needed "participant" .text (·.id) fun draft value => { draft with id := some value },
     .optional "assessments" (.list Assessment.layout.decoder) (·.assessments)
      fun draft value => { draft with assessments := some value }]
  empty := {}
  finish draft := do
    let id ← Field.require "participant" draft.id
    return { id := id, assessments := draft.assessments.getD [] }

/-- The participant in data. -/
def toJson (participant : Participant) : Json :=
  .object
    [("participant", .string participant.id),
     ("assessments", .list (participant.assessments.map (·.toJson)))]

end Participant

namespace Criterion

/-- A criterion of which some fields have been read. -/
structure Draft where
  kind : Option RuleKind := none
  category : Option Category := none
  requiredPercent : Option Double := none
  pointsRounding : Option RoundingChoice := none
  passedAssignmentsPercent : Option (Option Double) := none
  passedAssignmentsRounding : Option RoundingChoice := none
  allowedFailures : Option (Option UInt32) := none
  ignoredParticipants : Option IdSet := none

/-- The fields of a criterion. -/
def layout : Layout Draft Criterion where
  name := "AdmissionRuleSpec"
  fields :=
    [.needed "kind" RuleKind.decoder (·.kind) fun draft value => { draft with kind := some value },
     .needed "appliesToCategory" Category.decoder (·.category)
      fun draft value => { draft with category := some value },
     .needed "requiredPercent" .double (·.requiredPercent)
      fun draft value => { draft with requiredPercent := some value },
     .optional "pointsRounding" RoundingChoice.layout.decoder (·.pointsRounding)
      fun draft value => { draft with pointsRounding := some value },
     .optional "passedAssignmentsPercent" (.optional .double) (·.passedAssignmentsPercent)
      fun draft value => { draft with passedAssignmentsPercent := some value },
     .optional "passedAssignmentsRounding" RoundingChoice.layout.decoder
      (·.passedAssignmentsRounding)
      fun draft value => { draft with passedAssignmentsRounding := some value },
     .optional "allowedFailures" (.optional .word32) (·.allowedFailures)
      fun draft value => { draft with allowedFailures := some value },
     .optional "ignoredParticipants" IdSet.decoder (·.ignoredParticipants)
      fun draft value => { draft with ignoredParticipants := some value }]
  empty := {}
  finish draft := do
    let kind ← Field.require "kind" draft.kind
    let category ← Field.require "appliesToCategory" draft.category
    let requiredPercent ← Field.require "requiredPercent" draft.requiredPercent
    return {
      kind := kind
      category := category
      requiredPercent := requiredPercent
      pointsRounding := draft.pointsRounding.getD .unrounded
      passedAssignmentsPercent := draft.passedAssignmentsPercent.getD none
      passedAssignmentsRounding := draft.passedAssignmentsRounding.getD .unrounded
      allowedFailures := draft.allowedFailures.getD none
      ignoredParticipants := draft.ignoredParticipants.getD .empty }

/-- The criterion in data. -/
def toJson (criterion : Criterion) : Json :=
  .object
    ([("kind", criterion.kind.toJson),
      ("appliesToCategory", criterion.category.toJson),
      ("requiredPercent", .float criterion.requiredPercent),
      ("pointsRounding", criterion.pointsRounding.toJson)] ++
     Json.optionalMember "passedAssignmentsPercent" .float criterion.passedAssignmentsPercent ++
     [("passedAssignmentsRounding", criterion.passedAssignmentsRounding.toJson)] ++
     Json.optionalMember "allowedFailures" (fun n => .integer n.toNat)
      criterion.allowedFailures ++
     (if criterion.ignoredParticipants.toList = [] then []
      else [("ignoredParticipants", criterion.ignoredParticipants.toJson)]))

end Criterion

namespace Course

/-- A course of which some fields have been read. -/
structure Draft where
  id : Option CourseId := none
  assignments : Option (List Assignment) := none
  criteria : Option (List Criterion) := none
  participants : Option (List Participant) := none

/-- The fields of a course. -/
def layout : Layout Draft Course where
  name := "CourseRecord"
  fields :=
    [.needed "id" .text (·.id) fun draft value => { draft with id := some value },
     .optional "assignments" (.list Assignment.layout.decoder) (·.assignments)
      fun draft value => { draft with assignments := some value },
     .optional "admissionCriteria" (.list Criterion.layout.decoder) (·.criteria)
      fun draft value => { draft with criteria := some value },
     .optional "participants" (.list Participant.layout.decoder) (·.participants)
      fun draft value => { draft with participants := some value }]
  empty := {}
  finish draft := do
    let id ← Field.require "id" draft.id
    return {
      id := id
      assignments := draft.assignments.getD []
      criteria := draft.criteria.getD []
      participants := draft.participants.getD [] }

/-- The course in data. -/
def toJson (course : Course) : Json :=
  .object
    [("id", .string course.id),
     ("assignments", .list (course.assignments.map (·.toJson))),
     ("admissionCriteria", .list (course.criteria.map (·.toJson))),
     ("participants", .list (course.participants.map (·.toJson)))]

end Course

namespace Snapshot

/-- A snapshot of which some fields have been read. -/
structure Draft where
  courses : Option (List Course) := none

/-- The fields of a snapshot. -/
def layout : Layout Draft Snapshot where
  name := "CourseSnapshot"
  fields :=
    [.needed "courses" (.list Course.layout.decoder) (·.courses)
      fun draft value => { draft with courses := some value }]
  empty := {}
  finish draft := do
    let courses ← Field.require "courses" draft.courses
    return { courses := courses }

/-- The snapshot in data. -/
def toJson (snapshot : Snapshot) : Json :=
  .object [("courses", .list (snapshot.courses.map (·.toJson)))]

end Snapshot

end ExamAdmission
