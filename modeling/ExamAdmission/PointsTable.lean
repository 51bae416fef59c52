/-
Tables of points: a row for each participant, a column for each assignment that counts.
-/
import ExamAdmission.Course.Participant

namespace ExamAdmission

/-- The points of a participant, in the order of the table's columns. -/
structure PointsRow where
  participant : ParticipantId
  points : List Double
  deriving DecidableEq

/-- The points of the row together. -/
def PointsRow.total (row : PointsRow) : Double := Double.sum row.points

/-- Points by participant and assignment. -/
structure PointsTable where
  assignments : List Assignment
  rows : List PointsRow
  deriving DecidableEq

namespace PointsTable

/-- The row of a participant. -/
def row (assignments : List Assignment) (participant : Participant) : PointsRow where
  participant := participant.id
  points := assignments.map fun assignment => participant.pointsFor assignment.id

/-- The table of a course. -/
def compute (assignments : List Assignment) (participants : List Participant) : PointsTable :=
  let counting := Assignment.evaluated assignments
  { assignments := counting
    rows := participants.map (row counting) }

@[simp] theorem compute_evaluated (assignments : List Assignment)
    (participants : List Participant) :
    compute (Assignment.evaluated assignments) participants = compute assignments participants := by
  rw [compute, compute, Assignment.evaluated_evaluated]

/-- What the assignments of the table are worth together. -/
def maxPoints (table : PointsTable) : Double := Double.sum (table.assignments.map (·.maxPoints))

end PointsTable

end ExamAdmission
