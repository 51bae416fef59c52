/-
Participants and their assessments.

A participant comes with a list of assessments.  Of several assessments of one assignment the last
one counts; an assignment without an assessment, or with one that has no points yet, counts as zero
points (`Assessment.pointsFor`).
-/
import ExamAdmission.Course.Assignment

namespace ExamAdmission

/-- The points given for one assignment, once they are known. -/
structure Assessment where
  assignment : AssignmentId
  points : Option Double
  deriving DecidableEq

/-- The points that a list of assessments gives for an assignment. -/
def Assessment.pointsFor (assessments : List Assessment) (assignment : AssignmentId) : Double :=
  ((assessments.reverse.find? (·.assignment = assignment)).bind (·.points)).getD (.zero false)

/-- A participant with every assessment recorded for them. -/
structure Participant where
  id : ParticipantId
  assessments : List Assessment
  deriving DecidableEq

/-- The points of a participant for an assignment. -/
def Participant.pointsFor (participant : Participant) (assignment : AssignmentId) : Double :=
  Assessment.pointsFor participant.assessments assignment

end ExamAdmission
