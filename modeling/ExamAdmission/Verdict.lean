/-
What rules say about a participant.

* `Verdict`: a rule that decides about admission passed or failed.
* `Breakdown`: a rule that only informs, assignment by assignment.
* `Finding`: what any one rule says, a verdict or a breakdown.
* `Status`: all verdicts on a participant; admission needs every one of them to pass.
-/
import ExamAdmission.Course.Criterion
import ExamAdmission.Double.Text

namespace ExamAdmission

/-- The outcome of one rule for one participant. -/
structure Verdict where
  passed : Bool
  /-- The points achieved; a count of assignments for the rules that count them. -/
  achievedPoints : Double
  achievedPercent : Double
  comment : Option String
  kind : RuleKind
  category : Category
  deriving DecidableEq

/-- What a participant achieved on each assignment of a category, as parallel lists. -/
structure Breakdown where
  kind : RuleKind
  category : Category
  assignments : List AssignmentId
  achievedPoints : List Double
  achievedPercent : List Double
  passed : List Bool
  comment : Option String
  deriving DecidableEq

/-- What one rule says about a participant. -/
inductive Finding
  /-- Of a rule that decides about admission. -/
  | verdict (found : Verdict)
  /-- Of a rule that only informs. -/
  | breakdown (found : Breakdown)
  deriving DecidableEq

namespace Finding

/-- The verdict, if the rule decides. -/
def verdict? : Finding → Option Verdict
  | verdict found => some found
  | breakdown _ => none

/-- The breakdown, if the rule only informs. -/
def breakdown? : Finding → Option Breakdown
  | verdict _ => none
  | breakdown found => some found

end Finding

/-- The verdicts on a participant. -/
structure Status where
  participant : ParticipantId
  hasAdmission : Bool
  results : List Verdict
  deriving DecidableEq

namespace Status

/-- Admission is granted if no verdict denies it. -/
def ofVerdicts (participant : ParticipantId) (results : List Verdict) : Status where
  participant := participant
  hasAdmission := results.all (·.passed)
  results := results

/-- The verdicts that deny admission. -/
def failed (status : Status) : List Verdict := status.results.filter (!·.passed)

/-- A failed rule in a summary. -/
def describeFailure (verdict : Verdict) : String :=
  verdict.kind.label ++ " on " ++ verdict.category.label ++ " at " ++
    verdict.achievedPercent.toHundredths ++ "%"

/-- The status in one line. -/
def summary (status : Status) : String :=
  if status.hasAdmission then
    status.participant ++ " admitted (" ++ toString status.results.length ++ " rule(s) passed)"
  else
    status.participant ++ " not admitted: " ++
      "; ".intercalate (status.failed.map describeFailure)

end Status

end ExamAdmission
