/-
Shares and amounts in percent.
-/
import ExamAdmission.Double.Arithmetic

namespace ExamAdmission

/-- The share of `part` in `whole`, in percent. -/
def percentOf (part whole : Double) : Double := part / whole * 100

/-- So many percent of `total`. -/
def amountOfPercent (total percent : Double) : Double := total * percent / 100

end ExamAdmission
