/-
Rules, built from criteria.

A rule either is a *gate*, which decides about admission, or a *listing*, which informs.  Building a
rule from a criterion does all the work that does not depend on a participant, and finds out what is
wrong with the criterion: an unknown kind first, then a missing field, then an unknown rounding.
-/
import ExamAdmission.Rule.AllowedFailures
import ExamAdmission.Rule.IndividualPercent
import ExamAdmission.Rule.OverallPercent
import ExamAdmission.Rule.PassedAssignments

namespace ExamAdmission

/-- A rule that decides about admission. -/
inductive Gate
  | overallPercent (rule : OverallPercent)
  | allowedFailures (rule : AllowedFailures)
  | passedAssignments (rule : PassedAssignments)

namespace Gate

/-- The part that does not depend on the kind. -/
def scope : Gate → Scope
  | overallPercent rule => rule.scope
  | allowedFailures rule => rule.scope
  | passedAssignments rule => rule.scope

/-- The kind of the rule. -/
def kind : Gate → RuleKind
  | overallPercent _ => .overallPercent
  | allowedFailures _ => .allowedFailures
  | passedAssignments _ => .passedAssignments

/-- The verdict on a participant. -/
def check (gate : Gate) (participant : Participant) : Verdict :=
  match gate with
  | overallPercent rule => rule.check participant
  | allowedFailures rule => rule.check participant
  | passedAssignments rule => rule.check participant

end Gate

/-- A rule of a course. -/
inductive Rule
  | gate (gate : Gate)
  | listing (listing : IndividualPercent)

namespace Rule

/-- The part that does not depend on the kind. -/
def scope : Rule → Scope
  | gate rule => rule.scope
  | listing rule => rule.scope

/-- The kind of the rule. -/
def kind : Rule → RuleKind
  | gate rule => rule.kind
  | listing _ => .individualPercent

/-- The rule, if it decides about admission. -/
def gate? : Rule → Option Gate
  | gate rule => some rule
  | listing _ => none

/-- The rule, if it only informs. -/
def listing? : Rule → Option IndividualPercent
  | gate _ => none
  | listing rule => some rule

/-- The rule decides about admission. -/
def isGate (rule : Rule) : Bool := rule.gate?.isSome

/-- What the rule says about a participant. -/
def check (rule : Rule) (participant : Participant) : Finding :=
  match rule with
  | gate rule => .verdict (rule.check participant)
  | listing rule => .breakdown (rule.check participant)

@[simp] theorem gate?_gate (rule : Gate) : (gate rule).gate? = some rule := rfl

@[simp] theorem gate?_listing (rule : IndividualPercent) : (listing rule).gate? = none := rfl

@[simp] theorem listing?_gate (rule : Gate) : (gate rule).listing? = none := rfl

@[simp] theorem listing?_listing (rule : IndividualPercent) :
    (listing rule).listing? = some rule := rfl

@[simp] theorem isGate_gate (rule : Gate) : (gate rule).isGate = true := rfl

@[simp] theorem isGate_listing (rule : IndividualPercent) : (listing rule).isGate = false := rfl

@[simp] theorem verdict?_check_gate (rule : Gate) (participant : Participant) :
    ((gate rule).check participant).verdict? = some (rule.check participant) := rfl

@[simp] theorem breakdown?_check_listing (rule : IndividualPercent) (participant : Participant) :
    ((listing rule).check participant).breakdown? = some (rule.check participant) := rfl

/-- A field that a kind of rule needs. -/
def needField {α : Type} (kind : RuleKind) (name : String) : Option α → Except CriteriaError α
  | some value => .ok value
  | none => .error (.missingField kind name)

/-- The rule that a criterion states, over the assignments that count. -/
def ofCriterion (criterion : Criterion) (assignments : List Assignment) :
    Except CriteriaError Rule :=
  match criterion.kind with
  | .overallPercent => do
    let scope ← Scope.ofCriterion criterion
    return .gate (.overallPercent (.ofScope scope assignments))
  | .allowedFailures => do
    let allowed ← needField criterion.kind "allowedFailures" criterion.allowedFailures
    let scope ← Scope.ofCriterion criterion
    return .gate (.allowedFailures
      ⟨scope, Assignment.ofCategory scope.category assignments, allowed⟩)
  | .passedAssignments => do
    let percent ←
      needField criterion.kind "passedAssignmentsPercent" criterion.passedAssignmentsPercent
    let countRounding ← criterion.passedAssignmentsRounding.toRounding
    let scope ← Scope.ofCriterion criterion
    return .gate (.passedAssignments (.ofScope scope percent countRounding assignments))
  | .individualPercent => do
    let scope ← Scope.ofCriterion criterion
    return .listing ⟨scope, Assignment.ofCategory scope.category assignments⟩
  | .unrecognized => .error .unrecognizedKind

end Rule

end ExamAdmission
