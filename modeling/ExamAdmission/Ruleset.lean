/-
The rules of a course, built once and asked about any number of participants.

* `Ruleset.ofCriteria`: the rules of a list of criteria over the assignments that count; there has
  to be one that decides about admission.
* `Ruleset.evaluate`: the verdicts of the rules that decide.
* `Ruleset.breakdown`: the lists of the rules that inform.
* `Ruleset.evaluate_eq_gates`, `Ruleset.breakdown_eq_listings`: both ask exactly the rules of their
  kind, and lose no answer.
-/
import ExamAdmission.Rule.Basic

namespace ExamAdmission

/-- The rules of a course in the order of its criteria. -/
structure Ruleset where
  rules : List Rule

namespace Ruleset

/-- The rules of a list of criteria, or the first error in their order.  Without a rule that
decides, nobody could be denied admission, so that is an error too. -/
def ofCriteria (criteria : List Criterion) (assignments : List Assignment) :
    Except CriteriaError Ruleset := do
  let counting := Assignment.evaluated assignments
  let rules ← criteria.mapM (Rule.ofCriterion · counting)
  if rules.any Rule.isGate then .ok ⟨rules⟩ else .error .noCriteria

/-- Rules are built from the assignments that count, so that leaving out the others first makes no
difference. -/
@[simp] theorem ofCriteria_evaluated (criteria : List Criterion) (assignments : List Assignment) :
    ofCriteria criteria (Assignment.evaluated assignments) = ofCriteria criteria assignments := by
  rw [ofCriteria, ofCriteria, Assignment.evaluated_evaluated]

/-- The rules that decide about admission. -/
def gates (ruleset : Ruleset) : List Gate := ruleset.rules.filterMap Rule.gate?

/-- The rules that inform. -/
def listings (ruleset : Ruleset) : List IndividualPercent :=
  ruleset.rules.filterMap Rule.listing?

/-- The status of a participant: what the rules that decide say, as far as it is a verdict. -/
def evaluate (ruleset : Ruleset) (participant : Participant) : Status :=
  .ofVerdicts participant.id
    ((ruleset.rules.filter (·.isGate)).filterMap fun rule => (rule.check participant).verdict?)

/-- The statuses of participants, in their order. -/
def evaluateAll (ruleset : Ruleset) (participants : List Participant) : List Status :=
  participants.map ruleset.evaluate

/-- The lists for a participant: what the other rules say, as far as it is a breakdown. -/
def breakdown (ruleset : Ruleset) (participant : Participant) : List Breakdown :=
  (ruleset.rules.filter (!·.isGate)).filterMap fun rule => (rule.check participant).breakdown?

/-- No verdict is lost: every rule that decides says one. -/
theorem evaluate_eq_gates (ruleset : Ruleset) (participant : Participant) :
    ruleset.evaluate participant =
      .ofVerdicts participant.id (ruleset.gates.map (·.check participant)) := by
  unfold evaluate gates
  congr 1
  induction ruleset.rules with
  | nil => rfl
  | cons rule rules ih =>
    cases rule with
    | gate gate => simpa [List.filter_cons, List.filterMap_cons] using ih
    | listing listing => simpa [List.filter_cons, List.filterMap_cons] using ih

/-- No breakdown is lost: every rule that informs gives one. -/
theorem breakdown_eq_listings (ruleset : Ruleset) (participant : Participant) :
    ruleset.breakdown participant = ruleset.listings.map (·.check participant) := by
  unfold breakdown listings
  induction ruleset.rules with
  | nil => rfl
  | cons rule rules ih =>
    cases rule with
    | gate gate => simpa [List.filter_cons, List.filterMap_cons] using ih
    | listing listing => simpa [List.filter_cons, List.filterMap_cons] using ih

end Ruleset

end ExamAdmission
