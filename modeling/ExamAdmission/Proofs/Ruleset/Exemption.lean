/-
Exempting a participant from a criterion.

The identifier of a participant is put into the set of those for whom a criterion does not count.
Each kind of rule looks at that set before it looks at anything else, so what the criterion says
about this participant is fixed, and nothing else has changed:

* `Rule.States.exempting` — the criterion still states its rule, with the larger set;
* `Rule.check_exempting_of_ne` — which says the same about everybody else;
* `Rule.check_exempting_self` — and about the participant what `Finding.exempted` tells;
* `Ruleset.evaluate_eq_findings`, `Ruleset.breakdown_eq_findings` — all answers are made of what the
  rules say one by one;
* `Ruleset.exempting_effect` — all of it together.
-/
import ExamAdmission.Course.Demo
import ExamAdmission.Proofs.Ruleset.Verdicts

namespace ExamAdmission

/-! ### The effect on one rule -/

/-- The criterion, not counting for one more participant. -/
def Criterion.exempting (id : ParticipantId) (criterion : Criterion) : Criterion :=
  { criterion with ignoredParticipants := criterion.ignoredParticipants.insert id }

/-- The scope, not counting for one more participant. -/
def Scope.exempting (id : ParticipantId) (scope : Scope) : Scope :=
  { scope with ignored := scope.ignored.insert id }

namespace Finding

/-- What is said instead about a participant for whom the rule does not count: it is passed with no
points and in full, and so is every assignment that it lists. -/
def exempted : Finding → Finding
  | verdict found =>
    .verdict { found with
      passed := true
      achievedPoints := 0
      achievedPercent := 100
      comment := some Scope.ignoredComment }
  | breakdown found =>
    .breakdown { found with
      achievedPoints := found.assignments.map fun _ => 0
      achievedPercent := found.assignments.map fun _ => 100
      passed := found.assignments.map fun _ => true
      comment := some Scope.ignoredComment }

/-- The verdict, if it is one, passes. -/
def Passes (finding : Finding) : Prop :=
  ∀ verdict, finding.verdict? = some verdict → verdict.passed = true

theorem passes_exempted (finding : Finding) : finding.exempted.Passes := by
  intro verdict said
  cases finding with
  | verdict found =>
    cases said
    rfl
  | breakdown found => cases said

end Finding

/-- The verdict on a participant for whom the rule does not count keeps the kind and the category. -/
theorem Scope.ignoredVerdict_eq_exempted {verdict : Verdict} (scope : Scope) (kind : RuleKind)
    (hkind : verdict.kind = kind) (hcategory : verdict.category = scope.category) :
    .verdict (scope.ignoredVerdict kind) = (Finding.verdict verdict).exempted := by
  subst hkind
  rw [ignoredVerdict, Scope.verdict, ← hcategory]
  rfl

/-- The rule, not counting for one more participant. -/
def Gate.exempting (id : ParticipantId) : Gate → Gate
  | overallPercent rule => .overallPercent { rule with scope := rule.scope.exempting id }
  | allowedFailures rule => .allowedFailures { rule with scope := rule.scope.exempting id }
  | passedAssignments rule => .passedAssignments { rule with scope := rule.scope.exempting id }

namespace Rule

variable {criterion : Criterion} {assignments : List Assignment} {participant : Participant}

/-- The rule, not counting for one more participant. -/
def exempting (id : ParticipantId) : Rule → Rule
  | gate rule => .gate (rule.exempting id)
  | listing rule => .listing { rule with scope := rule.scope.exempting id }

@[simp] theorem isGate_exempting (id : ParticipantId) (rule : Rule) :
    (rule.exempting id).isGate = rule.isGate := by
  cases rule <;> rfl

theorem scope_exempting_stated {scope : Scope} (id : ParticipantId)
    (stated : Scope.ofCriterion criterion = .ok scope) :
    Scope.ofCriterion (criterion.exempting id) = .ok (scope.exempting id) := by
  obtain ⟨rounding, known, rfl⟩ := Scope.ofCriterion_eq_ok_iff.mp stated
  exact Scope.ofCriterion_eq_ok_iff.mpr ⟨rounding, known, rfl⟩

/-- No field but the set is looked at in another way. -/
theorem States.exempting {rule : Rule} (id : ParticipantId)
    (h : States criterion assignments rule) :
    States (criterion.exempting id) assignments (rule.exempting id) := by
  cases h with
  | overallPercent kind stated =>
    exact .overallPercent kind (scope_exempting_stated id stated)
  | allowedFailures kind given stated =>
    exact .allowedFailures kind given (scope_exempting_stated id stated)
  | passedAssignments kind given rounded stated =>
    exact .passedAssignments kind given rounded (scope_exempting_stated id stated)
  | individualPercent kind stated =>
    exact .individualPercent kind (scope_exempting_stated id stated)

theorem mem_exempting_of_ne {id : ParticipantId} (other : participant.id ≠ id) (scope : Scope) :
    participant.id ∈ (scope.exempting id).ignored ↔ participant.id ∈ scope.ignored := by
  rw [Scope.exempting, IdSet.mem_insert]
  exact or_iff_right other

theorem mem_exempting_self (id : ParticipantId) (scope : Scope) :
    id ∈ (scope.exempting id).ignored :=
  IdSet.mem_insert.mpr (Or.inl rfl)

/-- The rule says the same about everybody else. -/
theorem check_exempting_of_ne {id : ParticipantId} (other : participant.id ≠ id) (rule : Rule) :
    (rule.exempting id).check participant = rule.check participant := by
  have same := mem_exempting_of_ne other rule.scope
  cases rule with
  | gate gate =>
    refine congrArg Finding.verdict ?_
    cases gate with
    | overallPercent rule =>
      show OverallPercent.check _ _ = OverallPercent.check _ _
      rw [OverallPercent.check, OverallPercent.check]
      exact if_congr same rfl rfl
    | allowedFailures rule =>
      show AllowedFailures.check _ _ = AllowedFailures.check _ _
      rw [AllowedFailures.check, AllowedFailures.check]
      exact if_congr same rfl rfl
    | passedAssignments rule =>
      show PassedAssignments.check _ _ = PassedAssignments.check _ _
      rw [PassedAssignments.check, PassedAssignments.check]
      exact if_congr same rfl rfl
  | listing listing =>
    refine congrArg Finding.breakdown ?_
    rw [IndividualPercent.check, IndividualPercent.check]
    exact if_congr same rfl rfl

/-- About the participant the rule says that it does not count. -/
theorem check_exempting_self (rule : Rule) (participant : Participant) :
    (rule.exempting participant.id).check participant = (rule.check participant).exempted := by
  have ignored := mem_exempting_self participant.id rule.scope
  cases rule with
  | gate gate =>
    have kind := gate.check_kind participant
    have category := gate.check_category participant
    refine Eq.trans ?_ (gate.scope.ignoredVerdict_eq_exempted gate.kind kind category)
    refine congrArg Finding.verdict ?_
    cases gate with
    | overallPercent rule => exact if_pos ignored
    | allowedFailures rule => exact if_pos ignored
    | passedAssignments rule => exact if_pos ignored
  | listing listing =>
    have kind := listing.check_kind participant
    have category := listing.check_category participant
    have listed := listing.check_assignments participant
    refine congrArg Finding.breakdown ?_
    rw [kind, category, listed, List.map_map, List.map_map, List.map_map]
    exact if_pos ignored

end Rule

/-! ### All rules -/

section Modify

variable {α β : Type} {r : α → β → Prop} {f : α → α} {g : β → β} {k : α → β} {xs : List α}
  {ys : List β}

/-- Lists that are related position by position stay so when related items take the places of
related items. -/
theorem forall₂_modify (kept : ∀ x y, r x y → r (f x) (g y)) (h : List.Forall₂ r xs ys) (i : Nat) :
    List.Forall₂ r (xs.modify i f) (ys.modify i g) := by
  induction h generalizing i with
  | nil => simp
  | cons first rest ih =>
    cases i with
    | zero => exact .cons (kept _ _ first) rest
    | succ i => exact .cons first (ih i)

theorem map_modify (commutes : ∀ x, k (f x) = g (k x)) (xs : List α) (i : Nat) :
    (xs.modify i f).map k = (xs.map k).modify i g := by
  induction xs generalizing i with
  | nil => simp
  | cons first rest ih =>
    cases i with
    | zero => exact congrArg (· :: rest.map k) (commutes first)
    | succ i => exact congrArg (k first :: ·) (ih i)

theorem forall_mem_modify {p : α → Prop} (kept : ∀ x, p (f x)) (h : ∀ x ∈ xs, p x) (i : Nat) :
    ∀ x ∈ xs.modify i f, p x := by
  induction xs generalizing i with
  | nil => simp
  | cons first rest ih =>
    obtain ⟨hfirst, hrest⟩ := List.forall_mem_cons.mp h
    cases i with
    | zero => exact List.forall_mem_cons.mpr ⟨kept first, hrest⟩
    | succ i => exact List.forall_mem_cons.mpr ⟨hfirst, ih hrest i⟩

end Modify

namespace Ruleset

variable {criteria : List Criterion} {assignments : List Assignment} {ruleset : Ruleset}
  {participant : Participant}

/-- What the rules say about a participant, in the order of their criteria. -/
def findings (ruleset : Ruleset) (participant : Participant) : List Finding :=
  ruleset.rules.map (·.check participant)

/-- A status is made of the verdicts among the findings. -/
theorem evaluate_eq_findings (ruleset : Ruleset) (participant : Participant) :
    ruleset.evaluate participant =
      .ofVerdicts participant.id ((ruleset.findings participant).filterMap Finding.verdict?) := by
  rw [evaluate_eq_gates, gates, findings, List.map_filterMap, List.filterMap_map]
  congr 2
  funext rule
  cases rule <;> rfl

/-- Breakdowns are the others among the findings. -/
theorem breakdown_eq_findings (ruleset : Ruleset) (participant : Participant) :
    ruleset.breakdown participant =
      (ruleset.findings participant).filterMap Finding.breakdown? := by
  rw [breakdown_eq_listings, listings, findings, List.map_filterMap, List.filterMap_map]
  congr 1
  funext rule
  cases rule <;> rfl

theorem length_findings (built : ofCriteria criteria assignments = .ok ruleset)
    (participant : Participant) : (ruleset.findings participant).length = criteria.length := by
  obtain ⟨stated, -⟩ := ofCriteria_eq_ok_iff.mp built
  rw [findings, List.length_map, stated.length_eq]

/-- Admission is that every finding passes. -/
theorem hasAdmission_iff_findings (ruleset : Ruleset) (participant : Participant) :
    (ruleset.evaluate participant).hasAdmission = true ↔
      ∀ finding ∈ ruleset.findings participant, finding.Passes := by
  rw [evaluate_eq_findings, Status.hasAdmission_iff]
  constructor
  · intro passed finding mem verdict said
    exact passed verdict (List.mem_filterMap.mpr ⟨finding, mem, said⟩)
  · intro passes verdict mem
    obtain ⟨finding, hmem, said⟩ := List.mem_filterMap.mp mem
    exact passes finding hmem verdict said

/-! ### The effect on all answers -/

/-- The rules, one of which does not count for one more participant. -/
def exempting (i : Nat) (id : ParticipantId) (ruleset : Ruleset) : Ruleset :=
  ⟨ruleset.rules.modify i (·.exempting id)⟩

theorem ofCriteria_modify (built : ofCriteria criteria assignments = .ok ruleset) (i : Nat)
    (id : ParticipantId) :
    ofCriteria (criteria.modify i (·.exempting id)) assignments =
      .ok (ruleset.exempting i id) := by
  obtain ⟨stated, decides⟩ := ofCriteria_eq_ok_iff.mp built
  refine ofCriteria_eq_ok_iff.mpr ⟨forall₂_modify (fun _ _ h => h.exempting id) stated i, ?_⟩
  -- the rule at the place decides if it did before
  have sides : (ruleset.rules.modify i (·.exempting id)).map Rule.isGate =
      ruleset.rules.map Rule.isGate := by
    rw [map_modify (g := fun side => side) (Rule.isGate_exempting id)]
    exact List.modify_id i _
  have same := congrArg (List.any · fun side => side) sides
  rw [List.any_map, List.any_map] at same
  exact same.trans decides

theorem findings_exempting_of_ne {id : ParticipantId} (other : participant.id ≠ id)
    (ruleset : Ruleset) (i : Nat) :
    (ruleset.exempting i id).findings participant = ruleset.findings participant := by
  rw [exempting, findings,
    map_modify (g := fun finding => finding) (Rule.check_exempting_of_ne other)]
  exact List.modify_id i _

theorem findings_exempting_self (ruleset : Ruleset) (i : Nat) (participant : Participant) :
    (ruleset.exempting i participant.id).findings participant =
      (ruleset.findings participant).modify i Finding.exempted :=
  map_modify (Rule.check_exempting_self · participant) _ i

/-- **Exempting a participant has its effect and no other.**  A criterion of an accepted list is
made not to count for one more participant.  The list is accepted as before, and nothing is said in
another way about anybody else.  About the participant, with whatever assessments, each of the other
rules has its finding as before, and the rule at the place has the finding that it does not count;
the verdicts of the status and the breakdowns are those among the findings.  Whoever was admitted
stays admitted. -/
theorem exempting_effect (built : ofCriteria criteria assignments = .ok ruleset) (i : Nat)
    (id : ParticipantId) :
    ∃ exempted, ofCriteria (criteria.modify i (·.exempting id)) assignments = .ok exempted ∧
      (∀ participant : Participant, participant.id ≠ id →
        exempted.evaluate participant = ruleset.evaluate participant ∧
        exempted.breakdown participant = ruleset.breakdown participant) ∧
      ∀ participant : Participant, participant.id = id →
        (ruleset.findings participant).length = criteria.length ∧
        (∀ j, j ≠ i →
          (exempted.findings participant)[j]? = (ruleset.findings participant)[j]?) ∧
        (exempted.findings participant)[i]? =
          (ruleset.findings participant)[i]?.map Finding.exempted ∧
        ((ruleset.evaluate participant).results =
            (ruleset.findings participant).filterMap Finding.verdict? ∧
          (exempted.evaluate participant).results =
            (exempted.findings participant).filterMap Finding.verdict?) ∧
        (ruleset.breakdown participant =
            (ruleset.findings participant).filterMap Finding.breakdown? ∧
          exempted.breakdown participant =
            (exempted.findings participant).filterMap Finding.breakdown?) ∧
        ((ruleset.evaluate participant).hasAdmission = true →
          (exempted.evaluate participant).hasAdmission = true) := by
  refine ⟨ruleset.exempting i id, ofCriteria_modify built i id, ?_, ?_⟩
  · intro participant other
    have same := findings_exempting_of_ne other ruleset i
    rw [evaluate_eq_findings, evaluate_eq_findings, breakdown_eq_findings, breakdown_eq_findings,
      same]
    exact ⟨rfl, rfl⟩
  · rintro participant rfl
    have changed := findings_exempting_self ruleset i participant
    refine ⟨length_findings built participant, ?_, ?_, ?_, ?_, ?_⟩
    · intro j other
      rw [changed, List.getElem?_modify]
      simp [Ne.symm other]
    · rw [changed, List.getElem?_modify]
      simp
    · rw [evaluate_eq_findings, evaluate_eq_findings]
      exact ⟨rfl, rfl⟩
    · exact ⟨breakdown_eq_findings _ _, breakdown_eq_findings _ _⟩
    · rw [hasAdmission_iff_findings, hasAdmission_iff_findings, changed]
      intro passes
      exact forall_mem_modify Finding.passes_exempted passes i

/-- The first criterion of the demo course is made not to count for a participant who missed it. -/
theorem demo_exempting_effect :
    ∃ ruleset exempted, ofCriteria Demo.criteria Demo.course.assignments = .ok ruleset ∧
      ofCriteria (Demo.criteria.modify 0 (·.exempting "brendan")) Demo.course.assignments =
        .ok exempted ∧
      (∀ participant : Participant, participant.id ≠ "brendan" →
        exempted.evaluate participant = ruleset.evaluate participant) ∧
      ∀ participant : Participant, participant.id = "brendan" →
        (exempted.findings participant)[0]? =
          (ruleset.findings participant)[0]?.map Finding.exempted := by
  obtain ⟨ruleset, built⟩ := exists_of_demo
  obtain ⟨exempted, builtExempted, others, self⟩ := exempting_effect built 0 "brendan"
  refine ⟨ruleset, exempted, built, builtExempted, fun participant other => ?_,
    fun participant same => ?_⟩
  · exact (others participant other).1
  · exact (self participant same).2.2.1

end Ruleset

end ExamAdmission
