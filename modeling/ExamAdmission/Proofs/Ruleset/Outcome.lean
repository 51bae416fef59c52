/-
How building the rules of a course ends.

Whether a criterion makes a rule can be read off the criterion alone.  Its kind has to be known,
then the field that the kind needs has to be there, and then the roundings that it uses have to be
known; what else it says never matters.

* `Criterion.fault?` — the error of a criterion, in this order;
* `Rule.map_kind_ofCriterion` — a rule of the kind asked for is built exactly if there is none;
* `Criterion.fault?_congr` — the fields that a kind does not use are not looked at;
* `mapM_eq_findSome?` — a traversal ends with the first error it meets;
* `Ruleset.ofCriteria_kinds` — the kinds of built rules, or why there are none, have nothing to do
  with the assignments;
* `Ruleset.ofCriteria_outcome` — **which criteria are accepted**, and the error of those that are
  not, over any assignments.
-/
import ExamAdmission.Course.Demo
import ExamAdmission.Proofs.Rule.Construction

namespace ExamAdmission

/-! ### Faults of one criterion -/

namespace Criterion

/-- The field that the kind of the criterion needs, if it is absent. -/
def missingField? (criterion : Criterion) : Option String :=
  if criterion.kind = .allowedFailures ∧ criterion.allowedFailures = none then
    some "allowedFailures"
  else if criterion.kind = .passedAssignments ∧ criterion.passedAssignmentsPercent = none then
    some "passedAssignmentsPercent"
  else none

/-- One of the roundings that the kind of the criterion uses is not known. -/
def HasUnknownRounding (criterion : Criterion) : Prop :=
  criterion.pointsRounding.mode = .unrecognized ∨
    (criterion.kind = .passedAssignments ∧
      criterion.passedAssignmentsRounding.mode = .unrecognized)

instance (criterion : Criterion) : Decidable criterion.HasUnknownRounding :=
  inferInstanceAs (Decidable (_ ∨ _))

/-- What is wrong with the criterion: its kind first, then a field, then a rounding. -/
def fault? (criterion : Criterion) : Option CriteriaError :=
  if criterion.kind = .unrecognized then some .unrecognizedKind
  else match criterion.missingField? with
    | some field => some (.missingField criterion.kind field)
    | none => if criterion.HasUnknownRounding then some .unrecognizedRounding else none

/-- Two criteria of one kind that agree on what this kind looks at: which fields are there, and
whether the roundings are known. -/
structure SameNeeds (criterion other : Criterion) : Prop where
  kind : other.kind = criterion.kind
  pointsRounding : criterion.kind ≠ .unrecognized →
    (other.pointsRounding.mode = .unrecognized ↔ criterion.pointsRounding.mode = .unrecognized)
  allowedFailures : criterion.kind = .allowedFailures →
    (other.allowedFailures = none ↔ criterion.allowedFailures = none)
  passedAssignmentsPercent : criterion.kind = .passedAssignments →
    (other.passedAssignmentsPercent = none ↔ criterion.passedAssignmentsPercent = none)
  passedAssignmentsRounding : criterion.kind = .passedAssignments →
    (other.passedAssignmentsRounding.mode = .unrecognized ↔
      criterion.passedAssignmentsRounding.mode = .unrecognized)

theorem SameNeeds.refl (criterion : Criterion) : criterion.SameNeeds criterion :=
  ⟨rfl, fun _ => Iff.rfl, fun _ => Iff.rfl, fun _ => Iff.rfl, fun _ => Iff.rfl⟩

/-- The fields that a kind does not use are not looked at. -/
theorem fault?_congr {criterion other : Criterion} (same : criterion.SameNeeds other) :
    other.fault? = criterion.fault? := by
  by_cases unknown : criterion.kind = .unrecognized
  · rw [fault?, fault?, same.kind, if_pos unknown, if_pos unknown]
  · have missing : other.missingField? = criterion.missingField? := by
      simp only [missingField?, same.kind, and_congr_right same.allowedFailures,
        and_congr_right same.passedAssignmentsPercent]
    have rounding : other.HasUnknownRounding ↔ criterion.HasUnknownRounding := by
      unfold HasUnknownRounding
      rw [same.kind]
      exact or_congr (same.pointsRounding unknown) (and_congr_right same.passedAssignmentsRounding)
    simp only [fault?, same.kind, missing, rounding]

end Criterion

/-! ### One rule -/

theorem RoundingChoice.toRounding_of_unrecognized {choice : RoundingChoice}
    (unknown : choice.mode = .unrecognized) :
    choice.toRounding = .error .unrecognizedRounding := by
  rw [toRounding, rounding?, unknown]

theorem RoundingChoice.exists_toRounding {choice : RoundingChoice}
    (known : choice.mode ≠ .unrecognized) : ∃ rounding, choice.toRounding = .ok rounding := by
  rw [toRounding, rounding?]
  cases mode : choice.mode with
  | none => exact ⟨_, rfl⟩
  | decimals => exact ⟨_, rfl⟩
  | floor => exact ⟨_, rfl⟩
  | ceil => exact ⟨_, rfl⟩
  | unrecognized => exact absurd mode known

/-- A scope is stated unless the rounding of points is not known. -/
theorem Scope.ofCriterion_of_unrecognized {criterion : Criterion}
    (unknown : criterion.pointsRounding.mode = .unrecognized) :
    Scope.ofCriterion criterion = .error .unrecognizedRounding := by
  rw [ofCriterion, RoundingChoice.toRounding_of_unrecognized unknown]
  rfl

theorem Scope.exists_ofCriterion {criterion : Criterion}
    (known : criterion.pointsRounding.mode ≠ .unrecognized) :
    ∃ scope, Scope.ofCriterion criterion = .ok scope := by
  obtain ⟨rounding, hrounding⟩ := RoundingChoice.exists_toRounding known
  rw [ofCriterion, hrounding]
  exact ⟨_, rfl⟩

namespace Rule

variable {criterion : Criterion}

/-- Where nothing but the rounding of points can still be at fault, the scope decides. -/
theorem map_kind_of_scope {make : Scope → Rule}
    (own : ∀ scope, (make scope).kind = criterion.kind)
    (rest : criterion.fault? =
      if criterion.pointsRounding.mode = .unrecognized then some .unrecognizedRounding else none) :
    (Scope.ofCriterion criterion >>= fun scope => pure (make scope)).map kind =
      criterion.fault?.elim (.ok criterion.kind) .error := by
  rw [rest]
  split
  · next unknown =>
    rw [Scope.ofCriterion_of_unrecognized unknown]
    rfl
  · next known =>
    obtain ⟨scope, stated⟩ := Scope.exists_ofCriterion known
    rw [stated]
    exact congrArg Except.ok (own scope)

/-- A rule of the kind asked for is built exactly if the criterion has no fault. -/
theorem map_kind_ofCriterion (criterion : Criterion) (assignments : List Assignment) :
    (ofCriterion criterion assignments).map kind =
      criterion.fault?.elim (.ok criterion.kind) .error := by
  unfold ofCriterion
  split
  · next hkind =>
    refine map_kind_of_scope (fun _ => hkind.symm) ?_
    simp [Criterion.fault?, Criterion.missingField?, Criterion.HasUnknownRounding, hkind]
  · next hkind =>
    cases given : criterion.allowedFailures with
    | none =>
      have missing : criterion.fault? = some (.missingField criterion.kind "allowedFailures") := by
        simp [Criterion.fault?, Criterion.missingField?, hkind, given]
      rw [missing]
      rfl
    | some allowed =>
      refine map_kind_of_scope (fun _ => hkind.symm) ?_
      simp [Criterion.fault?, Criterion.missingField?, Criterion.HasUnknownRounding, hkind, given]
  · next hkind =>
    cases given : criterion.passedAssignmentsPercent with
    | none =>
      have missing : criterion.fault? =
          some (.missingField criterion.kind "passedAssignmentsPercent") := by
        simp [Criterion.fault?, Criterion.missingField?, hkind, given]
      rw [missing]
      rfl
    | some percent =>
      -- the rounding of the count is looked at before that of the points
      by_cases unknown : criterion.passedAssignmentsRounding.mode = .unrecognized
      · have fault : criterion.fault? = some .unrecognizedRounding := by
          simp [Criterion.fault?, Criterion.missingField?, Criterion.HasUnknownRounding, hkind,
            given, unknown]
        rw [fault, RoundingChoice.toRounding_of_unrecognized unknown]
        rfl
      · obtain ⟨rounding, known⟩ := RoundingChoice.exists_toRounding unknown
        rw [known]
        refine map_kind_of_scope (fun _ => hkind.symm) ?_
        simp [Criterion.fault?, Criterion.missingField?, Criterion.HasUnknownRounding, hkind, given,
          unknown]
  · next hkind =>
    refine map_kind_of_scope (fun _ => hkind.symm) ?_
    simp [Criterion.fault?, Criterion.missingField?, Criterion.HasUnknownRounding, hkind]
  · next hkind =>
    rw [Criterion.fault?, if_pos hkind]
    rfl

/-- A criterion makes no rule exactly if it has a fault. -/
theorem ofCriterion_eq_error_iff {assignments : List Assignment} {fault : CriteriaError} :
    ofCriterion criterion assignments = .error fault ↔ criterion.fault? = some fault := by
  have ends := map_kind_ofCriterion criterion assignments
  cases built : ofCriterion criterion assignments with
  | error e =>
    rw [built] at ends
    cases found : criterion.fault? with
    | none =>
      rw [found] at ends
      cases ends
    | some other =>
      rw [found] at ends
      obtain rfl : e = other := Except.error.inj ends
      simp
  | ok rule =>
    rw [built] at ends
    cases found : criterion.fault? with
    | none => simp
    | some other =>
      rw [found] at ends
      cases ends

end Rule

/-! ### All criteria -/

/-- A traversal whose steps fail on what is faulty ends with the first fault. -/
theorem mapM_eq_findSome? {ε α β : Type} (fault? : α → Option ε) (value : α → β) (xs : List α) :
    xs.mapM (fun x => ((fault? x).elim (.ok (value x)) .error : Except ε β)) =
      ((xs.findSome? fault?).elim (.ok (xs.map value)) .error : Except ε (List β)) := by
  induction xs with
  | nil => rfl
  | cons x xs ih =>
    rw [List.mapM_cons, ih, List.findSome?_cons]
    cases fault? x with
    | some fault => rfl
    | none =>
      cases xs.findSome? fault? with
      | some fault => rfl
      | none => rfl

namespace Ruleset

/-- The kinds of built rules are those that the criteria make one by one, and one of them has to
decide. -/
theorem map_kinds_ofCriteria (criteria : List Criterion) (assignments : List Assignment) :
    (ofCriteria criteria assignments).map (·.rules.map Rule.kind) =
      (criteria.mapM fun criterion =>
        (Rule.ofCriterion criterion (Assignment.evaluated assignments)).map Rule.kind) >>=
          fun kinds => if kinds.any (· ≠ .individualPercent) then .ok kinds
            else .error .noCriteria := by
  rw [← map_mapM, ofCriteria]
  cases criteria.mapM (Rule.ofCriterion · (Assignment.evaluated assignments)) with
  | error e => rfl
  | ok rules =>
    have decides : (rules.map Rule.kind).any (· ≠ .individualPercent) =
        rules.any Rule.isGate := by
      rw [List.any_map]
      congr 1
      funext rule
      exact (rule.isGate_eq_kind).symm
    show Except.map _ (if _ then _ else _) = if _ then _ else _
    rw [decides]
    split
    · rfl
    · rfl

/-- How building the rules of a list of criteria ends, as far as the kinds of the rules go: the
error of the first faulty criterion, if there is one, and without a criterion that decides there are
no rules either. -/
def outcome (criteria : List Criterion) : Except CriteriaError (List RuleKind) :=
  if criteria = [] then .error .noCriteria
  else match criteria.findSome? Criterion.fault? with
    | some fault => .error fault
    | none =>
      if ∀ criterion ∈ criteria, criterion.kind = .individualPercent then .error .noCriteria
      else .ok (criteria.map (·.kind))

/-- Building rules over any assignments ends like that. -/
theorem map_kinds_ofCriteria_eq_outcome (criteria : List Criterion)
    (assignments : List Assignment) :
    (ofCriteria criteria assignments).map (·.rules.map Rule.kind) = outcome criteria := by
  rw [map_kinds_ofCriteria]
  simp only [Rule.map_kind_ofCriterion]
  rw [mapM_eq_findSome?, outcome]
  by_cases none : criteria = []
  · rw [none]
    rfl
  · rw [if_neg none]
    cases criteria.findSome? Criterion.fault? with
    | some fault => rfl
    | none =>
      have informs : (criteria.map (·.kind)).any (· ≠ .individualPercent) = true ↔
          ¬ ∀ criterion ∈ criteria, criterion.kind = .individualPercent := by
        simp [List.any_eq_true]
      show (if _ then _ else _) = if _ then _ else _
      simp only [informs, ite_not]

/-- The kinds of the rules, or why there are none, have nothing to do with the assignments. -/
theorem ofCriteria_kinds (criteria : List Criterion) (assignments others : List Assignment) :
    (ofCriteria criteria assignments).map (·.rules.map Rule.kind) =
      (ofCriteria criteria others).map (·.rules.map Rule.kind) := by
  rw [map_kinds_ofCriteria_eq_outcome, map_kinds_ofCriteria_eq_outcome]

/-- What the kinds of the criteria do not use has no part in it. -/
theorem outcome_congr {criteria others : List Criterion}
    (same : List.Forall₂ Criterion.SameNeeds criteria others) : outcome others = outcome criteria := by
  have kinds : others.map (·.kind) = criteria.map (·.kind) := by
    rw [← List.forall₂_eq_eq_eq, List.forall₂_map_left_iff, List.forall₂_map_right_iff]
    exact same.flip.imp fun _ _ same => same.kind
  have faults : others.map Criterion.fault? = criteria.map Criterion.fault? := by
    rw [← List.forall₂_eq_eq_eq, List.forall₂_map_left_iff, List.forall₂_map_right_iff]
    exact same.flip.imp fun _ _ same => Criterion.fault?_congr same
  -- the outcome looks at the criteria through these two lists alone
  have seen : ∀ list : List Criterion, outcome list =
      if list.map (·.kind) = [] then .error .noCriteria
      else match (list.map Criterion.fault?).findSome? id with
        | some fault => .error fault
        | none =>
          if ∀ kind ∈ list.map (·.kind), kind = .individualPercent then .error .noCriteria
          else .ok (list.map (·.kind)) := by
    intro list
    rw [outcome, List.findSome?_map]
    simp only [List.map_eq_nil_iff, List.forall_mem_map, Function.id_comp]
  rw [seen, seen, kinds, faults]

/-- **Which criteria are accepted.**  Over any assignments, building rules ends with the error of
the first faulty criterion, or without one if no criterion decides, and else with one rule for each
criterion, of its kind and in order.  A criterion makes no rule exactly if it has a fault, and then
for this reason; fields that its kind does not use change nothing. -/
theorem ofCriteria_outcome (criteria : List Criterion) (assignments : List Assignment) :
    (ofCriteria criteria assignments).map (·.rules.map Rule.kind) = outcome criteria ∧
    (∀ ruleset, ofCriteria criteria assignments = .ok ruleset →
      List.Forall₂ (fun criterion rule =>
          Rule.ofCriterion criterion (Assignment.evaluated assignments) = .ok rule)
        criteria ruleset.rules) ∧
    (∀ (criterion : Criterion) fault,
      Rule.ofCriterion criterion (Assignment.evaluated assignments) = .error fault ↔
        criterion.fault? = some fault) ∧
    ∀ others, List.Forall₂ Criterion.SameNeeds criteria others →
      (ofCriteria others assignments).map (·.rules.map Rule.kind) =
        (ofCriteria criteria assignments).map (·.rules.map Rule.kind) := by
  refine ⟨map_kinds_ofCriteria_eq_outcome criteria assignments, ?_, ?_, ?_⟩
  · intro ruleset built
    obtain ⟨stated, -⟩ := ofCriteria_eq_ok_iff.mp built
    exact stated.imp fun _ _ => Rule.ofCriterion_eq_ok_iff.mpr
  · intro criterion fault
    exact Rule.ofCriterion_eq_error_iff
  · intro others same
    rw [map_kinds_ofCriteria_eq_outcome, map_kinds_ofCriteria_eq_outcome, outcome_congr same]

/-- The demo criteria are accepted, also where the one on all points names an unknown rounding of a
count that it does not have. -/
theorem demo_ofCriteria_outcome :
    let other := { Criterion.plain .overallPercent .homework 50 with
      pointsRounding := ⟨.floor, none⟩
      passedAssignmentsRounding := ⟨.unrecognized, none⟩ }
    ∃ ruleset, ofCriteria Demo.criteria Demo.course.assignments = .ok ruleset ∧
      List.Forall₂ (fun criterion rule =>
          Rule.ofCriterion criterion (Assignment.evaluated Demo.course.assignments) = .ok rule)
        Demo.criteria ruleset.rules ∧
      (ofCriteria (other :: Demo.criteria.tail) Demo.course.assignments).map
        (·.rules.map Rule.kind) =
          .ok [.overallPercent, .passedAssignments, .allowedFailures, .individualPercent] := by
  intro other
  obtain ⟨ends, stated, -, unused⟩ := ofCriteria_outcome Demo.criteria Demo.course.assignments
  have accepted : outcome Demo.criteria =
      .ok [.overallPercent, .passedAssignments, .allowedFailures, .individualPercent] := by
    rfl
  have same : List.Forall₂ Criterion.SameNeeds Demo.criteria (other :: Demo.criteria.tail) := by
    refine .cons ⟨rfl, fun _ => by decide, nofun, nofun, nofun⟩ ?_
    exact List.forall₂_same.mpr fun criterion _ => .refl criterion
  obtain ⟨ruleset, built, -⟩ := map_eq_ok_iff.mp (ends.trans accepted)
  exact ⟨ruleset, built, stated ruleset built, (unused _ same).trans (ends.trans accepted)⟩

/-- Of two faulty criteria the first one is reported, and of its two faults the missing field. -/
example : outcome [.plain .overallPercent .homework 50,
    { Criterion.plain .allowedFailures .homework 50 with pointsRounding := ⟨.unrecognized, none⟩ },
    .plain .unrecognized .homework 50] =
      .error (.missingField .allowedFailures "allowedFailures") := by
  rfl

end Ruleset

end ExamAdmission
