/-
Which rules come out of which criteria.

`Rule.ofCriterion` looks at the kind of a criterion, then at the field that kind needs, then at the
roundings.  `Rule.States` says the same as a relation, one constructor for each kind, so that a proof
about a built rule starts with its cases:

* `Rule.ofCriterion_eq_ok_iff` — a rule is built from a criterion exactly if the criterion states it;
* `Rule.States.kind_eq`, `Rule.States.category_eq`, `Rule.States.isGate_eq` — what it keeps of the
  criterion, and on which side of the decision it stands;
* `Ruleset.ofCriteria_eq_ok_iff` — a set of rules is built exactly if every criterion states its
  rule, position by position, and one of them decides;
* `Ruleset.gates_stated`, `Ruleset.listings_stated` — the deciding rules are those of the deciding
  criteria and the informing rules those of the others, in order.
-/
import ExamAdmission.Ruleset
import Mathlib.Data.List.Forall2

namespace ExamAdmission

/-! ### Steps that may fail -/

section Steps

variable {ε α β : Type}

theorem bind_eq_ok_iff {x : Except ε α} {f : α → Except ε β} {b : β} :
    x >>= f = .ok b ↔ ∃ a, x = .ok a ∧ f a = .ok b := by
  cases x with
  | error e =>
    constructor
    · intro h
      cases h
    · rintro ⟨a, ha, -⟩
      cases ha
  | ok a => exact ⟨fun h => ⟨a, rfl, h⟩, fun ⟨_, ha, h⟩ => by cases ha; exact h⟩

theorem exists_eq_ok_of_isOk {x : Except ε α} (h : x.isOk = true) : ∃ a, x = .ok a := by
  cases x with
  | error e => cases h
  | ok a => exact ⟨a, rfl⟩

theorem map_eq_ok_iff {x : Except ε α} {f : α → β} {b : β} :
    x.map f = .ok b ↔ ∃ a, x = .ok a ∧ f a = b := by
  cases x with
  | error e => simp [Except.map]
  | ok a => simp [Except.map]

/-- A traversal succeeds exactly if every step does. -/
theorem mapM_eq_ok_iff {f : α → Except ε β} {xs : List α} {ys : List β} :
    xs.mapM f = .ok ys ↔ List.Forall₂ (fun x y => f x = .ok y) xs ys := by
  induction xs generalizing ys with
  | nil =>
    rw [List.mapM_nil, List.forall₂_nil_left_iff]
    exact ⟨fun h => (Except.ok.inj h).symm, fun h => h ▸ rfl⟩
  | cons x xs ih =>
    rw [List.mapM_cons, List.forall₂_cons_left_iff]
    constructor
    · intro h
      obtain ⟨y, hy, h⟩ := bind_eq_ok_iff.mp h
      obtain ⟨rest, hrest, h⟩ := bind_eq_ok_iff.mp h
      exact ⟨y, rest, hy, ih.mp hrest, (Except.ok.inj h).symm⟩
    · rintro ⟨y, rest, hy, hrest, rfl⟩
      rw [hy, show xs.mapM f = .ok rest from ih.mpr hrest]
      rfl

/-- Looking at what a traversal gives is looking at every step. -/
theorem map_mapM {γ : Type} (f : α → Except ε β) (k : β → γ) (xs : List α) :
    (xs.mapM f).map (List.map k) = xs.mapM fun x => (f x).map k := by
  induction xs with
  | nil => rfl
  | cons x xs ih =>
    rw [List.mapM_cons, List.mapM_cons, ← ih]
    cases f x with
    | error e => rfl
    | ok y =>
      cases xs.mapM f with
      | error e => rfl
      | ok ys => rfl

/-- Every item of the second list comes from one of the first. -/
theorem exists_of_forall₂ {r : α → β → Prop} {xs : List α} {ys : List β}
    (h : List.Forall₂ r xs ys) {y : β} (mem : y ∈ ys) : ∃ x ∈ xs, r x y := by
  induction h with
  | nil => cases mem
  | cons first _ ih =>
    rcases List.mem_cons.mp mem with rfl | mem
    · exact ⟨_, List.mem_cons_self, first⟩
    · obtain ⟨x, hx, hr⟩ := ih mem
      exact ⟨x, List.mem_cons_of_mem _ hx, hr⟩

end Steps

/-! ### One rule -/

namespace Rule

/-- The rules that a criterion states over assignments, by its kind. -/
inductive States (criterion : Criterion) (assignments : List Assignment) : Rule → Prop
  | overallPercent {scope : Scope} (kind : criterion.kind = .overallPercent)
      (stated : Scope.ofCriterion criterion = .ok scope) :
      States criterion assignments (.gate (.overallPercent (.ofScope scope assignments)))
  | allowedFailures {scope : Scope} {allowed : UInt32} (kind : criterion.kind = .allowedFailures)
      (given : criterion.allowedFailures = some allowed)
      (stated : Scope.ofCriterion criterion = .ok scope) :
      States criterion assignments (.gate (.allowedFailures
        ⟨scope, Assignment.ofCategory scope.category assignments, allowed⟩))
  | passedAssignments {scope : Scope} {percent : Double} {countRounding : Rounding}
      (kind : criterion.kind = .passedAssignments)
      (given : criterion.passedAssignmentsPercent = some percent)
      (rounded : criterion.passedAssignmentsRounding.toRounding = .ok countRounding)
      (stated : Scope.ofCriterion criterion = .ok scope) :
      States criterion assignments (.gate (.passedAssignments
        (.ofScope scope percent countRounding assignments)))
  | individualPercent {scope : Scope} (kind : criterion.kind = .individualPercent)
      (stated : Scope.ofCriterion criterion = .ok scope) :
      States criterion assignments (.listing
        ⟨scope, Assignment.ofCategory scope.category assignments⟩)

theorem needField_eq_ok_iff {α : Type} {kind : RuleKind} {name : String} {field : Option α}
    {value : α} : needField kind name field = .ok value ↔ field = some value := by
  cases field with
  | none => simp [needField]
  | some given => simp [needField]

variable {criterion : Criterion} {assignments : List Assignment} {rule : Rule}

/-- A rule is built from a criterion exactly if the criterion states it. -/
theorem ofCriterion_eq_ok_iff :
    ofCriterion criterion assignments = .ok rule ↔ States criterion assignments rule := by
  constructor
  · -- each step that may fail was passed, and leaves what it found
    intro h
    unfold ofCriterion at h
    split at h
    · next kind =>
      obtain ⟨scope, stated, h⟩ := bind_eq_ok_iff.mp h
      cases h
      exact .overallPercent kind stated
    · next kind =>
      obtain ⟨allowed, given, h⟩ := bind_eq_ok_iff.mp h
      obtain ⟨scope, stated, h⟩ := bind_eq_ok_iff.mp h
      cases h
      exact .allowedFailures kind (needField_eq_ok_iff.mp given) stated
    · next kind =>
      obtain ⟨percent, given, h⟩ := bind_eq_ok_iff.mp h
      obtain ⟨countRounding, rounded, h⟩ := bind_eq_ok_iff.mp h
      obtain ⟨scope, stated, h⟩ := bind_eq_ok_iff.mp h
      cases h
      exact .passedAssignments kind (needField_eq_ok_iff.mp given) rounded stated
    · next kind =>
      obtain ⟨scope, stated, h⟩ := bind_eq_ok_iff.mp h
      cases h
      exact .individualPercent kind stated
    · cases h
  · intro h
    cases h with
    | overallPercent kind stated =>
      rw [ofCriterion, kind, stated]
      rfl
    | allowedFailures kind given stated =>
      rw [ofCriterion, kind, given, stated]
      rfl
    | passedAssignments kind given rounded stated =>
      rw [ofCriterion, kind, given, rounded, stated]
      rfl
    | individualPercent kind stated =>
      rw [ofCriterion, kind, stated]
      rfl

end Rule

/-- Deciding is a matter of the kind of a rule. -/
theorem Rule.isGate_eq_kind (rule : Rule) : rule.isGate = decide (rule.kind ≠ .individualPercent) := by
  cases rule with
  | gate gate => cases gate <;> rfl
  | listing listing => rfl

/-- A scope is stated by a criterion whose rounding is known. -/
theorem Scope.ofCriterion_eq_ok_iff {criterion : Criterion} {scope : Scope} :
    Scope.ofCriterion criterion = .ok scope ↔
      ∃ rounding, criterion.pointsRounding.toRounding = .ok rounding ∧
        scope = ⟨criterion.category, criterion.requiredPercent, rounding,
          criterion.ignoredParticipants⟩ := by
  rw [Scope.ofCriterion, map_eq_ok_iff]
  exact ⟨fun ⟨r, hr, h⟩ => ⟨r, hr, h.symm⟩, fun ⟨r, hr, h⟩ => ⟨r, hr, h.symm⟩⟩

/-- A scope leaves points as they are if its criterion asks for that. -/
theorem Scope.rounding_eq_identity {criterion : Criterion} {scope : Scope}
    (stated : Scope.ofCriterion criterion = .ok scope)
    (unrounded : criterion.pointsRounding.mode = .none) : scope.rounding = .identity := by
  obtain ⟨rounding, known, rfl⟩ := Scope.ofCriterion_eq_ok_iff.mp stated
  rw [RoundingChoice.toRounding, RoundingChoice.rounding?, unrounded] at known
  exact (Except.ok.inj known).symm

/-- The criterion states a rule that decides about admission, if it states one. -/
def Criterion.isGating (criterion : Criterion) : Bool := criterion.kind ≠ .individualPercent

namespace Rule.States

variable {criterion : Criterion} {assignments : List Assignment} {rule other : Rule}

theorem kind_eq (h : States criterion assignments rule) : rule.kind = criterion.kind := by
  cases h with
  | overallPercent kind => exact kind.symm
  | allowedFailures kind => exact kind.symm
  | passedAssignments kind => exact kind.symm
  | individualPercent kind => exact kind.symm

/-- A criterion states at most one rule. -/
theorem unique (h : States criterion assignments rule) (h' : States criterion assignments other) :
    rule = other :=
  Except.ok.inj ((ofCriterion_eq_ok_iff.mpr h).symm.trans (ofCriterion_eq_ok_iff.mpr h'))

/-- A criterion on all points together states a rule on them. -/
theorem eq_overallPercent (h : States criterion assignments rule)
    (sums : criterion.kind = .overallPercent) :
    ∃ scope, Scope.ofCriterion criterion = .ok scope ∧
      rule = .gate (.overallPercent (.ofScope scope assignments)) := by
  cases h with
  | overallPercent _ stated => exact ⟨_, stated, rfl⟩
  | allowedFailures kind => cases sums.symm.trans kind
  | passedAssignments kind => cases sums.symm.trans kind
  | individualPercent kind => cases sums.symm.trans kind

/-- A criterion that counts failures states a rule that allows so many. -/
theorem eq_allowedFailures (h : States criterion assignments rule)
    (counts : criterion.kind = .allowedFailures) :
    ∃ scope allowed, criterion.allowedFailures = some allowed ∧
      Scope.ofCriterion criterion = .ok scope ∧
      rule = .gate (.allowedFailures
        ⟨scope, Assignment.ofCategory scope.category assignments, allowed⟩) := by
  cases h with
  | overallPercent kind => cases counts.symm.trans kind
  | allowedFailures _ given stated => exact ⟨_, _, given, stated, rfl⟩
  | passedAssignments kind => cases counts.symm.trans kind
  | individualPercent kind => cases counts.symm.trans kind

/-- A criterion that asks for a list states one. -/
theorem eq_listing (h : States criterion assignments rule)
    (lists : criterion.kind = .individualPercent) :
    ∃ scope, Scope.ofCriterion criterion = .ok scope ∧
      rule = .listing ⟨scope, Assignment.ofCategory scope.category assignments⟩ := by
  cases h with
  | overallPercent kind => cases lists.symm.trans kind
  | allowedFailures kind => cases lists.symm.trans kind
  | passedAssignments kind => cases lists.symm.trans kind
  | individualPercent _ stated => exact ⟨_, stated, rfl⟩

/-- The scope of a stated rule is the one that its criterion states. -/
theorem scope_stated (h : States criterion assignments rule) :
    Scope.ofCriterion criterion = .ok rule.scope := by
  cases h with
  | overallPercent _ stated => exact stated
  | allowedFailures _ _ stated => exact stated
  | passedAssignments _ _ _ stated => exact stated
  | individualPercent _ stated => exact stated

theorem category_eq (h : States criterion assignments rule) :
    rule.scope.category = criterion.category := by
  obtain ⟨rounding, -, hscope⟩ := Scope.ofCriterion_eq_ok_iff.mp h.scope_stated
  rw [hscope]

theorem requiredPercent_eq (h : States criterion assignments rule) :
    rule.scope.requiredPercent = criterion.requiredPercent := by
  obtain ⟨rounding, -, hscope⟩ := Scope.ofCriterion_eq_ok_iff.mp h.scope_stated
  rw [hscope]

theorem ignored_eq (h : States criterion assignments rule) :
    rule.scope.ignored = criterion.ignoredParticipants := by
  obtain ⟨rounding, -, hscope⟩ := Scope.ofCriterion_eq_ok_iff.mp h.scope_stated
  rw [hscope]

/-- A stated rule decides exactly if its criterion is a deciding one. -/
theorem isGate_eq (h : States criterion assignments rule) : rule.isGate = criterion.isGating := by
  cases h with
  | overallPercent kind => simp [Criterion.isGating, kind]
  | allowedFailures kind => simp [Criterion.isGating, kind]
  | passedAssignments kind => simp [Criterion.isGating, kind]
  | individualPercent kind => simp [Criterion.isGating, kind]

end Rule.States

/-! ### All rules of a course -/

namespace Ruleset

variable {criteria : List Criterion} {assignments : List Assignment} {ruleset : Ruleset}

/-- A set of rules is built exactly if every criterion states its rule, position by position, and
one of the rules decides. -/
theorem ofCriteria_eq_ok_iff :
    ofCriteria criteria assignments = .ok ruleset ↔
      List.Forall₂ (Rule.States · (Assignment.evaluated assignments)) criteria ruleset.rules ∧
        ruleset.rules.any Rule.isGate := by
  have steps : ∀ rules, criteria.mapM (Rule.ofCriterion · (Assignment.evaluated assignments)) =
      .ok rules ↔
        List.Forall₂ (Rule.States · (Assignment.evaluated assignments)) criteria rules := by
    intro rules
    rw [mapM_eq_ok_iff]
    simp only [Rule.ofCriterion_eq_ok_iff]
  constructor
  · intro h
    obtain ⟨rules, hrules, h⟩ := bind_eq_ok_iff.mp h
    split at h
    · next decides =>
      cases h
      exact ⟨(steps rules).mp hrules, decides⟩
    · cases h
  · rintro ⟨hrules, decides⟩
    refine bind_eq_ok_iff.mpr ⟨ruleset.rules, (steps _).mpr hrules, ?_⟩
    rw [if_pos decides]

/-- The deciding rules are those that the deciding criteria state, in order. -/
theorem gates_stated (built : ofCriteria criteria assignments = .ok ruleset) :
    List.Forall₂ (fun criterion gate =>
        Rule.States criterion (Assignment.evaluated assignments) (.gate gate))
      (criteria.filter Criterion.isGating) ruleset.gates := by
  obtain ⟨stated, -⟩ := ofCriteria_eq_ok_iff.mp built
  rw [gates]
  clear built
  -- position by position, a rule is kept on one side exactly if its criterion is on the other
  generalize ruleset.rules = rules at stated
  induction stated with
  | nil => exact .nil
  | @cons criterion rule criteria rules h _ ih =>
    have hgate := h.isGate_eq
    cases rule with
    | gate gate =>
      rw [List.filter_cons_of_pos (by rw [← hgate]; rfl)]
      exact .cons h ih
    | listing listing =>
      rw [List.filter_cons_of_neg (by rw [← hgate]; simp)]
      exact ih

/-- The informing rules are those that the other criteria state, in order. -/
theorem listings_stated (built : ofCriteria criteria assignments = .ok ruleset) :
    List.Forall₂ (fun criterion listing =>
        Rule.States criterion (Assignment.evaluated assignments) (.listing listing))
      (criteria.filter (!·.isGating)) ruleset.listings := by
  obtain ⟨stated, -⟩ := ofCriteria_eq_ok_iff.mp built
  rw [listings]
  clear built
  generalize ruleset.rules = rules at stated
  induction stated with
  | nil => exact .nil
  | @cons criterion rule criteria rules h _ ih =>
    have hgate := h.isGate_eq
    cases rule with
    | gate gate =>
      rw [List.filter_cons_of_neg (by rw [← hgate]; simp)]
      exact ih
    | listing listing =>
      rw [List.filter_cons_of_pos (by rw [← hgate]; rfl)]
      exact .cons h ih

/-- Every rule is stated by a criterion. -/
theorem exists_stated_of_mem (built : ofCriteria criteria assignments = .ok ruleset) {rule : Rule}
    (mem : rule ∈ ruleset.rules) :
    ∃ criterion, Rule.States criterion (Assignment.evaluated assignments) rule := by
  obtain ⟨stated, -⟩ := ofCriteria_eq_ok_iff.mp built
  obtain ⟨criterion, -, states⟩ := exists_of_forall₂ stated mem
  exact ⟨criterion, states⟩

theorem gate_mem_rules {gate : Gate} (mem : gate ∈ ruleset.gates) : .gate gate ∈ ruleset.rules := by
  obtain ⟨rule, hmem, hgate⟩ := List.mem_filterMap.mp mem
  cases rule with
  | gate gate => exact Option.some.inj hgate ▸ hmem
  | listing listing => cases hgate

/-- The deciding rules depend on the deciding criteria alone. -/
theorem gates_eq_of_filter_eq {others : List Criterion} {other : Ruleset}
    (built : ofCriteria criteria assignments = .ok ruleset)
    (builtOther : ofCriteria others assignments = .ok other)
    (same : others.filter Criterion.isGating = criteria.filter Criterion.isGating) :
    other.gates = ruleset.gates := by
  -- both lists are stated by the same criteria, each of which states one rule
  have unique : Relator.RightUnique fun criterion gate =>
      Rule.States criterion (Assignment.evaluated assignments) (.gate gate) :=
    fun _ _ _ h h' => Rule.gate.inj (h.unique h')
  exact List.right_unique_forall₂' unique (same ▸ gates_stated builtOther) (gates_stated built)

/-- A built set of rules has a deciding one. -/
theorem gates_ne_nil (built : ofCriteria criteria assignments = .ok ruleset) :
    ruleset.gates ≠ [] := by
  obtain ⟨-, decides⟩ := ofCriteria_eq_ok_iff.mp built
  obtain ⟨rule, hmem, hgate⟩ := List.any_eq_true.mp decides
  obtain ⟨gate, hgate⟩ := Option.isSome_iff_exists.mp hgate
  exact List.ne_nil_of_mem (List.mem_filterMap.mpr ⟨rule, hmem, hgate⟩)

end Ruleset

end ExamAdmission
