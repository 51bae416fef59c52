/-
Stricter criteria never admit more.

Two lists of criteria are compared that ask the same questions, the second one no more leniently: it
requires no smaller percentages and allows no more failures (`Criterion.Tightens`).  Each kind of
rule that passes under the second passes under the first:

* `OverallPercent.passed_of_raised` — the percentage that reaches the higher mark reaches the lower;
* `AllowedFailures.passed_of_raised` — what misses the lower mark misses the higher, and fewer misses
  are allowed;
* `PassedAssignments.passed_of_raised` — thresholds and counts are rounded amounts, which grow with
  the percentages they are made from;
* `Ruleset.hasAdmission_of_tightened` — so both lists are accepted or rejected alike, and who is
  admitted under the second is admitted under the first.
-/
import ExamAdmission.Course.Demo
import ExamAdmission.Proofs.Double.Error
import ExamAdmission.Proofs.Ruleset.Improvement
import ExamAdmission.Proofs.Ruleset.Outcome

namespace ExamAdmission

/-- Two finite doubles, the second one no smaller. -/
structure Double.Raised (lower higher : Double) : Prop where
  finite : lower.isFinite = true
  finiteHigher : higher.isFinite = true
  le : lower ≤ higher

/-- The criterion is a stricter form of another one: it asks the same of the same assignments and
participants, but requires no smaller percentages and allows no more failures. -/
structure Criterion.Tightens (stricter criterion : Criterion) : Prop where
  kind : stricter.kind = criterion.kind
  category : stricter.category = criterion.category
  pointsRounding : stricter.pointsRounding = criterion.pointsRounding
  passedAssignmentsRounding :
    stricter.passedAssignmentsRounding = criterion.passedAssignmentsRounding
  ignored : stricter.ignoredParticipants = criterion.ignoredParticipants
  requiredPercent : Double.Raised criterion.requiredPercent stricter.requiredPercent
  passedAssignmentsPercent : Option.Rel Double.Raised criterion.passedAssignmentsPercent
    stricter.passedAssignmentsPercent
  allowedFailures : Option.Rel (fun allowed fewer => fewer ≤ allowed) criterion.allowedFailures
    stricter.allowedFailures

variable {assignments : List Assignment} {participant : Participant} {scope : Scope}
  {higher : Double}

/-! ### The rules -/

theorem OverallPercent.passed_of_raised (raised : Double.Raised scope.requiredPercent higher)
    (passed : ((ofScope { scope with requiredPercent := higher } assignments).check
      participant).passed = true) :
    ((ofScope scope assignments).check participant).passed = true := by
  rw [check_passed_iff] at passed ⊢
  rcases passed with ignored | nothing | reached
  · exact Or.inl ignored
  · exact Or.inr (Or.inl nothing)
  · exact Or.inr (Or.inr (Double.le_trans raised.le reached))

namespace AllowedFailures

variable {allowed fewer : UInt32}

/-- No more assignments are missed where less is required of each. -/
theorem failures_le_of_raised (raised : Double.Raised scope.requiredPercent higher)
    (few : assignments.length < 2 ^ 32) :
    (⟨scope, assignments, allowed⟩ : AllowedFailures).failures participant ≤
      (⟨{ scope with requiredPercent := higher }, assignments, fewer⟩ :
        AllowedFailures).failures participant := by
  rw [UInt32.le_iff_toNat_le, toNat_failures few, toNat_failures few]
  refine List.countP_mono_left fun assignment _ failed => ?_
  have below := of_decide_eq_true failed
  exact decide_eq_true (Double.lt_of_lt_of_le below raised.le)

theorem passed_of_raised (raised : Double.Raised scope.requiredPercent higher)
    (allows : fewer ≤ allowed) (few : assignments.length < 2 ^ 32)
    (passed : ((⟨{ scope with requiredPercent := higher }, assignments, fewer⟩ :
      AllowedFailures).check participant).passed = true) :
    ((⟨scope, assignments, allowed⟩ : AllowedFailures).check participant).passed = true := by
  rw [check_passed_iff] at passed ⊢
  rcases passed with ignored | within
  · exact Or.inl ignored
  · refine Or.inr (UInt32.le_trans ?_ (UInt32.le_trans within allows))
    exact failures_le_of_raised raised few

end AllowedFailures

namespace PassedAssignments

variable {percent higherPercent : Double} {countRounding : Rounding}

/-- The threshold of an assignment grows with the percentage required of it. -/
theorem requiredPoints_le_of_raised (raised : Double.Raised scope.requiredPercent higher)
    {assignment : Assignment} (finite : assignment.maxPoints.isFinite = true)
    (nonneg : 0 ≤ assignment.maxPoints) :
    (threshold scope assignment).requiredPoints ≤
      (threshold { scope with requiredPercent := higher } assignment).requiredPoints :=
  scope.rounding.apply_le_apply
    (amountOfPercent_le finite nonneg raised.finite raised.finiteHigher raised.le)

/-- No fewer assignments are passed where less is required of each. -/
theorem passedCount_le_of_raised (raised : Double.Raised scope.requiredPercent higher)
    (worth : ∀ assignment ∈ assignments,
      assignment.maxPoints.isFinite = true ∧ 0 ≤ assignment.maxPoints) :
    (ofScope { scope with requiredPercent := higher } higherPercent countRounding
        assignments).passedCount participant ≤
      (ofScope scope percent countRounding assignments).passedCount participant := by
  unfold passedCount ofScope
  rw [List.countP_map, List.countP_map]
  refine List.countP_mono_left fun assignment mem passed => ?_
  obtain ⟨finite, nonneg⟩ := worth assignment (Assignment.mem_ofCategory.mp mem).1
  have reached := of_decide_eq_true passed
  exact decide_eq_true (Double.le_trans (requiredPoints_le_of_raised raised finite nonneg) reached)

/-- The number of assignments that have to be passed grows with the percentage of them. -/
theorem requiredCount_le_of_raised (higher : Double)
    (raised : Double.Raised percent higherPercent) (few : assignments.length < 2 ^ 32) :
    (ofScope scope percent countRounding assignments).requiredCount ≤
      (ofScope { scope with requiredPercent := higher } higherPercent countRounding
        assignments).requiredCount := by
  have counted : (Assignment.ofCategory scope.category assignments).length ≤ 2 ^ 53 :=
    (List.length_filter_le _ _).trans (few.le.trans (by decide))
  exact countRounding.apply_le_apply (amountOfPercent_le (Double.isFinite_ofNat counted)
    (Double.zero_le_ofNat _) raised.finite raised.finiteHigher raised.le)

theorem passed_of_raised (raised : Double.Raised scope.requiredPercent higher)
    (raisedCount : Double.Raised percent higherPercent) (few : assignments.length < 2 ^ 32)
    (worth : ∀ assignment ∈ assignments,
      assignment.maxPoints.isFinite = true ∧ 0 ≤ assignment.maxPoints)
    (passed : ((ofScope { scope with requiredPercent := higher } higherPercent countRounding
      assignments).check participant).passed = true) :
    ((ofScope scope percent countRounding assignments).check participant).passed = true := by
  have required : (ofScope scope percent countRounding assignments).requiredCount ≤ _ :=
    requiredCount_le_of_raised higher raisedCount few
  rw [check_passed_iff] at passed ⊢
  rcases passed with ignored | none | reached
  · exact Or.inl ignored
  · -- a number that is not above zero is reached by any count, as zero or below it
    have below := Double.le_trans required (Double.le_zero_of_isZero none)
    exact Or.inr (Or.inr (Double.le_trans below (Double.zero_le_ofNat _)))
  · refine Or.inr (Or.inr (Double.le_trans required (Double.le_trans reached ?_)))
    exact Double.ofNat_le_ofNat (passedCount_le_of_raised raised worth)

end PassedAssignments

/-! ### The criteria -/

/-- Of two related fields one is absent exactly if the other one is. -/
theorem eq_none_iff_of_rel {α β : Type} {r : α → β → Prop} {field : Option α} {other : Option β}
    (h : Option.Rel r field other) : other = none ↔ field = none := by
  cases h with
  | some h => simp
  | none => simp

theorem exists_of_rel_some {α β : Type} {r : α → β → Prop} {field : Option α} {other : Option β}
    {value : α} (h : Option.Rel r field other) (given : field = some value) :
    ∃ related, other = some related ∧ r value related := by
  cases h with
  | some h => exact ⟨_, rfl, Option.some.inj given ▸ h⟩
  | none => cases given

namespace Criterion.Tightens

variable {stricter criterion : Criterion} (tightens : stricter.Tightens criterion)
include tightens

/-- Both criteria have the same fields, and name the same roundings. -/
theorem sameNeeds : criterion.SameNeeds stricter where
  kind := tightens.kind
  pointsRounding _ := by rw [tightens.pointsRounding]
  allowedFailures _ := eq_none_iff_of_rel tightens.allowedFailures
  passedAssignmentsPercent _ := eq_none_iff_of_rel tightens.passedAssignmentsPercent
  passedAssignmentsRounding _ := by rw [tightens.passedAssignmentsRounding]

/-- The scope of the stricter criterion differs in the percentage alone. -/
theorem exists_raised {stricterScope : Scope} (stated : Scope.ofCriterion criterion = .ok scope)
    (statedStricter : Scope.ofCriterion stricter = .ok stricterScope) :
    ∃ higher, Double.Raised scope.requiredPercent higher ∧
      stricterScope = { scope with requiredPercent := higher } := by
  obtain ⟨rounding, known, rfl⟩ := Scope.ofCriterion_eq_ok_iff.mp stated
  obtain ⟨rounding', known', rfl⟩ := Scope.ofCriterion_eq_ok_iff.mp statedStricter
  rw [tightens.pointsRounding] at known'
  obtain rfl : rounding = rounding' := Except.ok.inj (known.symm.trans known')
  rw [tightens.category, tightens.ignored]
  exact ⟨_, tightens.requiredPercent, rfl⟩

/-- A deciding rule that passes as the stricter criterion states it passes as the other one does. -/
theorem passed {gate stricterGate : Gate}
    (stated : Rule.States criterion assignments (.gate gate))
    (statedStricter : Rule.States stricter assignments (.gate stricterGate))
    (few : assignments.length < 2 ^ 32)
    (worth : ∀ assignment ∈ assignments,
      assignment.maxPoints.isFinite = true ∧ 0 ≤ assignment.maxPoints)
    (passes : (stricterGate.check participant).passed = true) :
    (gate.check participant).passed = true := by
  have statedScope := statedStricter.scope_stated
  cases stated with
  | overallPercent kind hscope =>
    obtain ⟨higher, raised, same⟩ := tightens.exists_raised hscope statedScope
    obtain rfl := Rule.gate.inj (statedStricter.unique
      (.overallPercent (tightens.kind.trans kind) (same ▸ statedScope)))
    exact OverallPercent.passed_of_raised raised passes
  | allowedFailures kind given hscope =>
    obtain ⟨higher, raised, same⟩ := tightens.exists_raised hscope statedScope
    obtain ⟨fewer, givenStricter, allows⟩ := exists_of_rel_some tightens.allowedFailures given
    obtain rfl := Rule.gate.inj (statedStricter.unique
      (.allowedFailures (tightens.kind.trans kind) givenStricter (same ▸ statedScope)))
    exact AllowedFailures.passed_of_raised raised allows
      ((List.length_filter_le _ _).trans_lt few) passes
  | passedAssignments kind given rounded hscope =>
    obtain ⟨higher, raised, same⟩ := tightens.exists_raised hscope statedScope
    obtain ⟨higherPercent, givenStricter, raisedCount⟩ :=
      exists_of_rel_some tightens.passedAssignmentsPercent given
    obtain rfl := Rule.gate.inj (statedStricter.unique
      (.passedAssignments (tightens.kind.trans kind) givenStricter
        (tightens.passedAssignmentsRounding ▸ rounded) (same ▸ statedScope)))
    exact PassedAssignments.passed_of_raised raised raisedCount few worth passes

end Criterion.Tightens

/-- Stricter forms of the demo criteria: more points, all sheets, and a better talk. -/
def Demo.stricterCriteria : List Criterion :=
  [{ Criterion.plain .overallPercent .homework 70 with pointsRounding := ⟨.decimals, some 0⟩ },
   { Criterion.plain .passedAssignments .homework 50 with
     passedAssignmentsPercent := some 100
     passedAssignmentsRounding := ⟨.ceil, none⟩ },
   { Criterion.plain .allowedFailures .presentation 80 with
     allowedFailures := some 0
     ignoredParticipants := .ofList ["exchange-student"] },
   .plain .individualPercent .homework 60]

theorem Demo.stricterCriteria_tighten :
    List.Forall₂ (fun criterion stricter => stricter.Tightens criterion) Demo.criteria
      Demo.stricterCriteria := by
  refine .cons ⟨rfl, rfl, rfl, rfl, rfl, ?_, .none, .none⟩ <|
    .cons ⟨rfl, rfl, rfl, rfl, rfl, ?_, .some ?_, .none⟩ <|
    .cons ⟨rfl, rfl, rfl, rfl, rfl, ?_, .none, .some (by decide)⟩ <|
    .cons ⟨rfl, rfl, rfl, rfl, rfl, ?_, .none, .none⟩ .nil
  all_goals exact ⟨by decide +kernel, by decide +kernel, by decide +kernel⟩

/-! ### Admission -/

/-- Lists that are related to related lists are related themselves. -/
theorem forall₂_of_related {α β γ δ : Type} {r : α → β → Prop} {s : α → γ → Prop}
    {t : β → δ → Prop} {q : γ → δ → Prop} (step : ∀ a b c d, r a b → s a c → t b d → q c d)
    {as : List α} {bs : List β} {cs : List γ} {ds : List δ} (h : List.Forall₂ r as bs)
    (left : List.Forall₂ s as cs) (right : List.Forall₂ t bs ds) : List.Forall₂ q cs ds := by
  induction h generalizing cs ds with
  | nil =>
    cases left
    cases right
    exact .nil
  | cons first _ ih =>
    cases left with
    | cons firstLeft restLeft =>
      cases right with
      | cons firstRight restRight =>
        exact .cons (step _ _ _ _ first firstLeft firstRight) (ih restLeft restRight)

/-- Verdicts that pass where others pass admit where these admit. -/
theorem Status.hasAdmission_of_forall₂ {id : ParticipantId} {results others : List Verdict}
    (h : List.Forall₂ (fun result other => other.passed = true → result.passed = true) results
      others) (admitted : (ofVerdicts id others).hasAdmission = true) :
    (ofVerdicts id results).hasAdmission = true := by
  rw [hasAdmission_iff] at admitted ⊢
  intro result mem
  obtain ⟨other, hother, passes⟩ := exists_of_forall₂ h.flip mem
  exact passes (admitted other hother)

namespace Ruleset

variable {criteria stricter : List Criterion}

/-- The deciding rules of stricter criteria pass no participant whom those of the others fail. -/
theorem forall₂_gates_of_tightened {ruleset other : Ruleset}
    (tightened : List.Forall₂ (fun criterion stricter => stricter.Tightens criterion) criteria
      stricter)
    (few : (Assignment.evaluated assignments).length < 2 ^ 32)
    (worth : ∀ assignment ∈ Assignment.evaluated assignments,
      assignment.maxPoints.isFinite = true ∧ 0 ≤ assignment.maxPoints)
    (built : ofCriteria criteria assignments = .ok ruleset)
    (builtStricter : ofCriteria stricter assignments = .ok other) (participant : Participant) :
    List.Forall₂ (fun gate stricter =>
        stricter.kind = gate.kind ∧ stricter.scope.category = gate.scope.category ∧
        ((stricter.check participant).passed = true → (gate.check participant).passed = true))
      ruleset.gates other.gates := by
  have deciding : List.Forall₂ (fun criterion stricter => stricter.Tightens criterion)
      (criteria.filter Criterion.isGating) (stricter.filter Criterion.isGating) := by
    refine List.rel_filter ?_ tightened
    intro criterion stricter tightens
    simp only [Criterion.isGating, tightens.kind]
  refine forall₂_of_related ?_ deciding (gates_stated built) (gates_stated builtStricter)
  intro criterion stricter gate stricterGate tightens stated statedStricter
  refine ⟨?_, ?_, tightens.passed stated statedStricter few worth⟩
  · exact statedStricter.kind_eq.trans (tightens.kind.trans stated.kind_eq.symm)
  · exact statedStricter.category_eq.trans (tightens.category.trans stated.category_eq.symm)

/-- **Stricter criteria never admit more.**  Criteria and stricter forms of them are accepted alike,
or rejected with the same error; every verdict that passes under the stricter ones passes under the
others, whatever the points of the participant, and so admission under the stricter ones is
admission under the others. -/
theorem hasAdmission_of_tightened
    (tightened : List.Forall₂ (fun criterion stricter => stricter.Tightens criterion) criteria
      stricter)
    (few : (Assignment.evaluated assignments).length < 2 ^ 32)
    (worth : ∀ assignment ∈ Assignment.evaluated assignments,
      assignment.maxPoints.isFinite = true ∧ 0 ≤ assignment.maxPoints) :
    (ofCriteria stricter assignments).map (·.rules.map Rule.kind) =
      (ofCriteria criteria assignments).map (·.rules.map Rule.kind) ∧
    ∀ ruleset other, ofCriteria criteria assignments = .ok ruleset →
      ofCriteria stricter assignments = .ok other → ∀ participant,
      List.Forall₂ (fun verdict stricter =>
          stricter.kind = verdict.kind ∧ stricter.category = verdict.category ∧
          (stricter.passed = true → verdict.passed = true))
        (ruleset.evaluate participant).results (other.evaluate participant).results ∧
      ((other.evaluate participant).hasAdmission = true →
        (ruleset.evaluate participant).hasAdmission = true) := by
  constructor
  · rw [map_kinds_ofCriteria_eq_outcome, map_kinds_ofCriteria_eq_outcome]
    exact outcome_congr (tightened.imp fun _ _ tightens => tightens.sameNeeds)
  · intro ruleset other built builtStricter participant
    have gates := forall₂_gates_of_tightened tightened few worth built builtStricter participant
    have verdicts : List.Forall₂ (fun verdict stricter =>
          stricter.kind = verdict.kind ∧ stricter.category = verdict.category ∧
          (stricter.passed = true → verdict.passed = true))
        (ruleset.gates.map (·.check participant)) (other.gates.map (·.check participant)) := by
      rw [List.forall₂_map_left_iff, List.forall₂_map_right_iff]
      refine gates.imp fun gate stricter h => ?_
      rwa [Gate.check_kind, Gate.check_kind, Gate.check_category, Gate.check_category]
    rw [evaluate_eq_gates, evaluate_eq_gates]
    exact ⟨verdicts, Status.hasAdmission_of_forall₂ (verdicts.imp fun _ _ h => h.2.2)⟩

/-- In the demo course ada meets the stricter criteria, and so the demo criteria. -/
theorem demo_hasAdmission_of_tightened :
    let ada := Demo.participant "ada" [("sheet-1", some 18), ("sheet-2", some (Demo.tenths 155)),
      ("sheet-3", some 12), ("talk", some 8)]
    ∃ ruleset other, ofCriteria Demo.criteria Demo.course.assignments = .ok ruleset ∧
      ofCriteria Demo.stricterCriteria Demo.course.assignments = .ok other ∧
      (other.evaluate ada).hasAdmission = true ∧ (ruleset.evaluate ada).hasAdmission = true := by
  intro ada
  have computed : (ofCriteria Demo.stricterCriteria Demo.course.assignments).map (fun ruleset =>
      (ruleset.evaluate ada).hasAdmission) = .ok true := by
    decide +kernel
  obtain ⟨ruleset, built⟩ := exists_of_demo
  obtain ⟨other, builtStricter, admitted⟩ := map_eq_ok_iff.mp computed
  have worth : ∀ assignment ∈ Assignment.evaluated Demo.course.assignments,
      assignment.maxPoints.isFinite = true ∧ 0 ≤ assignment.maxPoints := by decide +kernel
  obtain ⟨-, compared⟩ := hasAdmission_of_tightened Demo.stricterCriteria_tighten
    (by decide) worth
  exact ⟨ruleset, other, built, builtStricter, admitted,
    (compared ruleset other built builtStricter ada).2 admitted⟩

end Ruleset

end ExamAdmission
