/-
Rounding modes in the order of leniency.

Rounding down gives no larger values than no rounding, and that no larger ones than rounding up
(`Rounding.Below`).  What is rounded is an achieved percentage in two kinds of rules, a required
amount in the third, and there also the required number of assignments:

* `OverallPercent.passed_of_below`, `AllowedFailures.passed_of_below` — larger achieved percentages
  pass where smaller ones do;
* `PassedAssignments.passed_of_below` — smaller thresholds and smaller required numbers are met
  where larger ones are, also when the number is rounded to zero;
* `Criterion.leniency_of_rounding` — so the modes are ordered, in opposite directions for the two
  families of rules.
-/
import ExamAdmission.Course.Demo
import ExamAdmission.Proofs.Ruleset.Improvement

namespace ExamAdmission

/-! ### The rules -/

section Rules

variable {lower upper : Rounding} {scope : Scope} {assignments : List Assignment}
  {participant : Participant}

theorem OverallPercent.passed_of_below (below : scope.rounding.Below upper)
    (passed : ((ofScope scope assignments).check participant).passed = true) :
    ((ofScope { scope with rounding := upper } assignments).check participant).passed = true := by
  rw [check_passed_iff] at passed ⊢
  rcases passed with ignored | nothing | reached
  · exact Or.inl ignored
  · exact Or.inr (Or.inl nothing)
  · exact Or.inr (Or.inr (below.le_apply reached))

namespace AllowedFailures

variable {allowed : UInt32}

/-- An assignment that is missed when percentages are rounded higher was missed before. -/
theorem isFailed_of_below (below : scope.rounding.Below upper) {assignment : Assignment}
    (failed : (⟨{ scope with rounding := upper }, assignments, allowed⟩ :
      AllowedFailures).isFailed participant assignment = true) :
    (⟨scope, assignments, allowed⟩ : AllowedFailures).isFailed participant assignment = true := by
  have missed := of_decide_eq_true failed
  refine decide_eq_true ?_
  unfold Scope.assignmentPercent at missed ⊢
  split at missed
  · next nothing => rwa [if_pos nothing]
  · next something =>
    rw [if_neg something]
    exact below.apply_lt missed

theorem passed_of_below (below : scope.rounding.Below upper) (few : assignments.length < 2 ^ 32)
    (passed : ((⟨scope, assignments, allowed⟩ : AllowedFailures).check
      participant).passed = true) :
    ((⟨{ scope with rounding := upper }, assignments, allowed⟩ :
      AllowedFailures).check participant).passed = true := by
  rw [check_passed_iff] at passed ⊢
  rcases passed with ignored | within
  · exact Or.inl ignored
  · refine Or.inr (UInt32.le_trans ?_ within)
    rw [UInt32.le_iff_toNat_le, toNat_failures few, toNat_failures few]
    exact List.countP_mono_left fun assignment _ failed => isFailed_of_below below failed

end AllowedFailures

namespace PassedAssignments

variable {percent : Double} {countRounding : Rounding}

/-- No fewer assignments are passed where thresholds are rounded lower. -/
theorem passedCount_le_of_below (below : lower.Below scope.rounding) :
    (ofScope scope percent countRounding assignments).passedCount participant ≤
      (ofScope { scope with rounding := lower } percent countRounding assignments).passedCount
        participant := by
  unfold passedCount ofScope
  rw [List.countP_map, List.countP_map]
  exact List.countP_mono_left fun assignment _ passed =>
    decide_eq_true (below.apply_le (of_decide_eq_true passed))

theorem passed_of_below (below : lower.Below scope.rounding)
    (passed : ((ofScope scope percent countRounding assignments).check
      participant).passed = true) :
    ((ofScope { scope with rounding := lower } percent countRounding assignments).check
      participant).passed = true := by
  rw [check_passed_iff] at passed ⊢
  rcases passed with ignored | none | reached
  · exact Or.inl ignored
  · exact Or.inr (Or.inl none)
  · refine Or.inr (Or.inr (Double.le_trans reached ?_))
    exact Double.ofNat_le_ofNat (passedCount_le_of_below below)

theorem passed_of_count_below (below : lower.Below upper)
    (passed : ((ofScope scope percent upper assignments).check participant).passed = true) :
    ((ofScope scope percent lower assignments).check participant).passed = true := by
  rw [check_passed_iff] at passed ⊢
  rcases passed with ignored | none | reached
  · exact Or.inl ignored
  · -- a number that is rounded to zero need not be, but any count reaches the lower rounding of it
    have nothing := below.apply_le (Double.le_zero_of_isZero none)
    exact Or.inr (Or.inr (Double.le_trans nothing (Double.zero_le_ofNat _)))
  · exact Or.inr (Or.inr (below.apply_le reached))

end PassedAssignments

end Rules

/-! ### The criteria -/

namespace Criterion

/-- The criterion states a deciding rule over the assignments, which passes the participant. -/
def Passes (criterion : Criterion) (assignments : List Assignment) (participant : Participant) :
    Prop :=
  ∃ gate, Rule.ofCriterion criterion assignments = .ok (.gate gate) ∧
    (gate.check participant).passed = true

theorem passes_iff {criterion : Criterion} {assignments : List Assignment}
    {participant : Participant} : criterion.Passes assignments participant ↔
      (Rule.ofCriterion criterion assignments).map
        (·.gate?.map fun gate => (gate.check participant).passed) = .ok (some true) := by
  rw [map_eq_ok_iff]
  constructor
  · rintro ⟨gate, built, passed⟩
    exact ⟨_, built, congrArg some passed⟩
  · rintro ⟨rule, built, passed⟩
    cases rule with
    | gate gate => exact ⟨gate, built, Option.some.inj passed⟩
    | listing listing => cases passed

instance (criterion : Criterion) (assignments : List Assignment) (participant : Participant) :
    Decidable (criterion.Passes assignments participant) :=
  decidable_of_iff _ passes_iff.symm

/-- The criterion with another rounding of points. -/
def withPoints (criterion : Criterion) (choice : RoundingChoice) : Criterion :=
  { criterion with pointsRounding := choice }

/-- The criterion with another rounding of the number of assignments. -/
def withCount (criterion : Criterion) (choice : RoundingChoice) : Criterion :=
  { criterion with passedAssignmentsRounding := choice }

variable {criterion : Criterion} {assignments : List Assignment} {participant : Participant}
  {lower upper : Rounding} {lowerChoice upperChoice : RoundingChoice}

/-- The scopes that are stated with two roundings of points are the same but for these. -/
theorem scope_withPoints {scope : Scope} {choice other : RoundingChoice}
    {rounding another : Rounding}
    (stated : Scope.ofCriterion (criterion.withPoints choice) = .ok scope)
    (known : choice.toRounding = .ok rounding) (knownOther : other.toRounding = .ok another) :
    scope.rounding = rounding ∧
      Scope.ofCriterion (criterion.withPoints other) = .ok { scope with rounding := another } := by
  obtain ⟨first, named, rfl⟩ := Scope.ofCriterion_eq_ok_iff.mp stated
  exact ⟨Except.ok.inj (named.symm.trans known),
    Scope.ofCriterion_eq_ok_iff.mpr ⟨another, knownOther, rfl⟩⟩

section Pairs

variable (below : lower.Below upper) (known : lowerChoice.toRounding = .ok lower)
  (knownUpper : upperChoice.toRounding = .ok upper)
include below known knownUpper

/-- Where achieved percentages are rounded, the higher rounding passes whom the lower one does. -/
theorem passes_of_points_below
    (kind : criterion.kind = .overallPercent ∨ criterion.kind = .allowedFailures)
    (few : assignments.length < 2 ^ 32)
    (passes : (criterion.withPoints lowerChoice).Passes assignments participant) :
    (criterion.withPoints upperChoice).Passes assignments participant := by
  obtain ⟨gate, built, passed⟩ := passes
  cases Rule.ofCriterion_eq_ok_iff.mp built with
  | overallPercent share stated =>
    obtain ⟨rfl, statedUpper⟩ := scope_withPoints stated known knownUpper
    exact ⟨_, Rule.ofCriterion_eq_ok_iff.mpr (.overallPercent share statedUpper),
      OverallPercent.passed_of_below below passed⟩
  | allowedFailures each given stated =>
    obtain ⟨rfl, statedUpper⟩ := scope_withPoints stated known knownUpper
    exact ⟨_, Rule.ofCriterion_eq_ok_iff.mpr (.allowedFailures each given statedUpper),
      AllowedFailures.passed_of_below below ((List.length_filter_le _ _).trans_lt few) passed⟩
  | passedAssignments counts =>
    rcases kind with kind | kind <;> cases kind.symm.trans counts

/-- Where required amounts are rounded, the lower rounding passes whom the higher one does. -/
theorem passes_of_points_above (counts : criterion.kind = .passedAssignments)
    (passes : (criterion.withPoints upperChoice).Passes assignments participant) :
    (criterion.withPoints lowerChoice).Passes assignments participant := by
  obtain ⟨gate, built, passed⟩ := passes
  cases Rule.ofCriterion_eq_ok_iff.mp built with
  | overallPercent kind => cases counts.symm.trans kind
  | allowedFailures kind => cases counts.symm.trans kind
  | passedAssignments kind given rounded stated =>
    obtain ⟨rfl, statedLower⟩ := scope_withPoints stated knownUpper known
    exact ⟨_, Rule.ofCriterion_eq_ok_iff.mpr (.passedAssignments kind given rounded statedLower),
      PassedAssignments.passed_of_below below passed⟩

/-- The same of the required number of assignments. -/
theorem passes_of_count_above (counts : criterion.kind = .passedAssignments)
    (passes : (criterion.withCount upperChoice).Passes assignments participant) :
    (criterion.withCount lowerChoice).Passes assignments participant := by
  obtain ⟨gate, built, passed⟩ := passes
  cases Rule.ofCriterion_eq_ok_iff.mp built with
  | overallPercent kind => cases counts.symm.trans kind
  | allowedFailures kind => cases counts.symm.trans kind
  | passedAssignments kind given rounded stated =>
    obtain rfl := Except.ok.inj (rounded.symm.trans knownUpper)
    exact ⟨_, Rule.ofCriterion_eq_ok_iff.mpr (.passedAssignments kind given known stated),
      PassedAssignments.passed_of_count_below below passed⟩

end Pairs

/-- What passes with the first of three modes passes with the second, and what passes with that
passes with the third, whatever decimals are stated beside them. -/
def Ascends (passes : RoundingChoice → Prop) (first second third : RoundingMode) : Prop :=
  ∀ x y z : Option Int32, (passes ⟨first, x⟩ → passes ⟨second, y⟩) ∧
    (passes ⟨second, y⟩ → passes ⟨third, z⟩)

/-- **Rounding modes are ordered by leniency, in opposite directions for the two families of
rules.**  Of criteria that differ in the rounding of points alone, those on achieved percentages pass
no fewer participants without rounding than with rounding down, and with rounding up than without.
Those on the number of passed assignments pass no fewer without rounding than with rounding up, and
with rounding down than without; the same goes for the rounding of that number. -/
theorem leniency_of_rounding (criterion : Criterion) {assignments : List Assignment}
    (few : assignments.length < 2 ^ 32) (participant : Participant) :
    (criterion.kind = .overallPercent ∨ criterion.kind = .allowedFailures →
      Ascends (fun choice => (criterion.withPoints choice).Passes assignments participant)
        .floor .none .ceil) ∧
    (criterion.kind = .passedAssignments →
      Ascends (fun choice => (criterion.withPoints choice).Passes assignments participant)
        .ceil .none .floor ∧
      Ascends (fun choice => (criterion.withCount choice).Passes assignments participant)
        .ceil .none .floor) := by
  refine ⟨fun kind _ _ _ => ⟨?_, ?_⟩, fun kind => ⟨fun _ _ _ => ⟨?_, ?_⟩, fun _ _ _ => ⟨?_, ?_⟩⟩⟩
  · exact passes_of_points_below Rounding.floor_below_identity rfl rfl kind few
  · exact passes_of_points_below Rounding.identity_below_ceil rfl rfl kind few
  · exact passes_of_points_above Rounding.identity_below_ceil rfl rfl kind
  · exact passes_of_points_above Rounding.floor_below_identity rfl rfl kind
  · exact passes_of_count_above Rounding.identity_below_ceil rfl rfl kind
  · exact passes_of_count_above Rounding.floor_below_identity rfl rfl kind

/-- Ada has exactly the 49.5 percent that are required: rounding her percentage down fails her, and
so does rounding the threshold up. -/
theorem demo_leniency_of_rounding :
    let sheet := [Demo.evaluated "sheet-1" .homework 100]
    let ada := Demo.participant "ada" [("sheet-1", some (Demo.tenths 495))]
    let share := Criterion.plain .overallPercent .homework (Demo.tenths 495)
    let count := { Criterion.plain .passedAssignments .homework (Demo.tenths 495) with
      passedAssignmentsPercent := some 100 }
    (¬ (share.withPoints ⟨.floor, none⟩).Passes sheet ada ∧
      (share.withPoints ⟨.none, none⟩).Passes sheet ada ∧
      (share.withPoints ⟨.ceil, none⟩).Passes sheet ada) ∧
    (¬ (count.withPoints ⟨.ceil, none⟩).Passes sheet ada ∧
      (count.withPoints ⟨.none, none⟩).Passes sheet ada ∧
      (count.withPoints ⟨.floor, none⟩).Passes sheet ada) := by
  intro sheet ada share count
  have few : sheet.length < 2 ^ 32 := by decide
  have percentage := (leniency_of_rounding share few ada).1 (Or.inl rfl) none none none
  have threshold := ((leniency_of_rounding count few ada).2 rfl).1 none none none
  have exact_share : (share.withPoints ⟨.none, none⟩).Passes sheet ada := by decide +kernel
  have exact_count : (count.withPoints ⟨.none, none⟩).Passes sheet ada := by decide +kernel
  exact ⟨⟨by decide +kernel, exact_share, percentage.2 exact_share⟩,
    ⟨by decide +kernel, exact_count, threshold.2 exact_count⟩⟩

end Criterion

end ExamAdmission
