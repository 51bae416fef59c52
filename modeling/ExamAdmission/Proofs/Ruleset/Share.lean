/-
What the rules make of whole points.

Sums of whole numbers are exact as long as there are not very many points, so a rule on all points
asks of the sums what the other rules ask of each assignment: whether settled points reach a whole
percentage by their share.

* `Double.isWhole_sum` — whole numbers add up exactly;
* `OverallPercent.passed_iff_reaches`, `AllowedFailures.achievedPoints_of_counts` — what is asked of
  the sums, and what is counted;
* `Rule.whole_points_decide` — **what the rules make of whole points**;
* `Rule.boundary_missed` — 29 of 100 points miss 29 percent.
-/
import ExamAdmission.Proofs.Ruleset.Arithmetic
import ExamAdmission.Proofs.Ruleset.Threshold

namespace ExamAdmission

open Double

/-! ### Sums of whole numbers -/

namespace Double

section Sums

variable {α : Type} {items : List α} {value : α → Double} {count : α → Nat}

theorem exactSum_of_whole (whole : ∀ item ∈ items, IsWhole (value item) (count item)) :
    exactSum (items.map value) = ((items.map count).sum : Nat) := by
  induction items with
  | nil => simp
  | cons item items ih =>
    have first := (whole item List.mem_cons_self).rank
    have rest := ih fun other mem => whole other (List.mem_cons_of_mem item mem)
    rw [List.map_cons, exactSum_cons, first, rest, List.map_cons, List.sum_cons, Nat.cast_add]

/-- Whole numbers that are not too many together add up to one. -/
theorem isWhole_sum (whole : ∀ item ∈ items, IsWhole (value item) (count item))
    (few : (items.map count).sum ≤ 2 ^ 53) :
    IsWhole (sum (items.map value)) (items.map count).sum := by
  have summed := exactSum_of_whole whole
  have small : exactSum (items.map value) ≤ 2 ^ 53 := by
    rw [summed]
    exact_mod_cast few
  have inRange : exactSum (items.map value) < 2 ^ (1024 : Int) :=
    small.trans_lt (by rw [← zpow_natCast]; exact two_zpow_lt_iff.mpr (by decide))
  -- the unit of which all terms are multiples is one
  have adds : AddsExactly (items.map value) := by
    refine ⟨0, by decide, List.forall_mem_map.mpr fun item mem => ⟨count item, ?_⟩, ?_, inRange⟩
    · rw [zpow_zero, mul_one]
      exact (whole item mem).rank
    · rwa [zpow_zero, mul_one]
  have total := rank_sum_of_addsExactly
    (List.forall_mem_map.mpr fun item mem => (whole item mem).isNonneg) adds
  refine ⟨isFinite_of_abs_rank_lt (sum_ne_nan ?_) ?_, total.trans summed⟩
  · exact List.forall_mem_map.mpr fun item mem => (whole item mem).finite
  · rw [total, abs_of_nonneg (summed ▸ Nat.cast_nonneg _)]
    exact inRange

end Sums

end Double

/-! ### What the rules make of whole points -/

/-- A rule on all points looks at the sums. -/
theorem OverallPercent.passed_iff_reaches {percent : Nat} {scope : Scope}
    {participant : Participant} {assignments : List Assignment} {worth points : Assignment → Nat}
    (unrounded : scope.rounding = .identity) (required : scope.requiredPercent = ofNat percent)
    (le : percent ≤ 100)
    (whole : ∀ assignment ∈ Assignment.ofCategory scope.category assignments,
      IsWhole assignment.maxPoints (worth assignment) ∧
        IsWhole (participant.pointsFor assignment.id) (points assignment))
    (counts : participant.id ∉ scope.ignored)
    (some_worth : 0 < ((Assignment.ofCategory scope.category assignments).map worth).sum)
    (few_worth : ((Assignment.ofCategory scope.category assignments).map worth).sum < 2 ^ 53)
    (few_points : ((Assignment.ofCategory scope.category assignments).map points).sum < 2 ^ 53)
    (settled : IsSettled percent
      ((Assignment.ofCategory scope.category assignments).map worth).sum
      ((Assignment.ofCategory scope.category assignments).map points).sum) :
    ((ofScope scope assignments).check participant).passed = true ↔
      Reaches percent ((Assignment.ofCategory scope.category assignments).map worth).sum
        ((Assignment.ofCategory scope.category assignments).map points).sum := by
  have total := isWhole_sum (fun assignment mem => (whole assignment mem).1) few_worth.le
  have achieved := isWhole_sum (fun assignment mem => (whole assignment mem).2) few_points.le
  have included : ¬ participant.id ∈ (ofScope scope assignments).scope.ignored := counts
  have nonzero : ¬ (ofScope scope assignments).totalAchievable.isZero = true :=
    not_isZero_of_pos total.finite (total.pos some_worth)
  rw [check_passed_iff, or_iff_right included, or_iff_right nonzero, ofScope, List.map_map,
    unrounded, required]
  exact ofNat_le_percentOf_iff total achieved le some_worth settled

/-- A rule on every assignment counts those that are not marked. -/
theorem AllowedFailures.achievedPoints_of_counts {rule : AllowedFailures}
    {participant : Participant} (few : rule.assignments.length < 2 ^ 32)
    (required : rule.scope.requiredPercent.isFinite = true)
    (finite : FinitePoints rule.assignments participant)
    (counts : participant.id ∉ rule.scope.ignored) :
    (rule.check participant).achievedPoints =
      .ofNat (rule.assignments.countP (!isMarked rule.scope participant ·)) := by
  have missed : rule.assignments.countP (rule.isFailed participant) =
      rule.assignments.countP (!isMarked rule.scope participant ·) :=
    List.countP_congr fun assignment mem => by
      rw [isFailed_eq_not required (finite.worth assignment mem) (finite.points assignment mem)]
      rfl
  rw [check, if_neg counts, ← missed, ← toNat_failures few]
  rfl

/-- A criterion on homework that requires a whole percentage and allows no failure. -/
def Demo.wholeCriterion (kind : RuleKind) (percent : Nat) : Criterion :=
  { Criterion.plain kind .homework (ofNat percent) with allowedFailures := some 0 }

/-- What a rule says about so many points for one sheet of homework. -/
def Demo.wholeSheet (kind : RuleKind) (percent worth points : Nat) :
    Except CriteriaError Finding :=
  (Rule.ofCriterion (Demo.wholeCriterion kind percent)
    [Demo.evaluated "sheet-1" .homework (ofNat worth)]).map
      (·.check (Demo.participant "ada" [("sheet-1", some (ofNat points))]))

namespace Rule

/-- **What the rules make of whole points.**  A rule that requires a whole percentage of unrounded
points looks at a participant for whom it counts.  An assignment that is worth any whole points is
marked, if whole points for it are settled, exactly if they reach the percentage.  The assignments
that are marked are those that a list shows as passed, and the others are those that count as
failures.  Whole points for all assignments pass, if they are settled together, exactly if together
they reach the percentage. -/
theorem whole_points_decide {criterion : Criterion} {assignments : List Assignment} {rule : Rule}
    (built : ofCriterion criterion assignments = .ok rule)
    (unrounded : criterion.pointsRounding.mode = .none) {percent : Nat}
    (required : criterion.requiredPercent = ofNat percent) (le : percent ≤ 100)
    {participant : Participant} (included : participant.id ∉ criterion.ignoredParticipants) :
    let matching := Assignment.ofCategory criterion.category assignments
    (∀ (assignment : Assignment) (worth points : Nat), IsWhole assignment.maxPoints worth →
      IsWhole (participant.pointsFor assignment.id) points → 0 < worth →
      IsSettled percent worth points →
      (isMarked rule.scope participant assignment = true ↔ Reaches percent worth points)) ∧
    (criterion.kind = .individualPercent → ∃ breakdown,
      rule.check participant = .breakdown breakdown ∧
      breakdown.passed = matching.map (isMarked rule.scope participant)) ∧
    (criterion.kind = .allowedFailures → assignments.length < 2 ^ 32 →
      FinitePoints matching participant → ∃ verdict,
        rule.check participant = .verdict verdict ∧
        verdict.achievedPoints = .ofNat (matching.countP (!isMarked rule.scope participant ·))) ∧
    (criterion.kind = .overallPercent → ∀ worth points : Assignment → Nat,
      (∀ assignment ∈ matching, IsWhole assignment.maxPoints (worth assignment) ∧
        IsWhole (participant.pointsFor assignment.id) (points assignment)) →
      0 < (matching.map worth).sum → (matching.map worth).sum < 2 ^ 53 →
      (matching.map points).sum < 2 ^ 53 →
      IsSettled percent (matching.map worth).sum (matching.map points).sum → ∃ verdict,
        rule.check participant = .verdict verdict ∧
        (verdict.passed = true ↔
          Reaches percent (matching.map worth).sum (matching.map points).sum)) := by
  intro matching
  have stated := ofCriterion_eq_ok_iff.mp built
  have identity := Scope.rounding_eq_identity stated.scope_stated unrounded
  have category := stated.category_eq
  have requires : rule.scope.requiredPercent = ofNat percent :=
    stated.requiredPercent_eq.trans required
  have finite : rule.scope.requiredPercent.isFinite = true :=
    requires ▸ isFinite_ofNat (le.trans (by decide))
  have counts : participant.id ∉ rule.scope.ignored := by
    obtain ⟨rounding, -, hscope⟩ := Scope.ofCriterion_eq_ok_iff.mp stated.scope_stated
    rwa [hscope]
  -- the rule looks at the category of its criterion
  have own : Assignment.ofCategory rule.scope.category assignments = matching :=
    congrArg (Assignment.ofCategory · assignments) category
  refine ⟨fun assignment worth points wholeWorth wholePoints some_worth settled => ?_,
    fun kind => ?_, fun kind few finitePoints => ?_,
    fun kind worth points whole some_worth few_worth few_points settled => ?_⟩
  · exact isMarked_iff_reaches identity requires wholeWorth wholePoints le some_worth settled
  · obtain ⟨scope, -, rfl⟩ := stated.eq_listing kind
    exact ⟨_, rfl, own ▸ IndividualPercent.passed_of_counts counts⟩
  · obtain ⟨scope, allowed, -, -, rfl⟩ := stated.eq_allowedFailures kind
    have matching_few : matching.length < 2 ^ 32 :=
      (List.length_filter_le _ assignments).trans_lt few
    refine ⟨_, rfl, ?_⟩
    rw [← own] at matching_few finitePoints ⊢
    exact AllowedFailures.achievedPoints_of_counts matching_few finite finitePoints counts
  · obtain ⟨scope, -, rfl⟩ := stated.eq_overallPercent kind
    refine ⟨_, rfl, ?_⟩
    rw [← own] at whole some_worth few_worth few_points settled ⊢
    exact OverallPercent.passed_iff_reaches identity requires le whole counts some_worth few_worth
      few_points settled

/-- Of 20 points for a sheet worth 60 and 10 for one worth 40 only the first reach 29 percent, and
so do both together. -/
theorem demo_whole_points_decide :
    let sheets := [Demo.evaluated "sheet-1" .homework 60, Demo.evaluated "sheet-2" .homework 40]
    let ada := Demo.participant "ada" [("sheet-1", some 20), ("sheet-2", some 10)]
    (∃ rule verdict, ofCriterion (Demo.wholeCriterion .overallPercent 29) sheets = .ok rule ∧
      rule.check ada = .verdict verdict ∧ verdict.passed = true) ∧
    (∃ rule verdict, ofCriterion (Demo.wholeCriterion .allowedFailures 29) sheets = .ok rule ∧
      rule.check ada = .verdict verdict ∧ verdict.achievedPoints = .ofNat 1) ∧
    ∃ rule breakdown, ofCriterion (Demo.wholeCriterion .individualPercent 29) sheets = .ok rule ∧
      rule.check ada = .breakdown breakdown ∧ breakdown.passed = [true, false] := by
  intro sheets ada
  let worth : Assignment → Nat := fun sheet => if sheet.id = "sheet-1" then 60 else 40
  let points : Assignment → Nat := fun sheet => if sheet.id = "sheet-1" then 20 else 10
  have whole : ∀ sheet ∈ Assignment.ofCategory .homework sheets,
      IsWhole sheet.maxPoints (worth sheet) ∧
        IsWhole (ada.pointsFor sheet.id) (points sheet) := by
    decide +kernel
  have decides := fun (kind : RuleKind) (rule : Rule)
      (built : ofCriterion (Demo.wholeCriterion kind 29) sheets = .ok rule) =>
    have required : (Demo.wholeCriterion kind 29).requiredPercent = ofNat 29 := rfl
    whole_points_decide built rfl required (by decide) (List.not_mem_nil : ada.id ∉ [])
  have marks : ∀ (kind : RuleKind) (rule : Rule),
      ofCriterion (Demo.wholeCriterion kind 29) sheets = .ok rule →
      ∀ sheet ∈ Assignment.ofCategory .homework sheets,
        isMarked rule.scope ada sheet = decide (Reaches 29 (worth sheet) (points sheet)) := by
    intro kind rule built sheet mem
    have some_worth : ∀ sheet ∈ Assignment.ofCategory .homework sheets,
        0 < worth sheet ∧ 29 * worth sheet ≤ 2 ^ 52 := by decide
    obtain ⟨pos, few⟩ := some_worth sheet mem
    rw [Bool.eq_iff_iff, decide_eq_true_iff]
    obtain ⟨wholeWorth, wholePoints⟩ := whole sheet mem
    exact (decides kind rule built).1 sheet _ _ wholeWorth wholePoints pos (isSettled_of_few few)
  refine ⟨?_, ?_, ?_⟩
  · obtain ⟨-, -, -, together⟩ := decides .overallPercent _ rfl
    obtain ⟨verdict, checked, passes⟩ := together rfl worth points whole (by decide) (by decide)
      (by decide) (isSettled_of_few (by decide))
    exact ⟨_, verdict, rfl, checked, passes.mpr (by decide)⟩
  · obtain ⟨-, -, counted, -⟩ := decides .allowedFailures _ rfl
    obtain ⟨verdict, checked, shown⟩ := counted rfl (by decide)
      ⟨fun sheet mem => (whole sheet mem).1.finite, fun sheet mem => (whole sheet mem).2.finite⟩
    refine ⟨_, verdict, rfl, checked, shown.trans (congrArg Double.ofNat ?_)⟩
    refine (List.countP_congr fun sheet mem => ?_).trans
      (by decide : (Assignment.ofCategory .homework sheets).countP
        (fun sheet => !decide (Reaches 29 (worth sheet) (points sheet))) = 1)
    rw [marks .allowedFailures _ rfl sheet mem]
  · obtain ⟨-, listed, -⟩ := decides .individualPercent _ rfl
    obtain ⟨breakdown, checked, shown⟩ := listed rfl
    refine ⟨_, breakdown, rfl, checked, shown.trans ?_⟩
    exact List.map_congr_left (marks .individualPercent _ rfl)

/-- Exactly 29 of 100 points miss 29 percent in every rule that asks for a share.  And of very many
points a few less than 3 percent reach them. -/
theorem boundary_missed :
    29 * 100 = 100 * 29 ∧
    (Demo.wholeSheet .overallPercent 29 100 29).map (·.verdict?.map (·.passed)) =
      .ok (some false) ∧
    (Demo.wholeSheet .allowedFailures 29 100 29).map (·.verdict?.map (·.achievedPoints)) =
      .ok (some 1) ∧
    (Demo.wholeSheet .individualPercent 29 100 29).map (·.breakdown?.map (·.passed)) =
      .ok (some [false]) ∧
    100 * 256171406960923 < 3 * 8539046898697434 ∧ 8539046898697434 < 2 ^ 53 ∧
    (Demo.wholeSheet .overallPercent 3 8539046898697434 256171406960923).map
      (·.verdict?.map (·.passed)) = .ok (some true) := by
  decide +kernel

end Rule

end ExamAdmission
