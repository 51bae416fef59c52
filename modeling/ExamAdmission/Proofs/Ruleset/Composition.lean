/-
Criteria compose independently.

What a set of rules answers is put together from what its criteria state one by one, so lists of
criteria can be appended, reordered and extended:

* `Ruleset.ofCriteria_append`, `Ruleset.evaluate_append`, `Ruleset.breakdown_append` — one list after
  the other;
* `Ruleset.exists_ofCriteria_of_perm`, `zip_perm_of_forall₂` — another order: each criterion keeps
  what it says;
* `Ruleset.hasAdmission_iff_criteria` — admission is a matter of each criterion by itself;
* `Ruleset.hasAdmission_of_subset` — so more criteria never admit more;
* `Ruleset.criteria_compose` — all of it together.
-/
import ExamAdmission.Course.Demo
import ExamAdmission.Proofs.Ruleset.Verdicts
import Mathlib.Data.List.Perm.Basic

namespace ExamAdmission

/-! ### What one criterion says -/

namespace Criterion

/-- The verdict of the rule that the criterion states, if it states one that decides. -/
def verdict? (assignments : List Assignment) (participant : Participant) (criterion : Criterion) :
    Option Verdict :=
  (Rule.ofCriterion criterion assignments).toOption.bind fun rule =>
    (rule.check participant).verdict?

/-- The breakdown of the rule that the criterion states, if it states one that informs. -/
def breakdown? (assignments : List Assignment) (participant : Participant)
    (criterion : Criterion) : Option Breakdown :=
  (Rule.ofCriterion criterion assignments).toOption.bind fun rule =>
    (rule.check participant).breakdown?

end Criterion

section Said

variable {assignments : List Assignment} {participant : Participant} {criterion : Criterion}

theorem IsVerdictOf.verdict?_eq {verdict : Verdict}
    (h : IsVerdictOf assignments participant criterion verdict) :
    criterion.verdict? assignments participant = some verdict := by
  obtain ⟨rule, built, said⟩ := h.said
  rw [Criterion.verdict?, built]
  exact congrArg Finding.verdict? said

theorem IsBreakdownOf.breakdown?_eq {breakdown : Breakdown}
    (h : IsBreakdownOf assignments participant criterion breakdown) :
    criterion.breakdown? assignments participant = some breakdown := by
  obtain ⟨rule, built, said⟩ := h.said
  rw [Criterion.breakdown?, built]
  exact congrArg Finding.breakdown? said

end Said

/-! ### Lists of answers -/

section Answers

variable {α β : Type} {answer? : α → Option β} {xs xs' : List α} {ys ys' : List β}

theorem zip_eq_filterMap (h : List.Forall₂ (fun x y => answer? x = some y) xs ys) :
    xs.zip ys = xs.filterMap fun x => (answer? x).map (Prod.mk x) := by
  induction h with
  | nil => rfl
  | cons first _ ih => rw [List.zip_cons_cons, ih, List.filterMap_cons, first, Option.map_some]

/-- In another order, each question keeps its answer. -/
theorem zip_perm_of_forall₂ (perm : xs.Perm xs')
    (h : List.Forall₂ (fun x y => answer? x = some y) xs ys)
    (h' : List.Forall₂ (fun x y => answer? x = some y) xs' ys') :
    (xs.zip ys).Perm (xs'.zip ys') ∧ ys.Perm ys' := by
  have pairs : (xs.zip ys).Perm (xs'.zip ys') := by
    rw [zip_eq_filterMap h, zip_eq_filterMap h']
    exact perm.filterMap _
  refine ⟨pairs, ?_⟩
  have answers := pairs.map Prod.snd
  rwa [List.map_snd_zip (Nat.le_of_eq h.length_eq.symm),
    List.map_snd_zip (Nat.le_of_eq h'.length_eq.symm)] at answers

end Answers

namespace Ruleset

variable {criteria others : List Criterion} {assignments : List Assignment}
  {ruleset other : Ruleset}

/-! ### One list after the other -/

theorem ofCriteria_append (built : ofCriteria criteria assignments = .ok ruleset)
    (builtOther : ofCriteria others assignments = .ok other) :
    ofCriteria (criteria ++ others) assignments = .ok ⟨ruleset.rules ++ other.rules⟩ := by
  obtain ⟨stated, decides⟩ := ofCriteria_eq_ok_iff.mp built
  obtain ⟨statedOther, -⟩ := ofCriteria_eq_ok_iff.mp builtOther
  refine ofCriteria_eq_ok_iff.mpr ⟨List.rel_append stated statedOther, ?_⟩
  rw [List.any_append, decides, Bool.true_or]

theorem evaluate_append (rules others : List Rule) (participant : Participant) :
    evaluate ⟨rules ++ others⟩ participant =
      .ofVerdicts participant.id ((evaluate ⟨rules⟩ participant).results ++
        (evaluate ⟨others⟩ participant).results) := by
  simp only [evaluate, List.filter_append, List.filterMap_append, Status.ofVerdicts]

theorem breakdown_append (rules others : List Rule) (participant : Participant) :
    breakdown ⟨rules ++ others⟩ participant =
      breakdown ⟨rules⟩ participant ++ breakdown ⟨others⟩ participant := by
  simp only [breakdown, List.filter_append, List.filterMap_append]

/-! ### Another order -/

theorem exists_ofCriteria_of_perm (perm : criteria.Perm others)
    (built : ofCriteria criteria assignments = .ok ruleset) :
    ∃ other, ofCriteria others assignments = .ok other := by
  obtain ⟨stated, decides⟩ := ofCriteria_eq_ok_iff.mp built
  obtain ⟨rules, statedOther, reordered⟩ := List.perm_comp_forall₂ perm.symm stated
  refine ⟨⟨rules⟩, ofCriteria_eq_ok_iff.mpr ⟨statedOther, ?_⟩⟩
  rw [reordered.any_eq, decides]

/-! ### More criteria -/

/-- The deciding rules are those that the criteria state. -/
theorem mem_gates_iff (built : ofCriteria criteria assignments = .ok ruleset) {gate : Gate} :
    gate ∈ ruleset.gates ↔ ∃ criterion ∈ criteria,
      Rule.States criterion (Assignment.evaluated assignments) (.gate gate) := by
  obtain ⟨rulesStated, -⟩ := ofCriteria_eq_ok_iff.mp built
  constructor
  · intro mem
    exact exists_of_forall₂ rulesStated (gate_mem_rules mem)
  · rintro ⟨criterion, mem, stated⟩
    obtain ⟨rule, hrule, statedRule⟩ := exists_of_forall₂ rulesStated.flip mem
    -- a criterion states one rule
    obtain rfl := statedRule.unique stated
    exact List.mem_filterMap.mpr ⟨_, hrule, rfl⟩

/-- Admission is that every rule passes which some criterion states. -/
theorem hasAdmission_iff_criteria (built : ofCriteria criteria assignments = .ok ruleset)
    (participant : Participant) :
    (ruleset.evaluate participant).hasAdmission = true ↔
      ∀ criterion ∈ criteria, ∀ gate,
        Rule.States criterion (Assignment.evaluated assignments) (.gate gate) →
          (gate.check participant).passed = true := by
  rw [evaluate_eq_gates, Status.hasAdmission_iff, List.forall_mem_map]
  constructor
  · intro passes criterion mem gate stated
    exact passes gate ((mem_gates_iff built).mpr ⟨criterion, mem, stated⟩)
  · intro passes gate mem
    obtain ⟨criterion, listed, stated⟩ := (mem_gates_iff built).mp mem
    exact passes criterion listed gate stated

/-- Whoever is admitted is admitted under part of the criteria. -/
theorem hasAdmission_of_subset (part : criteria ⊆ others)
    (built : ofCriteria criteria assignments = .ok ruleset)
    (builtOther : ofCriteria others assignments = .ok other) {participant : Participant}
    (admitted : (other.evaluate participant).hasAdmission = true) :
    (ruleset.evaluate participant).hasAdmission = true := by
  rw [hasAdmission_iff_criteria built]
  rw [hasAdmission_iff_criteria builtOther] at admitted
  intro criterion mem
  exact admitted criterion (part mem)

theorem hasAdmission_of_perm (perm : criteria.Perm others)
    (built : ofCriteria criteria assignments = .ok ruleset)
    (builtOther : ofCriteria others assignments = .ok other) (participant : Participant) :
    (other.evaluate participant).hasAdmission = (ruleset.evaluate participant).hasAdmission :=
  Bool.eq_iff_iff.mpr ⟨hasAdmission_of_subset perm.subset built builtOther,
    hasAdmission_of_subset perm.symm.subset builtOther built⟩

/-! ### All together -/

/-- **Criteria compose independently.**  Two accepted lists of criteria are accepted one after the
other, and so are their answers, with admission if both admit.  In another order an accepted list is
accepted, each criterion with the verdict or the breakdown that it had, and admission is the same.
And whoever is admitted under a list of criteria is admitted under every part of it, so that adding
criteria admits nobody who was denied. -/
theorem criteria_compose (assignments : List Assignment) :
    (∀ criteria others ruleset other, ofCriteria criteria assignments = .ok ruleset →
      ofCriteria others assignments = .ok other →
      ∃ both, ofCriteria (criteria ++ others) assignments = .ok both ∧ ∀ participant,
        (both.evaluate participant).results =
          (ruleset.evaluate participant).results ++ (other.evaluate participant).results ∧
        (both.evaluate participant).hasAdmission =
          ((ruleset.evaluate participant).hasAdmission &&
            (other.evaluate participant).hasAdmission) ∧
        both.breakdown participant =
          ruleset.breakdown participant ++ other.breakdown participant) ∧
    (∀ criteria others ruleset, criteria.Perm others →
      ofCriteria criteria assignments = .ok ruleset →
      ∃ other, ofCriteria others assignments = .ok other ∧ ∀ participant,
        (((criteria.filter (·.kind ≠ .individualPercent)).zip
            (ruleset.evaluate participant).results).Perm
          ((others.filter (·.kind ≠ .individualPercent)).zip
            (other.evaluate participant).results) ∧
          (ruleset.evaluate participant).results.Perm (other.evaluate participant).results) ∧
        (((criteria.filter (·.kind = .individualPercent)).zip
            (ruleset.breakdown participant)).Perm
          ((others.filter (·.kind = .individualPercent)).zip (other.breakdown participant)) ∧
          (ruleset.breakdown participant).Perm (other.breakdown participant)) ∧
        (other.evaluate participant).hasAdmission =
          (ruleset.evaluate participant).hasAdmission) ∧
    ∀ criteria others ruleset other, criteria ⊆ others →
      ofCriteria criteria assignments = .ok ruleset → ofCriteria others assignments = .ok other →
      ∀ participant, (other.evaluate participant).hasAdmission = true →
        (ruleset.evaluate participant).hasAdmission = true := by
  refine ⟨?_, ?_, ?_⟩
  · intro criteria others ruleset other built builtOther
    refine ⟨_, ofCriteria_append built builtOther, fun participant => ?_⟩
    rw [evaluate_append, breakdown_append]
    exact ⟨rfl, List.all_append, rfl⟩
  · intro criteria others ruleset perm built
    obtain ⟨other, builtOther⟩ := exists_ofCriteria_of_perm perm built
    refine ⟨other, builtOther, fun participant => ⟨?_, ?_, ?_⟩⟩
    · exact zip_perm_of_forall₂ (perm.filter _)
        ((forall₂_results built participant).imp fun _ _ h => h.verdict?_eq)
        ((forall₂_results builtOther participant).imp fun _ _ h => h.verdict?_eq)
    · rw [← Criterion.filter_not_isGating, ← Criterion.filter_not_isGating]
      exact zip_perm_of_forall₂ (perm.filter _)
        ((forall₂_breakdown built participant).imp fun _ _ h => h.breakdown?_eq)
        ((forall₂_breakdown builtOther participant).imp fun _ _ h => h.breakdown?_eq)
    · exact hasAdmission_of_perm perm built builtOther participant
  · intro criteria others ruleset other part built builtOther participant admitted
    exact hasAdmission_of_subset part built builtOther admitted

/-- Of the demo criteria the first two and the last two are accepted by themselves, and so they are
together and from the last to the first. -/
theorem demo_criteria_compose :
    ∃ ruleset other both, ofCriteria (Demo.criteria.take 2) Demo.course.assignments = .ok ruleset ∧
      ofCriteria (Demo.criteria.drop 2) Demo.course.assignments = .ok other ∧
      ofCriteria Demo.criteria Demo.course.assignments = .ok both ∧
      (∀ participant, (both.evaluate participant).hasAdmission =
        ((ruleset.evaluate participant).hasAdmission &&
          (other.evaluate participant).hasAdmission)) ∧
      (∃ reversed, ofCriteria Demo.criteria.reverse Demo.course.assignments = .ok reversed ∧
        ∀ participant, (reversed.evaluate participant).hasAdmission =
          (both.evaluate participant).hasAdmission) ∧
      ∀ participant, (both.evaluate participant).hasAdmission = true →
        (ruleset.evaluate participant).hasAdmission = true := by
  have accepted : (ofCriteria (Demo.criteria.take 2) Demo.course.assignments).isOk = true ∧
      (ofCriteria (Demo.criteria.drop 2) Demo.course.assignments).isOk = true := by
    decide
  obtain ⟨ruleset, built⟩ := exists_eq_ok_of_isOk accepted.1
  obtain ⟨other, builtOther⟩ := exists_eq_ok_of_isOk accepted.2
  obtain ⟨appended, permuted, extended⟩ := criteria_compose Demo.course.assignments
  obtain ⟨both, builtBoth, answers⟩ := appended _ _ _ _ built builtOther
  rw [List.take_append_drop] at builtBoth
  obtain ⟨reversed, builtReversed, same⟩ :=
    permuted _ _ _ (List.reverse_perm Demo.criteria).symm builtBoth
  refine ⟨ruleset, other, both, built, builtOther, builtBoth, fun participant => ?_,
    ⟨reversed, builtReversed, fun participant => ?_⟩, ?_⟩
  · exact (answers participant).2.1
  · exact (same participant).2.2
  · exact extended _ _ _ _ (List.take_subset 2 Demo.criteria) built builtBoth

end Ruleset

end ExamAdmission
