/-
The order of the catalogue.

Rules that count assignments do not see their order.  A rule on all points adds them up from the
left, and every addition rounds, so its totals are only known up to that error; where the error does
not matter for its decision, the order does not either.

* `AllowedFailures.check_perm`, `PassedAssignments.check_perm` — counting rules say the same in every
  order;
* `Scope.Settled`, `OverallPercent.passed_perm` — a rule on all points passes alike in every order
  where its decision is settled;
* `Scope.settled_of_addsExactly` — it is settled where points add up without rounding;
* `Ruleset.evaluate_of_perm` — all verdicts together, and admission;
* `Ruleset.hasAdmission_ne_of_perm` — where a decision is not settled, the order can make it.
-/
import ExamAdmission.Course.Demo
import ExamAdmission.Proofs.Boundary
import ExamAdmission.Proofs.Double.Total
import ExamAdmission.Proofs.Rule.Passing
import ExamAdmission.Proofs.Ruleset.Outcome
import ExamAdmission.Proofs.Ruleset.Verdicts

namespace ExamAdmission

variable {assignments others : List Assignment} {participant : Participant}

theorem Assignment.ofCategory_perm (perm : assignments.Perm others) (category : Category) :
    (ofCategory category assignments).Perm (ofCategory category others) :=
  perm.filter _

/-! ### Counting rules -/

theorem AllowedFailures.check_perm (perm : assignments.Perm others) (scope : Scope)
    (allowed : UInt32) :
    (⟨scope, assignments, allowed⟩ : AllowedFailures).check participant =
      (⟨scope, others, allowed⟩ : AllowedFailures).check participant := by
  have counted : (⟨scope, assignments, allowed⟩ : AllowedFailures).failures participant =
      (⟨scope, others, allowed⟩ : AllowedFailures).failures participant :=
    congrArg UInt32.ofNat (perm.countP_eq _)
  rw [check, check, counted]

theorem PassedAssignments.check_perm (perm : assignments.Perm others) (scope : Scope)
    (percent : Double) (countRounding : Rounding) :
    (ofScope scope percent countRounding assignments).check participant =
      (ofScope scope percent countRounding others).check participant := by
  have matching := Assignment.ofCategory_perm perm scope.category
  have counted : (ofScope scope percent countRounding assignments).passedCount participant =
      (ofScope scope percent countRounding others).passedCount participant :=
    (matching.map (threshold scope)).countP_eq _
  have required : (ofScope scope percent countRounding assignments).requiredCount =
      (ofScope scope percent countRounding others).requiredCount := by
    simp only [ofScope, matching.length_eq]
  rw [check, check, counted, required]
  rfl

/-! ### Rules on all points -/

/-- Assignments that are worth finitely many points, and of which a participant has finitely many,
none below zero. -/
structure NonnegPoints (assignments : List Assignment) (participant : Participant) : Prop where
  worth : ∀ assignment ∈ assignments,
    assignment.maxPoints.isFinite = true ∧ 0 ≤ assignment.maxPoints
  points : ∀ assignment ∈ assignments,
    (participant.pointsFor assignment.id).isFinite = true ∧ 0 ≤ participant.pointsFor assignment.id

theorem NonnegPoints.ofCategory (h : NonnegPoints assignments participant) (category : Category) :
    NonnegPoints (Assignment.ofCategory category assignments) participant where
  worth assignment mem := h.worth assignment (Assignment.mem_ofCategory.mp mem).1
  points assignment mem := h.points assignment (Assignment.mem_ofCategory.mp mem).1

/-- The points of a participant and what the assignments are worth, added up in some order. -/
structure Totals (assignments : List Assignment) (participant : Participant)
    (achieved achievable : Double) : Prop where
  achieved : Double.IsTotal (assignments.map fun assignment => participant.pointsFor assignment.id)
    achieved
  achievable : Double.IsTotal (assignments.map (·.maxPoints)) achievable

theorem Totals.perm {achieved achievable : Double}
    (h : Totals assignments participant achieved achievable) (perm : assignments.Perm others) :
    Totals others participant achieved achievable :=
  ⟨h.achieved.perm (perm.map _), h.achievable.perm (perm.map _)⟩

/-- Adding up from the left gives totals. -/
theorem NonnegPoints.totals (h : NonnegPoints assignments participant)
    (few : assignments.length ≤ 2 ^ 52) :
    Totals assignments participant
      (Double.sum ((assignments.map (·.id)).map participant.pointsFor))
      (Double.sum (assignments.map (·.maxPoints))) := by
  have nonneg : ∀ {x : Double}, x.isFinite = true ∧ 0 ≤ x → x.IsNonneg :=
    fun hx => ⟨hx.1, Double.rank_ofNat_zero ▸ hx.2.2.2⟩
  rw [List.map_map]
  refine ⟨Double.sum_isTotal ?_ (by simpa using few), Double.sum_isTotal ?_ (by simpa using few)⟩
  · intro x hx
    obtain ⟨assignment, mem, rfl⟩ := List.mem_map.mp hx
    exact nonneg (h.points assignment mem)
  · intro x hx
    obtain ⟨assignment, mem, rfl⟩ := List.mem_map.mp hx
    exact nonneg (h.worth assignment mem)

namespace Scope

/-- A participant with these totals reaches what the scope requires. -/
def Reached (scope : Scope) (achieved achievable : Double) : Prop :=
  achievable.isZero = true ∨
    scope.requiredPercent ≤ scope.rounding.apply (percentOf achieved achievable)

/-- The decision about a participant is settled: the rule does not count for them, or all totals that
adding up can give reach what is required or none do. -/
def Settled (scope : Scope) (assignments : List Assignment) (participant : Participant) : Prop :=
  participant.id ∈ scope.ignored ∨
    ∀ achieved achievable achieved' achievable',
      Totals (Assignment.ofCategory scope.category assignments) participant achieved achievable →
      Totals (Assignment.ofCategory scope.category assignments) participant achieved' achievable' →
      scope.Reached achieved achievable → scope.Reached achieved' achievable'

end Scope

/-- A rule on all points passes alike in every order where its decision is settled. -/
theorem OverallPercent.passed_perm (perm : assignments.Perm others) {scope : Scope}
    (nonneg : NonnegPoints (Assignment.ofCategory scope.category assignments) participant)
    (few : assignments.length ≤ 2 ^ 52) (settled : scope.Settled assignments participant) :
    ((ofScope scope assignments).check participant).passed =
      ((ofScope scope others).check participant).passed := by
  have matching := Assignment.ofCategory_perm perm scope.category
  have nonnegOthers : NonnegPoints (Assignment.ofCategory scope.category others) participant :=
    ⟨fun assignment mem => nonneg.worth assignment (matching.mem_iff.mpr mem),
      fun assignment mem => nonneg.points assignment (matching.mem_iff.mpr mem)⟩
  have fewMatching := (List.length_filter_le (·.category = scope.category) assignments).trans few
  have fewOthers : (Assignment.ofCategory scope.category others).length ≤ 2 ^ 52 :=
    matching.length_eq ▸ fewMatching
  have totals := nonneg.totals fewMatching
  have totalsOthers := (nonnegOthers.totals fewOthers).perm matching.symm
  rw [Bool.eq_iff_iff, check_passed_iff, check_passed_iff]
  rcases settled with ignored | settled
  · exact iff_of_true (Or.inl ignored) (Or.inl ignored)
  · refine or_congr Iff.rfl ?_
    exact ⟨settled _ _ _ _ totals totalsOthers, settled _ _ _ _ totalsOthers totals⟩

/-- A decision is settled where the points of a participant add up without rounding, and what the
assignments are worth does, too. -/
theorem Scope.settled_of_addsExactly {scope : Scope}
    (points : Double.AddsExactly ((Assignment.ofCategory scope.category assignments).map
      fun assignment => participant.pointsFor assignment.id))
    (worth : Double.AddsExactly
      ((Assignment.ofCategory scope.category assignments).map (·.maxPoints))) :
    scope.Settled assignments participant := by
  refine Or.inr fun achieved achievable achieved' achievable' h h' reached => ?_
  have samePoints : achieved.rank = achieved'.rank := by
    rw [h.achieved.exact points, h'.achieved.exact points]
  have sameWorth : achievable.rank = achievable'.rank := by
    rw [h.achievable.exact worth, h'.achievable.exact worth]
  have finite := h.achievable.isFinite worth
  have finite' := h'.achievable.isFinite worth
  by_cases nothing : achievable'.isZero = true
  · exact Or.inl nothing
  · have nonzero : ¬ achievable.isZero = true := by
      rwa [Double.isZero_iff finite, sameWorth, ← Double.isZero_iff finite']
    have pos : 0 < achievable :=
      Double.pos_of_zero_le (Double.zero_le_of_rank h.achievable.ne_nan h.achievable.nonneg) nonzero
    have pos' : 0 < achievable' :=
      Double.pos_of_zero_le (Double.zero_le_of_rank h'.achievable.ne_nan h'.achievable.nonneg) nothing
    -- the shares stand at the same place, as they are computed from the same values
    have same : (percentOf achieved achievable).rank = (percentOf achieved' achievable').rank := by
      rw [rank_percentOf (h.achieved.isFinite points) finite pos h.achieved.nonneg,
        rank_percentOf (h'.achieved.isFinite points) finite' pos' h'.achieved.nonneg,
        samePoints, sameWorth]
    have le : percentOf achieved achievable ≤ percentOf achieved' achievable' :=
      ⟨percentOf_ne_nan (h.achieved.isFinite points) finite nonzero,
        percentOf_ne_nan (h'.achieved.isFinite points) finite' nothing, same.le⟩
    exact Or.inr (Double.le_trans (reached.resolve_left nonzero) (scope.rounding.apply_le_apply le))

/-! ### All verdicts -/

/-- The decision of the rule that a criterion makes is settled. -/
def Criterion.Settled (criterion : Criterion) (assignments : List Assignment)
    (participant : Participant) : Prop :=
  ∀ scope, Scope.ofCriterion criterion = .ok scope → scope.Settled assignments participant

/-- Verdicts of the rules that a criterion makes over two orders of the assignments: the same if
assignments are counted, and passed alike if the decision is settled. -/
structure SameVerdict (assignments : List Assignment) (participant : Participant)
    (criterion : Criterion) (verdict other : Verdict) : Prop where
  kind : verdict.kind = criterion.kind ∧ other.kind = criterion.kind
  category : verdict.category = criterion.category ∧ other.category = criterion.category
  of_counting : criterion.kind ≠ .overallPercent → verdict = other
  of_settled : criterion.Settled assignments participant → verdict.passed = other.passed

section Stated

variable {criterion : Criterion} {gate other : Gate} (perm : assignments.Perm others)
  (stated : Rule.States criterion assignments (.gate gate))
  (statedOther : Rule.States criterion others (.gate other))
include perm stated statedOther

theorem Gate.check_perm_of_counting (counting : criterion.kind ≠ .overallPercent) :
    gate.check participant = other.check participant := by
  cases stated with
  | overallPercent kind => exact absurd kind counting
  | allowedFailures kind given hscope =>
    obtain rfl := Rule.gate.inj (statedOther.unique (.allowedFailures kind given hscope))
    exact AllowedFailures.check_perm (Assignment.ofCategory_perm perm _) _ _
  | passedAssignments kind given rounded hscope =>
    obtain rfl := Rule.gate.inj (statedOther.unique (.passedAssignments kind given rounded hscope))
    exact PassedAssignments.check_perm perm _ _ _

theorem Gate.passed_perm_of_settled (few : assignments.length ≤ 2 ^ 52)
    (nonneg : NonnegPoints assignments participant)
    (settled : criterion.Settled assignments participant) :
    (gate.check participant).passed = (other.check participant).passed := by
  by_cases counting : criterion.kind ≠ .overallPercent
  · rw [Gate.check_perm_of_counting perm stated statedOther counting]
  · cases stated with
    | overallPercent kind hscope =>
      obtain rfl := Rule.gate.inj (statedOther.unique (.overallPercent kind hscope))
      exact OverallPercent.passed_perm perm (nonneg.ofCategory _) few (settled _ hscope)
    | allowedFailures kind => exact absurd (kind ▸ by decide) counting
    | passedAssignments kind => exact absurd (kind ▸ by decide) counting

theorem Gate.sameVerdict (few : assignments.length ≤ 2 ^ 52)
    (nonneg : NonnegPoints assignments participant) :
    SameVerdict assignments participant criterion (gate.check participant)
      (other.check participant) where
  kind := ⟨(stated.isVerdictOf participant).kind, (statedOther.isVerdictOf participant).kind⟩
  category :=
    ⟨(stated.isVerdictOf participant).category, (statedOther.isVerdictOf participant).category⟩
  of_counting := Gate.check_perm_of_counting perm stated statedOther
  of_settled := Gate.passed_perm_of_settled perm stated statedOther few nonneg

end Stated

/-- Lists that are related to one list are related to it together. -/
theorem forall₂_zip {α β γ : Type} {r : α → β → Prop} {t : α → γ → Prop} {xs : List α}
    {ys : List β} {zs : List γ} (h : List.Forall₂ r xs ys) (h' : List.Forall₂ t xs zs) :
    List.Forall₂ (fun x yz => r x yz.1 ∧ t x yz.2) xs (ys.zip zs) := by
  induction h generalizing zs with
  | nil => exact .nil
  | cons first _ ih =>
    cases h' with
    | cons first' rest' => exact .cons ⟨first, first'⟩ (ih rest')

/-- Verdicts that pass alike, one by one, admit alike. -/
theorem Status.hasAdmission_congr {id : ParticipantId} {results others : List Verdict}
    (length : results.length = others.length)
    (alike : ∀ pair ∈ results.zip others, pair.1.passed = pair.2.passed) :
    (ofVerdicts id results).hasAdmission = (ofVerdicts id others).hasAdmission := by
  have flags : results.map (·.passed) = others.map (·.passed) := by
    calc results.map (·.passed) = ((results.zip others).map Prod.fst).map (·.passed) := by
          rw [List.map_fst_zip length.le]
      _ = ((results.zip others).map Prod.snd).map (·.passed) := by
          rw [List.map_map, List.map_map]
          exact List.map_congr_left alike
      _ = others.map (·.passed) := by rw [List.map_snd_zip length.ge]
  have every : ∀ list : List Verdict, (ofVerdicts id list).hasAdmission =
      (list.map (·.passed)).all fun passed => passed := by
    intro list
    rw [List.all_map]
    rfl
  rw [every, every, flags]

namespace Ruleset

/-- **What the order of the catalogue can change.**  Over another order of the same assignments the
criteria make rules of the same kinds, or none for the same reason.  Rules that count assignments
give the same verdicts; rules on all points pass alike where their decision is settled, and if all
of these are, admission is the same. -/
theorem evaluate_of_perm (criteria : List Criterion) (perm : assignments.Perm others)
    (few : assignments.length < 2 ^ 32)
    (nonneg : NonnegPoints (Assignment.evaluated assignments) participant) :
    (ofCriteria criteria assignments).map (·.rules.map Rule.kind) =
      (ofCriteria criteria others).map (·.rules.map Rule.kind) ∧
    ∀ ruleset other, ofCriteria criteria assignments = .ok ruleset →
      ofCriteria criteria others = .ok other →
      List.Forall₂
        (fun criterion verdicts => SameVerdict (Assignment.evaluated assignments) participant
          criterion verdicts.1 verdicts.2)
        (criteria.filter (·.kind ≠ .individualPercent))
        ((ruleset.evaluate participant).results.zip (other.evaluate participant).results) ∧
      (ruleset.evaluate participant).results.length = (other.evaluate participant).results.length ∧
      ((∀ criterion ∈ criteria, criterion.kind = .overallPercent →
          criterion.Settled (Assignment.evaluated assignments) participant) →
        (ruleset.evaluate participant).hasAdmission =
          (other.evaluate participant).hasAdmission) := by
  refine ⟨ofCriteria_kinds criteria assignments others, ?_⟩
  intro ruleset other built builtOther
  have counting : (Assignment.evaluated assignments).Perm (Assignment.evaluated others) :=
    perm.filter _
  have fewCounting : (Assignment.evaluated assignments).length ≤ 2 ^ 52 :=
    (List.length_filter_le _ _).trans (few.le.trans (by decide))
  have stated := gates_stated built
  have statedOther := gates_stated builtOther
  rw [evaluate_eq_gates, evaluate_eq_gates]
  have verdicts : List.Forall₂
      (fun criterion verdicts => SameVerdict (Assignment.evaluated assignments) participant
        criterion verdicts.1 verdicts.2)
      (criteria.filter (·.kind ≠ .individualPercent))
      ((ruleset.gates.map (·.check participant)).zip (other.gates.map (·.check participant))) := by
    rw [List.zip_map, List.forall₂_map_right_iff]
    exact (forall₂_zip stated statedOther).imp fun criterion gates h =>
      Gate.sameVerdict counting h.1 h.2 fewCounting nonneg
  have length : (ruleset.gates.map (·.check participant)).length =
      (other.gates.map (·.check participant)).length := by
    rw [List.length_map, List.length_map, ← stated.length_eq, statedOther.length_eq]
  refine ⟨verdicts, length, fun settled => Status.hasAdmission_congr length fun pair mem => ?_⟩
  obtain ⟨criterion, listed, same⟩ := exists_of_forall₂ verdicts mem
  by_cases overall : criterion.kind = .overallPercent
  · exact same.of_settled (settled criterion (List.mem_filter.mp listed).1 overall)
  · exact congrArg Verdict.passed (same.of_counting overall)

/-- The demo course lists its assignments in the opposite order.  All points but those of brendan are
whole or half ones, which add up exactly. -/
theorem demo_evaluate_of_perm :
    ∃ ruleset other, ofCriteria Demo.criteria Demo.course.assignments = .ok ruleset ∧
      ofCriteria Demo.criteria Demo.course.assignments.reverse = .ok other ∧
      ∀ participant ∈ Demo.course.participants, participant.id ≠ "brendan" →
        (ruleset.evaluate participant).hasAdmission =
          (other.evaluate participant).hasAdmission := by
  obtain ⟨ruleset, built⟩ := exists_of_demo
  have ⟨other, builtOther⟩ : ∃ other,
      ofCriteria Demo.criteria Demo.course.assignments.reverse = .ok other := ⟨_, rfl⟩
  have worth : ∀ assignment ∈ Assignment.evaluated Demo.course.assignments,
      assignment.maxPoints.isFinite = true ∧ 0 ≤ assignment.maxPoints := by decide +kernel
  have points : ∀ participant ∈ Demo.course.participants,
      ∀ assignment ∈ Assignment.evaluated Demo.course.assignments,
        (participant.pointsFor assignment.id).isFinite = true ∧
          0 ≤ participant.pointsFor assignment.id := by decide +kernel
  have homework : ∀ criterion ∈ Demo.criteria, criterion.kind = .overallPercent →
      criterion.category = .homework := by decide
  -- everything is a multiple of one half
  have halves : ∀ participant ∈ Demo.course.participants, participant.id ≠ "brendan" →
      ∀ list ∈ [(Assignment.ofCategory .homework (Assignment.evaluated Demo.course.assignments)).map
          (fun assignment => participant.pointsFor assignment.id),
        (Assignment.ofCategory .homework (Assignment.evaluated Demo.course.assignments)).map
          (·.maxPoints)],
      (∀ x ∈ list, x.rank = (x.rank * 2).num.toNat * 2 ^ (-1 : Int)) ∧
        Double.exactSum list ≤ 2 ^ 53 * 2 ^ (-1 : Int) ∧
        Double.exactSum list < 2 ^ (1024 : Int) := by decide +kernel
  refine ⟨ruleset, other, built, builtOther, fun participant mem named => ?_⟩
  obtain ⟨-, evaluated⟩ := evaluate_of_perm Demo.criteria
    (List.reverse_perm Demo.course.assignments).symm (by decide) ⟨worth, points participant mem⟩
  refine (evaluated ruleset other built builtOther).2.2 fun criterion listed overall scope stated => ?_
  have category : scope.category = .homework := by
    obtain ⟨rounding, -, rfl⟩ := Scope.ofCriterion_eq_ok_iff.mp stated
    exact homework criterion listed overall
  have adds : ∀ list ∈ [_, _], Double.AddsExactly list := fun list hlist =>
    have ⟨multiples, digits, inRange⟩ := halves participant mem named list hlist
    ⟨-1, by decide, fun x hx => ⟨_, multiples x hx⟩, digits, inRange⟩
  refine Scope.settled_of_addsExactly ?_ ?_
  · rw [category]
    exact adds _ List.mem_cons_self
  · rw [category]
    exact adds _ (List.mem_cons_of_mem _ List.mem_cons_self)

/-- Where a decision is not settled, the order can make it: a tenth, two tenths and seven tenths add
up to one from the left, but to a little less if the first one comes last. -/
theorem hasAdmission_ne_of_perm :
    let sheets := [Demo.evaluated "sheet-1" .homework (Demo.tenths 5),
      Demo.evaluated "sheet-2" .homework (Demo.tenths 5), Demo.evaluated "sheet-3" .homework 1]
    let others := [Demo.evaluated "sheet-2" .homework (Demo.tenths 5),
      Demo.evaluated "sheet-3" .homework 1, Demo.evaluated "sheet-1" .homework (Demo.tenths 5)]
    let ada := Demo.participant "ada" [("sheet-1", some (Demo.tenths 1)),
      ("sheet-2", some (Demo.tenths 2)), ("sheet-3", some (Demo.tenths 7))]
    sheets.Perm others ∧ (sheets.map (·.id)).Nodup ∧
    (ofCriteria [.plain .overallPercent .homework 50] sheets).map
      (fun ruleset => (ruleset.evaluate ada).hasAdmission) = .ok true ∧
    (ofCriteria [.plain .overallPercent .homework 50] others).map
      (fun ruleset => (ruleset.evaluate ada).hasAdmission) = .ok false := by
  decide +kernel

end Ruleset

end ExamAdmission
