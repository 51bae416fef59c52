/-
No undefined arithmetic reaches a verdict.

A quotient is undefined where the divisor is zero, and moving a decimal point in a text is undefined
where the text cannot be read.  Here every check is done a second time by arithmetic that refuses
both (the names with a question mark), and the answers are compared:

* `Rule.check?_eq` — **nothing is refused**: each of the four kinds of rules looks at its own divisor
  before it divides;
* `Rule.isDefined_check` — what is shown of a participant with finite points is a number, although
  sums, products and shifts may leave the range of finite doubles;
* `PassedAssignments.isDefined_ofScope` — and so are the thresholds and the required count;
* `Ruleset.arithmetic_defined` — for all rules of a course together.
-/
import ExamAdmission.Course.Demo
import ExamAdmission.Proofs.Course.Numbers
import ExamAdmission.Proofs.Double.Error
import ExamAdmission.Proofs.Percent
import ExamAdmission.Proofs.Rounding.Text
import ExamAdmission.Proofs.Ruleset.Listing

namespace ExamAdmission

/-! ### Arithmetic that refuses -/

/-- The share of a part in a whole that is not zero. -/
def percentOf? (part whole : Double) : Option Double :=
  if whole.isZero then none else some (percentOf part whole)

def Scope.assignmentPercent? (scope : Scope) (achieved maxPoints : Double) : Option Double :=
  if maxPoints.isZero then some 100
  else do
    let percent ← percentOf? achieved maxPoints
    scope.rounding.result? percent

def OverallPercent.check? (rule : OverallPercent) (participant : Participant) : Option Verdict :=
  if participant.id ∈ rule.scope.ignored then some (rule.scope.ignoredVerdict .overallPercent)
  else if rule.totalAchievable.isZero then
    some (rule.scope.verdict .overallPercent true 0 100 (some noPointsComment))
  else do
    let achieved := Double.sum (rule.assignments.map participant.pointsFor)
    let share ← percentOf? achieved rule.totalAchievable
    let percent ← rule.scope.rounding.result? share
    return rule.scope.verdict .overallPercent (rule.scope.requiredPercent ≤ percent) achieved percent
      none

def AllowedFailures.usedPercent? (failures allowed : UInt32) : Option Double :=
  if allowed = 0 then some (if failures = 0 then 0 else 100)
  else percentOf? (.ofNat failures.toNat) (.ofNat allowed.toNat)

def AllowedFailures.check? (rule : AllowedFailures) (participant : Participant) : Option Verdict :=
  if participant.id ∈ rule.scope.ignored then some (rule.scope.ignoredVerdict .allowedFailures)
  else do
    let percents ← rule.assignments.mapM fun assignment =>
      rule.scope.assignmentPercent? (participant.pointsFor assignment.id) assignment.maxPoints
    let failures := UInt32.ofNat (percents.countP (· < rule.scope.requiredPercent))
    let used ← usedPercent? failures rule.allowed
    return rule.scope.verdict .allowedFailures (failures ≤ rule.allowed) (.ofNat failures.toNat) used
      none

def PassedAssignments.check? (rule : PassedAssignments) (participant : Participant) :
    Option Verdict :=
  if participant.id ∈ rule.scope.ignored then some (rule.scope.ignoredVerdict .passedAssignments)
  else
    let count : Double := .ofNat (rule.passedCount participant)
    if rule.requiredCount.isZero then
      some (rule.scope.verdict .passedAssignments true count 100 none)
    else do
      let percent ← percentOf? count rule.requiredCount
      return rule.scope.verdict .passedAssignments (rule.requiredCount ≤ count) count percent none

def IndividualPercent.check? (rule : IndividualPercent) (participant : Participant) :
    Option Breakdown :=
  if participant.id ∈ rule.scope.ignored then some (rule.check participant)
  else do
    let percents ← rule.assignments.mapM fun assignment =>
      rule.scope.assignmentPercent? (participant.pointsFor assignment.id) assignment.maxPoints
    return {
      kind := .individualPercent
      category := rule.scope.category
      assignments := rule.assignments.map (·.id)
      achievedPoints := (rule.assignments.map (·.id)).map participant.pointsFor
      achievedPercent := percents
      passed := percents.map fun percent => rule.scope.requiredPercent ≤ percent
      comment := none }

/-- What the rule says about a participant, unless its arithmetic is refused. -/
def Rule.check? (rule : Rule) (participant : Participant) : Option Finding :=
  match rule with
  | .gate (.overallPercent rule) => (rule.check? participant).map .verdict
  | .gate (.allowedFailures rule) => (rule.check? participant).map .verdict
  | .gate (.passedAssignments rule) => (rule.check? participant).map .verdict
  | .listing rule => (rule.check? participant).map .breakdown

/-! ### Nothing is refused -/

theorem percentOf?_eq {part whole : Double} (nonzero : ¬ whole.isZero = true) :
    percentOf? part whole = some (percentOf part whole) := if_neg nonzero

section Checks

variable {participant : Participant}

theorem Scope.assignmentPercent?_eq {scope : Scope} (h : scope.rounding.IsReversible)
    (achieved maxPoints : Double) :
    scope.assignmentPercent? achieved maxPoints = some (scope.assignmentPercent achieved maxPoints) := by
  unfold assignmentPercent? assignmentPercent
  split
  · rfl
  · next nonzero =>
    rw [percentOf?_eq nonzero]
    exact Rounding.result?_eq h _

theorem Scope.mapM_assignmentPercent? {scope : Scope} (h : scope.rounding.IsReversible)
    (assignments : List Assignment) :
    (assignments.mapM fun assignment =>
        scope.assignmentPercent? (participant.pointsFor assignment.id) assignment.maxPoints) =
      some (assignments.map fun assignment =>
        scope.assignmentPercent (participant.pointsFor assignment.id) assignment.maxPoints) := by
  simp only [Scope.assignmentPercent?_eq h]
  exact List.mapM_pure

theorem OverallPercent.check?_eq {rule : OverallPercent} (h : rule.scope.rounding.IsReversible) :
    rule.check? participant = some (rule.check participant) := by
  unfold check? check
  split
  · rfl
  · split
    · rfl
    · next nonzero =>
      dsimp only
      rw [percentOf?_eq nonzero, Option.bind_eq_bind, Option.bind_some, Rounding.result?_eq h]
      rfl

theorem Double.not_isZero_ofNat {n : Nat} (nonzero : n ≠ 0) (small : n ≤ 2 ^ 53) :
    ¬ (ofNat n).isZero = true := by
  rw [isZero_iff (isFinite_ofNat small), rank_ofNat small]
  exact Nat.cast_ne_zero.mpr nonzero

/-- A word of 32 bits is a double. -/
theorem word_le_digits (n : UInt32) : n.toNat ≤ 2 ^ 53 := n.toNat_lt.le.trans (by decide)

/-- Where no failure is allowed, nothing is divided. -/
theorem AllowedFailures.usedPercent?_eq (failures allowed : UInt32) :
    usedPercent? failures allowed = some (usedPercent failures allowed) := by
  unfold usedPercent? usedPercent
  split
  · rfl
  · next some_allowed =>
    have nonzero : allowed.toNat ≠ 0 := fun none => some_allowed (UInt32.toNat_inj.mp none)
    exact percentOf?_eq (Double.not_isZero_ofNat nonzero (word_le_digits allowed))

theorem AllowedFailures.check?_eq {rule : AllowedFailures} (h : rule.scope.rounding.IsReversible) :
    rule.check? participant = some (rule.check participant) := by
  unfold check? check
  split
  · rfl
  · rw [Scope.mapM_assignmentPercent? h, Option.bind_eq_bind, Option.bind_some, List.countP_map]
    exact congrArg (Option.bind · _) (usedPercent?_eq _ _)

theorem PassedAssignments.check?_eq (rule : PassedAssignments) :
    rule.check? participant = some (rule.check participant) := by
  unfold check? check
  split
  · rfl
  · dsimp only
    split
    · rfl
    · next nonzero =>
      rw [percentOf?_eq nonzero]
      rfl

theorem IndividualPercent.check?_eq {rule : IndividualPercent}
    (h : rule.scope.rounding.IsReversible) :
    rule.check? participant = some (rule.check participant) := by
  unfold check?
  split
  · rfl
  · next counts =>
    rw [Scope.mapM_assignmentPercent? h, check, if_neg counts, Option.bind_eq_bind, Option.bind_some]
    simp only [List.map_map]
    rfl

/-- **Nothing is refused** in the arithmetic of a rule. -/
theorem Rule.check?_eq {rule : Rule} (h : rule.scope.rounding.IsReversible) :
    rule.check? participant = some (rule.check participant) := by
  cases rule with
  | gate gate =>
    cases gate with
    | overallPercent rule => exact congrArg (Option.map _) (OverallPercent.check?_eq h)
    | allowedFailures rule => exact congrArg (Option.map _) (AllowedFailures.check?_eq h)
    | passedAssignments rule => exact congrArg (Option.map _) rule.check?_eq
  | listing rule => exact congrArg (Option.map _) (IndividualPercent.check?_eq h)

end Checks

/-! ### What is shown is a number -/

namespace Double

theorem sum_ne_nan {xs : List Double} (finite : ∀ x ∈ xs, x.isFinite = true) : sum xs ≠ nan := by
  have same : List.Forall₂ (fun c d => c.isFinite = true ∧ d.isFinite = true ∧ c ≤ d) xs xs := by
    rw [List.forall₂_same]
    intro x mem
    exact ⟨finite x mem, finite x mem, Double.le_refl (ne_nan_of_isFinite (finite x mem))⟩
  exact (sum_le_sum same).1

/-- Dividing by what is not zero gives a number, unless an infinity is divided by another. -/
theorem div_ne_nan_of_finite {x y : Double} (hx : x ≠ nan) (hy : y ≠ nan)
    (nonzero : ¬ y.isZero = true) (finite : x.isFinite = true ∨ y.isFinite = true) :
    x / y ≠ nan := by
  cases x with
  | nan => exact absurd rfl hx
  | infinity s =>
    cases y with
    | nan => exact absurd rfl hy
    | infinity t => rcases finite with h | h <;> cases h
    | finite t n => exact Double.noConfusion
  | finite s m =>
    cases y with
    | nan => exact absurd rfl hy
    | infinity t => exact Double.noConfusion
    | finite t n => exact div_ne_nan rfl rfl nonzero

theorem mul_hundred_ne_nan {x : Double} (hx : x ≠ nan) : x * 100 ≠ nan :=
  (lifts_mul isFinite_hundred hundred_pos).apply_ne_nan hx

/-- As many items as a word counts are a finite number. -/
theorem isFinite_ofNat_of_lt {n : Nat} (few : n < 2 ^ 64) : (ofNat n).isFinite = true := by
  have same : ofNat n = ofInt n := congrArg (ofRat false) (Int.cast_natCast n).symm
  rw [same]
  exact isFinite_ofInt few

end Double

theorem percentOf_ne_nan_of_finite {part whole : Double} (hpart : part ≠ .nan) (hwhole : whole ≠ .nan)
    (nonzero : ¬ whole.isZero = true) (finite : part.isFinite = true ∨ whole.isFinite = true) :
    percentOf part whole ≠ .nan :=
  Double.mul_hundred_ne_nan (Double.div_ne_nan_of_finite hpart hwhole nonzero finite)

theorem amountOfPercent_ne_nan {total percent : Double} (finite : total.isFinite = true)
    (finitePercent : percent.isFinite = true) : amountOfPercent total percent ≠ .nan :=
  (Double.lifts_div Double.isFinite_hundred Double.hundred_pos).apply_ne_nan
    (Double.mul_ne_nan finite finitePercent)

/-- What a rule shows of a participant is a number everywhere. -/
def Finding.IsDefined : Finding → Prop
  | verdict found => found.achievedPoints ≠ .nan ∧ found.achievedPercent ≠ .nan
  | breakdown found => ∀ x ∈ found.achievedPoints ++ found.achievedPercent, x ≠ .nan

namespace Finding.IsDefined

variable {finding : Finding}

theorem of_verdict? (h : finding.IsDefined) {found : Verdict}
    (said : finding.verdict? = some found) :
    found.achievedPoints ≠ .nan ∧ found.achievedPercent ≠ .nan := by
  cases finding with
  | verdict shown => exact Option.some.inj said ▸ h
  | breakdown shown => cases said

theorem of_breakdown? (h : finding.IsDefined) {found : Breakdown}
    (said : finding.breakdown? = some found) :
    ∀ x ∈ found.achievedPoints ++ found.achievedPercent, x ≠ .nan := by
  cases finding with
  | verdict shown => cases said
  | breakdown shown => exact Option.some.inj said ▸ h

end Finding.IsDefined

/-- What a rule compares counts with is a number everywhere. -/
def PassedAssignments.IsDefined (rule : PassedAssignments) : Prop :=
  rule.requiredCount ≠ .nan ∧ ∀ threshold ∈ rule.thresholds, threshold.requiredPoints ≠ .nan

section Defined

variable {participant : Participant} {assignments : List Assignment} {scope : Scope}

theorem Scope.isDefined_ignoredVerdict (scope : Scope) (kind : RuleKind) :
    (Finding.verdict (scope.ignoredVerdict kind)).IsDefined :=
  ⟨Double.ofNat_ne_nan 0, Double.ofNat_ne_nan 100⟩

theorem OverallPercent.isDefined_check {rule : OverallPercent}
    (total : rule.totalAchievable.isFinite = true)
    (points : ∀ id, (participant.pointsFor id).isFinite = true) :
    (Finding.verdict (rule.check participant)).IsDefined := by
  have achieved : Double.sum (rule.assignments.map participant.pointsFor) ≠ .nan := by
    refine Double.sum_ne_nan fun x mem => ?_
    obtain ⟨id, -, rfl⟩ := List.mem_map.mp mem
    exact points id
  unfold check
  split
  · exact rule.scope.isDefined_ignoredVerdict .overallPercent
  · split
    · exact ⟨Double.ofNat_ne_nan 0, Double.ofNat_ne_nan 100⟩
    · next nonzero =>
      refine ⟨achieved, rule.scope.rounding.apply_ne_nan ?_⟩
      exact percentOf_ne_nan_of_finite achieved (Double.ne_nan_of_isFinite total) nonzero
        (Or.inr total)

theorem AllowedFailures.usedPercent_ne_nan (failures allowed : UInt32) :
    usedPercent failures allowed ≠ .nan := by
  unfold usedPercent
  split
  · split
    · exact Double.ofNat_ne_nan 0
    · exact Double.ofNat_ne_nan 100
  · next some_allowed =>
    have nonzero : allowed.toNat ≠ 0 := fun none => some_allowed (UInt32.toNat_inj.mp none)
    exact percentOf_ne_nan (Double.isFinite_ofNat (word_le_digits failures))
      (Double.isFinite_ofNat (word_le_digits allowed))
      (Double.not_isZero_ofNat nonzero (word_le_digits allowed))

theorem AllowedFailures.isDefined_check (rule : AllowedFailures) :
    (Finding.verdict (rule.check participant)).IsDefined := by
  unfold check
  split
  · exact rule.scope.isDefined_ignoredVerdict .allowedFailures
  · exact ⟨Double.ofRat_ne_nan _ _, usedPercent_ne_nan _ _⟩

/-- The required count may be infinite; the count of passed assignments is not. -/
theorem PassedAssignments.isDefined_check {rule : PassedAssignments} (defined : rule.IsDefined)
    (few : rule.thresholds.length < 2 ^ 64) :
    (Finding.verdict (rule.check participant)).IsDefined := by
  have counted : (Double.ofNat (rule.passedCount participant)).isFinite = true :=
    Double.isFinite_ofNat_of_lt (List.countP_le_length.trans_lt few)
  have count := Double.ne_nan_of_isFinite counted
  unfold check
  split
  · exact rule.scope.isDefined_ignoredVerdict .passedAssignments
  · dsimp only
    split
    · exact ⟨count, Double.ofNat_ne_nan 100⟩
    · next nonzero =>
      exact ⟨count, percentOf_ne_nan_of_finite count defined.1 nonzero (Or.inl counted)⟩

/-- The thresholds of finite points and the required count are numbers. -/
theorem PassedAssignments.isDefined_ofScope {percent : Double} (countRounding : Rounding)
    (required : scope.requiredPercent.isFinite = true) (finite : percent.isFinite = true)
    (few : assignments.length < 2 ^ 64)
    (worth : ∀ assignment ∈ Assignment.ofCategory scope.category assignments,
      assignment.maxPoints.isFinite = true) :
    (ofScope scope percent countRounding assignments).IsDefined := by
  have matching : (Assignment.ofCategory scope.category assignments).length < 2 ^ 64 :=
    (List.length_filter_le _ _).trans_lt few
  constructor
  · exact countRounding.apply_ne_nan
      (amountOfPercent_ne_nan (Double.isFinite_ofNat_of_lt matching) finite)
  · intro threshold mem
    obtain ⟨assignment, counts, rfl⟩ := List.mem_map.mp mem
    exact scope.rounding.apply_ne_nan (amountOfPercent_ne_nan (worth assignment counts) required)

theorem IndividualPercent.isDefined_check {rule : IndividualPercent}
    (points : ∀ id, (participant.pointsFor id).isFinite = true)
    (worth : ∀ assignment ∈ rule.assignments, assignment.maxPoints.isFinite = true) :
    (Finding.breakdown (rule.check participant)).IsDefined := by
  intro x mem
  rw [check] at mem
  split at mem
  · rcases List.mem_append.mp mem with mem | mem
    · obtain ⟨-, -, rfl⟩ := List.mem_map.mp mem
      exact Double.ofNat_ne_nan 0
    · obtain ⟨-, -, rfl⟩ := List.mem_map.mp mem
      exact Double.ofNat_ne_nan 100
  · rcases List.mem_append.mp mem with mem | mem
    · obtain ⟨id, -, rfl⟩ := List.mem_map.mp mem
      exact Double.ne_nan_of_isFinite (points id)
    · obtain ⟨assignment, listed, rfl⟩ := List.mem_map.mp mem
      exact rule.scope.assignmentPercent_ne_nan (points assignment.id) (worth assignment listed)

end Defined

/-! ### The rules of a course -/

/-- The number of decimal places that is asked for, if any, has its opposite in 32 bits. -/
def RoundingChoice.IsReversible (choice : RoundingChoice) : Prop :=
  choice.decimals ≠ some Int32.minValue

instance (choice : RoundingChoice) : Decidable choice.IsReversible :=
  inferInstanceAs (Decidable (_ ≠ _))

theorem RoundingChoice.IsReversible.rounding {choice : RoundingChoice} {rounding : Rounding}
    (h : choice.IsReversible) (known : choice.rounding? = some rounding) :
    rounding.IsReversible := by
  rintro rfl
  unfold rounding? at known
  split at known
  · cases known
  · -- the places that are asked for, or none
    have places := Rounding.decimals.inj (Option.some.inj known)
    cases asked : choice.decimals with
    | none =>
      rw [asked, Option.getD_none] at places
      exact absurd places (by decide)
    | some n =>
      rw [asked, Option.getD_some] at places
      exact h (asked.trans (congrArg some places))
  · cases known
  · cases known
  · cases known

theorem RoundingChoice.rounding?_of_toRounding {choice : RoundingChoice} {rounding : Rounding}
    (h : choice.toRounding = .ok rounding) : choice.rounding? = some rounding := by
  unfold toRounding at h
  split at h
  · next known => rw [known, Except.ok.inj h]
  · cases h

namespace Rule.States

variable {criterion : Criterion} {assignments : List Assignment} {rule : Rule}

/-- The rounding of a stated rule is the one that its criterion asks for. -/
theorem rounding_stated (h : States criterion assignments rule) :
    criterion.pointsRounding.rounding? = some rule.scope.rounding := by
  obtain ⟨rounding, known, hscope⟩ := Scope.ofCriterion_eq_ok_iff.mp h.scope_stated
  rw [hscope]
  exact RoundingChoice.rounding?_of_toRounding known

/-- The thresholds and the required count of a stated rule are numbers. -/
theorem isDefined_thresholds {counting : PassedAssignments}
    (h : States criterion assignments (.gate (.passedAssignments counting)))
    (stated : ∀ x ∈ criterion.numbers, x.isFinite = true) (few : assignments.length < 2 ^ 64)
    (worth : ∀ assignment ∈ Assignment.ofCategory criterion.category assignments,
      assignment.maxPoints.isFinite = true) : counting.IsDefined := by
  have category := h.category_eq
  have required := h.requiredPercent_eq
  cases h with
  | passedAssignments kind given rounded known =>
    have finite := stated _ (List.mem_cons_of_mem _ (Option.mem_toList.mpr given))
    rw [← category] at worth
    refine PassedAssignments.isDefined_ofScope _ ?_ finite few worth
    exact (congrArg Double.isFinite required).trans (stated _ List.mem_cons_self)

/-- What a stated rule shows of a participant with finite points is a number everywhere. -/
theorem isDefined_check {participant : Participant} (h : States criterion assignments rule)
    (stated : ∀ x ∈ criterion.numbers, x.isFinite = true) (few : assignments.length < 2 ^ 64)
    (total : (Double.sum ((Assignment.ofCategory criterion.category assignments).map
      (·.maxPoints))).isFinite = true)
    (points : ∀ id, (participant.pointsFor id).isFinite = true) :
    (rule.check participant).IsDefined := by
  have worth : ∀ assignment ∈ Assignment.ofCategory criterion.category assignments,
      assignment.maxPoints.isFinite = true := fun assignment mem =>
    Double.isFinite_of_isFinite_sum total _ (List.mem_map.mpr ⟨assignment, mem, rfl⟩)
  have category := h.category_eq
  cases rule with
  | listing listing =>
    cases h with
    | individualPercent kind known =>
      rw [← category] at worth
      exact IndividualPercent.isDefined_check points worth
  | gate gate =>
    cases gate with
    | overallPercent gate =>
      cases h with
      | overallPercent kind known =>
        rw [← category] at total
        exact OverallPercent.isDefined_check total points
    | allowedFailures gate => exact gate.isDefined_check
    | passedAssignments counting =>
      refine PassedAssignments.isDefined_check (h.isDefined_thresholds stated few worth) ?_
      cases h with
      | passedAssignments kind given rounded known =>
        refine lt_of_le_of_lt ?_ few
        rw [PassedAssignments.ofScope, List.length_map]
        exact List.length_filter_le _ _

end Rule.States

namespace Ruleset

variable {criteria : List Criterion} {assignments : List Assignment} {ruleset : Ruleset}

/-- **No undefined arithmetic reaches a verdict.**  Of a course with finite numbers, in which each
criterion's category is worth a finite total, the rules check every participant with finite points
without dividing by zero and without coming upon a text that they cannot read; no points, percentage,
threshold or required count that they show or compare is undefined; and no value whatever makes a
rounding that a criterion asks for come upon such a text.  The assignments are counted in a word of
64 bits, as the length of every list in memory is. -/
theorem arithmetic_defined (built : ofCriteria criteria assignments = .ok ruleset)
    (few : assignments.length < 2 ^ 64)
    (stated : ∀ criterion ∈ criteria, ∀ x ∈ criterion.numbers, x.isFinite = true)
    (reversible : ∀ criterion ∈ criteria, criterion.pointsRounding.IsReversible ∧
      criterion.passedAssignmentsRounding.IsReversible)
    (totals : ∀ criterion ∈ criteria,
      (Double.sum ((Assignment.ofCategory criterion.category (Assignment.evaluated assignments)).map
        (·.maxPoints))).isFinite = true)
    {participant : Participant} (finite : ∀ x ∈ participant.numbers, x.isFinite = true) :
    (∀ rule ∈ ruleset.rules, rule.check? participant = some (rule.check participant)) ∧
      (∀ verdict ∈ (ruleset.evaluate participant).results,
        verdict.achievedPoints ≠ .nan ∧ verdict.achievedPercent ≠ .nan) ∧
      (∀ breakdown ∈ ruleset.breakdown participant,
        ∀ x ∈ breakdown.achievedPoints ++ breakdown.achievedPercent, x ≠ .nan) ∧
      (∀ rule, .gate (.passedAssignments rule) ∈ ruleset.rules →
        rule.requiredCount ≠ .nan ∧
          ∀ threshold ∈ rule.thresholds, threshold.requiredPoints ≠ .nan) ∧
      ∀ criterion ∈ criteria,
        ∀ choice ∈ [criterion.pointsRounding, criterion.passedAssignmentsRounding],
          ∀ rounding, choice.rounding? = some rounding →
            ∀ x, rounding.result? x = some (rounding.apply x) := by
  have states : ∀ rule ∈ ruleset.rules, ∃ criterion ∈ criteria,
      Rule.States criterion (Assignment.evaluated assignments) rule := fun rule mem =>
    exists_of_forall₂ (ofCriteria_eq_ok_iff.mp built).1 mem
  have counting : (Assignment.evaluated assignments).length < 2 ^ 64 :=
    (List.length_filter_le _ _).trans_lt few
  have points := Participant.isFinite_pointsFor finite
  have defined : ∀ rule ∈ ruleset.rules, (rule.check participant).IsDefined := by
    intro rule mem
    obtain ⟨criterion, given, h⟩ := states rule mem
    exact h.isDefined_check (stated criterion given) counting (totals criterion given) points
  refine ⟨?_, ?_, ?_, ?_, ?_⟩
  · intro rule mem
    obtain ⟨criterion, given, h⟩ := states rule mem
    exact Rule.check?_eq ((reversible criterion given).1.rounding h.rounding_stated)
  · intro verdict mem
    obtain ⟨rule, asked, said⟩ := List.mem_filterMap.mp mem
    exact (defined rule (List.mem_filter.mp asked).1).of_verdict? said
  · intro breakdown mem
    obtain ⟨rule, asked, said⟩ := List.mem_filterMap.mp mem
    exact (defined rule (List.mem_filter.mp asked).1).of_breakdown? said
  · intro rule mem
    obtain ⟨criterion, given, h⟩ := states _ mem
    refine h.isDefined_thresholds (stated criterion given) counting fun assignment mem => ?_
    exact Double.isFinite_of_isFinite_sum (totals criterion given) _
      (List.mem_map.mpr ⟨assignment, mem, rfl⟩)
  · intro criterion given choice mem rounding known
    obtain ⟨points, counts⟩ := reversible criterion given
    have choice_reversible : choice.IsReversible := by
      rcases List.mem_cons.mp mem with rfl | mem
      · exact points
      · exact List.mem_singleton.mp mem ▸ counts
    exact Rounding.result?_eq (choice_reversible.rounding known)

/-- The rules of the demo course check its participants so; brendan's percentages are
rounded in a text. -/
theorem demo_arithmetic_defined :
    ∃ ruleset, ofCriteria Demo.criteria Demo.course.assignments = .ok ruleset ∧
      ∀ participant ∈ Demo.course.participants,
        (∀ rule ∈ ruleset.rules, rule.check? participant = some (rule.check participant)) ∧
          ∀ verdict ∈ (ruleset.evaluate participant).results,
            verdict.achievedPoints ≠ .nan ∧ verdict.achievedPercent ≠ .nan := by
  have stated : ∀ criterion ∈ Demo.criteria, ∀ x ∈ criterion.numbers, x.isFinite = true := by
    decide +kernel
  have reversible : ∀ criterion ∈ Demo.criteria, criterion.pointsRounding.IsReversible ∧
      criterion.passedAssignmentsRounding.IsReversible := by decide
  have totals : ∀ criterion ∈ Demo.criteria,
      (Double.sum ((Assignment.ofCategory criterion.category
        (Assignment.evaluated Demo.course.assignments)).map (·.maxPoints))).isFinite = true := by
    decide +kernel
  have finite : ∀ participant ∈ Demo.course.participants,
      ∀ x ∈ participant.numbers, x.isFinite = true := by decide +kernel
  refine ⟨_, rfl, fun participant mem => ?_⟩
  obtain ⟨checks, verdicts, -⟩ :=
    arithmetic_defined rfl (by decide) stated reversible totals (finite participant mem)
  exact ⟨checks, verdicts⟩

end Ruleset

end ExamAdmission
