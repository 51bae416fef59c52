/-
Two rules that ask for a percentage of each assignment.

A rule on the number of passed assignments compares points with thresholds, and a list compares
percentages.  For clear points both decide alike, so the count of the one and the marks of the other
differ by the assignments near the boundary at most; and there they can differ.  Of few whole points
the rule on the number passes all that reach a whole percentage, and the list misses just those that
are on the boundary of one that its own share does not reach.

* `isPassed_iff_marked` — both rules decide alike on an assignment with clear points;
* `isPassed_iff_of_few`, `isMarked_iff_reaches` — what each of them makes of whole points;
* `countP_le_add_countP` — decisions that agree but for a few items have counts that near;
* `Rule.passedCount_near_listed` — the count of passed assignments and the marks of a list;
* `Rule.passedCount_ne_listed` — they differ for 29 of 100 points where 29 percent are required, and
  where a product or a share is out of the range of doubles.
-/
import ExamAdmission.Course.Demo
import ExamAdmission.Proofs.Ruleset.Listing
import ExamAdmission.Proofs.Whole

namespace ExamAdmission

/-- Decisions that agree but for a few items have counts that differ by these at most. -/
theorem countP_le_add_countP {α : Type} {p q r : α → Bool} {xs : List α}
    (h : ∀ x ∈ xs, p x = true → q x = true ∨ r x = true) :
    xs.countP p ≤ xs.countP q + xs.countP r := by
  induction xs with
  | nil => exact Nat.zero_le _
  | cons x xs ih =>
    have first := h x List.mem_cons_self
    have rest := ih fun y hy => h y (List.mem_cons_of_mem x hy)
    simp only [List.countP_cons]
    by_cases hp : p x = true
    · rcases first hp with hq | hr
      · simp [hp, hq]
        omega
      · simp [hp, hr]
        omega
    · simp [hp]
      omega

/-! ### One assignment -/

section Assignments

variable {scope : Scope} {assignments : List Assignment} {participant : Participant}
  {assignment : Assignment}

/-- The points of an assignment reach the percentage that a scope requires, as a list sees it. -/
def isMarked (scope : Scope) (participant : Participant) (assignment : Assignment) : Bool :=
  scope.requiredPercent ≤
    scope.assignmentPercent (participant.pointsFor assignment.id) assignment.maxPoints

/-- Both rules decide alike on an assignment with clear points. -/
theorem isPassed_iff_marked (unrounded : scope.rounding = .identity)
    (gradable : Gradable scope.requiredPercent assignment.maxPoints
      (participant.pointsFor assignment.id))
    (clear : IsClear scope.requiredPercent assignment.maxPoints
      (participant.pointsFor assignment.id)) :
    PassedAssignments.isPassed participant (PassedAssignments.threshold scope assignment) = true ↔
      isMarked scope participant assignment = true := by
  have nonzero := Double.not_isZero_of_pos gradable.finiteWorth gradable.worth_pos
  rw [PassedAssignments.isPassed, PassedAssignments.threshold, isMarked, Scope.assignmentPercent,
    if_neg nonzero, unrounded, decide_eq_true_iff, decide_eq_true_iff]
  exact (amountOfPercent_le_iff gradable clear).trans (le_percentOf_iff gradable clear).symm

section Whole

variable {percent worth points : Nat} (unrounded : scope.rounding = .identity)
  (required : scope.requiredPercent = .ofNat percent)
  (wholeWorth : Double.IsWhole assignment.maxPoints worth)
  (wholePoints : Double.IsWhole (participant.pointsFor assignment.id) points)
include unrounded required wholeWorth wholePoints

/-- A list marks settled points that reach the percentage, except on the boundary of one that its
own share does not reach. -/
theorem isMarked_iff_reaches (le : percent ≤ 100) (some_worth : 0 < worth)
    (settled : IsSettled percent worth points) :
    isMarked scope participant assignment = true ↔ Reaches percent worth points := by
  have nonzero := Double.not_isZero_of_pos wholeWorth.finite (wholeWorth.pos some_worth)
  rw [isMarked, Scope.assignmentPercent, if_neg nonzero, unrounded, required, decide_eq_true_iff]
  exact ofNat_le_percentOf_iff wholeWorth wholePoints le some_worth settled

variable (gradable : Gradable scope.requiredPercent assignment.maxPoints
  (participant.pointsFor assignment.id)) (few : percent * worth ≤ 2 ^ 52)
include gradable few

/-- A rule on the number of passed assignments passes all few points that reach the percentage. -/
theorem isPassed_iff_of_few :
    PassedAssignments.isPassed participant (PassedAssignments.threshold scope assignment) = true ↔
      percent * worth ≤ 100 * points := by
  rw [PassedAssignments.isPassed, PassedAssignments.threshold, unrounded, decide_eq_true_iff,
    required]
  exact amountOfPercent_le_iff_of_few wholeWorth wholePoints (required ▸ gradable) few

/-- What of few points is marked is passed too. -/
theorem isPassed_of_marked (marked : isMarked scope participant assignment = true) :
    PassedAssignments.isPassed participant (PassedAssignments.threshold scope assignment) =
      true := by
  obtain ⟨-, le, some_worth⟩ := Gradable.bounds_of_few wholeWorth (required ▸ gradable) few
  rw [isMarked_iff_reaches unrounded required wholeWorth wholePoints le some_worth
    (isSettled_of_few few)] at marked
  exact (isPassed_iff_of_few unrounded required wholeWorth wholePoints gradable few).mpr marked.1

/-- What of few points is passed without a mark is on such a boundary. -/
theorem isPassed_unmarked_iff :
    PassedAssignments.isPassed participant (PassedAssignments.threshold scope assignment) = true ∧
        isMarked scope participant assignment = false ↔
      percent ∈ roundedDown ∧ percent * worth = 100 * points := by
  obtain ⟨-, le, some_worth⟩ := Gradable.bounds_of_few wholeWorth (required ▸ gradable) few
  rw [isPassed_iff_of_few unrounded required wholeWorth wholePoints gradable few,
    ← Bool.not_eq_true, isMarked_iff_reaches unrounded required wholeWorth wholePoints le
      some_worth (isSettled_of_few few)]
  constructor
  · rintro ⟨reached, missed⟩
    rw [Reaches, not_and, Classical.not_imp, not_not] at missed
    exact (missed reached).symm
  · rintro ⟨rounded, boundary⟩
    exact ⟨boundary.le, fun reached => reached.2 boundary rounded⟩

end Whole

/-! ### All assignments -/

/-- The number of assignments whose points are not clear. -/
def unclear (percent : Double) (assignments : List Assignment) (participant : Participant) : Nat :=
  assignments.countP fun assignment =>
    ¬ IsClear percent assignment.maxPoints (participant.pointsFor assignment.id)

/-- A list marks the assignments that reach the percentage. -/
theorem IndividualPercent.passed_of_counts {rule : IndividualPercent}
    (counts : participant.id ∉ rule.scope.ignored) :
    (rule.check participant).passed = rule.assignments.map (isMarked rule.scope participant) := by
  rw [check, if_neg counts]
  rfl

theorem IndividualPercent.count_true_of_counts (assignments : List Assignment)
    (counts : participant.id ∉ scope.ignored) :
    ((⟨scope, assignments⟩ : IndividualPercent).check participant).passed.count true =
      assignments.countP (isMarked scope participant) := by
  rw [passed_of_counts counts, List.count, List.countP_map]
  refine List.countP_congr fun assignment mem => ?_
  rw [Function.comp_apply, beq_true]

/-- The verdict shows how many assignments reach their thresholds. -/
theorem PassedAssignments.achievedPoints_of_counts {percent : Double} {countRounding : Rounding}
    (counts : participant.id ∉ scope.ignored) :
    ((ofScope scope percent countRounding assignments).check participant).achievedPoints =
      .ofNat ((Assignment.ofCategory scope.category assignments).countP fun assignment =>
        isPassed participant (threshold scope assignment)) := by
  have counted : (ofScope scope percent countRounding assignments).passedCount participant =
      (Assignment.ofCategory scope.category assignments).countP fun assignment =>
        isPassed participant (threshold scope assignment) := by
    rw [passedCount, ofScope, List.countP_map]
    rfl
  rw [check, if_neg (show ¬ participant.id ∈ (ofScope ..).scope.ignored from counts), counted]
  dsimp only
  split
  · rfl
  · rfl

/-- The two counts differ by the assignments whose points are not clear at most. -/
theorem countP_isPassed_near (unrounded : scope.rounding = .identity)
    (gradable : ∀ assignment ∈ assignments, Gradable scope.requiredPercent assignment.maxPoints
      (participant.pointsFor assignment.id)) :
    let passed := assignments.countP fun assignment =>
      PassedAssignments.isPassed participant (PassedAssignments.threshold scope assignment)
    let marked := assignments.countP (isMarked scope participant)
    passed ≤ marked + unclear scope.requiredPercent assignments participant ∧
      marked ≤ passed + unclear scope.requiredPercent assignments participant := by
  intro passed marked
  have alike := fun assignment mem => isPassed_iff_marked unrounded (gradable assignment mem)
  constructor
  · refine countP_le_add_countP fun assignment mem reached => ?_
    by_cases clear : IsClear scope.requiredPercent assignment.maxPoints
        (participant.pointsFor assignment.id)
    · exact Or.inl ((alike assignment mem clear).mp reached)
    · exact Or.inr (decide_eq_true clear)
  · refine countP_le_add_countP fun assignment mem reached => ?_
    by_cases clear : IsClear scope.requiredPercent assignment.maxPoints
        (participant.pointsFor assignment.id)
    · exact Or.inl ((alike assignment mem clear).mpr reached)
    · exact Or.inr (decide_eq_true clear)

/-- Of few whole points the count exceeds the marks by the assignments on such a boundary. -/
theorem countP_isPassed_of_few (unrounded : scope.rounding = .identity)
    (gradable : ∀ assignment ∈ assignments, Gradable scope.requiredPercent assignment.maxPoints
      (participant.pointsFor assignment.id))
    {percent : Nat} (required : scope.requiredPercent = .ofNat percent)
    {worth points : Assignment → Nat}
    (few : ∀ assignment ∈ assignments, Double.IsWhole assignment.maxPoints (worth assignment) ∧
      Double.IsWhole (participant.pointsFor assignment.id) (points assignment) ∧
      percent * worth assignment ≤ 2 ^ 52) :
    (assignments.countP fun assignment =>
        PassedAssignments.isPassed participant (PassedAssignments.threshold scope assignment)) =
      assignments.countP (isMarked scope participant) + assignments.countP fun assignment =>
        percent ∈ roundedDown ∧ percent * worth assignment = 100 * points assignment := by
  -- what is passed is counted apart by whether it is marked
  rw [List.countP_eq_countP_filter_add _ _ (isMarked scope participant), List.countP_filter,
    List.countP_filter]
  congr 1
  · refine List.countP_congr fun assignment mem => ?_
    obtain ⟨wholeWorth, wholePoints, few⟩ := few assignment mem
    rw [Bool.and_eq_true, and_iff_right_iff_imp]
    exact isPassed_of_marked unrounded required wholeWorth wholePoints (gradable assignment mem) few
  · refine List.countP_congr fun assignment mem => ?_
    obtain ⟨wholeWorth, wholePoints, few⟩ := few assignment mem
    rw [Bool.and_eq_true, Bool.not_eq_true', decide_eq_true_iff]
    exact isPassed_unmarked_iff unrounded required wholeWorth wholePoints (gradable assignment mem)
      few

theorem unclear_eq_zero {percent : Double}
    (clear : ∀ assignment ∈ assignments,
      IsClear percent assignment.maxPoints (participant.pointsFor assignment.id)) :
    unclear percent assignments participant = 0 := by
  refine List.countP_eq_zero.mpr fun assignment mem => ?_
  simp [clear assignment mem]

end Assignments

/-! ### The rules -/

/-- What a rule says about the points for one sheet of homework. -/
def Demo.oneSheet (kind : RuleKind) (percent worth points : Double) :
    Except CriteriaError Finding :=
  (Rule.ofCriterion
    { Criterion.plain kind .homework percent with passedAssignmentsPercent := some 100 }
    [Demo.evaluated "sheet-1" .homework worth]).map
      (·.check (Demo.participant "ada" [("sheet-1", some points)]))

namespace Rule

/-- **The count of passed assignments and the marks of a list agree but for assignments near the
boundary.**  Over the same assignments and for the same percentage, with points left unrounded, the
verdict shows a count that differs from the number of marks by the assignments whose points are not
clear at most; if all points are clear it shows the number of marks.  Where a whole percentage is
required and there are few points for each assignment, all of them whole, the count is the number of
marks and of the assignments with exactly 29, 57 or 58 percent, if that is what is required. -/
theorem passedCount_near_listed {counting listing : Criterion} {assignments : List Assignment}
    {rule list : Rule} (counts : counting.kind = .passedAssignments)
    (lists : listing.kind = .individualPercent) (same : counting.SameScope listing)
    (built : ofCriterion counting assignments = .ok rule)
    (builtList : ofCriterion listing assignments = .ok list)
    (unrounded : counting.pointsRounding.mode = .none) {participant : Participant}
    (included : participant.id ∉ counting.ignoredParticipants)
    (gradable : ∀ assignment ∈ Assignment.ofCategory counting.category assignments,
      Gradable counting.requiredPercent assignment.maxPoints
        (participant.pointsFor assignment.id)) :
    let matching := Assignment.ofCategory counting.category assignments
    ∃ count verdict breakdown, rule.check participant = .verdict verdict ∧
      list.check participant = .breakdown breakdown ∧
      verdict.achievedPoints = .ofNat count ∧
      count ≤ breakdown.passed.count true +
        unclear counting.requiredPercent matching participant ∧
      breakdown.passed.count true ≤ count +
        unclear counting.requiredPercent matching participant ∧
      ((∀ assignment ∈ matching, IsClear counting.requiredPercent assignment.maxPoints
          (participant.pointsFor assignment.id)) →
        verdict.achievedPoints = .ofNat (breakdown.passed.count true)) ∧
      ∀ (percent : Nat) (worth points : Assignment → Nat),
        counting.requiredPercent = .ofNat percent →
        (∀ assignment ∈ matching, Double.IsWhole assignment.maxPoints (worth assignment) ∧
          Double.IsWhole (participant.pointsFor assignment.id) (points assignment) ∧
          percent * worth assignment ≤ 2 ^ 52) →
        count = breakdown.passed.count true + matching.countP fun assignment =>
          percent ∈ roundedDown ∧ percent * worth assignment = 100 * points assignment := by
  obtain ⟨listScope, statedList, rfl⟩ := (ofCriterion_eq_ok_iff.mp builtList).eq_listing lists
  cases ofCriterion_eq_ok_iff.mp built with
  | overallPercent kind => cases counts.symm.trans kind
  | allowedFailures kind => cases counts.symm.trans kind
  | individualPercent kind => cases counts.symm.trans kind
  | @passedAssignments scope percent countRounding _ _ _ stated =>
    obtain rfl := same.scope_eq stated statedList
    obtain ⟨rounding, -, hscope⟩ := Scope.ofCriterion_eq_ok_iff.mp stated
    have identity := Scope.rounding_eq_identity stated unrounded
    have category : counting.category = listScope.category := by rw [hscope]
    have required : counting.requiredPercent = listScope.requiredPercent := by rw [hscope]
    have ignored : counting.ignoredParticipants = listScope.ignored := by rw [hscope]
    rw [ignored] at included
    rw [category, required] at gradable ⊢
    intro matching
    have near := countP_isPassed_near identity gradable
    have shown : ((PassedAssignments.ofScope listScope percent countRounding assignments).check
        participant).achievedPoints = _ := PassedAssignments.achievedPoints_of_counts included
    have marked := IndividualPercent.count_true_of_counts matching included
    refine ⟨_, _, _, rfl, rfl, shown, marked ▸ near.1, marked ▸ near.2, fun clear => ?_,
      fun whole worth points requires few => ?_⟩
    · rw [unclear_eq_zero clear] at near
      exact shown.trans (congrArg Double.ofNat ((le_antisymm near.1 near.2).trans marked.symm))
    · exact (countP_isPassed_of_few identity gradable requires few).trans (by rw [marked])

/-- In the demo course all points for homework are clear where half of them are required.  Of 29 of
100 points and 6 of 20 both reach 29 percent, and the first of them without a mark. -/
theorem demo_passedCount_near_listed :
    (∃ rule list,
      ofCriterion { Criterion.plain .passedAssignments .homework 50 with
        passedAssignmentsPercent := some 60 } Demo.course.assignments = .ok rule ∧
      ofCriterion (.plain .individualPercent .homework 50) Demo.course.assignments = .ok list ∧
      ∀ participant ∈ Demo.course.participants, ∃ verdict breakdown,
        rule.check participant = .verdict verdict ∧
        list.check participant = .breakdown breakdown ∧
        verdict.achievedPoints = .ofNat (breakdown.passed.count true)) ∧
    let sheets := [Demo.evaluated "sheet-1" .homework 100, Demo.evaluated "sheet-2" .homework 20]
    let ada := Demo.participant "ada" [("sheet-1", some 29), ("sheet-2", some 6)]
    ∃ rule list verdict breakdown,
      ofCriterion { Criterion.plain .passedAssignments .homework 29 with
        passedAssignmentsPercent := some 60 } sheets = .ok rule ∧
      ofCriterion (.plain .individualPercent .homework 29) sheets = .ok list ∧
      rule.check ada = .verdict verdict ∧ list.check ada = .breakdown breakdown ∧
      verdict.achievedPoints = .ofNat (breakdown.passed.count true + 1) := by
  have counts : ∀ percent, { Criterion.plain .passedAssignments .homework percent with
      passedAssignmentsPercent := some 60 }.kind = .passedAssignments := fun _ => rfl
  have lists : ∀ percent,
      (Criterion.plain .individualPercent .homework percent).kind = .individualPercent :=
    fun _ => rfl
  constructor
  · have graded : ∀ participant ∈ Demo.course.participants,
        ∀ assignment ∈ Assignment.ofCategory .homework Demo.course.assignments,
          Gradable 50 assignment.maxPoints (participant.pointsFor assignment.id) ∧
            IsClear 50 assignment.maxPoints (participant.pointsFor assignment.id) := by
      decide +kernel
    refine ⟨_, _, rfl, rfl, fun participant mem => ?_⟩
    obtain ⟨count, verdict, breakdown, counted, listed, -, -, -, shown, -⟩ :=
      passedCount_near_listed (counts 50) (lists 50) ⟨rfl, rfl, rfl, rfl⟩ rfl rfl rfl
        List.not_mem_nil fun assignment mem' => (graded participant mem assignment mem').1
    exact ⟨verdict, breakdown, counted, listed,
      shown fun assignment mem' => (graded participant mem assignment mem').2⟩
  · intro sheets ada
    let worth : Assignment → Nat := fun sheet => if sheet.id = "sheet-1" then 100 else 20
    let points : Assignment → Nat := fun sheet => if sheet.id = "sheet-1" then 29 else 6
    have whole : ∀ sheet ∈ Assignment.ofCategory .homework sheets,
        Gradable 29 sheet.maxPoints (ada.pointsFor sheet.id) ∧
          Double.IsWhole sheet.maxPoints (worth sheet) ∧
          Double.IsWhole (ada.pointsFor sheet.id) (points sheet) ∧
          29 * worth sheet ≤ 2 ^ 52 := by
      decide +kernel
    have built : ofCriterion { Criterion.plain .passedAssignments .homework 29 with
        passedAssignmentsPercent := some 60 } sheets = .ok _ := rfl
    obtain ⟨count, verdict, breakdown, counted, listed, shown, -, -, -, exceeds⟩ :=
      passedCount_near_listed (counts 29) (lists 29) ⟨rfl, rfl, rfl, rfl⟩ built rfl rfl
        (List.not_mem_nil : ada.id ∉ []) fun sheet mem => (whole sheet mem).1
    refine ⟨_, _, verdict, breakdown, built, rfl, counted, listed, ?_⟩
    rw [shown, exceeds 29 worth points rfl fun sheet mem => (whole sheet mem).2]
    rfl

/-- Near the boundary the count and the marks differ.  Of 100 points 29 reach the threshold for 29
percent, but their share is rounded to a little less; half of the smallest double is no threshold
that zero points miss; and fifty times `10 ^ 308` is out of range, so that not even all points reach
that threshold. -/
theorem passedCount_ne_listed :
    (Demo.oneSheet .passedAssignments 29 100 29).map (·.verdict?.map (·.achievedPoints)) =
      .ok (some 1) ∧
    (Demo.oneSheet .individualPercent 29 100 29).map (·.breakdown?.map (·.passed)) =
      .ok (some [false]) ∧
    (let smallest := (Decimal.mk 5 (-324)).toDouble false
     0 < smallest ∧
      (Demo.oneSheet .passedAssignments 50 smallest 0).map (·.verdict?.map (·.achievedPoints)) =
        .ok (some 1) ∧
      (Demo.oneSheet .individualPercent 50 smallest 0).map (·.breakdown?.map (·.passed)) =
        .ok (some [false])) ∧
    (let large := (Decimal.mk 1 308).toDouble false
     large.isFinite = true ∧
      (Demo.oneSheet .passedAssignments 50 large large).map (·.verdict?.map (·.achievedPoints)) =
        .ok (some 0) ∧
      (Demo.oneSheet .individualPercent 50 large large).map (·.breakdown?.map (·.passed)) =
        .ok (some [true])) := by
  decide +kernel

end Rule

end ExamAdmission
