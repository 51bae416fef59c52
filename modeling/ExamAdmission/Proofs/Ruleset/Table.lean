/-
The table of points shows what the rules see.

The table and the rules filter assignments and look up points each for themselves.  They agree
position by position: the cells of a participant's row at the columns of a category are what the
rules on that category list and add up.

* `PointsTable.cells`, `PointsTable.cells_row` — the columns of a category with the cells of a row;
* `IndividualPercent.check_of_counts`, `OverallPercent.achievedPoints_of_counts` — what these rules
  show for a participant for whom they count;
* `Rule.States.listsCells`, `Rule.States.addsCells` — in terms of the table;
* `Ruleset.answers_agree_with_table` — **the table and all answers agree**.
-/
import ExamAdmission.Course.Demo
import ExamAdmission.PointsTable
import ExamAdmission.Proofs.Course.Assessments
import ExamAdmission.Proofs.Ruleset.Verdicts

namespace ExamAdmission

/-! ### The table -/

namespace PointsTable

/-- The columns of a category, each with the cell that a row has there. -/
def cells (table : PointsTable) (row : PointsRow) (category : Category) :
    List (Assignment × Double) :=
  (table.assignments.zip row.points).filter (·.1.category = category)

/-- The row shows the points of a participant: one cell for each column, from the last assessment
of its assignment. -/
structure IsRowOf (table : PointsTable) (participant : Participant) (row : PointsRow) : Prop where
  same : row.participant = participant.id
  cells : List.Forall₂ (fun column cell =>
    Assessment.LastPoints participant.assessments column.id cell) table.assignments row.points

theorem isRowOf_row (table : PointsTable) (participant : Participant) :
    table.IsRowOf participant (row table.assignments participant) where
  same := rfl
  cells := by
    refine List.forall₂_map_right_iff.mpr (List.forall₂_same.mpr fun column _ => ?_)
    exact Assessment.lastPoints_pointsFor participant.assessments column.id

/-- The cells at the columns of a category are the points for the assignments of that category. -/
theorem cells_row (table : PointsTable) (participant : Participant) (category : Category) :
    table.cells (row table.assignments participant) category =
      (Assignment.ofCategory category table.assignments).map fun assignment =>
        (assignment, participant.pointsFor assignment.id) := by
  rw [cells, row, ← List.map_prod_left_eq_zip, List.filter_map]
  rfl

end PointsTable

/-! ### What two kinds of rules show -/

section Rules

variable {participant : Participant}

theorem IndividualPercent.check_of_counts {rule : IndividualPercent}
    (counts : participant.id ∉ rule.scope.ignored) :
    (rule.check participant).assignments = rule.assignments.map (·.id) ∧
      (rule.check participant).achievedPoints =
        rule.assignments.map fun assignment => participant.pointsFor assignment.id := by
  rw [check, if_neg counts]
  exact ⟨rfl, List.map_map⟩

theorem OverallPercent.achievedPoints_of_counts {rule : OverallPercent}
    (counts : participant.id ∉ rule.scope.ignored) (worth : ¬ rule.totalAchievable.isZero = true) :
    (rule.check participant).achievedPoints =
      Double.sum (rule.assignments.map participant.pointsFor) := by
  rw [check, if_neg counts, if_neg worth]
  rfl

end Rules

/-! ### In terms of the table -/

/-- A breakdown lists the columns of its category and the cells there, unless the criterion does
not count for the participant. -/
def PointsTable.ListsCells (table : PointsTable) (row : PointsRow) (participant : Participant)
    (criterion : Criterion) (breakdown : Breakdown) : Prop :=
  participant.id ∉ criterion.ignoredParticipants →
    breakdown.assignments = (table.cells row criterion.category).map (·.1.id) ∧
    breakdown.achievedPoints = (table.cells row criterion.category).map (·.2)

/-- The verdict of a rule on all points shows the sum of the cells at the columns of its category,
unless these columns are worth nothing or the criterion does not count for the participant. -/
def PointsTable.AddsCells (table : PointsTable) (row : PointsRow) (participant : Participant)
    (criterion : Criterion) (verdict : Verdict) : Prop :=
  criterion.kind = .overallPercent → participant.id ∉ criterion.ignoredParticipants →
    ¬ (Double.sum ((table.cells row criterion.category).map (·.1.maxPoints))).isZero = true →
    verdict.achievedPoints = Double.sum ((table.cells row criterion.category).map (·.2))

section Stated

variable {criterion : Criterion} {table : PointsTable} (participant : Participant)

theorem Rule.States.listsCells {listing : IndividualPercent}
    (stated : Rule.States criterion table.assignments (.listing listing)) :
    table.ListsCells (PointsTable.row table.assignments participant) participant criterion
      (listing.check participant) := by
  intro counts
  cases stated with
  | individualPercent kind hscope =>
    obtain ⟨rounding, -, rfl⟩ := Scope.ofCriterion_eq_ok_iff.mp hscope
    rw [PointsTable.cells_row, List.map_map, List.map_map]
    exact IndividualPercent.check_of_counts counts

theorem Rule.States.addsCells {gate : Gate}
    (stated : Rule.States criterion table.assignments (.gate gate)) :
    table.AddsCells (PointsTable.row table.assignments participant) participant criterion
      (gate.check participant) := by
  intro overall counts worth
  rw [PointsTable.cells_row, List.map_map] at worth ⊢
  cases stated with
  | overallPercent kind hscope =>
    obtain ⟨rounding, -, rfl⟩ := Scope.ofCriterion_eq_ok_iff.mp hscope
    exact (OverallPercent.achievedPoints_of_counts counts worth).trans
      (congrArg Double.sum List.map_map)
  | allowedFailures kind => cases overall.symm.trans kind
  | passedAssignments kind => cases overall.symm.trans kind

end Stated

namespace Ruleset

/-- **The table of points and all answers agree.**  The columns are the evaluated assignments in
order, and each participant has a row, in order, of one cell for each column, taken from the last
assessment.  Of a participant for whom the criterion counts, a breakdown lists the columns of its
category with the cells there, and a verdict on all points shows the sum of these cells, as long as
the columns are worth anything. -/
theorem answers_agree_with_table (criteria : List Criterion) (assignments : List Assignment)
    (participants : List Participant) :
    let table := PointsTable.compute assignments participants
    table.assignments = assignments.filter (·.state = .evaluated) ∧
    List.Forall₂ table.IsRowOf participants table.rows ∧
    ∀ ruleset, ofCriteria criteria assignments = .ok ruleset →
      List.Forall₂ (fun participant row =>
          List.Forall₂ (table.ListsCells row participant)
            (criteria.filter (·.kind = .individualPercent)) (ruleset.breakdown participant) ∧
          List.Forall₂ (table.AddsCells row participant)
            (criteria.filter (·.kind ≠ .individualPercent))
            (ruleset.evaluate participant).results)
        participants table.rows := by
  intro table
  refine ⟨rfl, ?_, fun ruleset built => ?_⟩
  · refine List.forall₂_map_right_iff.mpr (List.forall₂_same.mpr fun participant _ => ?_)
    exact table.isRowOf_row participant
  · refine List.forall₂_map_right_iff.mpr (List.forall₂_same.mpr fun participant _ => ⟨?_, ?_⟩)
    · rw [← Criterion.filter_not_isGating, breakdown_eq_listings]
      refine List.forall₂_map_right_iff.mpr ((listings_stated built).imp ?_)
      intro criterion listing stated
      exact Rule.States.listsCells participant stated
    · rw [evaluate_eq_gates]
      refine List.forall₂_map_right_iff.mpr ((gates_stated built).imp ?_)
      intro criterion gate stated
      exact Rule.States.addsCells participant stated

/-- In the demo course the listing of homework shows the cells of ada's row at the columns of
homework, and the verdict on all points of homework their sum. -/
theorem demo_answers_agree_with_table :
    let ada := Demo.participant "ada" [("sheet-1", some 18), ("sheet-2", some (Demo.tenths 155)),
      ("sheet-3", some 12), ("talk", some 8)]
    ∃ ruleset breakdown verdict, ofCriteria Demo.criteria Demo.course.assignments = .ok ruleset ∧
      breakdown ∈ ruleset.breakdown ada ∧ verdict ∈ (ruleset.evaluate ada).results ∧
      breakdown.assignments = ["sheet-1", "sheet-2", "sheet-3"] ∧
      breakdown.achievedPoints = [18, Demo.tenths 155, 12] ∧
      verdict.achievedPoints = Double.sum [18, Demo.tenths 155, 12] := by
  intro ada
  obtain ⟨ruleset, built⟩ := exists_of_demo
  obtain ⟨-, -, agree⟩ := answers_agree_with_table Demo.criteria Demo.course.assignments [ada]
  obtain ⟨⟨listed, added⟩, -⟩ := List.forall₂_cons.mp (agree ruleset built)
  have cells : (PointsTable.compute Demo.course.assignments [ada]).cells
      (PointsTable.row (Assignment.evaluated Demo.course.assignments) ada) .homework =
        [(Demo.evaluated "sheet-1" .homework 20, 18),
          (Demo.evaluated "sheet-2" .homework 20, Demo.tenths 155),
          (Demo.evaluated "sheet-3" .homework 20, 12)] := by
    rfl
  have informs : Criterion.plain .individualPercent .homework 50 ∈
      Demo.criteria.filter (·.kind = .individualPercent) := by decide +kernel
  have decides : { Criterion.plain .overallPercent .homework 50 with
      pointsRounding := ⟨.decimals, some 0⟩ } ∈
      Demo.criteria.filter (·.kind ≠ .individualPercent) := by decide +kernel
  obtain ⟨breakdown, memBreakdown, lists⟩ := exists_of_forall₂ listed.flip informs
  obtain ⟨verdict, memVerdict, adds⟩ := exists_of_forall₂ added.flip decides
  have counts : ada.id ∉ IdSet.empty := List.not_mem_nil
  obtain ⟨ids, points⟩ := lists counts
  have sum := adds rfl counts (by decide +kernel)
  refine ⟨ruleset, breakdown, verdict, built, memBreakdown, memVerdict, ?_, ?_, ?_⟩
  · exact ids.trans (congrArg (List.map _) cells)
  · exact points.trans (congrArg (List.map _) cells)
  · exact sum.trans (congrArg (fun list : List (Assignment × Double) => Double.sum (list.map (·.2)))
      cells)

end Ruleset

end ExamAdmission
