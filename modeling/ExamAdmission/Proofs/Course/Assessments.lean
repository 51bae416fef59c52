/-
Which assessments and which assignments matter.

A list of assessments is only ever looked at through the points it gives, and a list of assignments
through those that count.  Some edits cannot be seen that way:

* `Assessment.pointsFor_nil`, `Assessment.pointsFor_concat` — the last assessment of an assignment
  counts, and zero without one;
* `Assessment.LastPoints`, `Assessment.lastPoints_pointsFor` — the same, said of the list as a whole;
* `Assessment.pointsFor_append` — later assessments of an assignment take the place of earlier ones;
* `Assessment.Edit`, `Assessment.pointsFor_eq_of_edits` — assessments of assignments that do not
  count, assessments that are superseded, and the order of assessments of different assignments;
* `Assignment.Edit`, `Assignment.evaluated_eq_of_edits` — assignments that are not evaluated.
-/
import ExamAdmission.Course.Participant
import Mathlib.Logic.Relation

namespace ExamAdmission

/-- What is found from the end of a list is the last item of its kind. -/
theorem find?_reverse_eq_some_iff {α : Type} {p : α → Bool} {items : List α} {item : α} :
    items.reverse.find? p = some item ↔
      p item ∧ ∃ before after, items = before ++ item :: after ∧ ∀ other ∈ after, ¬ p other := by
  rw [List.find?_eq_some_iff_append]
  refine and_congr_right fun _ => ⟨?_, ?_⟩
  -- the list reads the other way round
  · rintro ⟨after, before, split, others⟩
    refine ⟨before.reverse, after.reverse, ?_, fun other mem => ?_⟩
    · rw [← List.reverse_reverse items, split]
      simp
    · simpa using others other (List.mem_reverse.mp mem)
  · rintro ⟨before, after, rfl, others⟩
    refine ⟨after.reverse, before.reverse, by simp, fun other mem => ?_⟩
    simpa using others other (List.mem_reverse.mp mem)

namespace Assessment

variable {assignment : AssignmentId}

/-! ### The points that a list of assessments gives -/

@[simp] theorem pointsFor_nil : pointsFor [] assignment = 0 := by
  rw [show (0 : Double) = .zero false from rfl]
  rfl

/-- The last assessment gives its points, zero while it has none yet; one of another assignment
gives nothing. -/
theorem pointsFor_concat (records : List Assessment) (last : Assessment) :
    pointsFor (records ++ [last]) assignment =
      if last.assignment = assignment then last.points.getD 0
      else pointsFor records assignment := by
  rw [pointsFor, List.reverse_append, List.reverse_singleton, List.singleton_append,
    List.find?_cons, show (0 : Double) = .zero false from rfl]
  by_cases own : last.assignment = assignment
  · simp [own]
  · simp [own, pointsFor]

/-- The points of the last assessment of an assignment, zero while it has none yet; and zero without
an assessment. -/
inductive LastPoints (records : List Assessment) (assignment : AssignmentId) : Double → Prop
  | given (earlier later : List Assessment) (record : Assessment)
      (split : records = earlier ++ record :: later) (own : record.assignment = assignment)
      (last : ∀ other ∈ later, other.assignment ≠ assignment) :
      LastPoints records assignment (record.points.getD 0)
  | absent (none : ∀ record ∈ records, record.assignment ≠ assignment) :
      LastPoints records assignment 0

theorem lastPoints_pointsFor (records : List Assessment) (assignment : AssignmentId) :
    LastPoints records assignment (pointsFor records assignment) := by
  rw [pointsFor, show Double.zero false = 0 from rfl]
  cases found : records.reverse.find? (·.assignment = assignment) with
  | none =>
    refine .absent fun record mem own => ?_
    exact List.find?_eq_none.mp found record (List.mem_reverse.mpr mem) (decide_eq_true own)
  | some record =>
    obtain ⟨own, earlier, later, split, others⟩ := find?_reverse_eq_some_iff.mp found
    refine .given earlier later record split (of_decide_eq_true own) fun other mem => ?_
    simpa using others other mem

/-- Later assessments of an assignment take the place of earlier ones. -/
theorem pointsFor_append (earlier later : List Assessment) :
    pointsFor (earlier ++ later) assignment =
      if ∃ record ∈ later, record.assignment = assignment then pointsFor later assignment
      else pointsFor earlier assignment := by
  rw [pointsFor, List.reverse_append, List.find?_append]
  cases found : later.reverse.find? (·.assignment = assignment) with
  | none =>
    have absent : ¬ ∃ record ∈ later, record.assignment = assignment := by
      rintro ⟨record, mem, own⟩
      have other := List.find?_eq_none.mp found record (List.mem_reverse.mpr mem)
      exact other (decide_eq_true own)
    rw [if_neg absent, Option.none_or, pointsFor]
  | some record =>
    have own : record.assignment = assignment := by simpa using List.find?_some found
    have mem : record ∈ later := List.mem_reverse.mp (List.mem_of_find?_eq_some found)
    rw [if_pos ⟨record, mem, own⟩, Option.some_or, pointsFor, found]

theorem pointsFor_append_congr {earlier others : List Assessment} (later : List Assessment)
    (same : pointsFor earlier assignment = pointsFor others assignment) :
    pointsFor (earlier ++ later) assignment = pointsFor (others ++ later) assignment := by
  rw [pointsFor_append, pointsFor_append, same]

/-! ### Edits that change no points -/

/-- An edit of a list of assessments that is not seen from the assignments that count. -/
inductive Edit (counting : List Assignment) : List Assessment → List Assessment → Prop
  /-- An assessment of something else is added. -/
  | unknown (earlier later : List Assessment) (record : Assessment)
      (other : ∀ assignment ∈ counting, assignment.id ≠ record.assignment) :
      Edit counting (earlier ++ later) (earlier ++ record :: later)
  /-- An assessment is added that a later one takes the place of. -/
  | superseded (earlier later : List Assessment) (record : Assessment)
      (again : ∃ next ∈ later, next.assignment = record.assignment) :
      Edit counting (earlier ++ later) (earlier ++ record :: later)
  /-- Two neighbouring assessments of different assignments are exchanged. -/
  | exchanged (earlier later : List Assessment) (first second : Assessment)
      (different : first.assignment ≠ second.assignment) :
      Edit counting (earlier ++ first :: second :: later) (earlier ++ second :: first :: later)

theorem pointsFor_insert_of_ne (earlier later : List Assessment) {record : Assessment}
    (other : record.assignment ≠ assignment) :
    pointsFor (earlier ++ record :: later) assignment = pointsFor (earlier ++ later) assignment := by
  rw [List.append_cons]
  refine pointsFor_append_congr later ?_
  rw [pointsFor_concat, if_neg other]

theorem pointsFor_eq_of_edit {counting : List Assignment} {records others : List Assessment}
    (edit : Edit counting records others) {assignment : Assignment}
    (counts : assignment ∈ counting) :
    pointsFor records assignment.id = pointsFor others assignment.id := by
  cases edit with
  | unknown earlier later record other =>
    exact (pointsFor_insert_of_ne earlier later (other assignment counts).symm).symm
  | superseded earlier later record again =>
    -- for its own assignment both lists are read behind the added assessment
    by_cases own : record.assignment = assignment.id
    · obtain ⟨next, mem, same⟩ := again
      rw [pointsFor_append, pointsFor_append, if_pos ⟨next, mem, same.trans own⟩,
        if_pos ⟨record, List.mem_cons_self, own⟩, ← List.singleton_append, pointsFor_append,
        if_pos ⟨next, mem, same.trans own⟩]
    · exact (pointsFor_insert_of_ne earlier later own).symm
  | exchanged earlier later first second different =>
    by_cases own : first.assignment = assignment.id
    · -- the second one is of another assignment, and can be left out of both lists
      have other : second.assignment ≠ assignment.id := own ▸ different.symm
      rw [pointsFor_insert_of_ne earlier (first :: later) other, List.append_cons earlier first,
        pointsFor_insert_of_ne (earlier ++ [first]) later other, ← List.append_cons]
    · rw [pointsFor_insert_of_ne earlier (second :: later) own,
        List.append_cons earlier second (first :: later),
        pointsFor_insert_of_ne (earlier ++ [second]) later own, ← List.append_cons]

/-- Edits, done and undone in any number, change no points of an assignment that counts. -/
theorem pointsFor_eq_of_edits {counting : List Assignment} {records others : List Assessment}
    (edits : Relation.EqvGen (Edit counting) records others) {assignment : Assignment}
    (counts : assignment ∈ counting) :
    pointsFor records assignment.id = pointsFor others assignment.id := by
  induction edits with
  | rel _ _ edit => exact pointsFor_eq_of_edit edit counts
  | refl => rfl
  | symm _ _ _ ih => exact ih.symm
  | trans _ _ _ _ _ ih ih' => exact ih.trans ih'

end Assessment

namespace Assignment

/-- An assignment that is not evaluated is added. -/
inductive Edit : List Assignment → List Assignment → Prop
  | unevaluated (before after : List Assignment) (assignment : Assignment)
      (pending : assignment.state ≠ .evaluated) :
      Edit (before ++ after) (before ++ assignment :: after)

/-- Edits, done and undone in any number, leave the assignments that count. -/
theorem evaluated_eq_of_edits {assignments others : List Assignment}
    (edits : Relation.EqvGen Edit assignments others) :
    evaluated assignments = evaluated others := by
  induction edits with
  | rel _ _ edit =>
    obtain ⟨before, after, assignment, pending⟩ := edit
    rw [evaluated, evaluated, List.filter_append, List.filter_append,
      List.filter_cons_of_neg (by simpa [isEvaluated] using pending)]
  | refl => rfl
  | symm _ _ _ ih => exact ih.symm
  | trans _ _ _ _ _ ih ih' => exact ih.trans ih'

end Assignment

end ExamAdmission
