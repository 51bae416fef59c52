/-
The course of a report that names none.

A file lists its courses in some order, but a store keeps them in none, and lists their identifiers
in ascending order.  A report that names no course is about the first of these, so it is about the
first course of the file only if no other course has a smaller identifier:

* `Course.IsLeastId` — an identifier of a course that comes before those of all other courses;
* `Program.isLeastId_defaultCourse` — a report is about the course with the least identifier;
* `Program.loadStore_eq` — reading a file gives its courses and does nothing else;
* `Program.report_without_course` — a report that names no course is the one on that course;
* `Program.first_course_passed_over` — which need not be the first course of the file.
-/
import ExamAdmission.Proofs.Program.Report
import ExamAdmission.Proofs.Store.Kept
import ExamAdmission.Proofs.Wire.Course

namespace ExamAdmission

/-! ### The least identifier -/

/-- Among the identifiers of courses, this one comes first in the order of bytes. -/
structure Course.IsLeastId (courses : List Course) (id : CourseId) : Prop where
  listed : ∃ course ∈ courses, course.id = id
  least : ∀ course ∈ courses, course.id ≠ id → id.toUTF8.toList < course.id.toUTF8.toList

section IsLeastId

variable {courses others : List Course} {id other : CourseId}

theorem Course.IsLeastId.eq (first : IsLeastId courses id) (second : IsLeastId courses other) :
    id = other := by
  obtain ⟨course, mem, rfl⟩ := first.listed
  obtain ⟨course', mem', rfl⟩ := second.listed
  by_contra differ
  exact List.lt_asymm (first.least course' mem' (Ne.symm differ)) (second.least course mem differ)

theorem Course.IsLeastId.of_perm (least : IsLeastId courses id) (perm : others.Perm courses) :
    IsLeastId others id where
  listed := by
    obtain ⟨course, mem, own⟩ := least.listed
    exact ⟨course, perm.mem_iff.mpr mem, own⟩
  least course mem := least.least course (perm.mem_iff.mp mem)

theorem Course.isLeastId_head_iff {first : Course} {rest : List Course} :
    IsLeastId (first :: rest) first.id ↔ ∀ course ∈ rest, course.id ≠ first.id →
      first.id.toUTF8.toList < course.id.toUTF8.toList := by
  constructor
  · intro least course mem
    exact least.least course (List.mem_cons_of_mem _ mem)
  · intro least
    refine ⟨⟨first, List.mem_cons_self, rfl⟩, fun course mem differs => ?_⟩
    rcases List.mem_cons.mp mem with rfl | mem
    · exact absurd rfl differs
    · exact least course mem differs

end IsLeastId

namespace Program

/-- A report that names no course is about the one with the least identifier. -/
theorem isLeastId_defaultCourse {courses : List Course} (nonempty : courses ≠ []) :
    Course.IsLeastId courses (defaultCourse (Store.ofCourses courses)) := by
  have ascending := (Store.ofCourses courses).ids_ascending_bytes
  cases ids : (Store.ofCourses courses).ids with
  | nil =>
    obtain ⟨course, mem⟩ := List.exists_mem_of_ne_nil courses nonempty
    have listed := Store.mem_ids_ofCourses.mpr ⟨course, mem, rfl⟩
    rw [ids] at listed
    exact absurd listed List.not_mem_nil
  | cons id others =>
    have chosen : defaultCourse (Store.ofCourses courses) = id := by
      rw [defaultCourse, ids, List.head?_cons, Option.getD_some]
    rw [chosen]
    refine ⟨Store.mem_ids_ofCourses.mp (ids ▸ List.mem_cons_self), fun course mem differs => ?_⟩
    have listed := Store.mem_ids_ofCourses.mpr ⟨course, mem, rfl⟩
    rw [ids] at listed ascending
    exact (List.pairwise_cons.mp ascending).1 _ ((List.mem_cons.mp listed).resolve_left differs)

/-! ### Reports -/

section Report

variable {m : Type → Type} [Monad m] [LawfulMonad m] {surroundings : Surroundings m}
  {path text : String} {courses : List Course}

/-- Reading a file of courses gives these courses and does nothing else. -/
theorem loadStore_eq (readable : surroundings.contents path = pure (.ok text))
    (decoded : Snapshot.layout.decoder.decode text.toUTF8.toList = .ok ⟨courses⟩) :
    loadStore surroundings (some path) = pure (Store.ofCourses courses) := by
  refine ExceptT.ext (StateT.ext fun before => ?_)
  exact ends_loadStore readable decoded before

/-- **A report that names no course is about the one with the least identifier.**  Whatever else is
asked for, it is the report on the course that comes first in the order of the bytes of the
identifiers.  This is the first course of the file exactly if every course with another identifier
comes after it, and the order of the courses in the file makes no difference. -/
theorem report_without_course {first : Course} {rest : List Course}
    (readable : surroundings.contents path = pure (.ok text))
    (decoded : Snapshot.layout.decoder.decode text.toUTF8.toList = .ok ⟨first :: rest⟩) :
    ∃ id, defaultCourse (Store.ofCourses (first :: rest)) = id ∧
      Course.IsLeastId (first :: rest) id ∧
      (∀ participant json,
        ofCommand surroundings (.report ⟨some path, none, participant, json⟩) =
          ofCommand surroundings (.report ⟨some path, some id, participant, json⟩)) ∧
      (id = first.id ↔ ∀ course ∈ rest, course.id ≠ first.id →
        first.id.toUTF8.toList < course.id.toUTF8.toList) ∧
      ∀ others : List Course, others.Perm (first :: rest) →
        defaultCourse (Store.ofCourses others) = id := by
  have least := isLeastId_defaultCourse (List.cons_ne_nil first rest)
  refine ⟨_, rfl, least, fun participant json => ?_, ?_, fun others perm => ?_⟩
  · show report surroundings _ = report surroundings _
    rw [report, report, loadStore_eq readable decoded, pure_bind, pure_bind]
    rfl
  · rw [← Course.isLeastId_head_iff]
    exact ⟨fun same => same ▸ least, fun leastFirst => least.eq leastFirst⟩
  · have nonempty : others ≠ [] := fun none => by simp [none] at perm
    exact (isLeastId_defaultCourse nonempty).eq (least.of_perm perm)

end Report

/-- Two courses, of which the second one has the smaller identifier. -/
def twoCourses : List Course :=
  [⟨"b", [], [.plain .overallPercent .homework 50], []⟩,
   ⟨"a", [], [.plain .overallPercent .homework 50], []⟩]

theorem decode_twoCourses :
    Snapshot.layout.decoder.decode
      (String.ofList (Snapshot.toJson ⟨twoCourses⟩).compact).toUTF8.toList = .ok ⟨twoCourses⟩ :=
  Snapshot.decodeWith_toJson (by decide +kernel)

/-- Of two courses the second one is reported on. -/
theorem demo_report_without_course :
    ofCommand (m := Id)
        ⟨[], none, fun _ => .ok (String.ofList (Snapshot.toJson ⟨twoCourses⟩).compact)⟩
        (.report ⟨some "courses.json", none, none, false⟩) =
      ofCommand
        ⟨[], none, fun _ => .ok (String.ofList (Snapshot.toJson ⟨twoCourses⟩).compact)⟩
        (.report ⟨some "courses.json", some "a", none, false⟩) := by
  obtain ⟨id, rfl, -, same, -⟩ := @report_without_course Id _ _
    ⟨[], none, fun _ => .ok (String.ofList (Snapshot.toJson ⟨twoCourses⟩).compact)⟩
    "courses.json" _ _ _ rfl decode_twoCourses
  exact same none false

/-- The first course of a file need not be the one that is reported on. -/
theorem first_course_passed_over :
    ¬ ∀ (text : String) (first : Course) (rest : List Course),
      Snapshot.layout.decoder.decode text.toUTF8.toList = .ok ⟨first :: rest⟩ →
      ((first :: rest).map (·.id)).Nodup →
      defaultCourse (Store.ofCourses (first :: rest)) = first.id := by
  intro all
  have chosen := all _ _ _ decode_twoCourses (by decide)
  revert chosen
  decide

end Program

end ExamAdmission
