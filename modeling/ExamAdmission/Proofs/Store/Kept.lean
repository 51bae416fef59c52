/-
What a store keeps.

Courses are put into a store one after the other, and each takes the place of one with its
identifier, so that of every identifier the last course is kept.  The courses lie there in no order
that matters: they have different identifiers, and these are listed in ascending order:

* `Store.course?_ofCourses` — the course that is kept is the last one with the identifier;
* `Store.nodup_ofCourses`, `Store.mem_ofCourses_iff` — no two courses that are kept have the same
  identifier, and no other ones are kept;
* `Store.mem_ids_ofCourses`, `Store.ids_ascending_bytes` — the identifiers are those of the courses,
  in the order of their bytes;
* `Store.ids_of_perm`, `Store.source_of_perm` — the order in which courses are kept makes no
  difference;
* `Store.keeps_last_courses` — what a store of courses answers, in terms of the list it comes from.
-/
import ExamAdmission.Store
import ExamAdmission.Proofs.Course.Assessments
import ExamAdmission.Proofs.Text.Order
import Mathlib.Data.List.Sort
import Mathlib.Data.String.Basic

namespace ExamAdmission

/-! ### Questions and their answers -/

/-- What looking up a participant of a course gives: the first one with the identifier, or the error
that there is none. -/
inductive Course.Finds (course : Course) (id : ParticipantId) :
    Except SourceError Participant → Prop
  | first (before after : List Participant) (participant : Participant)
      (split : course.participants = before ++ participant :: after) (own : participant.id = id)
      (first : ∀ other ∈ before, other.id ≠ id) : Finds course id (.ok participant)
  | absent (none : ∀ participant ∈ course.participants, participant.id ≠ id) :
      Finds course id (.error (.participantNotFound course.id id))

/-- A source answers every query about an identifier from the last course with it in a list, or
answers none because there is no such course. -/
inductive Source.AnswersFromLast (source : Source Id) (courses : List Course) (id : CourseId) : Prop
  | last (before after : List Course) (course : Course)
      (split : courses = before ++ course :: after) (own : course.id = id)
      (last : ∀ other ∈ after, other.id ≠ id)
      (assignments : source.assignments id =
        .ok (course.assignments.filter fun assignment => assignment.state = .evaluated))
      (criteria : source.criteria id = .ok course.criteria)
      (participants : source.participants id = .ok course.participants)
      (participant : ∀ participant, course.Finds participant (source.participant id participant))
  | unknown (none : ∀ course ∈ courses, course.id ≠ id)
      (assignments : source.assignments id = .error (.courseNotFound id))
      (criteria : source.criteria id = .error (.courseNotFound id))
      (participants : source.participants id = .error (.courseNotFound id))
      (participant : ∀ participant,
        source.participant id participant = .error (.courseNotFound id))

namespace Store

variable {store : Store} {courses : List Course} {id : CourseId}

theorem finds_askParticipant (course : Course) (id : ParticipantId) :
    course.Finds id (askParticipant id course) := by
  unfold askParticipant
  cases found : course.participant? id with
  | some participant =>
    obtain ⟨own, before, after, split, others⟩ := List.find?_eq_some_iff_append.mp found
    refine .first before after participant split (of_decide_eq_true own) fun other mem => ?_
    simpa using others other mem
  | none =>
    refine .absent fun participant mem own => ?_
    exact List.find?_eq_none.mp found participant mem (decide_eq_true own)

/-! ### Courses -/

/-- Courses that are put into a store go before those in it, the last one first. -/
theorem course?_foldl_insert (courses : List Course) (store : Store) (id : CourseId) :
    (courses.foldl insert store).course? id =
      (courses.reverse.find? (·.id = id)).or (store.course? id) := by
  induction courses generalizing store with
  | nil => rfl
  | cons course courses ih =>
    rw [List.foldl_cons, ih, course?_insert, List.reverse_cons, List.find?_append, Option.or_assoc]
    by_cases own : course.id = id
    · simp [own]
    · simp [own]

/-- The course that is kept is the last one with the identifier. -/
theorem course?_ofCourses (courses : List Course) (id : CourseId) :
    (ofCourses courses).course? id = courses.reverse.find? (·.id = id) := by
  rw [ofCourses, course?_foldl_insert, course?_empty, Option.or_none]

theorem nodup_insert (distinct : (store.courses.map (·.id)).Nodup) (course : Course) :
    ((store.insert course).courses.map (·.id)).Nodup := by
  rw [insert, List.map_cons, List.nodup_cons]
  constructor
  · intro mem
    obtain ⟨other, kept, same⟩ := List.mem_map.mp mem
    exact of_decide_eq_true (List.mem_filter.mp kept).2 same
  · exact distinct.sublist (List.filter_sublist.map _)

/-- No two courses that are kept have the same identifier. -/
theorem nodup_ofCourses (courses : List Course) :
    ((ofCourses courses).courses.map (·.id)).Nodup := by
  -- by induction for every store that the courses may be put into
  have kept : ∀ store : Store, (store.courses.map (·.id)).Nodup →
      ((courses.foldl insert store).courses.map (·.id)).Nodup := by
    induction courses with
    | nil => exact fun _ distinct => distinct
    | cons course courses ih => exact fun _ distinct => ih _ (nodup_insert distinct course)
  exact kept empty List.nodup_nil

theorem course?_eq_some_iff (distinct : (store.courses.map (·.id)).Nodup) {course : Course} :
    store.course? id = some course ↔ course ∈ store.courses ∧ course.id = id := by
  constructor
  · intro found
    exact ⟨List.mem_of_find?_eq_some found, by simpa using List.find?_some found⟩
  · rintro ⟨mem, rfl⟩
    cases found : store.course? course.id with
    | none => exact absurd (decide_eq_true rfl) (List.find?_eq_none.mp found course mem)
    | some other =>
      have same : other.id = course.id := by simpa using List.find?_some found
      exact congrArg some
        (List.inj_on_of_nodup_map distinct (List.mem_of_find?_eq_some found) mem same)

/-- The courses that are kept are those after which no other one with their identifier comes. -/
theorem mem_ofCourses_iff {course : Course} :
    course ∈ (ofCourses courses).courses ↔
      ∃ before after, courses = before ++ course :: after ∧
        ∀ other ∈ after, other.id ≠ course.id := by
  have found : (ofCourses courses).course? course.id = some course ↔
      course ∈ (ofCourses courses).courses ∧ course.id = course.id :=
    course?_eq_some_iff (nodup_ofCourses courses)
  rw [and_iff_left rfl] at found
  rw [← found, course?_ofCourses, find?_reverse_eq_some_iff, and_iff_right (decide_eq_true rfl)]
  simp only [decide_eq_true_eq, ne_eq]

/-- Every query is answered from the last course with the identifier. -/
theorem answersFromLast (courses : List Course) (id : CourseId) :
    (ofCourses courses).source.AnswersFromLast courses id := by
  have kept := course?_ofCourses courses id
  cases found : courses.reverse.find? (·.id = id) with
  | some course =>
    obtain ⟨own, before, after, split, others⟩ := find?_reverse_eq_some_iff.mp found
    have asked : ∀ {α : Type} (query : Course → Except SourceError α),
        (ofCourses courses).ask id query = query course := fun query => by
      rw [ask, kept, found]
    refine .last before after course split (of_decide_eq_true own) (fun other mem => ?_)
      (asked _) (asked _) (asked _) fun participant => ?_
    · simpa using others other mem
    · show course.Finds participant ((ofCourses courses).ask id (askParticipant participant))
      rw [asked]
      exact finds_askParticipant course participant
  | none =>
    have asked : ∀ {α : Type} (query : Course → Except SourceError α),
        (ofCourses courses).ask id query = .error (.courseNotFound id) := fun query => by
      rw [ask, kept, found]
    refine .unknown (fun course mem own => ?_) (asked _) (asked _) (asked _) fun _ => asked _
    exact List.find?_eq_none.mp found course (List.mem_reverse.mpr mem) (decide_eq_true own)

/-! ### Identifiers -/

theorem mem_ids : id ∈ store.ids ↔ ∃ course ∈ store.courses, course.id = id := by
  rw [ids, ← List.mem_map]
  exact IdSet.mem_ofList

/-- The identifiers are those of the courses that were put in. -/
theorem mem_ids_ofCourses : id ∈ (ofCourses courses).ids ↔ ∃ course ∈ courses, course.id = id := by
  have kept : (∃ course ∈ (ofCourses courses).courses, course.id = id) ↔
      ((ofCourses courses).course? id).isSome := by
    rw [course?, List.find?_isSome]
    simp
  rw [mem_ids, kept, course?_ofCourses, List.find?_isSome]
  simp

theorem ids_ascending (store : Store) : store.ids.Pairwise (· < ·) := (IdSet.ofList _).ascending

/-- The identifiers are listed in the order of their bytes. -/
theorem ids_ascending_bytes (store : Store) :
    store.ids.Pairwise fun a b => a.toUTF8.toList < b.toUTF8.toList :=
  store.ids_ascending.imp lt_iff_bytes_lt.mp

/-- Stores with the same identifiers list them in the same way. -/
theorem ids_congr {other : Store} (same : ∀ id, id ∈ store.ids ↔ id ∈ other.ids) :
    store.ids = other.ids :=
  store.ids_ascending.eq_of_mem_iff other.ids_ascending same

/-! ### The order in which courses are kept -/

section Perm

variable {kept : List Course} (perm : kept.Perm store.courses)
include perm

theorem ids_of_perm : (Store.mk kept).ids = store.ids := by
  refine ids_congr fun id => ?_
  rw [mem_ids, mem_ids]
  exact exists_congr fun course => and_congr_left fun _ => perm.mem_iff

theorem source_of_perm (distinct : (store.courses.map (·.id)).Nodup) :
    (Store.mk kept).source = store.source := by
  have distinct' : (kept.map (·.id)).Nodup := (perm.map _).nodup_iff.mpr distinct
  have same : ∀ id, (Store.mk kept).course? id = store.course? id := by
    intro id
    ext course
    rw [course?_eq_some_iff distinct', course?_eq_some_iff distinct]
    exact and_congr_left fun _ => perm.mem_iff
  -- a source only ever looks courses up
  simp only [source, ask, same]

end Perm

/-- **A store keeps the last course of every identifier** and nothing else.  Whatever list of courses
it is made of, it answers every query about an identifier from the last course with it: the
evaluated assignments, the criteria and the participants in their order, and of one participant the
first with the identifier.  Where no course has the identifier, every query says so.  The
identifiers are those of the courses, each once, in ascending order of their bytes.  Neither they
nor the answers depend on the order in which the courses are kept, and the identifiers depend
neither on the order of the courses nor on how often one is given. -/
theorem keeps_last_courses (courses : List Course) :
    (∀ course, course ∈ (ofCourses courses).courses ↔
      ∃ before after, courses = before ++ course :: after ∧
        ∀ other ∈ after, other.id ≠ course.id) ∧
    (∀ id, (ofCourses courses).source.AnswersFromLast courses id) ∧
    (ofCourses courses).ids.Pairwise (fun a b => a.toUTF8.toList < b.toUTF8.toList) ∧
    (∀ id, id ∈ (ofCourses courses).ids ↔ ∃ course ∈ courses, course.id = id) ∧
    (∀ kept : List Course, kept.Perm (ofCourses courses).courses →
      (Store.mk kept).ids = (ofCourses courses).ids ∧
        (Store.mk kept).source = (ofCourses courses).source) ∧
    (∀ others : List Course,
      (∀ id, (∃ course ∈ others, course.id = id) ↔ ∃ course ∈ courses, course.id = id) →
      (ofCourses others).ids = (ofCourses courses).ids) := by
  refine ⟨fun course => mem_ofCourses_iff, answersFromLast courses, ids_ascending_bytes _,
    fun id => mem_ids_ofCourses, ?_, ?_⟩
  · intro kept perm
    exact ⟨ids_of_perm perm, source_of_perm perm (nodup_ofCourses courses)⟩
  · intro others same
    refine ids_congr fun id => ?_
    rw [mem_ids_ofCourses, mem_ids_ofCourses, same]

end Store

end ExamAdmission
