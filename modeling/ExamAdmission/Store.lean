/-
Courses in memory.

A store keeps one course for each identifier; a course put into it replaces the one that was there.
It answers queries from the courses it keeps, and of the assignments gives only those that count.

* `Store.course?`: the course with an identifier; `Store.course?_insert` and `Store.course?_erase`
  say how putting a course in and taking one out changes it.
* `Store.source`: the store as a source.
-/
import ExamAdmission.Source

namespace ExamAdmission

/-- Courses, of which no two have the same identifier. -/
structure Store where
  courses : List Course

namespace Store

/-- A store with no course. -/
def empty : Store := ⟨[]⟩

/-- The course with an identifier. -/
def course? (store : Store) (id : CourseId) : Option Course :=
  store.courses.find? (·.id = id)

/-- Takes the course with an identifier out. -/
def erase (store : Store) (id : CourseId) : Store :=
  ⟨store.courses.filter (·.id ≠ id)⟩

/-- Puts a course in, in the place of the one with its identifier. -/
def insert (store : Store) (course : Course) : Store :=
  ⟨course :: (store.erase course.id).courses⟩

/-- Puts courses in, one after the other. -/
def ofCourses (courses : List Course) : Store := courses.foldl insert empty

@[simp] theorem course?_empty (id : CourseId) : empty.course? id = none := rfl

theorem course?_erase (store : Store) (id other : CourseId) :
    (store.erase id).course? other = if other = id then none else store.course? other := by
  unfold erase course?
  rw [List.find?_filter]
  split
  · next same =>
    subst same
    refine List.find?_eq_none.mpr fun course _ => ?_
    simp
  · next differs =>
    congr 1
    funext course
    by_cases h : course.id = other
    · simp [h, differs]
    · simp [h]

theorem course?_insert (store : Store) (course : Course) (id : CourseId) :
    (store.insert course).course? id =
      if course.id = id then some course else store.course? id := by
  have rest : (store.insert course).course? id =
      if course.id = id then some course else (store.erase course.id).course? id := by
    unfold insert course?
    rw [List.find?_cons]
    by_cases h : course.id = id <;> simp [h]
  rw [rest, course?_erase]
  by_cases h : course.id = id
  · rw [if_pos h, if_pos h]
  · rw [if_neg h, if_neg h, if_neg (Ne.symm h)]

/-- The identifiers of the courses in ascending order. -/
def ids (store : Store) : List CourseId := (IdSet.ofList (store.courses.map (·.id))).toList

/-- The answer of a query about the course with an identifier. -/
def ask {α : Type} (store : Store) (id : CourseId) (query : Course → Except SourceError α) :
    Except SourceError α :=
  match store.course? id with
  | some course => query course
  | none => .error (.courseNotFound id)

/-- The participant of a course, or the error that there is none. -/
def askParticipant (id : ParticipantId) (course : Course) : Except SourceError Participant :=
  match course.participant? id with
  | some participant => .ok participant
  | none => .error (.participantNotFound course.id id)

/-- The store as a source. -/
def source (store : Store) : Source Id where
  assignments id := store.ask id fun course => .ok (Assignment.evaluated course.assignments)
  criteria id := store.ask id fun course => .ok course.criteria
  participants id := store.ask id fun course => .ok course.participants
  participant id participant := store.ask id (askParticipant participant)

end Store

end ExamAdmission
