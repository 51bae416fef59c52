/-
A small course to try the service with.
-/
import ExamAdmission.Course.Basic

namespace ExamAdmission.Demo

/-- The identifier of the course. -/
def courseId : CourseId := "demo-course"

/-- An evaluated assignment. -/
def evaluated (id : AssignmentId) (category : Category) (maxPoints : Double) : Assignment :=
  ⟨id, category, maxPoints, .evaluated⟩

/-- The points of a participant. -/
def participant (id : ParticipantId) (points : List (AssignmentId × Option Double)) : Participant :=
  ⟨id, points.map fun (assignment, points) => ⟨assignment, points⟩⟩

/-- So many tenths. -/
def tenths (n : Nat) : Double := (Decimal.mk n (-1)).toDouble false

/-- Half of the homework points together, sixty percent of the sheets with forty percent each, half
of the points of every talk, and for information half of the points of every sheet. -/
def criteria : List Criterion :=
  [{ Criterion.plain .overallPercent .homework 50 with pointsRounding := ⟨.decimals, some 0⟩ },
   { Criterion.plain .passedAssignments .homework 40 with
     passedAssignmentsPercent := some 60
     passedAssignmentsRounding := ⟨.ceil, none⟩ },
   { Criterion.plain .allowedFailures .presentation 50 with
     allowedFailures := some 0
     ignoredParticipants := .ofList ["exchange-student"] },
   .plain .individualPercent .homework 50]

/-- The course. -/
def course : Course where
  id := courseId
  assignments :=
    [evaluated "sheet-1" .homework 20,
     evaluated "sheet-2" .homework 20,
     evaluated "sheet-3" .homework 20,
     evaluated "talk" .presentation 10,
     { evaluated "sheet-4" .homework 20 with state := .inReview }]
  criteria := criteria
  participants :=
    [participant "ada"
      [("sheet-1", some 18), ("sheet-2", some (tenths 155)), ("sheet-3", some 12),
       ("talk", some 8)],
     participant "brendan"
      [("sheet-1", some 10), ("sheet-2", some (tenths 99)), ("sheet-3", some 10),
       ("talk", some 4)],
     participant "exchange-student"
      [("sheet-1", some 14), ("sheet-2", none), ("sheet-3", some 16)]]

end ExamAdmission.Demo
