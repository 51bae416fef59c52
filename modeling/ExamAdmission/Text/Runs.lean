/-
Classes of characters, given by their runs of code points.

* `inRuns`: membership of a code point in a class.
* `inRuns_of_lt`, `inRuns_of_le`: nothing below the first change is in the class, and from there on
  membership is the other way round than in the class of the changes behind it.
-/

namespace ExamAdmission

/-- The code point `n` is in the class whose runs begin and end at `changes`: the first change
begins a run, the second is the first code point behind it, and so on, in ascending order. -/
def inRuns : List Nat → Nat → Bool
  | [], _ => false
  | change :: changes, n => if n < change then false else !inRuns changes n

theorem inRuns_of_lt {change n : Nat} (changes : List Nat) (h : n < change) :
    inRuns (change :: changes) n = false := by
  rw [inRuns, if_pos h]

theorem inRuns_of_le {change n : Nat} (changes : List Nat) (h : change ≤ n) :
    inRuns (change :: changes) n = !inRuns changes n := by
  rw [inRuns, if_neg (Nat.not_lt.mpr h)]

end ExamAdmission
