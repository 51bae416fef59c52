/-
Sets of identifiers.

A set is kept as the strictly ascending list of its members, so two sets with the same members are
equal, and writing a set out needs no sorting.

* `IdSet.ofList`: the set of the members of a list, in any order and with repetitions.
* `IdSet.mem_insert`, `IdSet.mem_ofList`: the members that a set gets.
-/

namespace ExamAdmission

/-- A finite set of strings. -/
structure IdSet where
  /-- The members in ascending order. -/
  toList : List String
  ascending : toList.Pairwise (· < ·)
  deriving DecidableEq

namespace IdSet

/-- The set with no members. -/
def empty : IdSet := ⟨[], .nil⟩

instance : Inhabited IdSet := ⟨empty⟩

instance : Membership String IdSet := ⟨fun set id => id ∈ set.toList⟩

instance (id : String) (set : IdSet) : Decidable (id ∈ set) :=
  inferInstanceAs (Decidable (id ∈ set.toList))

/-- Puts an identifier at its place in an ascending list. -/
def insertAscending (id : String) : List String → List String
  | [] => [id]
  | other :: others =>
    if id < other then id :: other :: others
    else if id = other then other :: others
    else other :: insertAscending id others

theorem mem_insertAscending {id x : String} {ids : List String} :
    x ∈ insertAscending id ids ↔ x = id ∨ x ∈ ids := by
  induction ids with
  | nil => simp [insertAscending]
  | cons other others ih =>
    unfold insertAscending
    split
    · simp
    · split
      · next h => subst h; simp
      · simp only [List.mem_cons, ih]
        constructor
        · rintro (h | h | h) <;> simp [h]
        · rintro (h | h | h) <;> simp [h]

theorem pairwise_insertAscending {id : String} {ids : List String} (h : ids.Pairwise (· < ·)) :
    (insertAscending id ids).Pairwise (· < ·) := by
  induction ids with
  | nil => simp [insertAscending]
  | cons other others ih =>
    have ⟨below, rest⟩ := List.pairwise_cons.mp h
    unfold insertAscending
    split
    · next lt =>
      refine List.pairwise_cons.mpr ⟨fun x hx => ?_, h⟩
      rcases List.mem_cons.mp hx with rfl | hx
      · exact lt
      · exact String.lt_trans lt (below x hx)
    · split
      · exact h
      · next notLt ne =>
        refine List.pairwise_cons.mpr ⟨fun x hx => ?_, ih rest⟩
        rcases mem_insertAscending.mp hx with rfl | hx
        · exact Decidable.byContradiction fun contra =>
            ne (String.le_antisymm contra notLt)
        · exact below x hx

/-- Adds a member. -/
def insert (id : String) (set : IdSet) : IdSet :=
  ⟨insertAscending id set.toList, pairwise_insertAscending set.ascending⟩

/-- The set of the members of a list. -/
def ofList (ids : List String) : IdSet := ids.foldl (fun set id => set.insert id) empty

@[simp] theorem mem_insert {id x : String} {set : IdSet} :
    x ∈ set.insert id ↔ x = id ∨ x ∈ set :=
  mem_insertAscending

theorem mem_foldl_insert {x : String} (ids : List String) (set : IdSet) :
    x ∈ ids.foldl (fun set id => set.insert id) set ↔ x ∈ ids ∨ x ∈ set := by
  induction ids generalizing set with
  | nil => simp
  | cons id ids ih =>
    rw [List.foldl_cons, ih, mem_insert, List.mem_cons]
    constructor
    · rintro (h | h | h) <;> simp [h]
    · rintro ((h | h) | h) <;> simp [h]

@[simp] theorem mem_ofList {x : String} {ids : List String} : x ∈ ofList ids ↔ x ∈ ids := by
  rw [ofList, mem_foldl_insert]
  constructor
  · rintro (h | h)
    · exact h
    · exact absurd h (List.not_mem_nil)
  · exact Or.inl

end IdSet

end ExamAdmission
