/-
Environment variables.

The environment holds each variable as one text: its name, an equals sign and its value.  A name is
looked for at the start of these texts, so a name that holds an equals sign itself reaches into the
value of a variable with a shorter name.  What is not Unicode counts as not set, and is left out.

* `Variables.value?`: the value of a name.
* `Variables.value?_eq_lookup`: it is the value of the variable with this name, unless an equals
  sign stands in a name.
-/

namespace ExamAdmission

/-- Variables with their values; the first entry of a name counts. -/
abbrev Variables := List (String × String)

namespace Variables

/-- What follows `start` in a text that starts with it. -/
def after? : List Char → List Char → Option (List Char)
  | [], text => some text
  | _ :: _, [] => none
  | c :: start, d :: text => if c = d then after? start text else none

/-- The value of a name. -/
def value? (environment : Variables) (name : String) : Option String :=
  environment.findSome? fun (key, value) =>
    (after? (name.toList ++ ['=']) (key.toList ++ '=' :: value.toList)).map String.ofList

theorem after?_entry {name key : List Char} (value : List Char) (hn : '=' ∉ name)
    (hk : '=' ∉ key) :
    after? (name ++ ['=']) (key ++ '=' :: value) = if name = key then some value else none := by
  induction name generalizing key with
  | nil =>
    cases key with
    | nil => simp [after?]
    | cons d key => simp_all [after?]
  | cons c name ih =>
    rw [List.mem_cons, not_or] at hn
    cases key with
    | nil => simp [after?, Ne.symm hn.1]
    | cons d key =>
      rw [List.mem_cons, not_or] at hk
      by_cases h : c = d
      · simp [after?, h, ih hn.2 hk.2]
      · simp [after?, h]

/-- A name is that of one variable, where no name holds an equals sign. -/
theorem value?_eq_lookup {environment : Variables} {name : String} (hn : '=' ∉ name.toList)
    (hk : ∀ entry ∈ environment, '=' ∉ entry.1.toList) :
    environment.value? name = environment.lookup name := by
  induction environment with
  | nil => rfl
  | cons entry rest ih =>
    obtain ⟨key, value⟩ := entry
    have here := after?_entry value.toList hn (hk (key, value) List.mem_cons_self)
    have there : value? rest name = rest.lookup name :=
      ih fun entry h => hk entry (List.mem_cons_of_mem _ h)
    unfold value? at there ⊢
    by_cases h : name = key
    · subst h
      simp [here]
    · have differs : name.toList ≠ key.toList := fun e => h (String.toList_inj.1 e)
      have other : (name == key) = false := beq_eq_false_iff_ne.mpr h
      simp [here, differs, other, there, List.lookup_cons]

end Variables

end ExamAdmission
