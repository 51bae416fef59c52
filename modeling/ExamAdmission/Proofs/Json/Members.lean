/-
The order of members.

A record is read member by member, and a member that is known fills its field once.  Fields that
keep their values in different parts of the draft do not disturb each other, so two members that are
read one after the other may as well be read the other way round:

* `Field.Apart` — two such fields;
* `Layout.IsLawful` — a layout whose fields are apart from each other, and say so when they are set;
* `Layout.Takes` — what one member does to the draft;
* `Layout.Takes.swap` — **two members in a row can change places**;
* `Layout.readMembers_perm` — so can all of them;
* `Layout.decoder_middle_eq_ok_iff` — what a record is decoded to, told by one of its members, which
  is read as if it were the last.
-/
import ExamAdmission.Json.Decoder
import ExamAdmission.Proofs.Rule.Construction
import Mathlib.Data.List.Pairwise
import Mathlib.Data.List.Perm.Basic

namespace ExamAdmission

/-! ### Fields -/

namespace Field

section Apart

variable {σ : Type}

/-- Reading the field leaves the other one as it is, and can be put off until the other one has been
read. -/
structure Leaves (field other : Field σ) : Prop where
  isSet : ∀ {value draft next}, field.read value draft = .ok next →
    other.isSet next = other.isSet draft
  swap : ∀ {value value' draft next last}, field.read value draft = .ok next →
    other.read value' next = .ok last →
    ∃ next', other.read value' draft = .ok next' ∧ field.read value next' = .ok last

/-- Fields of different names, in different parts of the draft. -/
structure Apart (field other : Field σ) : Prop where
  name : field.name ≠ other.name
  leaves : field.Leaves other
  left : other.Leaves field

instance : Std.Symm (@Apart σ) := ⟨fun _ _ h => ⟨h.name.symm, h.left, h.leaves⟩⟩

end Apart

section Reads

variable {σ α β : Type} {field other : Field σ} {name : String} {decoder : Decoder α}
  {decoder' : Decoder β} {get : σ → Option α} {set : σ → α → σ} {get' : σ → Option β}
  {set' : σ → β → σ}

/-- The field reads its value with this decoder, into this part of the draft. -/
structure Reads (field : Field σ) (decoder : Decoder α) (get : σ → Option α) (set : σ → α → σ) :
    Prop where
  isSet : ∀ draft, field.isSet draft = (get draft).isSome
  read : ∀ value draft, field.read value draft = (decoder value).map (set draft)
  kept : ∀ draft value, get (set draft value) = some value

/-- Needed and optional fields are alike in how they are read. -/
theorem reads_mk {required : Bool} (kept : ∀ draft value, get (set draft value) = some value) :
    Reads ⟨name, required, fun draft => (get draft).isSome,
      fun document draft => (decoder document).map (set draft)⟩ decoder get set :=
  ⟨fun _ => rfl, fun _ _ => rfl, kept⟩

theorem Reads.isSet_of_read (reads : field.Reads decoder get set) {value : Document}
    {draft next : σ} (read : field.read value draft = .ok next) : field.isSet next = true := by
  rw [reads.read] at read
  obtain ⟨x, -, rfl⟩ := map_eq_ok_iff.mp read
  rw [reads.isSet, reads.kept]
  rfl

/-- A part of the draft that is set last, or first, is the same. -/
theorem Reads.leaves (reads : field.Reads decoder get set) (reads' : other.Reads decoder' get' set')
    (keeps : ∀ draft value, get' (set draft value) = get' draft)
    (swap : ∀ draft value value', set' (set draft value) value' = set (set' draft value') value) :
    field.Leaves other where
  isSet := by
    intro value draft next read
    rw [reads.read] at read
    obtain ⟨x, -, rfl⟩ := map_eq_ok_iff.mp read
    rw [reads'.isSet, reads'.isSet, keeps]
  swap := by
    intro value value' draft next last read read'
    rw [reads.read] at read
    obtain ⟨x, decoded, rfl⟩ := map_eq_ok_iff.mp read
    rw [reads'.read] at read'
    obtain ⟨y, decoded', rfl⟩ := map_eq_ok_iff.mp read'
    refine ⟨set' draft y, ?_, ?_⟩
    · rw [reads'.read, decoded']
      rfl
    · rw [reads.read, decoded, swap]
      rfl

theorem Reads.apart (reads : field.Reads decoder get set) (reads' : other.Reads decoder' get' set')
    (names : field.name ≠ other.name) (keeps : ∀ draft value, get' (set draft value) = get' draft)
    (keeps' : ∀ draft value, get (set' draft value) = get draft)
    (swap : ∀ draft value value', set' (set draft value) value' = set (set' draft value') value) :
    field.Apart other :=
  ⟨names, reads.leaves reads' keeps swap,
    reads'.leaves reads keeps' fun draft value value' => (swap draft value' value).symm⟩

theorem apart_mk {name' : String} {required required' : Bool} (names : name ≠ name')
    (kept : ∀ draft value, get (set draft value) = some value)
    (kept' : ∀ draft value, get' (set' draft value) = some value)
    (keeps : ∀ draft value, get' (set draft value) = get' draft)
    (keeps' : ∀ draft value, get (set' draft value) = get draft)
    (swap : ∀ draft value value', set' (set draft value) value' = set (set' draft value') value) :
    Apart
      ⟨name, required, fun draft => (get draft).isSome,
        fun document draft => (decoder document).map (set draft)⟩
      ⟨name', required', fun draft => (get' draft).isSome,
        fun document draft => (decoder' document).map (set' draft)⟩ :=
  (reads_mk kept).apart (reads_mk kept') names keeps keeps' swap

end Reads

end Field

/-! ### Members -/

namespace Layout

variable {σ α : Type} {layout : Layout σ α}

/-- The fields are apart from each other, and each one says when it has been read. -/
structure IsLawful (layout : Layout σ α) : Prop where
  isSet : ∀ field ∈ layout.fields, ∀ {value draft next}, field.read value draft = .ok next →
    field.isSet next = true
  apart : layout.fields.Pairwise Field.Apart

/-- What one member does to the draft. -/
inductive Takes (layout : Layout σ α) : Text × Document → σ → σ → Prop
  | unknown {name : String} {value : Document} {draft : σ} (unknown : layout.field? name = none)
      (complete : value.skip = .ok ()) : Takes layout (.ok name, value) draft draft
  | known {name : String} {value : Document} {field : Field σ} {draft next : σ}
      (known : layout.field? name = some field) (absent : field.isSet draft = false)
      (read : field.read value draft = .ok next) : Takes layout (.ok name, value) draft next

theorem readMembers_cons_eq_ok_iff {member : Text × Document} {members : List (Text × Document)}
    {draft filled : σ} :
    layout.readMembers (member :: members) draft = .ok filled ↔
      ∃ next, layout.Takes member draft next ∧ layout.readMembers members next = .ok filled := by
  obtain ⟨key, value⟩ := member
  rw [readMembers]
  constructor
  · intro read
    obtain ⟨name, keyed, read⟩ := bind_eq_ok_iff.mp read
    rw [keyed]
    split at read
    · next unknown =>
      obtain ⟨⟨⟩, complete, read⟩ := bind_eq_ok_iff.mp read
      exact ⟨draft, .unknown unknown complete, read⟩
    · next field known =>
      split at read
      · cases read
      · next absent =>
        obtain ⟨next, given, read⟩ := bind_eq_ok_iff.mp read
        exact ⟨next, .known known (Bool.eq_false_iff.mpr absent) given, read⟩
  · rintro ⟨next, takes, read⟩
    cases takes with
    | unknown unknown complete =>
      dsimp only [bind, Except.bind]
      rw [unknown]
      dsimp only
      rw [complete]
      exact read
    | known known absent given =>
      dsimp only [bind, Except.bind]
      rw [known]
      dsimp only
      rw [absent, if_neg Bool.false_ne_true, given]
      exact read

theorem readMembers_append_eq_ok_iff {members others : List (Text × Document)} {draft filled : σ} :
    layout.readMembers (members ++ others) draft = .ok filled ↔
      ∃ next, layout.readMembers members draft = .ok next ∧
        layout.readMembers others next = .ok filled := by
  induction members generalizing draft with
  | nil => exact ⟨fun read => ⟨draft, rfl, read⟩, fun ⟨_, same, read⟩ => by cases same; exact read⟩
  | cons member members ih =>
    rw [List.cons_append, readMembers_cons_eq_ok_iff]
    constructor
    · rintro ⟨first, takes, read⟩
      obtain ⟨next, before, behind⟩ := ih.mp read
      exact ⟨next, readMembers_cons_eq_ok_iff.mpr ⟨first, takes, before⟩, behind⟩
    · rintro ⟨next, before, behind⟩
      obtain ⟨first, takes, before⟩ := readMembers_cons_eq_ok_iff.mp before
      exact ⟨first, takes, ih.mpr ⟨next, before, behind⟩⟩

section Lawful

variable (lawful : layout.IsLawful)
include lawful

/-- Two fields that are known are the same one, or apart. -/
theorem IsLawful.eq_or_apart {name name' : String} {field other : Field σ}
    (known : layout.field? name = some field) (known' : layout.field? name' = some other) :
    field = other ∨ field.Apart other := by
  by_cases same : field = other
  · exact Or.inl same
  · exact Or.inr (lawful.apart.forall (List.mem_of_find?_eq_some known)
      (List.mem_of_find?_eq_some known') same)

/-- A field is found by its name. -/
theorem IsLawful.field?_name {field : Field σ} (mem : field ∈ layout.fields) :
    layout.field? field.name = some field := by
  cases found : layout.field? field.name with
  | none => exact absurd (decide_eq_true rfl) (List.find?_eq_none.mp found field mem)
  | some other =>
    have name := List.find?_some found
    rw [decide_eq_true_iff] at name
    by_cases same : other = field
    · exact congrArg some same
    · exact absurd name
        (lawful.apart.forall (List.mem_of_find?_eq_some found) mem same).name

/-- **Two members in a row can change places.** -/
theorem Takes.swap {member other : Text × Document} {draft next last : σ}
    (takes : layout.Takes member draft next) (takes' : layout.Takes other next last) :
    ∃ next', layout.Takes other draft next' ∧ layout.Takes member next' last := by
  cases takes with
  | unknown unknown complete => exact ⟨last, takes', .unknown unknown complete⟩
  | known known absent read =>
    cases takes' with
    | unknown unknown complete =>
      exact ⟨draft, .unknown unknown complete, .known known absent read⟩
    | known known' absent' read' =>
      rcases lawful.eq_or_apart known known' with rfl | apart
      · -- the second member would fill the field of the first once more
        have set := lawful.isSet _ (List.mem_of_find?_eq_some known) read
        rw [absent'] at set
        cases set
      · obtain ⟨next', first, second⟩ := apart.leaves.swap read read'
        refine ⟨next', .known known' ?_ first, .known known ?_ second⟩
        · rw [← apart.leaves.isSet read, absent']
        · rw [apart.left.isSet first, absent]

/-- **The order of members does not matter.** -/
theorem readMembers_perm {members members' : List (Text × Document)} (perm : members.Perm members')
    {draft filled : σ} (read : layout.readMembers members draft = .ok filled) :
    layout.readMembers members' draft = .ok filled := by
  induction perm generalizing draft with
  | nil => exact read
  | cons member _ ih =>
    obtain ⟨next, takes, read⟩ := readMembers_cons_eq_ok_iff.mp read
    exact readMembers_cons_eq_ok_iff.mpr ⟨next, takes, ih read⟩
  | swap member other _ =>
    obtain ⟨next, takes, read⟩ := readMembers_cons_eq_ok_iff.mp read
    obtain ⟨last, takes', read⟩ := readMembers_cons_eq_ok_iff.mp read
    obtain ⟨next', first, second⟩ := takes.swap lawful takes'
    exact readMembers_cons_eq_ok_iff.mpr
      ⟨next', first, readMembers_cons_eq_ok_iff.mpr ⟨last, second, read⟩⟩
  | trans _ _ ih ih' => exact ih' (ih read)

/-- A member among others is read as if it were the last. -/
theorem readMembers_middle_eq_ok_iff {before after : List (Text × Document)}
    {member : Text × Document} {draft filled : σ} :
    layout.readMembers (before ++ member :: after) draft = .ok filled ↔
      ∃ rest, layout.readMembers (before ++ after) draft = .ok rest ∧
        layout.Takes member rest filled := by
  have perm : (before ++ member :: after).Perm (before ++ after ++ [member]) :=
    List.perm_middle.trans (List.perm_append_singleton member (before ++ after)).symm
  have last : ∀ rest, layout.readMembers [member] rest = .ok filled ↔
      layout.Takes member rest filled := by
    intro rest
    rw [readMembers_cons_eq_ok_iff]
    constructor
    · rintro ⟨next, takes, same⟩
      cases same
      exact takes
    · exact fun takes => ⟨filled, takes, rfl⟩
  constructor
  · intro read
    have moved := readMembers_perm lawful perm read
    obtain ⟨rest, others, own⟩ := readMembers_append_eq_ok_iff.mp moved
    exact ⟨rest, others, (last rest).mp own⟩
  · rintro ⟨rest, others, takes⟩
    exact readMembers_perm lawful perm.symm
      (readMembers_append_eq_ok_iff.mpr ⟨rest, others, (last rest).mpr takes⟩)

end Lawful

/-! ### Records -/

theorem readObjectEnd_eq_ok_iff {draft : σ} {stop : ObjectEnd} {record : α} :
    layout.readObjectEnd draft stop = .ok record ↔
      stop = .closed ∧ layout.finish draft = .ok record := by
  cases stop with
  | closed => exact ⟨fun read => ⟨rfl, read⟩, fun h => h.2⟩
  | missingColon key fault =>
    refine iff_of_false (fun read => ?_) fun h => nomatch h.1
    obtain ⟨name, -, read⟩ := bind_eq_ok_iff.mp read
    split at read
    all_goals cases read
  | _ => exact iff_of_false nofun fun h => nomatch h.1

theorem decoder_object_eq_ok_iff {members : List (Text × Document)} {stop : ObjectEnd}
    {record : α} :
    layout.decoder (.object members stop) = .ok record ↔
      ∃ filled, layout.readMembers members layout.empty = .ok filled ∧ stop = .closed ∧
        layout.finish filled = .ok record := by
  show (layout.readMembers members layout.empty >>= (layout.readObjectEnd · stop)) = _ ↔ _
  rw [bind_eq_ok_iff]
  exact exists_congr fun filled => and_congr_right fun _ => readObjectEnd_eq_ok_iff

/-- **What a record is decoded to, told by one of its members**, which is read as if it were the
last. -/
theorem decoder_middle_eq_ok_iff (lawful : layout.IsLawful) {before after : List (Text × Document)}
    {member : Text × Document} {stop : ObjectEnd} {record : α} :
    layout.decoder (.object (before ++ member :: after) stop) = .ok record ↔
      ∃ rest filled, layout.readMembers (before ++ after) layout.empty = .ok rest ∧
        layout.Takes member rest filled ∧ stop = .closed ∧ layout.finish filled = .ok record := by
  rw [decoder_object_eq_ok_iff]
  constructor
  · rintro ⟨filled, read, ended⟩
    obtain ⟨rest, others, takes⟩ := (readMembers_middle_eq_ok_iff lawful).mp read
    exact ⟨rest, filled, others, takes, ended⟩
  · rintro ⟨rest, filled, others, takes, ended⟩
    exact ⟨filled, (readMembers_middle_eq_ok_iff lawful).mpr ⟨rest, others, takes⟩, ended⟩

end Layout

end ExamAdmission
