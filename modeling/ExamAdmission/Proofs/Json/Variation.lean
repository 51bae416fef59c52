/-
Variations of a document.

Documents that say the same may be written differently: the members of an object in another order,
members that nobody knows beside those that are known, members left out that say no more than their
absence does.  Which members are known depends on the place, so a `Shape` says where records stand
in a value and what they know:

* `Document.Reordered` — an object somewhere with its members in another order;
* `Shape.Varies` — one such change, at a place that the shape names;
* `Decoder.Tolerates` — the decoder reads no difference;
* `Decoder.IsScalar.tolerates`, `Decoder.tolerates_tag`, `Decoder.Tolerates.list`,
  `Layout.tolerates` — **decoders tolerate variations, as far as the decoders of their parts do**;
* `Document.Replaced`, `Decoder.Carries` — another value at a path, and what it does to the result;
* `Layout.carries_member`, `Decoder.Carries.item` — a step of the path.
-/
import ExamAdmission.Proofs.Json.Members

namespace ExamAdmission

namespace Document

/-! ### Documents -/

/-- A value that a JSON text may hold: nothing in it is broken off. -/
inductive IsValid : Document → Prop
  | null : IsValid .null
  | boolean (value : Bool) : IsValid (.boolean value)
  | number (value : Number) : IsValid (.number value)
  | string (text : Text) : IsValid (.string text)
  | list {items : List Document} (valid : ∀ item ∈ items, IsValid item) :
      IsValid (.list items .closed)
  | object {members : List (Text × Document)} (valid : ∀ member ∈ members, IsValid member.2) :
      IsValid (.object members .closed)

/-- A valid value is passed over. -/
theorem IsValid.skip {d : Document} (h : d.IsValid) : d.skip = .ok () := by
  cases h <;> rfl

/-- An object somewhere in the value has its members in another order. -/
inductive Reordered : Document → Document → Prop
  | here {members members' : List (Text × Document)} {stop : ObjectEnd}
      (perm : members.Perm members') : Reordered (.object members stop) (.object members' stop)
  | member {before after : List (Text × Document)} {key : Text} {value value' : Document}
      {stop : ObjectEnd} (inner : Reordered value value') :
      Reordered (.object (before ++ (key, value) :: after) stop)
        (.object (before ++ (key, value') :: after) stop)
  | item {before after : List Document} {value value' : Document} {stop : ListEnd}
      (inner : Reordered value value') :
      Reordered (.list (before ++ value :: after) stop) (.list (before ++ value' :: after) stop)

/-- The order of members makes no difference to a reader who passes over the value. -/
theorem Reordered.skip {d d' : Document} (h : Reordered d d') : d'.skip = d.skip := by
  cases h <;> rfl

/-- A step into a value. -/
inductive Step
  | member (name : String)
  | item (index : Nat)

/-- The value at a path of steps is a new one. -/
inductive Replaced (new : Document) : List Step → Document → Document → Prop
  | here {old : Document} : Replaced new [] old new
  | member {name : String} {path : List Step} {before after : List (Text × Document)}
      {value value' : Document} {stop : ObjectEnd} (inner : Replaced new path value value') :
      Replaced new (.member name :: path) (.object (before ++ (.ok name, value) :: after) stop)
        (.object (before ++ (.ok name, value') :: after) stop)
  | item {index : Nat} {path : List Step} {before after : List Document}
      {value value' : Document} {stop : ListEnd} (place : before.length = index)
      (inner : Replaced new path value value') :
      Replaced new (.item index :: path) (.list (before ++ value :: after) stop)
        (.list (before ++ value' :: after) stop)

end Document

/-! ### Shapes -/

/-- A member that a record knows, with the shape of its value, and the values that say no more than
the absence of the member. -/
structure Shape.Member (shape : Type) where
  name : String
  shape : shape
  IsDefault : Document → Prop

/-- Where records stand in a value. -/
inductive Shape
  /-- Nowhere. -/
  | plain
  | list (item : Shape)
  | record (members : List (Shape.Member Shape))

namespace Shape

/-- A member that has to be there. -/
def Member.needed (name : String) (shape : Shape) : Member Shape := ⟨name, shape, fun _ => False⟩

/-- One change of a value that makes no difference to a reader who knows its shape. -/
inductive Varies : Shape → Document → Document → Prop
  | reordered {shape : Shape} {d d' : Document} (reordered : d.Reordered d') : Varies shape d d'
  /-- A member more, of a name that is not known. -/
  | extended {members : List (Member Shape)} {before after : List (Text × Document)} {name : String}
      {value : Document} {stop : ObjectEnd} (unknown : ∀ member ∈ members, member.name ≠ name)
      (valid : value.IsValid) :
      Varies (.record members) (.object (before ++ after) stop)
        (.object (before ++ (.ok name, value) :: after) stop)
  /-- A member less, of which the value says no more than its absence. -/
  | shortened {members : List (Member Shape)} {before after : List (Text × Document)}
      {member : Member Shape} {value : Document} {stop : ObjectEnd} (known : member ∈ members)
      (isDefault : member.IsDefault value) :
      Varies (.record members) (.object (before ++ (.ok member.name, value) :: after) stop)
        (.object (before ++ after) stop)
  | member {members : List (Member Shape)} {before after : List (Text × Document)}
      {member : Member Shape} {value value' : Document} {stop : ObjectEnd}
      (known : member ∈ members) (inner : Varies member.shape value value') :
      Varies (.record members) (.object (before ++ (.ok member.name, value) :: after) stop)
        (.object (before ++ (.ok member.name, value') :: after) stop)
  | item {shape : Shape} {before after : List Document} {value value' : Document} {stop : ListEnd}
      (inner : Varies shape value value') :
      Varies (.list shape) (.list (before ++ value :: after) stop)
        (.list (before ++ value' :: after) stop)

/-- To a reader who passes over the value nothing makes a difference. -/
theorem Varies.skip {shape : Shape} {d d' : Document} (h : shape.Varies d d') :
    d'.skip = d.skip := by
  cases h with
  | reordered reordered => exact reordered.skip
  | _ => rfl

end Shape

/-! ### Decoders -/

namespace Decoder

variable {α β : Type} {decoder : Decoder α}

/-- Whatever the decoder reads, it reads the same from every variation. -/
def Tolerates (decoder : Decoder α) (shape : Shape) : Prop :=
  ∀ ⦃d d' : Document⦄ ⦃value : α⦄,
    shape.Varies d d' → decoder d = .ok value → decoder d' = .ok value

/-- The decoder reads neither a list nor an object. -/
structure IsScalar (decoder : Decoder α) : Prop where
  list : ∀ items stop value, decoder (.list items stop) ≠ .ok value
  object : ∀ members stop value, decoder (.object members stop) ≠ .ok value

theorem isScalar_text : text.IsScalar :=
  ⟨fun _ _ _ read => (by cases read), fun _ _ _ read => (by cases read)⟩

theorem isScalar_double : double.IsScalar :=
  ⟨fun _ _ _ read => (by cases read), fun _ _ _ read => (by cases read)⟩

theorem isScalar_word32 : word32.IsScalar :=
  ⟨fun _ _ _ read => (by cases read), fun _ _ _ read => (by cases read)⟩

theorem isScalar_int32 : int32.IsScalar :=
  ⟨fun _ _ _ read => (by cases read), fun _ _ _ read => (by cases read)⟩

theorem IsScalar.optional (scalar : decoder.IsScalar) : decoder.optional.IsScalar where
  list := by
    intro items stop value read
    obtain ⟨x, read, -⟩ := map_eq_ok_iff.mp read
    exact scalar.list items stop x read
  object := by
    intro members stop value read
    obtain ⟨x, read, -⟩ := map_eq_ok_iff.mp read
    exact scalar.object members stop x read

theorem IsScalar.tolerates (scalar : decoder.IsScalar) : decoder.Tolerates .plain := by
  intro d d' value varies read
  cases varies with
  | reordered reordered =>
    cases reordered with
    | here => exact absurd read (scalar.object _ _ value)
    | member => exact absurd read (scalar.object _ _ value)
    | item => exact absurd read (scalar.list _ _ value)

/-- An object that stands for a name has a single member, and its value is null. -/
theorem exists_of_tag_object {named : String → Except Fault α} {members : List (Text × Document)}
    {stop : ObjectEnd} {value : α} (read : tag named (.object members stop) = .ok value) :
    ∃ key, members = [(key, .null)] := by
  cases members with
  | nil =>
    cases stop with
    | missingColon key fault =>
      obtain ⟨_, -, read⟩ := bind_eq_ok_iff.mp read
      cases read
    | _ => cases read
  | cons member others =>
    obtain ⟨key, content⟩ := member
    obtain ⟨result, -, read⟩ := bind_eq_ok_iff.mp read
    obtain ⟨⟨⟩, null, read⟩ := bind_eq_ok_iff.mp read
    cases content with
    | null =>
      split at read
      · exact ⟨key, rfl⟩
      · cases read
      · cases read
    | _ => cases null

/-- So there is nothing to reorder. -/
theorem tolerates_tag (named : String → Except Fault α) : (tag named).Tolerates .plain := by
  intro d d' value varies read
  cases varies with
  | reordered reordered =>
    cases reordered with
    | item => cases read
    | here perm =>
      obtain ⟨key, rfl⟩ := exists_of_tag_object read
      rw [List.singleton_perm.mp perm] at read
      exact read
    | member inner =>
      obtain ⟨key, single⟩ := exists_of_tag_object read
      obtain ⟨rfl, same⟩ | ⟨_, rfl, none⟩ := List.append_eq_cons_iff.mp single
      -- the only member has no value in which to reorder anything
      · obtain ⟨-, rfl⟩ := Prod.mk.inj (List.cons.inj same).1
        cases inner
      · cases (List.append_eq_nil_iff.mp none.symm).2

theorem Tolerates.map {shape : Shape} (tolerates : decoder.Tolerates shape) (f : α → β) :
    Tolerates (fun d => (decoder d).map f) shape := by
  intro d d' value varies read
  obtain ⟨x, decoded, rfl⟩ := map_eq_ok_iff.mp read
  show (decoder d').map f = _
  rw [tolerates varies decoded]
  rfl

theorem list_eq_ok_iff {items : List Document} {stop : ListEnd} {values : List α} :
    decoder.list (.list items stop) = .ok values ↔
      items.mapM decoder = .ok values ∧ stop.fault? = none := by
  show (items.mapM decoder >>= _) = _ ↔ _
  rw [bind_eq_ok_iff]
  constructor
  · rintro ⟨read, items, ended⟩
    split at ended
    · next closed =>
      cases ended
      exact ⟨items, closed⟩
    · cases ended
  · rintro ⟨items, closed⟩
    refine ⟨values, items, ?_⟩
    rw [closed]

/-- One item among others is decoded on its own. -/
theorem mapM_middle_eq_ok_iff {before after : List Document} {item : Document} {values : List α} :
    (before ++ item :: after).mapM decoder = .ok values ↔
      ∃ first value last, before.mapM decoder = .ok first ∧ decoder item = .ok value ∧
        after.mapM decoder = .ok last ∧ values = first ++ value :: last := by
  rw [List.mapM_append, bind_eq_ok_iff]
  constructor
  · rintro ⟨first, read, others⟩
    obtain ⟨rest, behind, joined⟩ := bind_eq_ok_iff.mp others
    rw [List.mapM_cons] at behind
    obtain ⟨value, own, behind⟩ := bind_eq_ok_iff.mp behind
    obtain ⟨last, tail, same⟩ := bind_eq_ok_iff.mp behind
    cases same
    cases joined
    exact ⟨first, value, last, read, own, tail, rfl⟩
  · rintro ⟨first, value, last, read, own, others, rfl⟩
    refine ⟨first, read, ?_⟩
    rw [List.mapM_cons, own, others]
    rfl

/-- **A list tolerates what its items do.** -/
theorem Tolerates.list {shape : Shape} (tolerates : decoder.Tolerates shape) :
    decoder.list.Tolerates (.list shape) := by
  -- an item that is reordered is an item that varies
  have changed : ∀ {before after : List Document} {item item' : Document} {stop : ListEnd}
      {values : List α}, shape.Varies item item' →
      decoder.list (.list (before ++ item :: after) stop) = .ok values →
      decoder.list (.list (before ++ item' :: after) stop) = .ok values := by
    intro before after item item' stop values varies read
    obtain ⟨items, closed⟩ := list_eq_ok_iff.mp read
    obtain ⟨first, value, last, read, own, others, same⟩ := mapM_middle_eq_ok_iff.mp items
    exact list_eq_ok_iff.mpr ⟨mapM_middle_eq_ok_iff.mpr
      ⟨first, value, last, read, tolerates varies own, others, same⟩, closed⟩
  intro d d' values varies read
  cases varies with
  | item inner => exact changed inner read
  | reordered reordered =>
    cases reordered with
    | item inner => exact changed (.reordered inner) read
    | here => cases read
    | member => cases read

end Decoder

/-! ### Records -/

namespace Layout

variable {σ α β : Type} {layout : Layout σ α} {members : List (Shape.Member Shape)}

/-- The field is the one that a member is known for. -/
structure Serves (layout : Layout σ α) (field : Field σ) (member : Shape.Member Shape) : Prop where
  name : field.name = member.name
  tolerates : ∀ {value value' draft next}, member.shape.Varies value value' →
    field.read value draft = .ok next → field.read value' draft = .ok next
  isDefault : ∀ {value draft next}, member.IsDefault value → field.isSet draft = false →
    field.read value draft = .ok next → layout.finish next = layout.finish draft

section Fields

variable {field : Field σ} {name : String} {decoder : Decoder β} {get : σ → Option β}
  {set : σ → β → σ} {shape : Shape}

/-- Varying its value, a field is read the same if the value is. -/
theorem read_of_tolerates (reads : field.Reads decoder get set)
    (tolerates : decoder.Tolerates shape) {value value' : Document} {draft next : σ}
    (varies : shape.Varies value value')
    (read : field.read value draft = .ok next) : field.read value' draft = .ok next := by
  rw [reads.read] at read ⊢
  obtain ⟨x, decoded, rfl⟩ := map_eq_ok_iff.mp read
  rw [tolerates varies decoded]
  rfl

theorem serves_needed (reads : field.Reads decoder get set) (named : field.name = name)
    (tolerates : decoder.Tolerates shape) : layout.Serves field (.needed name shape) where
  name := named
  tolerates := read_of_tolerates reads tolerates
  isDefault := False.elim

/-- A field that may be absent, if its default is what a record without it has. -/
theorem serves_optional {IsDefault : Document → Prop} {default : β}
    (reads : field.Reads decoder get set) (named : field.name = name)
    (tolerates : decoder.Tolerates shape)
    (isDefault : ∀ {value}, IsDefault value → decoder value = .ok default)
    (same : ∀ draft, get draft = none → layout.finish (set draft default) = layout.finish draft) :
    layout.Serves field ⟨name, shape, IsDefault⟩ where
  name := named
  tolerates := read_of_tolerates reads tolerates
  isDefault := by
    intro value draft next own absent read
    rw [reads.read, isDefault own] at read
    obtain rfl := Except.ok.inj read
    rw [reads.isSet, Option.isSome_eq_false_iff, Option.isNone_iff_eq_none] at absent
    exact same draft absent

end Fields

/-- What a member does stays the same if its value is passed over as before, and its field reads
the same. -/
theorem Takes.change {key : Text} {value value' : Document} {draft next : σ}
    (skip : value'.skip = value.skip)
    (same : ∀ {name field draft next}, key = .ok name → layout.field? name = some field →
      field.read value draft = .ok next → field.read value' draft = .ok next)
    (takes : layout.Takes (key, value) draft next) : layout.Takes (key, value') draft next := by
  cases takes with
  | unknown unknown complete => exact .unknown unknown (skip.trans complete)
  | known known absent read => exact .known known absent (same rfl known read)

/-- The same for a record that is written as the list of its fields. -/
theorem readItems_change {value value' : Document} {stop : ListEnd} {fields : List (Field σ)}
    (same : ∀ field ∈ fields, ∀ {draft next}, field.read value draft = .ok next →
      field.read value' draft = .ok next)
    {index : Nat} {before after : List Document} {draft filled : σ}
    (read : layout.readItems stop index fields (before ++ value :: after) draft = .ok filled) :
    layout.readItems stop index fields (before ++ value' :: after) draft = .ok filled := by
  induction before generalizing index fields draft with
  | nil =>
    cases fields with
    | nil => cases read
    | cons field fields =>
      obtain ⟨next, own, others⟩ := bind_eq_ok_iff.mp read
      exact bind_eq_ok_iff.mpr ⟨next, same field List.mem_cons_self own, others⟩
  | cons item before ih =>
    cases fields with
    | nil => cases read
    | cons field fields =>
      obtain ⟨next, own, others⟩ := bind_eq_ok_iff.mp read
      exact bind_eq_ok_iff.mpr
        ⟨next, own, ih (fun field mem => same field (List.mem_cons_of_mem _ mem)) others⟩

section Tolerates

variable (lawful : layout.IsLawful) (serves : List.Forall₂ layout.Serves layout.fields members)
include lawful serves

theorem field?_of_known {member : Shape.Member Shape} (known : member ∈ members) :
    ∃ field, layout.field? member.name = some field ∧ layout.Serves field member := by
  obtain ⟨field, mem, own⟩ := exists_of_forall₂ serves known
  exact ⟨field, own.name ▸ lawful.field?_name mem, own⟩

omit lawful in
theorem field?_of_unknown {name : String} (unknown : ∀ member ∈ members, member.name ≠ name) :
    layout.field? name = none := by
  refine List.find?_eq_none.mpr fun field mem => ?_
  obtain ⟨member, known, own⟩ := exists_of_forall₂ serves.flip mem
  rw [decide_eq_true_iff, own.name]
  exact unknown member known

omit lawful in
/-- No field tells one order from another. -/
theorem read_reordered {value value' : Document} (reordered : value.Reordered value')
    {field : Field σ} (mem : field ∈ layout.fields) {draft next : σ}
    (read : field.read value draft = .ok next) : field.read value' draft = .ok next := by
  obtain ⟨member, -, own⟩ := exists_of_forall₂ serves.flip mem
  exact own.tolerates (.reordered reordered) read

theorem decoder_reordered {d d' : Document} (reordered : d.Reordered d') {record : α}
    (decoded : layout.decoder d = .ok record) : layout.decoder d' = .ok record := by
  cases reordered with
  | here perm =>
    obtain ⟨filled, read, ended⟩ := decoder_object_eq_ok_iff.mp decoded
    exact decoder_object_eq_ok_iff.mpr ⟨filled, readMembers_perm lawful perm read, ended⟩
  | member inner =>
    obtain ⟨rest, filled, others, takes, ended⟩ := (decoder_middle_eq_ok_iff lawful).mp decoded
    refine (decoder_middle_eq_ok_iff lawful).mpr ⟨rest, filled, others, ?_, ended⟩
    refine takes.change inner.skip fun _ known => ?_
    exact read_reordered serves inner (List.mem_of_find?_eq_some known)
  | item inner =>
    obtain ⟨filled, read, finished⟩ := bind_eq_ok_iff.mp decoded
    exact bind_eq_ok_iff.mpr ⟨filled,
      readItems_change (fun field mem => read_reordered serves inner mem) read, finished⟩

/-- **A record tolerates the variations of its own members and of their values**, if the values of
its fields do. -/
theorem tolerates : layout.decoder.Tolerates (.record members) := by
  intro d d' record varies decoded
  cases varies with
  | reordered reordered => exact decoder_reordered lawful serves reordered decoded
  | extended unknown valid =>
    -- read last, the new member is passed over
    obtain ⟨filled, read, ended⟩ := decoder_object_eq_ok_iff.mp decoded
    exact (decoder_middle_eq_ok_iff lawful).mpr ⟨filled, filled, read,
      .unknown (field?_of_unknown serves unknown) valid.skip, ended⟩
  | shortened known isDefault =>
    -- read last, the old member fills its field, and the record of the draft is the same without
    obtain ⟨rest, filled, others, takes, closed, finished⟩ :=
      (decoder_middle_eq_ok_iff lawful).mp decoded
    obtain ⟨field, found, own⟩ := field?_of_known lawful serves known
    refine decoder_object_eq_ok_iff.mpr ⟨rest, others, closed, ?_⟩
    cases takes with
    | unknown unknown =>
      rw [found] at unknown
      cases unknown
    | known other absent read =>
      obtain rfl := Option.some.inj (found.symm.trans other)
      rw [← own.isDefault isDefault absent read, finished]
  | member known inner =>
    obtain ⟨rest, filled, others, takes, ended⟩ := (decoder_middle_eq_ok_iff lawful).mp decoded
    obtain ⟨field, found, own⟩ := field?_of_known lawful serves known
    refine (decoder_middle_eq_ok_iff lawful).mpr ⟨rest, filled, others, ?_, ended⟩
    refine takes.change inner.skip fun named other read => ?_
    obtain rfl := Except.ok.inj named
    obtain rfl := Option.some.inj (found.symm.trans other)
    exact own.tolerates inner read

end Tolerates

end Layout

/-! ### Another value at a path -/

section Carries

open Document (Replaced Step)

variable {σ α β : Type} {decoder : Decoder α} {new : Document} {path : List Step}
  {effect : α → α → Prop}

/-- After the change the decoder still reads a value, on which the change has this effect. -/
def Decoder.Carries (decoder : Decoder α) (change : Document → Document → Prop)
    (effect : α → α → Prop) : Prop :=
  ∀ ⦃d d' : Document⦄ ⦃value : α⦄, change d d' → decoder d = .ok value →
    ∃ value', decoder d' = .ok value' ∧ effect value value'

/-- The value itself is the new one. -/
theorem Decoder.carries_here {value' : α} (read : decoder new = .ok value') :
    decoder.Carries (Replaced new []) fun _ result => result = value' := by
  intro d d' value change decoded
  cases change
  exact ⟨value', read, rfl⟩

/-- The path goes through an item of a list. -/
theorem Decoder.Carries.item (carries : decoder.Carries (Replaced new path) effect) (index : Nat) :
    decoder.list.Carries (Replaced new (.item index :: path)) fun values values' =>
      ∃ before value value' after, before.length = index ∧ effect value value' ∧
        values = before ++ value :: after ∧ values' = before ++ value' :: after := by
  intro d d' values change decoded
  cases change with
  | item place inner =>
    obtain ⟨items, closed⟩ := Decoder.list_eq_ok_iff.mp decoded
    obtain ⟨first, value, last, read, own, others, same⟩ := Decoder.mapM_middle_eq_ok_iff.mp items
    obtain ⟨value', own', changed⟩ := carries inner own
    refine ⟨first ++ value' :: last, ?_, first, value, value', last, ?_, changed, same, rfl⟩
    · exact Decoder.list_eq_ok_iff.mpr
        ⟨Decoder.mapM_middle_eq_ok_iff.mpr ⟨first, value', last, read, own', others, rfl⟩, closed⟩
    · rw [← place]
      exact (mapM_eq_ok_iff.mp read).length_eq.symm

/-- The path goes through a member of a record. -/
theorem Layout.carries_member {layout : Layout σ β} (lawful : layout.IsLawful) {name : String}
    {field : Field σ} (known : layout.field? name = some field) {get : σ → Option α}
    {set : σ → α → σ} (reads : field.Reads decoder get set)
    (carries : decoder.Carries (Replaced new path) effect) {effect' : β → β → Prop}
    (finish : ∀ {draft value value' record}, effect value value' →
      layout.finish (set draft value) = .ok record →
      ∃ record', layout.finish (set draft value') = .ok record' ∧ effect' record record') :
    layout.decoder.Carries (Replaced new (.member name :: path)) effect' := by
  intro d d' record change decoded
  cases change with
  | member inner =>
    obtain ⟨rest, filled, others, takes, closed, finished⟩ :=
      (decoder_middle_eq_ok_iff lawful).mp decoded
    cases takes with
    | unknown unknown =>
      rw [known] at unknown
      cases unknown
    | known other absent read =>
      obtain rfl := Option.some.inj (known.symm.trans other)
      rw [reads.read] at read
      obtain ⟨value, own, rfl⟩ := map_eq_ok_iff.mp read
      obtain ⟨value', own', changed⟩ := carries inner own
      obtain ⟨record', finished', changed'⟩ := finish changed finished
      refine ⟨record', (decoder_middle_eq_ok_iff lawful).mpr
        ⟨rest, set rest value', others, .known known absent ?_, closed, finished'⟩, changed'⟩
      rw [reads.read, own']
      rfl

end Carries

end ExamAdmission
