/-
Written values are decoded.

A value that was written has a document (`Json.document`), and what a decoder makes of a written
record is settled member by member.  A record is decoded through a draft, so what a row of members
does is taking one draft to another, whatever follows it:

* `Decodes` — the decoder reads the written value as this one;
* `Layout.Fills` — these members take the one draft to the other;
* `Decodes.record` — **a record whose members fill the draft it is finished from is decoded**;
* `Decodes.member`, `Decodes.item` — what is decoded has decoded parts;
* `decodes_text`, `decodes_float`, `decodes_list` and the like — single values and lists.
-/
import ExamAdmission.Proofs.Json.Reader
import ExamAdmission.Proofs.Rule.Construction
import ExamAdmission.Wire.Course

namespace ExamAdmission

variable {α : Type}

/-- The decoder reads the written value as this one. -/
def Decodes (decoder : Decoder α) (json : Json) (value : α) : Prop :=
  decoder json.document = .ok value

/-! ### Single values -/

theorem decodes_text (text : String) : Decodes .text (.string text) text := rfl

theorem decodes_boolean (value : Bool) : Decodes .boolean (.boolean value) value := rfl

theorem decodes_float {x : Double} (finite : x.isFinite = true) :
    Decodes .double (.float x) x := by
  show Decoder.double (Json.float x).document = _
  rw [Json.document_float finite, Decoder.double]

/-- A double that is not finite is written as null, which is not a number. -/
theorem isFinite_of_decodes_float {x y : Double} (h : Decodes .double (.float x) y) :
    x.isFinite = true := by
  by_contra infinite
  rw [Decodes, Json.document, if_neg infinite] at h
  cases h

theorem decodes_word32 (n : UInt32) : Decodes .word32 (.integer n.toNat) n := by
  have small : n.toNat < 4294967296 := n.toNat_lt
  have range : 0 ≤ (n.toNat : Int) ∧ (n.toNat : Int) < 4294967296 := by omega
  rw [Decodes, Json.document, Decoder.word32, if_pos range, Int.toNat_natCast, UInt32.ofNat_toNat]

theorem decodes_int32 (n : Int32) : Decodes .int32 (.integer n.toInt) n := by
  have range : -2147483648 ≤ n.toInt ∧ n.toInt < 2147483648 := ⟨n.le_toInt, n.toInt_lt⟩
  rw [Decodes, Json.document, Decoder.int32, if_pos range, Int32.ofInt_toInt]

/-- A value that may be absent; null stands for the absent one, so that no other may be written as
null. -/
theorem Decodes.present {decoder : Decoder α} {json : Json} {value : α}
    (h : Decodes decoder json value) (notNull : json.document ≠ .null) :
    Decodes decoder.optional json (some value) := by
  rw [Decodes] at h ⊢
  unfold Decoder.optional
  split
  · next null => exact absurd null notNull
  · rw [h]
    rfl

theorem Json.document_integer_ne_null (value : Int) : (integer value).document ≠ .null := by
  intro null
  cases null

theorem Json.document_string_ne_null (text : String) : (string text).document ≠ .null := by
  intro null
  cases null

theorem Json.document_float_ne_null {x : Double} (finite : x.isFinite = true) :
    (float x).document ≠ .null := by
  rw [Json.document_float finite]
  intro null
  cases null

theorem decodes_ofOption_float {points : Option Double}
    (finite : ∀ x ∈ points.toList, x.isFinite = true) :
    Decodes Decoder.double.optional (.ofOption .float points) points := by
  cases points with
  | none => rfl
  | some x =>
    have finite := finite x List.mem_cons_self
    exact (decodes_float finite).present (Json.document_float_ne_null finite)

/-! ### Lists -/

theorem decodes_list {decoder : Decoder α} {encode : α → Json} {values : List α}
    (decodes : ∀ x ∈ values, Decodes decoder (encode x) x) :
    Decodes decoder.list (.list (values.map encode)) values := by
  have items : ((values.map encode).map Json.document).mapM decoder = .ok values := by
    refine mapM_eq_ok_iff.mpr ?_
    rw [List.map_map, List.forall₂_map_left_iff]
    exact List.forall₂_same.mpr decodes
  rw [Decodes, Json.document_list]
  show (((values.map encode).map Json.document).mapM decoder >>= fun values => .ok values) = _
  rw [items]
  rfl

theorem Decodes.item {β : Type} {decoder : Decoder α} {encode : β → Json} {values : List β}
    {results : List α} (h : Decodes decoder.list (.list (values.map encode)) results) {value : β}
    (mem : value ∈ values) : ∃ result, Decodes decoder (encode value) result := by
  rw [Decodes, Json.document_list] at h
  obtain ⟨read, items, -⟩ := bind_eq_ok_iff.mp h
  rw [List.map_map] at items
  obtain ⟨result, -, decoded⟩ := exists_of_forall₂ (mapM_eq_ok_iff.mp items).flip
    (List.mem_map_of_mem mem)
  exact ⟨result, decoded⟩

/-! ### Records -/

section Fields

variable {σ : Type} {decoder : Decoder α} {json : Json} {value : α} {name : String}
  {get : σ → Option α} {set : σ → α → σ} {draft : σ}

theorem Decodes.needed (h : Decodes decoder json value) :
    (Field.needed name decoder get set).read json.document draft = .ok (set draft value) := by
  show (decoder json.document).map (set draft) = _
  rw [show decoder json.document = .ok value from h]
  rfl

theorem Decodes.optional (h : Decodes decoder json value) :
    (Field.optional name decoder get set).read json.document draft = .ok (set draft value) :=
  @needed _ _ _ _ _ name get set draft h

end Fields

namespace Layout

variable {σ : Type} {layout : Layout σ α}

/-- Reading these members takes the one draft to the other, whatever follows. -/
def Fills (layout : Layout σ α) (members : List (String × Json)) (draft filled : σ) : Prop :=
  ∀ others,
    layout.readMembers ((members.map fun member => (.ok member.1, member.2.document)) ++ others)
      draft = layout.readMembers others filled

namespace Fills

variable {draft next filled : σ} {members : List (String × Json)}

theorem nil : layout.Fills [] draft draft := fun _ => rfl

/-- One more member in front: it is known, its field is still absent, and its value is read. -/
theorem cons {name : String} {value : Json} {field : Field σ}
    (known : layout.field? name = some field) (absent : field.isSet draft = false)
    (read : field.read value.document draft = .ok next) (others : layout.Fills members next filled) :
    layout.Fills ((name, value) :: members) draft filled := by
  intro behind
  rw [← others behind, List.map_cons, List.cons_append, readMembers]
  dsimp only [bind, Except.bind]
  rw [known]
  dsimp only
  rw [absent, if_neg Bool.false_ne_true, read]

/-- A member in front that is left out when its value is absent; `set` puts a value into the draft,
or none. -/
theorem optionalMember {β γ : Type} {name : String} {encode : β → Json} {value : Option β}
    {field : Field σ} {result : β → γ} (set : σ → Option γ → σ)
    (known : layout.field? name = some field) (absent : field.isSet draft = false)
    (unset : set draft none = draft)
    (read : ∀ x ∈ value.toList,
      field.read (encode x).document draft = .ok (set draft (some (result x))))
    (others : layout.Fills members (set draft (value.map result)) filled) :
    layout.Fills (Json.optionalMember name encode value ++ members) draft filled := by
  cases value with
  | none => exact unset ▸ others
  | some x => exact cons known absent (read x List.mem_cons_self) others

end Fills

end Layout

/-- **A record whose members fill the draft that it is finished from is decoded.** -/
theorem Decodes.record {σ : Type} {layout : Layout σ α} {members : List (String × Json)} {filled : σ}
    {record : α} (members_filled : layout.Fills members layout.empty filled)
    (finished : layout.finish filled = .ok record) :
    Decodes layout.decoder (.object members) record := by
  have read := members_filled []
  rw [List.append_nil] at read
  rw [Decodes, Json.document_object]
  show (layout.readMembers _ layout.empty >>= fun draft => layout.readObjectEnd draft .closed) = _
  rw [read]
  exact finished

theorem Layout.exists_read_of_readMembers {σ : Type} {layout : Layout σ α}
    {members : List (Text × Document)} {draft filled : σ}
    (read : layout.readMembers members draft = .ok filled) {name : String} {value : Document}
    (mem : (.ok name, value) ∈ members) {field : Field σ} (known : layout.field? name = some field) :
    ∃ draft next, field.read value draft = .ok next := by
  induction members generalizing draft with
  | nil => cases mem
  | cons member members ih =>
    obtain ⟨key, other⟩ := member
    rw [readMembers] at read
    obtain ⟨named, keyed, read⟩ := bind_eq_ok_iff.mp read
    rcases List.mem_cons.mp mem with same | mem
    · obtain ⟨rfl, rfl⟩ := Prod.mk.inj same
      obtain rfl := Except.ok.inj keyed
      rw [known] at read
      dsimp only at read
      split at read
      · cases read
      · obtain ⟨next, given, -⟩ := bind_eq_ok_iff.mp read
        exact ⟨draft, next, given⟩
    · split at read
      · obtain ⟨-, -, read⟩ := bind_eq_ok_iff.mp read
        exact ih read mem
      · split at read
        · cases read
        · obtain ⟨next, -, read⟩ := bind_eq_ok_iff.mp read
          exact ih read mem

/-- A record is decoded only if the members that it cannot do without are. -/
theorem Decodes.member {σ β : Type} {layout : Layout σ α} {members : List (String × Json)}
    {record : α} (h : Decodes layout.decoder (.object members) record) {name : String} {value : Json}
    (mem : (name, value) ∈ members) {decoder : Decoder β} {get : σ → Option β} {set : σ → β → σ}
    (known : layout.field? name = some (Field.needed name decoder get set)) :
    ∃ result, Decodes decoder value result := by
  rw [Decodes, Json.document_object] at h
  obtain ⟨filled, read, -⟩ := bind_eq_ok_iff.mp h
  have written : ((Except.ok name : Text), value.document) ∈
      members.map fun member => ((Except.ok member.1 : Text), member.2.document) :=
    List.mem_map_of_mem mem
  obtain ⟨draft, next, given⟩ := Layout.exists_read_of_readMembers read written known
  obtain ⟨result, decoded, -⟩ := map_eq_ok_iff.mp given
  exact ⟨result, decoded⟩

end ExamAdmission
