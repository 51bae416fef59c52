/-
Courses are read as they were written.

For each type of the data of a course: its value in data is decoded to what was written
(`decodes_toJson`), if its numbers are finite, and the text of that value is read as the value
(`readable_toJson`), if its numbers are read as they were written.

* `Course.decodeWith_toJson`, `Snapshot.decodeWith_toJson` — **a course, or a file of them, whose
  numbers are read as they were written is read as it was written**.
-/
import ExamAdmission.Course.Demo
import ExamAdmission.Proofs.Course.Numbers
import ExamAdmission.Proofs.Json.Record
import Mathlib.Data.List.Sort
import Mathlib.Data.String.Basic

namespace ExamAdmission

variable {reading : Numeral.Reading}

/-! ### Names -/

theorem Category.decodes_toJson (c : Category) : Decodes decoder c.toJson c := by
  cases c <;> rfl

theorem AssignmentState.decodes_toJson (s : AssignmentState) : Decodes decoder s.toJson s := by
  cases s <;> rfl

/-- The kind that is not known is written with a name that is not known either. -/
theorem RuleKind.decodes_toJson (k : RuleKind) : Decodes decoder k.toJson k := by
  cases k <;> rfl

theorem RoundingMode.decodes_toJson (m : RoundingMode) : Decodes decoder m.toJson m := by
  cases m <;> rfl

/-! ### Fields that may be left out -/

/-- What a finished draft makes of a field that may be absent. -/
theorem getD_map_some {α : Type} (x : Option α) : (x.map some).getD none = x := by
  cases x with
  | none => rfl
  | some x => rfl

theorem readable_optionalMember {α : Type} {name : String} {encode : α → Json} {value : Option α}
    (readable : ∀ x ∈ value.toList, (encode x).Readable reading) :
    ∀ member ∈ Json.optionalMember name encode value, member.2.Readable reading := by
  cases value with
  | none => exact List.forall_mem_nil _
  | some x => exact List.forall_mem_singleton.mpr (readable x List.mem_cons_self)

theorem readable_ofOption_float {points : Option Double}
    (back : ∀ x ∈ points.toList, Numeral.readsBack reading x = true) :
    (Json.ofOption .float points).Readable reading := by
  cases points with
  | none => exact .null
  | some x => exact .float fun _ => back x List.mem_cons_self

/-! ### Records -/

namespace RoundingChoice

theorem decodes_toJson (choice : RoundingChoice) : Decodes layout.decoder choice.toJson choice := by
  have members := List.append_nil
    (Json.optionalMember "decimals" (fun n : Int32 => .integer n.toInt) choice.decimals)
  rw [toJson, ← members]
  refine .record (.cons rfl rfl choice.mode.decodes_toJson.needed <|
    .optionalMember (fun draft value => { draft with decimals := value }) rfl rfl rfl
      (fun n _ => ((decodes_int32 n).present (Json.document_integer_ne_null _)).optional) .nil) ?_
  show Except.ok { choice with decimals := (choice.decimals.map some).getD none } = _
  rw [getD_map_some]

theorem readable_toJson (choice : RoundingChoice) : choice.toJson.Readable reading := by
  refine .object (List.forall_mem_cons.mpr ⟨.string _, readable_optionalMember fun n _ => ?_⟩)
  have low := n.le_toInt
  have high := n.toInt_lt
  exact .integer (by omega) (by omega)

end RoundingChoice

namespace IdSet

theorem ext {set other : IdSet} (same : set.toList = other.toList) : set = other := by
  cases set with
  | mk ids ascending =>
    cases other with
    | mk others _ =>
      subst same
      rfl

/-- A set is that of its members. -/
theorem ofList_toList (set : IdSet) : ofList set.toList = set :=
  ext ((ofList set.toList).ascending.eq_of_mem_iff set.ascending fun _ => mem_ofList)

theorem decodes_toJson (set : IdSet) : Decodes decoder set.toJson set := by
  have ids : Decodes Decoder.text.list set.toJson set.toList :=
    decodes_list fun id _ => decodes_text id
  show (Decoder.text.list set.toJson.document).map ofList = _
  rw [show Decoder.text.list set.toJson.document = .ok set.toList from ids]
  exact congrArg Except.ok (ofList_toList set)

theorem readable_toJson (set : IdSet) : set.toJson.Readable reading :=
  .list (List.forall_mem_map.mpr fun id _ => .string id)

end IdSet

namespace Assignment

theorem decodes_toJson {a : Assignment} (finite : AllFinite a.numbers) :
    Decodes layout.decoder a.toJson a := by
  have maxPoints := decodes_float (finite a.maxPoints List.mem_cons_self)
  exact .record (.cons rfl rfl (decodes_text a.id).needed <|
    .cons rfl rfl a.category.decodes_toJson.needed <|
    .cons rfl rfl maxPoints.needed <|
    .cons rfl rfl a.state.decodes_toJson.needed .nil) rfl

theorem readable_toJson {a : Assignment}
    (back : ∀ x ∈ a.numbers, Numeral.readsBack reading x = true) : a.toJson.Readable reading := by
  refine .object ?_
  simp only [List.forall_mem_cons]
  exact ⟨.string _, .string _, .float fun _ => back _ List.mem_cons_self, .string _,
    List.forall_mem_nil _⟩

end Assignment

namespace Assessment

theorem decodes_toJson {a : Assessment} (finite : AllFinite a.numbers) :
    Decodes layout.decoder a.toJson a := by
  exact .record (.cons rfl rfl (decodes_text a.assignment).needed <|
    .cons rfl rfl (decodes_ofOption_float finite).optional .nil) rfl

theorem readable_toJson {a : Assessment}
    (back : ∀ x ∈ a.numbers, Numeral.readsBack reading x = true) : a.toJson.Readable reading := by
  refine .object ?_
  simp only [List.forall_mem_cons]
  exact ⟨.string _, readable_ofOption_float back, List.forall_mem_nil _⟩

end Assessment

namespace Participant

variable {p : Participant}

theorem decodes_toJson (finite : AllFinite p.numbers) :
    Decodes layout.decoder p.toJson p := by
  have assessments : Decodes Assessment.layout.decoder.list
      (.list (p.assessments.map (·.toJson))) p.assessments :=
    decodes_list fun a mem => a.decodes_toJson (List.forall_mem_flatMap.mp finite a mem)
  exact .record (.cons rfl rfl (decodes_text p.id).needed <|
    .cons rfl rfl assessments.optional .nil) rfl

theorem readable_toJson (back : ∀ x ∈ p.numbers, Numeral.readsBack reading x = true) :
    p.toJson.Readable reading := by
  refine .object ?_
  simp only [List.forall_mem_cons]
  refine ⟨.string _, .list (List.forall_mem_map.mpr fun a mem => ?_), List.forall_mem_nil _⟩
  exact a.readable_toJson (List.forall_mem_flatMap.mp back a mem)

end Participant

namespace Criterion

variable {c : Criterion}

/-- The participants for whom the criterion does not count, left out when there are none. -/
def ignored? (c : Criterion) : Option IdSet :=
  if c.ignoredParticipants.toList = [] then none else some c.ignoredParticipants

theorem ignored_member (c : Criterion) :
    (if c.ignoredParticipants.toList = [] then []
      else [("ignoredParticipants", c.ignoredParticipants.toJson)]) =
        Json.optionalMember "ignoredParticipants" IdSet.toJson c.ignored? := by
  unfold ignored?
  split
  · rfl
  · rfl

theorem getD_ignored? (c : Criterion) : (c.ignored?.map id).getD .empty = c.ignoredParticipants := by
  unfold ignored?
  split
  · next none => exact IdSet.ext none.symm
  · rfl

theorem decodes_toJson (finite : AllFinite c.numbers) :
    Decodes layout.decoder c.toJson c := by
  have required := decodes_float (finite c.requiredPercent List.mem_cons_self)
  have percent : ∀ x ∈ c.passedAssignmentsPercent.toList,
      Decodes Decoder.double.optional (.float x) (some x) := fun x hx =>
    have finite := finite x (List.mem_cons_of_mem _ hx)
    (decodes_float finite).present (Json.document_float_ne_null finite)
  rw [toJson, ignored_member, ← List.append_nil (Json.optionalMember _ _ c.ignored?)]
  simp only [List.append_assoc, List.cons_append, List.nil_append]
  refine .record (.cons rfl rfl c.kind.decodes_toJson.needed <|
    .cons rfl rfl c.category.decodes_toJson.needed <|
    .cons rfl rfl required.needed <|
    .cons rfl rfl c.pointsRounding.decodes_toJson.optional <|
    .optionalMember (fun draft value => { draft with passedAssignmentsPercent := value }) rfl rfl rfl
      (fun x hx => (percent x hx).optional) <|
    .cons rfl rfl c.passedAssignmentsRounding.decodes_toJson.optional <|
    .optionalMember (fun draft value => { draft with allowedFailures := value }) rfl rfl rfl
      (fun n _ => ((decodes_word32 n).present (Json.document_integer_ne_null _)).optional) <|
    .optionalMember (fun draft value => { draft with ignoredParticipants := value }) rfl rfl rfl
      (fun set _ => set.decodes_toJson.optional) .nil) ?_
  show Except.ok { c with
    passedAssignmentsPercent := (c.passedAssignmentsPercent.map some).getD none
    allowedFailures := (c.allowedFailures.map some).getD none
    ignoredParticipants := (c.ignored?.map id).getD .empty } = _
  rw [getD_map_some, getD_map_some, getD_ignored?]

theorem readable_toJson (back : ∀ x ∈ c.numbers, Numeral.readsBack reading x = true) :
    c.toJson.Readable reading := by
  have required := back c.requiredPercent List.mem_cons_self
  have percent : ∀ x ∈ c.passedAssignmentsPercent.toList, (Json.float x).Readable reading :=
    fun x hx => .float fun _ => back x (List.mem_cons_of_mem _ hx)
  have failures : ∀ n ∈ c.allowedFailures.toList, (Json.integer n.toNat).Readable reading := by
    intro n _
    have small := n.toNat_lt
    exact .integer (by omega) (by omega)
  rw [toJson, ignored_member]
  refine .object ?_
  simp only [List.forall_mem_append, List.forall_mem_cons]
  exact ⟨⟨⟨⟨⟨.string _, .string _, .float fun _ => required, c.pointsRounding.readable_toJson,
      List.forall_mem_nil _⟩, readable_optionalMember percent⟩,
      c.passedAssignmentsRounding.readable_toJson, List.forall_mem_nil _⟩,
      readable_optionalMember failures⟩,
    readable_optionalMember fun set _ => set.readable_toJson⟩

end Criterion

namespace Course

variable {c : Course}

theorem decodes_toJson (finite : AllFinite c.numbers) : Decodes layout.decoder c.toJson c := by
  obtain ⟨finiteAssignments, finiteCriteria, finiteParticipants⟩ := forall_numbers.mp finite
  have assignments : Decodes Assignment.layout.decoder.list
      (.list (c.assignments.map (·.toJson))) c.assignments :=
    decodes_list fun a mem => a.decodes_toJson (finiteAssignments a mem)
  have criteria : Decodes Criterion.layout.decoder.list
      (.list (c.criteria.map (·.toJson))) c.criteria :=
    decodes_list fun k mem => k.decodes_toJson (finiteCriteria k mem)
  have participants : Decodes Participant.layout.decoder.list
      (.list (c.participants.map (·.toJson))) c.participants :=
    decodes_list fun p mem => p.decodes_toJson (finiteParticipants p mem)
  exact .record (.cons rfl rfl (decodes_text c.id).needed <|
    .cons rfl rfl assignments.optional <|
    .cons rfl rfl criteria.optional <|
    .cons rfl rfl participants.optional .nil) rfl

theorem readable_toJson (back : ∀ x ∈ c.numbers, Numeral.readsBack reading x = true) :
    c.toJson.Readable reading := by
  obtain ⟨assignments, criteria, participants⟩ := forall_numbers.mp back
  refine .object ?_
  simp only [List.forall_mem_cons]
  exact ⟨.string _,
    .list (List.forall_mem_map.mpr fun a mem => a.readable_toJson (assignments a mem)),
    .list (List.forall_mem_map.mpr fun k mem => k.readable_toJson (criteria k mem)),
    .list (List.forall_mem_map.mpr fun p mem => p.readable_toJson (participants p mem)),
    List.forall_mem_nil _⟩

/-- **A course whose numbers are read as they were written is read as it was written.** -/
theorem decodeWith_toJson (back : ∀ x ∈ c.numbers, Numeral.readsBack reading x = true) :
    layout.decoder.decodeWith reading c.toJson.bytes = .ok c := by
  rw [Decoder.decodeWith_bytes (readable_toJson back)]
  exact decodes_toJson fun x hx => Numeral.isFinite_of_readsBack reading (back x hx)

theorem decode_demo : layout.decoder.decode Demo.course.toJson.bytes = .ok Demo.course :=
  decodeWith_toJson (by decide +kernel)

theorem length_toJson_demo_le : Demo.course.toJson.bytes.length ≤ 2000 := by
  rw [Json.bytes, toList_toUTF8]
  decide +kernel

end Course

namespace Snapshot

variable {s : Snapshot}

theorem decodes_toJson (finite : AllFinite s.numbers) :
    Decodes layout.decoder s.toJson s := by
  have courses : Decodes Course.layout.decoder.list (.list (s.courses.map (·.toJson))) s.courses :=
    decodes_list fun c mem => c.decodes_toJson (List.forall_mem_flatMap.mp finite c mem)
  exact .record (.cons rfl rfl courses.needed .nil) rfl

theorem readable_toJson (back : ∀ x ∈ s.numbers, Numeral.readsBack reading x = true) :
    s.toJson.Readable reading := by
  refine .object (List.forall_mem_singleton.mpr (.list (List.forall_mem_map.mpr fun c mem => ?_)))
  exact c.readable_toJson (List.forall_mem_flatMap.mp back c mem)

/-- **A snapshot whose numbers are read as they were written is read as it was written.** -/
theorem decodeWith_toJson (back : ∀ x ∈ s.numbers, Numeral.readsBack reading x = true) :
    layout.decoder.decodeWith reading s.toJson.bytes = .ok s := by
  rw [Decoder.decodeWith_bytes (readable_toJson back)]
  exact decodes_toJson fun x hx => Numeral.isFinite_of_readsBack reading (back x hx)

end Snapshot

end ExamAdmission
