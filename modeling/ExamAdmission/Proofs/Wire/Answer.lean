/-
Answers are read as they were sent, unless a number in them overflowed.

A verdict shows sums and quotients of finite numbers, and these need not be finite.  A number that is
not is sent as null, where its reader wants a number:

* `Verdict.decodes_toJson`, `Verdict.allFinite_of_decodes` — a verdict is decoded to what was sent if
  its numbers are finite, and only then;
* `Status.decodes_list_iff` — **statuses are decoded exactly if the numbers of all of them are**, and
  then to what was sent;
* `PointsTable.decodes_toJson` — a table of finite points is decoded to what was sent.
-/
import ExamAdmission.Proofs.Wire.Course
import ExamAdmission.Wire.Answer

namespace ExamAdmission

variable {reading : Numeral.Reading}

namespace Verdict

variable {v w : Verdict}

theorem decodes_toJson (finite : AllFinite v.numbers) : Decodes layout.decoder v.toJson v := by
  have points := decodes_float (finite v.achievedPoints List.mem_cons_self)
  have percent := decodes_float (finite v.achievedPercent (List.mem_cons_of_mem _ List.mem_cons_self))
  rw [toJson]
  simp only [List.cons_append, List.nil_append]
  refine .record (.cons rfl rfl (decodes_boolean v.passed).needed <|
    .cons rfl rfl points.needed <|
    .cons rfl rfl percent.needed <|
    .optionalMember (fun draft value => { draft with comment := value }) rfl rfl rfl
      (fun text _ => ((decodes_text text).present (Json.document_string_ne_null text)).optional) <|
    .cons rfl rfl v.kind.decodes_toJson.needed <|
    .cons rfl rfl v.category.decodes_toJson.needed .nil) ?_
  show Except.ok { v with comment := (v.comment.map some).getD none } = _
  rw [getD_map_some]

theorem allFinite_of_decodes (h : Decodes layout.decoder v.toJson w) : AllFinite v.numbers := by
  obtain ⟨x, points⟩ := Decodes.member h (List.mem_cons_of_mem _ List.mem_cons_self) rfl
  obtain ⟨y, percent⟩ :=
    Decodes.member h (List.mem_cons_of_mem _ (List.mem_cons_of_mem _ List.mem_cons_self)) rfl
  simp only [AllFinite, numbers, List.forall_mem_cons]
  exact ⟨isFinite_of_decodes_float points, isFinite_of_decodes_float percent, List.forall_mem_nil _⟩

theorem readable_toJson (back : ∀ x ∈ v.numbers, x.isFinite = true →
    Numeral.readsBack reading x = true) : v.toJson.Readable reading := by
  simp only [numbers, List.forall_mem_cons] at back
  refine .object ?_
  simp only [List.forall_mem_append, List.forall_mem_cons]
  exact ⟨⟨⟨.boolean _, .float back.1, .float back.2.1, List.forall_mem_nil _⟩,
    readable_optionalMember fun text _ => .string text⟩, .string _, .string _, List.forall_mem_nil _⟩

end Verdict

namespace Status

variable {s t : Status}

theorem decodes_toJson (finite : AllFinite s.numbers) : Decodes layout.decoder s.toJson s := by
  have results : Decodes Verdict.layout.decoder.list (.list (s.results.map (·.toJson))) s.results :=
    decodes_list fun v mem => v.decodes_toJson (List.forall_mem_flatMap.mp finite v mem)
  exact .record (.cons rfl rfl (decodes_text s.participant).needed <|
    .cons rfl rfl (decodes_boolean s.hasAdmission).needed <|
    .cons rfl rfl results.needed .nil) rfl

theorem allFinite_of_decodes (h : Decodes layout.decoder s.toJson t) : AllFinite s.numbers := by
  obtain ⟨verdicts, results⟩ :=
    Decodes.member h (List.mem_cons_of_mem _ (List.mem_cons_of_mem _ List.mem_cons_self)) rfl
  refine List.forall_mem_flatMap.mpr fun v mem => ?_
  obtain ⟨w, decoded⟩ := results.item mem
  exact Verdict.allFinite_of_decodes decoded

theorem readable_toJson (back : ∀ x ∈ s.numbers, x.isFinite = true →
    Numeral.readsBack reading x = true) : s.toJson.Readable reading := by
  refine .object ?_
  simp only [List.forall_mem_cons]
  refine ⟨.string _, .boolean _, .list (List.forall_mem_map.mpr fun v mem => ?_),
    List.forall_mem_nil _⟩
  exact v.readable_toJson (List.forall_mem_flatMap.mp back v mem)

/-- **Statuses are decoded exactly if the numbers of all of them are finite**, and then to what was
sent. -/
theorem decodes_list_iff {statuses decoded : List Status} :
    Decodes layout.decoder.list (.list (statuses.map (·.toJson))) decoded ↔
      decoded = statuses ∧ AllFinite (statuses.flatMap numbers) := by
  constructor
  · intro h
    have finite : ∀ s ∈ statuses, AllFinite s.numbers := by
      intro s mem
      obtain ⟨t, one⟩ := h.item mem
      exact allFinite_of_decodes one
    have whole := decodes_list fun s mem => decodes_toJson (finite s mem)
    exact ⟨Except.ok.inj (h.symm.trans whole), List.forall_mem_flatMap.mpr finite⟩
  · rintro ⟨rfl, finite⟩
    exact decodes_list fun s mem => decodes_toJson (List.forall_mem_flatMap.mp finite s mem)

end Status

theorem decodes_floats {points : List Double} (finite : AllFinite points) :
    Decodes Decoder.double.list (.list (points.map .float)) points :=
  decodes_list fun x mem => decodes_float (finite x mem)

namespace PointsRow

theorem decodes_toJson {row : PointsRow} (finite : AllFinite row.points) :
    Decodes layout.decoder row.toJson row :=
  .record (.cons rfl rfl (decodes_text row.participant).needed <|
    .cons rfl rfl (decodes_floats finite).needed .nil) rfl

theorem readable_toJson {row : PointsRow}
    (back : ∀ x ∈ row.points, Numeral.readsBack reading x = true) : row.toJson.Readable reading := by
  refine .object ?_
  simp only [List.forall_mem_cons]
  exact ⟨.string _, .list (List.forall_mem_map.mpr fun x mem => .float fun _ => back x mem),
    List.forall_mem_nil _⟩

end PointsRow

namespace PointsTable

/-- The numbers of a table. -/
def numbers (table : PointsTable) : List Double :=
  table.assignments.flatMap Assignment.numbers ++ table.rows.flatMap (·.points)

variable {table : PointsTable}

theorem decodes_toJson (finite : AllFinite table.numbers) :
    Decodes layout.decoder table.toJson table := by
  obtain ⟨finiteAssignments, finiteRows⟩ := List.forall_mem_append.mp finite
  have assignments : Decodes Assignment.layout.decoder.list
      (.list (table.assignments.map (·.toJson))) table.assignments :=
    decodes_list fun a mem => a.decodes_toJson (List.forall_mem_flatMap.mp finiteAssignments a mem)
  have rows : Decodes PointsRow.layout.decoder.list
      (.list (table.rows.map (·.toJson))) table.rows :=
    decodes_list fun r mem => r.decodes_toJson (List.forall_mem_flatMap.mp finiteRows r mem)
  exact .record (.cons rfl rfl assignments.needed <| .cons rfl rfl rows.needed .nil) rfl

theorem readable_toJson (back : ∀ x ∈ table.numbers, Numeral.readsBack reading x = true) :
    table.toJson.Readable reading := by
  obtain ⟨assignments, rows⟩ := List.forall_mem_append.mp back
  refine .object ?_
  simp only [List.forall_mem_cons]
  exact ⟨.list (List.forall_mem_map.mpr fun a mem =>
      a.readable_toJson (List.forall_mem_flatMap.mp assignments a mem)),
    .list (List.forall_mem_map.mpr fun r mem =>
      r.readable_toJson (List.forall_mem_flatMap.mp rows r mem)),
    List.forall_mem_nil _⟩

/-- A table is made of the numbers of its course, and of zeros. -/
theorem allFinite_compute {assignments : List Assignment} {participants : List Participant}
    (maxPoints : AllFinite (assignments.flatMap Assignment.numbers))
    (points : AllFinite (participants.flatMap Participant.numbers)) :
    AllFinite (compute assignments participants).numbers := by
  refine List.forall_mem_append.mpr ⟨?_, ?_⟩
  · refine List.forall_mem_flatMap.mpr fun a mem => ?_
    exact List.forall_mem_flatMap.mp maxPoints a (List.mem_of_mem_filter mem)
  · refine List.forall_mem_flatMap.mpr fun row mem => ?_
    obtain ⟨p, known, rfl⟩ := List.mem_map.mp mem
    refine List.forall_mem_map.mpr fun a _ => ?_
    exact p.isFinite_pointsFor (List.forall_mem_flatMap.mp points p known) a.id

end PointsTable

end ExamAdmission
