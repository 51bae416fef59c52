/-
No snapshot is changed by being written and read.

A snapshot that was read holds finite numbers (`Snapshot.yields_finite`), and a finite number that
is read with correct rounding is read as it was written, so

* `Snapshot.lossless` — **a snapshot of finite numbers is read as it was written, and one that was
  read is read again, however it was written at first**.
-/
import ExamAdmission.Course.Demo
import ExamAdmission.Proofs.Json.Finite
import ExamAdmission.Proofs.Wire.Course

namespace ExamAdmission

/-! ### What was read is finite -/

section Fields

variable {σ α : Type} {name : String} {decoder : Decoder α} {get : σ → Option α} {set : σ → α → σ}
  {kept : σ → Prop}

/-- A field that holds no number. -/
theorem Field.keeps_of_needed (keeps : ∀ draft value, kept draft → kept (set draft value)) :
    (Field.needed name decoder get set).Keeps kept :=
  Field.keeps_needed decoder.yields_true fun draft value kept _ => keeps draft value kept

theorem Field.keeps_of_optional (keeps : ∀ draft value, kept draft → kept (set draft value)) :
    (Field.optional name decoder get set).Keeps kept :=
  Field.keeps_optional decoder.yields_true fun draft value kept _ => keeps draft value kept

end Fields

theorem Assignment.yields_finite : layout.decoder.Yields (AllFinite ·.numbers) := by
  refine Layout.yields (fun draft => AllFinite draft.maxPoints.toList) (List.forall_mem_nil _) ?_ ?_
  · simp only [layout, List.forall_mem_cons]
    exact ⟨Field.keeps_of_needed fun _ _ kept => kept,
      Field.keeps_of_needed fun _ _ kept => kept,
      Field.keeps_needed Decoder.yields_double fun _ _ _ finite => List.forall_mem_singleton.mpr finite,
      Field.keeps_of_needed fun _ _ kept => kept,
      List.forall_mem_nil _⟩
  · intro draft kept a finished
    obtain ⟨id, -, finished⟩ := bind_eq_ok_iff.mp finished
    obtain ⟨category, -, finished⟩ := bind_eq_ok_iff.mp finished
    obtain ⟨maxPoints, given, finished⟩ := bind_eq_ok_iff.mp finished
    obtain ⟨state, -, finished⟩ := bind_eq_ok_iff.mp finished
    obtain rfl := Except.ok.inj finished
    rwa [Field.eq_some_of_require given] at kept

theorem Assessment.yields_finite : layout.decoder.Yields (AllFinite ·.numbers) := by
  refine Layout.yields (fun draft => AllFinite (draft.points.getD none).toList)
    (List.forall_mem_nil _) ?_ ?_
  · simp only [layout, List.forall_mem_cons]
    exact ⟨Field.keeps_of_needed fun _ _ kept => kept,
      Field.keeps_optional Decoder.yields_double.optional fun _ _ _ finite => finite,
      List.forall_mem_nil _⟩
  · intro draft kept a finished
    obtain ⟨assignment, -, finished⟩ := bind_eq_ok_iff.mp finished
    obtain rfl := Except.ok.inj finished
    exact kept

theorem Participant.yields_finite : layout.decoder.Yields (AllFinite ·.numbers) := by
  refine Layout.yields
    (fun draft => AllFinite ((draft.assessments.getD []).flatMap Assessment.numbers))
    (List.forall_mem_nil _) ?_ ?_
  · simp only [layout, List.forall_mem_cons]
    exact ⟨Field.keeps_of_needed fun _ _ kept => kept,
      Field.keeps_optional Assessment.yields_finite.list fun _ _ _ finite =>
        List.forall_mem_flatMap.mpr finite,
      List.forall_mem_nil _⟩
  · intro draft kept p finished
    obtain ⟨id, -, finished⟩ := bind_eq_ok_iff.mp finished
    obtain rfl := Except.ok.inj finished
    exact kept

theorem Criterion.yields_finite : layout.decoder.Yields (AllFinite ·.numbers) := by
  refine Layout.yields
    (fun draft => AllFinite draft.requiredPercent.toList ∧
      AllFinite (draft.passedAssignmentsPercent.getD none).toList)
    ⟨List.forall_mem_nil _, List.forall_mem_nil _⟩ ?_ ?_
  · simp only [layout, List.forall_mem_cons]
    exact ⟨Field.keeps_of_needed fun _ _ kept => kept,
      Field.keeps_of_needed fun _ _ kept => kept,
      Field.keeps_needed Decoder.yields_double fun _ _ kept finite =>
        ⟨List.forall_mem_singleton.mpr finite, kept.2⟩,
      Field.keeps_of_optional fun _ _ kept => kept,
      Field.keeps_optional Decoder.yields_double.optional fun _ _ kept finite => ⟨kept.1, finite⟩,
      Field.keeps_of_optional fun _ _ kept => kept,
      Field.keeps_of_optional fun _ _ kept => kept,
      Field.keeps_of_optional fun _ _ kept => kept,
      List.forall_mem_nil _⟩
  · intro draft kept c finished
    obtain ⟨kind, -, finished⟩ := bind_eq_ok_iff.mp finished
    obtain ⟨category, -, finished⟩ := bind_eq_ok_iff.mp finished
    obtain ⟨requiredPercent, given, finished⟩ := bind_eq_ok_iff.mp finished
    obtain rfl := Except.ok.inj finished
    rw [Field.eq_some_of_require given] at kept
    exact List.forall_mem_append.mpr kept

theorem Course.yields_finite : layout.decoder.Yields (AllFinite ·.numbers) := by
  refine Layout.yields (fun draft =>
    AllFinite ((draft.assignments.getD []).flatMap Assignment.numbers) ∧
      AllFinite ((draft.criteria.getD []).flatMap Criterion.numbers) ∧
      AllFinite ((draft.participants.getD []).flatMap Participant.numbers))
    ⟨List.forall_mem_nil _, List.forall_mem_nil _, List.forall_mem_nil _⟩ ?_ ?_
  · simp only [layout, List.forall_mem_cons]
    exact ⟨Field.keeps_of_needed fun _ _ kept => kept,
      Field.keeps_optional Assignment.yields_finite.list fun _ _ kept finite =>
        ⟨List.forall_mem_flatMap.mpr finite, kept.2⟩,
      Field.keeps_optional Criterion.yields_finite.list fun _ _ kept finite =>
        ⟨kept.1, List.forall_mem_flatMap.mpr finite, kept.2.2⟩,
      Field.keeps_optional Participant.yields_finite.list fun _ _ kept finite =>
        ⟨kept.1, kept.2.1, List.forall_mem_flatMap.mpr finite⟩,
      List.forall_mem_nil _⟩
  · intro draft kept c finished
    obtain ⟨id, -, finished⟩ := bind_eq_ok_iff.mp finished
    obtain rfl := Except.ok.inj finished
    exact List.forall_mem_append.mpr ⟨kept.1, List.forall_mem_append.mpr kept.2⟩

theorem Snapshot.yields_finite : layout.decoder.Yields (AllFinite ·.numbers) := by
  refine Layout.yields (fun draft => AllFinite ((draft.courses.getD []).flatMap Course.numbers))
    (List.forall_mem_nil _) ?_ ?_
  · simp only [layout, List.forall_mem_cons]
    exact ⟨Field.keeps_needed Course.yields_finite.list fun _ _ _ finite =>
        List.forall_mem_flatMap.mpr finite,
      List.forall_mem_nil _⟩
  · intro draft kept s finished
    obtain ⟨courses, given, finished⟩ := bind_eq_ok_iff.mp finished
    obtain rfl := Except.ok.inj finished
    rwa [Field.eq_some_of_require given] at kept

/-! ### Writing and reading -/

variable {reading : Numeral.Reading}

theorem Numeral.isDefined_of_isNearest (isNearest : IsNearest reading) : reading.IsDefined := by
  intro digits exponent
  rw [isNearest]
  exact Decimal.toDouble_ne_nan _ _

/-- **No snapshot is changed by being written and read**, if numbers are read with correct rounding:
one of finite numbers is read as it was written, and one that was read is read again from its own
text. -/
theorem Snapshot.lossless (isNearest : Numeral.IsNearest reading) :
    (∀ snapshot : Snapshot, AllFinite snapshot.numbers →
      layout.decoder.decodeWith reading snapshot.toJson.bytes = .ok snapshot) ∧
    ∀ bytes snapshot, layout.decoder.decodeWith reading bytes = .ok snapshot →
      layout.decoder.decodeWith reading snapshot.toJson.bytes = .ok snapshot := by
  have written : ∀ snapshot : Snapshot, AllFinite snapshot.numbers →
      layout.decoder.decodeWith reading snapshot.toJson.bytes = .ok snapshot := fun snapshot finite =>
    decodeWith_toJson fun x hx => Numeral.readsBack_of_isNearest reading isNearest (finite x hx)
  refine ⟨written, fun bytes snapshot decoded => written snapshot ?_⟩
  exact yields_finite.of_decodeWith (Numeral.isDefined_of_isNearest isNearest) decoded

/-- The demo course is read as it was written, and so is a course that was read off the list of its
fields. -/
theorem Snapshot.demo_lossless :
    layout.decoder.decodeWith Numeral.nearest (toJson ⟨[Demo.course]⟩).bytes = .ok ⟨[Demo.course]⟩ ∧
      layout.decoder.decodeWith Numeral.nearest (toJson ⟨[⟨"c", [], [], []⟩]⟩).bytes =
        .ok ⟨[⟨"c", [], [], []⟩]⟩ := by
  have finite : AllFinite (numbers ⟨[Demo.course]⟩) := by
    unfold AllFinite
    decide +kernel
  have listed : layout.decoder.decodeWith Numeral.nearest "[[[\"c\"]]]".toUTF8.toList =
      .ok ⟨[⟨"c", [], [], []⟩]⟩ := by decide +kernel
  have ⟨written, read⟩ := @lossless Numeral.nearest fun _ _ => rfl
  exact ⟨written _ finite, read _ _ listed⟩

end ExamAdmission
