/-
Courses that are written differently.

What the record of a course knows is its shape: a criterion and its roundings, an assignment, a
participant and their assessments, each with the members that may be left out for the value that
says no more.  A course is decoded the same from every variation of this shape.  Only two kinds of
tags have a place for names that nobody knows, the kind of a criterion and the method of a rounding:

* `Course.shape` — where records stand in a course, and what they know;
* `Course.tolerates_layout` — variations make no difference;
* `Criterion.Tag`, `Criterion.withUnknown` — the tags, and a criterion with an unknown name for one;
* `Criterion.carries_tag` — an unknown name is decoded as such, and nothing else with it;
* `Ruleset.surfaces_withUnknown` — it is found when rules are built that use the tag, and only then;
* `Course.decode_varied` — **texts of one course are decoded alike, and an unknown name is an error
  of the configuration, never of decoding**.
-/
import ExamAdmission.Proofs.Json.Finite
import ExamAdmission.Proofs.Json.Reader
import ExamAdmission.Proofs.Json.Variation
import ExamAdmission.Proofs.Ruleset.Outcome
import ExamAdmission.Wire.Course
import Mathlib.Logic.Relation

namespace ExamAdmission

open Document (Replaced Step)

/-! ### Shapes -/

/-- A list with nothing in it. -/
def Document.IsEmptyList (d : Document) : Prop := d = .list [] .closed

theorem Decoder.list_of_isEmptyList {α : Type} {decoder : Decoder α} {d : Document}
    (empty : d.IsEmptyList) : decoder.list d = .ok [] := by
  rw [empty]
  rfl

theorem Decoder.optional_of_null {α : Type} {decoder : Decoder α} {d : Document}
    (null : d = .null) : decoder.optional d = .ok none := by
  rw [null]
  rfl

theorem IdSet.tolerates_decoder : decoder.Tolerates (.list .plain) :=
  Decoder.isScalar_text.tolerates.list.map ofList

theorem IdSet.decoder_of_isEmptyList {d : Document} (empty : d.IsEmptyList) :
    decoder d = .ok .empty := by
  rw [decoder, Decoder.list_of_isEmptyList empty]
  rfl

/-- No place in a tag for a name that is not listed, other than the one for all of them. -/
theorem Decoder.oneOfOr_of_notMem {α : Type} (other : α) {names : List (String × α)} {name : String}
    (unknown : name ∉ names.map (·.1)) : oneOfOr other names (.string (.ok name)) = .ok other := by
  have none : names.lookup name = none := by
    refine List.lookup_eq_none_iff.mpr fun entry mem => ?_
    exact bne_iff_ne.mpr fun same => unknown (same ▸ List.mem_map_of_mem mem)
  show Except.ok ((names.lookup name).getD other) = _
  rw [none]
  rfl

namespace RoundingChoice

/-- The members of a rounding. -/
def shape : Shape := .record [.needed "method" .plain, ⟨"decimals", .plain, (· = .null)⟩]

/-- The value rounds nothing. -/
def IsUnrounded (d : Document) : Prop := layout.decoder d = .ok .unrounded

theorem layout_isLawful : layout.IsLawful where
  isSet := by
    simp only [layout, List.forall_mem_cons, List.not_mem_nil, IsEmpty.forall_iff, implies_true,
      and_true]
    and_intros
    all_goals exact (Field.reads_mk (by intros; rfl)).isSet_of_read
  apart := by
    simp only [layout, List.pairwise_cons, List.forall_mem_cons, List.not_mem_nil,
      IsEmpty.forall_iff, implies_true, and_true, List.Pairwise.nil]
    refine Field.apart_mk ?_ ?_ ?_ ?_ ?_ ?_
    · decide
    all_goals intros; rfl

theorem tolerates_layout : layout.decoder.Tolerates shape := by
  refine Layout.tolerates layout_isLawful (.cons ?_ (.cons ?_ .nil))
  · exact Layout.serves_needed (Field.reads_mk (by intros; rfl)) rfl (Decoder.tolerates_tag _)
  · refine Layout.serves_optional (Field.reads_mk (by intros; rfl)) rfl
      Decoder.isScalar_int32.optional.tolerates Decoder.optional_of_null ?_
    rintro ⟨⟩ absent
    cases absent
    rfl

end RoundingChoice

namespace Criterion

/-- The members of a criterion. -/
def shape : Shape :=
  .record
    [.needed "kind" .plain,
     .needed "appliesToCategory" .plain,
     .needed "requiredPercent" .plain,
     ⟨"pointsRounding", RoundingChoice.shape, RoundingChoice.IsUnrounded⟩,
     ⟨"passedAssignmentsPercent", .plain, (· = .null)⟩,
     ⟨"passedAssignmentsRounding", RoundingChoice.shape, RoundingChoice.IsUnrounded⟩,
     ⟨"allowedFailures", .plain, (· = .null)⟩,
     ⟨"ignoredParticipants", .list .plain, Document.IsEmptyList⟩]

theorem layout_isLawful : layout.IsLawful where
  isSet := by
    simp only [layout, List.forall_mem_cons, List.not_mem_nil, IsEmpty.forall_iff, implies_true,
      and_true]
    and_intros
    all_goals exact (Field.reads_mk (by intros; rfl)).isSet_of_read
  apart := by
    simp only [layout, List.pairwise_cons, List.forall_mem_cons, List.not_mem_nil,
      IsEmpty.forall_iff, implies_true, and_true, List.Pairwise.nil]
    and_intros
    all_goals
      refine Field.apart_mk ?_ ?_ ?_ ?_ ?_ ?_
      · decide
      all_goals intros; rfl

theorem tolerates_layout : layout.decoder.Tolerates shape := by
  refine Layout.tolerates layout_isLawful (.cons ?_ (.cons ?_ (.cons ?_ (.cons ?_ (.cons ?_
    (.cons ?_ (.cons ?_ (.cons ?_ .nil))))))))
  · exact Layout.serves_needed (Field.reads_mk (by intros; rfl)) rfl (Decoder.tolerates_tag _)
  · exact Layout.serves_needed (Field.reads_mk (by intros; rfl)) rfl (Decoder.tolerates_tag _)
  · exact Layout.serves_needed (Field.reads_mk (by intros; rfl)) rfl
      Decoder.isScalar_double.tolerates
  · refine Layout.serves_optional (Field.reads_mk (by intros; rfl)) rfl
      RoundingChoice.tolerates_layout id ?_
    rintro ⟨⟩ absent
    cases absent
    rfl
  · refine Layout.serves_optional (Field.reads_mk (by intros; rfl)) rfl
      Decoder.isScalar_double.optional.tolerates Decoder.optional_of_null ?_
    rintro ⟨⟩ absent
    cases absent
    rfl
  · refine Layout.serves_optional (Field.reads_mk (by intros; rfl)) rfl
      RoundingChoice.tolerates_layout id ?_
    rintro ⟨⟩ absent
    cases absent
    rfl
  · refine Layout.serves_optional (Field.reads_mk (by intros; rfl)) rfl
      Decoder.isScalar_word32.optional.tolerates Decoder.optional_of_null ?_
    rintro ⟨⟩ absent
    cases absent
    rfl
  · refine Layout.serves_optional (Field.reads_mk (by intros; rfl)) rfl
      IdSet.tolerates_decoder IdSet.decoder_of_isEmptyList ?_
    rintro ⟨⟩ absent
    cases absent
    rfl

end Criterion

namespace Assignment

/-- The members of an assignment. -/
def shape : Shape :=
  .record [.needed "id" .plain, .needed "category" .plain, .needed "maxPoints" .plain,
    .needed "workflowState" .plain]

theorem layout_isLawful : layout.IsLawful where
  isSet := by
    simp only [layout, List.forall_mem_cons, List.not_mem_nil, IsEmpty.forall_iff, implies_true,
      and_true]
    and_intros
    all_goals exact (Field.reads_mk (by intros; rfl)).isSet_of_read
  apart := by
    simp only [layout, List.pairwise_cons, List.forall_mem_cons, List.not_mem_nil,
      IsEmpty.forall_iff, implies_true, and_true, List.Pairwise.nil]
    and_intros
    all_goals
      refine Field.apart_mk ?_ ?_ ?_ ?_ ?_ ?_
      · decide
      all_goals intros; rfl

theorem tolerates_layout : layout.decoder.Tolerates shape := by
  refine Layout.tolerates layout_isLawful (.cons ?_ (.cons ?_ (.cons ?_ (.cons ?_ .nil))))
  · exact Layout.serves_needed (Field.reads_mk (by intros; rfl)) rfl
      Decoder.isScalar_text.tolerates
  · exact Layout.serves_needed (Field.reads_mk (by intros; rfl)) rfl (Decoder.tolerates_tag _)
  · exact Layout.serves_needed (Field.reads_mk (by intros; rfl)) rfl
      Decoder.isScalar_double.tolerates
  · exact Layout.serves_needed (Field.reads_mk (by intros; rfl)) rfl (Decoder.tolerates_tag _)

end Assignment

namespace Assessment

/-- The members of an assessment. -/
def shape : Shape :=
  .record [.needed "assignmentId" .plain, ⟨"achievedPoints", .plain, (· = .null)⟩]

theorem layout_isLawful : layout.IsLawful where
  isSet := by
    simp only [layout, List.forall_mem_cons, List.not_mem_nil, IsEmpty.forall_iff, implies_true,
      and_true]
    and_intros
    all_goals exact (Field.reads_mk (by intros; rfl)).isSet_of_read
  apart := by
    simp only [layout, List.pairwise_cons, List.forall_mem_cons, List.not_mem_nil,
      IsEmpty.forall_iff, implies_true, and_true, List.Pairwise.nil]
    refine Field.apart_mk ?_ ?_ ?_ ?_ ?_ ?_
    · decide
    all_goals intros; rfl

theorem tolerates_layout : layout.decoder.Tolerates shape := by
  refine Layout.tolerates layout_isLawful (.cons ?_ (.cons ?_ .nil))
  · exact Layout.serves_needed (Field.reads_mk (by intros; rfl)) rfl
      Decoder.isScalar_text.tolerates
  · refine Layout.serves_optional (Field.reads_mk (by intros; rfl)) rfl
      Decoder.isScalar_double.optional.tolerates Decoder.optional_of_null ?_
    rintro ⟨⟩ absent
    cases absent
    rfl

end Assessment

namespace Participant

/-- The members of a participant. -/
def shape : Shape :=
  .record [.needed "participant" .plain,
    ⟨"assessments", .list Assessment.shape, Document.IsEmptyList⟩]

theorem layout_isLawful : layout.IsLawful where
  isSet := by
    simp only [layout, List.forall_mem_cons, List.not_mem_nil, IsEmpty.forall_iff, implies_true,
      and_true]
    and_intros
    all_goals exact (Field.reads_mk (by intros; rfl)).isSet_of_read
  apart := by
    simp only [layout, List.pairwise_cons, List.forall_mem_cons, List.not_mem_nil,
      IsEmpty.forall_iff, implies_true, and_true, List.Pairwise.nil]
    refine Field.apart_mk ?_ ?_ ?_ ?_ ?_ ?_
    · decide
    all_goals intros; rfl

theorem tolerates_layout : layout.decoder.Tolerates shape := by
  refine Layout.tolerates layout_isLawful (.cons ?_ (.cons ?_ .nil))
  · exact Layout.serves_needed (Field.reads_mk (by intros; rfl)) rfl
      Decoder.isScalar_text.tolerates
  · refine Layout.serves_optional (Field.reads_mk (by intros; rfl)) rfl
      Assessment.tolerates_layout.list Decoder.list_of_isEmptyList ?_
    rintro ⟨⟩ absent
    cases absent
    rfl

end Participant

namespace Course

/-- The members of a course. -/
def shape : Shape :=
  .record
    [.needed "id" .plain,
     ⟨"assignments", .list Assignment.shape, Document.IsEmptyList⟩,
     ⟨"admissionCriteria", .list Criterion.shape, Document.IsEmptyList⟩,
     ⟨"participants", .list Participant.shape, Document.IsEmptyList⟩]

theorem layout_isLawful : layout.IsLawful where
  isSet := by
    simp only [layout, List.forall_mem_cons, List.not_mem_nil, IsEmpty.forall_iff, implies_true,
      and_true]
    and_intros
    all_goals exact (Field.reads_mk (by intros; rfl)).isSet_of_read
  apart := by
    simp only [layout, List.pairwise_cons, List.forall_mem_cons, List.not_mem_nil,
      IsEmpty.forall_iff, implies_true, and_true, List.Pairwise.nil]
    and_intros
    all_goals
      refine Field.apart_mk ?_ ?_ ?_ ?_ ?_ ?_
      · decide
      all_goals intros; rfl

/-- **Variations of a course make no difference.** -/
theorem tolerates_layout : layout.decoder.Tolerates shape := by
  refine Layout.tolerates layout_isLawful (.cons ?_ (.cons ?_ (.cons ?_ (.cons ?_ .nil))))
  · exact Layout.serves_needed (Field.reads_mk (by intros; rfl)) rfl
      Decoder.isScalar_text.tolerates
  · refine Layout.serves_optional (Field.reads_mk (by intros; rfl)) rfl
      Assignment.tolerates_layout.list Decoder.list_of_isEmptyList ?_
    rintro ⟨⟩ absent
    cases absent
    rfl
  · refine Layout.serves_optional (Field.reads_mk (by intros; rfl)) rfl
      Criterion.tolerates_layout.list Decoder.list_of_isEmptyList ?_
    rintro ⟨⟩ absent
    cases absent
    rfl
  · refine Layout.serves_optional (Field.reads_mk (by intros; rfl)) rfl
      Participant.tolerates_layout.list Decoder.list_of_isEmptyList ?_
    rintro ⟨⟩ absent
    cases absent
    rfl

end Course

/-! ### Unknown tags -/

namespace Criterion

/-- The tags of a criterion that have a place for unknown names. -/
inductive Tag
  | kind
  | pointsRounding
  | passedAssignmentsRounding

namespace Tag

/-- The names that are known. -/
def names : Tag → List String
  | kind => RuleKind.known.map (·.name)
  | pointsRounding | passedAssignmentsRounding => RoundingMode.known.map (·.name)

/-- Where the tag stands in a criterion. -/
def path : Tag → List Step
  | kind => [.member "kind"]
  | pointsRounding => [.member "pointsRounding", .member "method"]
  | passedAssignmentsRounding => [.member "passedAssignmentsRounding", .member "method"]

/-- Building a rule of this kind looks at the tag. -/
def IsUsedBy (tag : Tag) (kind : RuleKind) : Prop :=
  tag = passedAssignmentsRounding → kind = .passedAssignments

/-- What is wrong with a criterion in which the name is not known. -/
def error : Tag → CriteriaError
  | kind => .unrecognizedKind
  | pointsRounding | passedAssignmentsRounding => .unrecognizedRounding

end Tag

/-- The criterion with a name that is not known. -/
def withUnknown (criterion : Criterion) : Tag → Criterion
  | .kind => { criterion with kind := .unrecognized }
  | .pointsRounding =>
    { criterion with pointsRounding := { criterion.pointsRounding with mode := .unrecognized } }
  | .passedAssignmentsRounding =>
    { criterion with
      passedAssignmentsRounding :=
        { criterion.passedAssignmentsRounding with mode := .unrecognized } }

end Criterion

section Carries

variable {name : String}

theorem RuleKind.carries_here (unknown : name ∉ known.map (·.name)) :
    decoder.Carries (Replaced (.string (.ok name)) []) fun _ kind => kind = unrecognized := by
  refine Decoder.carries_here (Decoder.oneOfOr_of_notMem _ ?_)
  rw [List.map_map]
  exact unknown

theorem RoundingChoice.carries_method (unknown : name ∉ RoundingMode.known.map (·.name)) :
    layout.decoder.Carries (Replaced (.string (.ok name)) [.member "method"])
      fun choice result => result = { choice with mode := .unrecognized } := by
  have read : RoundingMode.decoder (.string (.ok name)) = .ok .unrecognized := by
    refine Decoder.oneOfOr_of_notMem _ ?_
    rw [List.map_map]
    exact unknown
  refine Layout.carries_member layout_isLawful rfl (Field.reads_mk (by intros; rfl))
    (Decoder.carries_here read) ?_
  rintro draft value _ record rfl finished
  obtain rfl := Except.ok.inj finished
  exact ⟨_, rfl, rfl⟩

namespace Criterion

/-- A criterion is finished from a draft that holds what it needs. -/
theorem exists_of_finish {draft : Draft} {record : Criterion}
    (finished : layout.finish draft = .ok record) :
    ∃ kind category requiredPercent, draft.kind = some kind ∧ draft.category = some category ∧
      draft.requiredPercent = some requiredPercent := by
  obtain ⟨kind, hkind, finished⟩ := bind_eq_ok_iff.mp finished
  obtain ⟨category, hcategory, finished⟩ := bind_eq_ok_iff.mp finished
  obtain ⟨requiredPercent, hpercent, -⟩ := bind_eq_ok_iff.mp finished
  exact ⟨kind, category, requiredPercent, Field.eq_some_of_require hkind,
    Field.eq_some_of_require hcategory, Field.eq_some_of_require hpercent⟩

/-- **An unknown name for a tag is decoded as such**, and everything else as before. -/
theorem carries_tag {tag : Tag} (unknown : name ∉ tag.names) :
    layout.decoder.Carries (Replaced (.string (.ok name)) tag.path)
      fun criterion result => result = criterion.withUnknown tag := by
  cases tag with
  | kind =>
    refine Layout.carries_member layout_isLawful rfl (Field.reads_mk (by intros; rfl))
      (RuleKind.carries_here unknown) ?_
    rintro ⟨⟩ value _ record rfl finished
    obtain ⟨kind, category, requiredPercent, -, ⟨⟩, ⟨⟩⟩ := exists_of_finish finished
    obtain rfl := Except.ok.inj finished
    exact ⟨_, rfl, rfl⟩
  | pointsRounding =>
    refine Layout.carries_member layout_isLawful rfl (Field.reads_mk (by intros; rfl))
      (RoundingChoice.carries_method unknown) ?_
    rintro ⟨⟩ value _ record rfl finished
    obtain ⟨kind, category, requiredPercent, ⟨⟩, ⟨⟩, ⟨⟩⟩ := exists_of_finish finished
    obtain rfl := Except.ok.inj finished
    exact ⟨_, rfl, rfl⟩
  | passedAssignmentsRounding =>
    refine Layout.carries_member layout_isLawful rfl (Field.reads_mk (by intros; rfl))
      (RoundingChoice.carries_method unknown) ?_
    rintro ⟨⟩ value _ record rfl finished
    obtain ⟨kind, category, requiredPercent, ⟨⟩, ⟨⟩, ⟨⟩⟩ := exists_of_finish finished
    obtain rfl := Except.ok.inj finished
    exact ⟨_, rfl, rfl⟩

end Criterion

/-- The same within a course. -/
theorem Course.carries_tag {tag : Criterion.Tag} (unknown : name ∉ tag.names) (index : Nat) :
    layout.decoder.Carries
      (Replaced (.string (.ok name)) (.member "admissionCriteria" :: .item index :: tag.path))
      fun course result => ∃ before criterion after, before.length = index ∧
        course.criteria = before ++ criterion :: after ∧
        result = { course with criteria := before ++ criterion.withUnknown tag :: after } := by
  refine Layout.carries_member layout_isLawful rfl (Field.reads_mk (by intros; rfl))
    ((Criterion.carries_tag unknown).item index) ?_
  rintro draft values values' record ⟨before, criterion, _, after, place, rfl, rfl, rfl⟩ finished
  obtain ⟨id, given, finished⟩ := bind_eq_ok_iff.mp finished
  obtain rfl := Except.ok.inj finished
  exact ⟨_, bind_eq_ok_iff.mpr ⟨id, given, rfl⟩, before, criterion, after, place, rfl, rfl⟩

end Carries

/-! ### Unknown tags and rules -/

namespace Criterion

variable {criterion : Criterion}

theorem fault?_eq_none_iff : criterion.fault? = none ↔
    criterion.kind ≠ .unrecognized ∧ criterion.missingField? = none ∧
      ¬ criterion.HasUnknownRounding := by
  unfold fault?
  by_cases kind : criterion.kind = .unrecognized
  · simp [kind]
  · cases missing : criterion.missingField? with
    | some field => simp [kind]
    | none => simp [kind]

/-- Where nothing else is wrong, a rounding that is not known is. -/
theorem fault?_of_hasUnknownRounding (kind : criterion.kind ≠ .unrecognized)
    (missing : criterion.missingField? = none) (unknown : criterion.HasUnknownRounding) :
    criterion.fault? = some .unrecognizedRounding := by
  rw [fault?, if_neg kind, missing]
  exact if_pos unknown

/-- A criterion with an unknown name for a tag that is used is faulty, and if it was in order
before, this is its fault. -/
theorem exists_fault?_withUnknown {tag : Tag} (used : tag.IsUsedBy criterion.kind) :
    ∃ fault, (criterion.withUnknown tag).fault? = some fault ∧
      (criterion.fault? = none → fault = tag.error) := by
  have fault_of_fine : criterion.fault? = none →
      (criterion.withUnknown tag).fault? = some tag.error := by
    intro fine
    obtain ⟨kind, missing, -⟩ := fault?_eq_none_iff.mp fine
    cases tag with
    | kind => exact if_pos rfl
    | pointsRounding => exact fault?_of_hasUnknownRounding kind missing (Or.inl rfl)
    | passedAssignmentsRounding =>
      exact fault?_of_hasUnknownRounding kind missing (Or.inr ⟨used rfl, rfl⟩)
  cases found : (criterion.withUnknown tag).fault? with
  | none =>
    obtain ⟨kind, -, known⟩ := fault?_eq_none_iff.mp found
    cases tag with
    | kind => exact absurd rfl kind
    | pointsRounding => exact absurd (Or.inl rfl) known
    | passedAssignmentsRounding => exact absurd (Or.inr ⟨used rfl, rfl⟩) known
  | some fault =>
    exact ⟨fault, rfl, fun fine => Option.some.inj (found.symm.trans (fault_of_fine fine))⟩

/-- A tag that is not used changes no rule. -/
theorem ofCriterion_withUnknown {tag : Tag} (unused : ¬ tag.IsUsedBy criterion.kind)
    (assignments : List Assignment) :
    Rule.ofCriterion (criterion.withUnknown tag) assignments =
      Rule.ofCriterion criterion assignments := by
  obtain ⟨rfl, other⟩ := Classical.not_imp.mp unused
  obtain ⟨kind⟩ := criterion
  cases kind with
  | passedAssignments => exact absurd rfl other
  | _ => rfl

end Criterion

namespace Ruleset

/-- What an unknown name for a tag comes to when rules are built: an error if the tag is used, which
is its own if there was none before, and no difference if it is not. -/
structure Surfaces (tag : Criterion.Tag) (kind : RuleKind)
    (before after : Except CriteriaError Ruleset) : Prop where
  used : tag.IsUsedBy kind → ∃ error, after = .error error ∧
    ∀ ruleset, before = .ok ruleset → error = tag.error
  unused : ¬ tag.IsUsedBy kind → after = before

variable {before after : List Criterion} {criterion : Criterion} {assignments : List Assignment}

/-- Where rules were built, no criterion was at fault. -/
theorem fault?_eq_none_of_built {criteria : List Criterion} {ruleset : Ruleset}
    (built : ofCriteria criteria assignments = .ok ruleset) :
    criteria.findSome? Criterion.fault? = none := by
  have ends := map_kinds_ofCriteria_eq_outcome criteria assignments
  rw [built, outcome] at ends
  split at ends
  · cases ends
  · split at ends
    · cases ends
    · assumption

/-- Where a criterion is at fault, no rules are built, but for the first such fault. -/
theorem ofCriteria_of_fault {criteria : List Criterion} {fault : CriteriaError}
    (found : criteria.findSome? Criterion.fault? = some fault) :
    ofCriteria criteria assignments = .error fault := by
  have some_criterion : criteria ≠ [] := by
    rintro rfl
    cases found
  have ends := map_kinds_ofCriteria_eq_outcome criteria assignments
  rw [outcome, if_neg some_criterion, found] at ends
  cases built : ofCriteria criteria assignments with
  | ok ruleset =>
    rw [built] at ends
    cases ends
  | error error =>
    rw [built] at ends
    exact congrArg Except.error (Except.error.inj ends)

/-- **An unknown name surfaces when rules are built that use the tag, and only then.** -/
theorem surfaces_withUnknown (tag : Criterion.Tag) :
    Surfaces tag criterion.kind (ofCriteria (before ++ criterion :: after) assignments)
      (ofCriteria (before ++ criterion.withUnknown tag :: after) assignments) where
  used := by
    intro used
    obtain ⟨fault, found, own⟩ := Criterion.exists_fault?_withUnknown used
    have faulty : (before ++ criterion.withUnknown tag :: after).findSome? Criterion.fault? =
        (before.findSome? Criterion.fault?).or (some fault) := by
      rw [List.findSome?_append, List.findSome?_cons, found]
    -- the error of an earlier criterion comes first, but then no rules were built before either
    cases earlier : before.findSome? Criterion.fault? with
    | some first =>
      rw [earlier] at faulty
      refine ⟨first, ofCriteria_of_fault faulty, fun ruleset built => ?_⟩
      have none := fault?_eq_none_of_built built
      rw [List.findSome?_append, earlier] at none
      cases none
    | none =>
      rw [earlier] at faulty
      refine ⟨fault, ofCriteria_of_fault faulty, fun ruleset built => own ?_⟩
      have none := fault?_eq_none_of_built built
      exact List.findSome?_eq_none_iff.mp none criterion
        (List.mem_append_right before List.mem_cons_self)
  unused := by
    intro unused
    have same := Criterion.ofCriterion_withUnknown unused (Assignment.evaluated assignments)
    unfold ofCriteria
    dsimp only
    rw [List.mapM_append, List.mapM_append, List.mapM_cons, List.mapM_cons, same]

end Ruleset

/-! ### Texts -/

namespace Course

/-- A course with a criterion on half of the homework points, and what is written around it. -/
def written (kind : String) (notes first last : List (String × Json)) : Json :=
  .object (first ++ ("admissionCriteria", .list
    [.object ([("kind", .string kind), ("appliesToCategory", .string "HOMEWORK"),
      ("requiredPercent", .integer 50)] ++ notes)]) :: last)

theorem readable_written {reading : Numeral.Reading} {notes first last : List (String × Json)}
    (kind : String) (hnotes : ∀ member ∈ notes, member.2.Readable reading)
    (hfirst : ∀ member ∈ first, member.2.Readable reading)
    (hlast : ∀ member ∈ last, member.2.Readable reading) :
    (written kind notes first last).Readable reading := by
  refine .object (List.forall_mem_append.mpr ⟨hfirst, List.forall_mem_cons.mpr ⟨.list ?_, hlast⟩⟩)
  refine List.forall_mem_singleton.mpr (.object (List.forall_mem_append.mpr ⟨?_, hnotes⟩))
  refine List.forall_mem_cons.mpr ⟨.string kind, List.forall_mem_cons.mpr ⟨.string _, ?_⟩⟩
  exact List.forall_mem_singleton.mpr (.integer (by decide) (by decide))

/-- **Texts of one course are decoded alike.**  Where a text is decoded to a course, so is every
other text of a document that varies from its own by any number of changes.  With an unknown name
for a tag the course is decoded with this tag unknown, and whether that is an error is found out
when its rules are built. -/
theorem decode_varied {reading : Numeral.Reading} {bytes bytes' : List UInt8} {d d' : Document}
    {course : Course} (text : Document.ofBytesWith reading bytes = (d, false))
    (text' : Document.ofBytesWith reading bytes' = (d', false))
    (decoded : layout.decoder.decodeWith reading bytes = .ok course) :
    (Relation.ReflTransGen shape.Varies d d' →
      layout.decoder.decodeWith reading bytes' = .ok course) ∧
    ∀ (index : Nat) (tag : Criterion.Tag) (name : String), name ∉ tag.names →
      Replaced (.string (.ok name))
        (.member "admissionCriteria" :: .item index :: tag.path) d d' →
      ∃ before criterion after, before.length = index ∧
        course.criteria = before ++ criterion :: after ∧
        layout.decoder.decodeWith reading bytes' =
          .ok { course with criteria := before ++ criterion.withUnknown tag :: after } ∧
        Ruleset.Surfaces tag criterion.kind
          (Ruleset.ofCriteria course.criteria course.assignments)
          (Ruleset.ofCriteria (before ++ criterion.withUnknown tag :: after)
            course.assignments) := by
  -- nothing follows the document, so a text is decoded as its document is
  have whole : ∀ {bytes d} {course : Course}, Document.ofBytesWith reading bytes = (d, false) →
      (layout.decoder.decodeWith reading bytes = .ok course ↔ layout.decoder d = .ok course) := by
    intro bytes d course text
    rw [Decoder.decodeWith, text]
    show (layout.decoder d >>= fun value => .ok value) = _ ↔ _
    cases layout.decoder d with
    | error fault => exact Iff.rfl
    | ok value => exact Iff.rfl
  have read := (whole text).mp decoded
  constructor
  · intro varied
    refine (whole text').mpr ?_
    -- the documents on the way from `d` to `d'` need no text
    clear text text' decoded
    induction varied with
    | refl => exact read
    | tail _ varies ih => exact tolerates_layout varies ih
  · intro index tag name unknown replaced
    obtain ⟨result, own, before, criterion, after, place, criteria, rfl⟩ :=
      carries_tag unknown index replaced read
    refine ⟨before, criterion, after, place, criteria, (whole text').mpr own, ?_⟩
    rw [criteria]
    exact Ruleset.surfaces_withUnknown tag

/-- With its members in another order, a note, and no list of no participants, the course is the
same; with a kind that nobody knows it is a course for which no rules are built. -/
theorem demo_decode_varied :
    let course : Course := ⟨"c", [], [.plain .overallPercent .homework 50], []⟩
    let id : String × Json := ("id", .string "c")
    layout.decoder.decode (written "OVERALL_PERCENT" [("note", .list [.null])] [] [id]).bytes =
        .ok course ∧
      ∃ misread : Course,
        layout.decoder.decode (written "BONUS" [] [("participants", .list []), id] []).bytes =
          .ok misread ∧
        misread.criteria = [.plain .unrecognized .homework 50] ∧
        Ruleset.ofCriteria misread.criteria [] = .error .unrecognizedKind := by
  intro course id
  have nothing : ∀ member ∈ ([] : List (String × Json)), member.2.Readable Numeral.scaled :=
    List.forall_mem_nil _
  have named : ∀ member ∈ [id], member.2.Readable Numeral.scaled :=
    List.forall_mem_singleton.mpr (.string "c")
  have both : ∀ member ∈ [("participants", .list []), id], member.2.Readable Numeral.scaled :=
    List.forall_mem_cons.mpr ⟨.list (List.forall_mem_nil _), named⟩
  have noted : ∀ member ∈ [("note", Json.list [.null])], member.2.Readable Numeral.scaled :=
    List.forall_mem_singleton.mpr (.list (List.forall_mem_singleton.mpr .null))
  have plain := readable_written "OVERALL_PERCENT" nothing both nothing
  have varied := readable_written "OVERALL_PERCENT" noted nothing named
  have unknown := readable_written "BONUS" nothing both nothing
  have decoded : layout.decoder.decode
      (written "OVERALL_PERCENT" [] [("participants", .list []), id] []).bytes = .ok course := by
    refine (Decoder.decodeWith_bytes plain layout.decoder).trans ?_
    rfl
  have shortened : shape.Varies
      (written "OVERALL_PERCENT" [] [("participants", .list []), id] []).document
      (written "OVERALL_PERCENT" [] [id] []).document :=
    @Shape.Varies.shortened _ [] _ ⟨"participants", .list Participant.shape, _⟩ _ .closed
      (.tail _ (.tail _ (.tail _ (.head _)))) rfl
  have reordered : shape.Varies (written "OVERALL_PERCENT" [] [id] []).document
      (written "OVERALL_PERCENT" [] [] [id]).document :=
    .reordered (@Document.Reordered.here _ _ .closed (.swap _ _ []))
  have extended : shape.Varies (written "OVERALL_PERCENT" [] [] [id]).document
      (written "OVERALL_PERCENT" [("note", .list [.null])] [] [id]).document := by
    refine @Shape.Varies.member _ [] _ ⟨"admissionCriteria", .list Criterion.shape, _⟩ _ _ .closed
      (.tail _ (.tail _ (.head _))) ?_
    refine @Shape.Varies.item _ [] [] _ _ .closed ?_
    refine @Shape.Varies.extended _ [_, _, _] [] "note" (.list [.null] .closed) .closed ?_ ?_
    · decide
    · exact .list (List.forall_mem_singleton.mpr .null)
  have replaced : Replaced (.string (.ok "BONUS"))
      [.member "admissionCriteria", .item 0, .member "kind"]
      (written "OVERALL_PERCENT" [] [("participants", .list []), id] []).document
      (written "BONUS" [] [("participants", .list []), id] []).document := by
    refine @Document.Replaced.member _ _ _ [_, _] [] _ _ .closed ?_
    refine @Document.Replaced.item _ _ _ [] [] _ _ .closed rfl ?_
    exact @Document.Replaced.member _ _ _ [] [_, _] _ _ .closed .here
  constructor
  · exact (decode_varied (Document.ofBytesWith_bytes plain) (Document.ofBytesWith_bytes varied)
      decoded).1 (.tail (.tail (.single shortened) reordered) extended)
  · obtain ⟨before, criterion, after, place, criteria, own, surfaces⟩ :=
      (decode_varied (Document.ofBytesWith_bytes plain) (Document.ofBytesWith_bytes unknown)
        decoded).2 0 .kind "BONUS" (by decide) replaced
    obtain rfl := List.eq_nil_of_length_eq_zero place
    obtain ⟨rfl, rfl⟩ := List.cons.inj criteria
    obtain ⟨error, built, first⟩ := surfaces.used nofun
    refine ⟨_, own, rfl, ?_⟩
    rw [built, first _ rfl]
    rfl

end Course

end ExamAdmission
