/-
Numbers that were read are finite.

No text yields a number beyond all doubles: such a number is marked as too large, and no decoder
takes it.  So whatever is read holds finite numbers alone:

* `Document.IsFinite` — all numbers in a document are finite;
* `State.isFinite_step`, `State.isFinite_run` — **what has been read so far is**, byte by byte;
* `Decoder.Yields` — what a decoder says about its results, given such a document;
* `Layout.yields` — a record is what its draft became field by field;
* `Decoder.Yields.of_decodeWith` — so the same holds of the result of reading a text.
-/
import ExamAdmission.Json.Decoder
import ExamAdmission.Proofs.Double.Error
import ExamAdmission.Proofs.Json.Numeral
import ExamAdmission.Proofs.Rule.Construction

namespace ExamAdmission

/-! ### Numbers -/

/-- Digits are never made an undefined number. -/
def Numeral.Reading.IsDefined (reading : Numeral.Reading) : Prop :=
  ∀ digits exponent, reading digits exponent ≠ .nan

/-- The number is a double, or an integer of 64 bits. -/
def Number.IsFinite : Number → Prop
  | .integer value => value.natAbs < 2 ^ 64
  | .float value => value.isFinite = true
  | .tooLarge => True

namespace Numeral

section Scaled

open Double

theorem rank_powerOfTen (n : Nat) : (powerOfTen n).rank = nearestRank (10 ^ n) := by
  rw [powerOfTen, ofNat, rank_ofRat, Nat.pow_eq, Nat.cast_pow, Nat.cast_ofNat]

theorem powerOfTen_pos (n : Nat) : 0 < powerOfTen n := by
  refine ⟨by decide, ofRat_ne_nan _ _, ?_⟩
  have one : nearestRank 1 = 1 := nearestRank_two_zpow (e := 0) (by decide) (by decide)
  have least : nearestRank 1 ≤ nearestRank (10 ^ n) := nearestRank_mono (one_le_pow₀ (by norm_num))
  rw [rank_ofNat_zero, rank_powerOfTen]
  linarith

theorem isFinite_powerOfTen {n : Nat} (small : n ≤ 308) : (powerOfTen n).isFinite = true := by
  have top : (powerOfTen 308).isFinite = true := by decide +kernel
  have below : (powerOfTen n).rank ≤ (powerOfTen 308).rank := by
    rw [rank_powerOfTen, rank_powerOfTen]
    exact nearestRank_mono (pow_le_pow_right₀ (by norm_num) small)
  obtain ⟨negative, m, value⟩ := exists_of_isFinite top
  refine isFinite_of_abs_rank_lt (ofRat_ne_nan _ _) ?_
  rw [abs_of_pos (rank_pos_of_pos (powerOfTen_pos n))]
  exact below.trans_lt (value ▸ rank_lt_limit negative m)

/-- Scaling never divides by zero, nor one infinity by another. -/
theorem scaled_isDefined : scaled.IsDefined := by
  intro digits exponent
  have read : ofNat digits ≠ nan := ofRat_ne_nan _ _
  have divided : ∀ {x : Double} {n : Nat}, x ≠ nan → n ≤ 308 → x / powerOfTen n ≠ nan :=
    fun hx small => (lifts_div (isFinite_powerOfTen small) (powerOfTen_pos _)).apply_ne_nan hx
  unfold scaled
  split
  · exact Double.noConfusion
  · split
    · exact Double.noConfusion
    · split
      · exact (lifts_mul (isFinite_powerOfTen (by omega)) (powerOfTen_pos _)).apply_ne_nan read
      · split
        · exact divided read (by omega)
        · exact divided (divided read (by omega)) (by omega)

end Scaled

variable {reading : Reading}

theorem toDouble_ne_nan (defined : reading.IsDefined) (n : Numeral) : n.toDouble reading ≠ .nan := by
  have h := defined n.significand
    (n.scale + (if n.negativeExponent then -(n.exponent : Int) else n.exponent))
  unfold toDouble
  dsimp only
  split
  · cases value : reading n.significand _ with
    | nan => exact absurd value h
    | infinity negative => exact Double.noConfusion
    | finite negative m => exact Double.noConfusion
  · exact h

theorem isFinite_value (defined : reading.IsDefined) {n : Numeral} (room : n.significand < 2 ^ 64) :
    (n.value reading).IsFinite := by
  have double : Number.IsFinite
      (if (n.toDouble reading).isInfinite then .tooLarge else .float (n.toDouble reading)) := by
    split
    · trivial
    · next inRange =>
      have h := toDouble_ne_nan defined n
      cases value : n.toDouble reading with
      | nan => exact absurd value h
      | infinity negative => exact absurd (value ▸ rfl) inRange
      | finite negative m => rfl
  unfold value
  dsimp only
  split
  · split
    · exact room
    · split
      · exact ((Int.natAbs_neg _).trans (Int.natAbs_natCast _)).trans_lt room
      · exact double
  · exact double

theorem significand_pushWhole {n : Numeral} (room : n.significand < 2 ^ 64) (c : Char) :
    (n.pushWhole c).significand < 2 ^ 64 := by
  unfold pushWhole
  split
  · next fits =>
    rw [hasRoomFor, Bool.and_eq_true, decide_eq_true_eq] at fits
    exact fits.2
  · exact room

theorem significand_pushFraction {n : Numeral} (room : n.significand < 2 ^ 64) (c : Char) :
    (n.pushFraction c).significand < 2 ^ 64 := by
  unfold pushFraction
  split
  · next fits =>
    rw [hasRoomFor, Bool.and_eq_true, decide_eq_true_eq] at fits
    exact fits.2
  · exact room

/-- What a step says about a number keeps within 64 bits. -/
def StepFits : TokenStep Numeral Number → Prop
  | .more next => next.significand < 2 ^ 64
  | .done number => number.IsFinite
  | .fault _ _ => True

theorem stepFits_needDigit (c : Char) {next : Numeral} (room : next.significand < 2 ^ 64) :
    StepFits (needDigit c next) := by
  unfold needDigit
  split
  · exact room
  · trivial

theorem stepFits_afterWhole (defined : reading.IsDefined) {n : Numeral}
    (room : n.significand < 2 ^ 64) (c : Char) : StepFits (n.afterWhole reading c) := by
  unfold afterWhole
  split
  · exact room
  · split
    · exact room
    · exact isFinite_value defined room

theorem stepFits_step (defined : reading.IsDefined) {n : Numeral} (room : n.significand < 2 ^ 64)
    (c : Char) : StepFits (n.step reading c) := by
  have done := isFinite_value defined room
  have whole := significand_pushWhole room c
  have fraction := significand_pushFraction room c
  unfold step
  cases n.part with
  | sign =>
    dsimp only
    split
    · exact room
    · refine stepFits_needDigit c ?_
      exact whole
  | zero =>
    dsimp only
    split
    · trivial
    · exact stepFits_afterWhole defined room c
  | whole =>
    dsimp only
    split
    · exact whole
    · exact stepFits_afterWhole defined room c
  | point =>
    refine stepFits_needDigit c ?_
    exact fraction
  | fraction =>
    dsimp only
    split
    · exact fraction
    · split
      · exact room
      · exact done
  | mark =>
    dsimp only
    split
    · exact room
    · split
      · exact room
      · refine stepFits_needDigit c ?_
        exact room
  | markSign =>
    refine stepFits_needDigit c ?_
    exact room
  | exponent =>
    dsimp only
    split
    · exact room
    · exact done

theorem stepFits_finish (defined : reading.IsDefined) {n : Numeral} (room : n.significand < 2 ^ 64) :
    StepFits (n.finish reading) := by
  unfold finish
  split
  all_goals first | exact isFinite_value defined room | trivial

theorem significand_start? {c : Char} {n : Numeral} (h : start? c = some n) :
    n.significand < 2 ^ 64 := by
  unfold start? at h
  split at h
  · cases h
    decide
  · split at h
    · cases h
      decide
    · split at h
      · next digit =>
        cases h
        have small := digitOf_le digit
        dsimp only
        omega
      · cases h

end Numeral

/-! ### Documents -/

/-- All numbers of the document, and of what it holds, are finite. -/
inductive Document.IsFinite : Document → Prop
  | null : IsFinite .null
  | boolean (value : Bool) : IsFinite (.boolean value)
  | number {value : Number} (h : value.IsFinite) : IsFinite (.number value)
  | string (text : Text) : IsFinite (.string text)
  | list {items : List Document} {stop : ListEnd} (h : ∀ item ∈ items, IsFinite item) :
      IsFinite (.list items stop)
  | object {members : List (Text × Document)} {stop : ObjectEnd}
      (h : ∀ member ∈ members, IsFinite member.2) : IsFinite (.object members stop)
  | broken (start : Start) (strict lenient : Fault) : IsFinite (.broken start strict lenient)

/-- What is under way holds finite numbers. -/
def Frame.IsFinite : Frame → Prop
  | .list items => ∀ item ∈ items, item.IsFinite
  | .object members _ => ∀ member ∈ members, member.2.IsFinite

namespace State

/-- The lists and objects under way hold finite numbers. -/
def StackIsFinite (stack : Stack) : Prop := ∀ frame ∈ stack, frame.IsFinite

theorem stackIsFinite_cons {frame : Frame} {stack : Stack} :
    StackIsFinite (frame :: stack) ↔ frame.IsFinite ∧ StackIsFinite stack :=
  List.forall_mem_cons

/-- What has been read so far holds finite numbers. -/
def IsFinite : State → Prop
  | beforeValue _ stack => StackIsFinite stack
  | inWord _ value stack => value.IsFinite ∧ StackIsFinite stack
  | inNumeral numeral stack => numeral.significand < 2 ^ 64 ∧ StackIsFinite stack
  | inString _ stack => StackIsFinite stack
  | afterValue value stack => value.IsFinite ∧ StackIsFinite stack
  | beforeKey _ members stack => (∀ member ∈ members, member.2.IsFinite) ∧ StackIsFinite stack
  | inKey _ members stack => (∀ member ∈ members, member.2.IsFinite) ∧ StackIsFinite stack
  | beforeColon _ members stack => (∀ member ∈ members, member.2.IsFinite) ∧ StackIsFinite stack
  | stopped document _ => document.IsFinite

variable {value : Document} {items : List Document} {members : List (Text × Document)}
  {stack : Stack}

theorem isFinite_reverse_list (h : ∀ item ∈ items, item.IsFinite) (stop : ListEnd) :
    (Document.list items.reverse stop).IsFinite :=
  .list fun item mem => h item (List.mem_reverse.mp mem)

theorem isFinite_reverse_object (h : ∀ member ∈ members, member.2.IsFinite) (stop : ObjectEnd) :
    (Document.object members.reverse stop).IsFinite :=
  .object fun member mem => h member (List.mem_reverse.mp mem)

theorem isFinite_closeUp (lenient : Fault) (hstack : StackIsFinite stack) (hvalue : value.IsFinite) :
    (closeUp lenient stack value).IsFinite := by
  induction stack generalizing value with
  | nil => exact hvalue
  | cons frame stack ih =>
    obtain ⟨hframe, below⟩ := stackIsFinite_cons.mp hstack
    cases frame with
    | list items =>
      exact ih below (isFinite_reverse_list (List.forall_mem_cons.mpr ⟨hvalue, hframe⟩) _)
    | object members key =>
      exact ih below (isFinite_reverse_object (List.forall_mem_cons.mpr ⟨hvalue, hframe⟩) _)

theorem isFinite_stopBroken (start : Start) (strict lenient : Fault) (hstack : StackIsFinite stack) :
    (stopBroken start strict lenient stack).IsFinite :=
  isFinite_closeUp lenient hstack (.broken start strict lenient)

theorem isFinite_stopList (hitems : ∀ item ∈ items, item.IsFinite) (stop : ListEnd)
    (hstack : StackIsFinite stack) : (stopList items stop stack).IsFinite :=
  isFinite_closeUp _ hstack (isFinite_reverse_list hitems stop)

theorem isFinite_stopObject (hmembers : ∀ member ∈ members, member.2.IsFinite) (stop : ObjectEnd)
    (hstack : StackIsFinite stack) : (stopObject members stop stack).IsFinite :=
  isFinite_closeUp _ hstack (isFinite_reverse_object hmembers stop)

theorem isFinite_startValue (c : Char) (hstack : StackIsFinite stack) :
    (startValue c stack).IsFinite := by
  unfold startValue
  split
  · exact hstack
  · split
    · exact List.forall_mem_cons.mpr ⟨List.forall_mem_nil _, hstack⟩
    · split
      · exact ⟨List.forall_mem_nil _, hstack⟩
      · split
        · exact ⟨.null, hstack⟩
        · split
          · exact ⟨.boolean true, hstack⟩
          · split
            · exact ⟨.boolean false, hstack⟩
            · split
              · next started => exact ⟨Numeral.significand_start? started, hstack⟩
              · exact isFinite_stopBroken _ _ _ hstack

theorem isFinite_stepValue (c : Char) (slot : Slot) (hstack : StackIsFinite stack) :
    (stepValue c slot stack).IsFinite := by
  unfold stepValue
  split
  · obtain ⟨hitems, hstack⟩ := stackIsFinite_cons.mp hstack
    split
    · exact ⟨isFinite_reverse_list hitems _, hstack⟩
    · exact isFinite_startValue c (stackIsFinite_cons.mpr ⟨hitems, hstack⟩)
  · obtain ⟨hitems, hstack⟩ := stackIsFinite_cons.mp hstack
    split
    · exact isFinite_stopList hitems _ hstack
    · exact isFinite_startValue c (stackIsFinite_cons.mpr ⟨hitems, hstack⟩)
  · exact isFinite_startValue c hstack

theorem isFinite_stepAfter (c : Char) (hvalue : value.IsFinite) (hstack : StackIsFinite stack) :
    (stepAfter c value stack).IsFinite := by
  cases stack with
  | nil => exact hvalue
  | cons frame stack =>
    obtain ⟨hframe, below⟩ := stackIsFinite_cons.mp hstack
    cases frame with
    | list items =>
      have hitems : ∀ item ∈ value :: items, item.IsFinite :=
        List.forall_mem_cons.mpr ⟨hvalue, hframe⟩
      rw [stepAfter]
      split
      · exact stackIsFinite_cons.mpr ⟨hitems, below⟩
      · split
        · exact ⟨isFinite_reverse_list hitems _, below⟩
        · exact isFinite_stopList hitems _ below
    | object members key =>
      have hmembers : ∀ member ∈ (key, value) :: members, member.2.IsFinite :=
        List.forall_mem_cons.mpr ⟨hvalue, hframe⟩
      rw [stepAfter]
      split
      · exact ⟨hmembers, below⟩
      · split
        · exact ⟨isFinite_reverse_object hmembers _, below⟩
        · exact isFinite_stopObject hmembers _ below

theorem isFinite_stepKey (c : Char) (first : Bool) (hmembers : ∀ member ∈ members, member.2.IsFinite)
    (hstack : StackIsFinite stack) : (stepKey c first members stack).IsFinite := by
  unfold stepKey
  split
  · exact ⟨hmembers, hstack⟩
  · split
    · split
      · exact ⟨isFinite_reverse_object hmembers _, hstack⟩
      · exact isFinite_stopObject hmembers _ hstack
    · exact isFinite_stopObject hmembers _ hstack

variable {reading : Numeral.Reading}

/-- A byte within a word goes on with it, completes it or breaks it. -/
theorem isFinite_step_inWord (rest : List Char) (b : UInt8) (hvalue : value.IsFinite)
    (hstack : StackIsFinite stack) : ((inWord rest value stack).step reading b).IsFinite := by
  match rest with
  | [] => exact ⟨hvalue, hstack⟩
  | [last] =>
    unfold step
    dsimp only
    split
    · exact ⟨hvalue, hstack⟩
    · exact isFinite_stopBroken _ _ _ hstack
  | next :: second :: rest =>
    unfold step
    dsimp only
    split
    · exact ⟨hvalue, hstack⟩
    · exact isFinite_stopBroken _ _ _ hstack

/-- A byte behind a number is looked at a second time, for what follows the number. -/
theorem isFinite_step_inNumeral (defined : reading.IsDefined) {numeral : Numeral}
    (room : numeral.significand < 2 ^ 64) (b : UInt8) (hstack : StackIsFinite stack) :
    ((inNumeral numeral stack).step reading b).IsFinite := by
  have fits := Numeral.stepFits_step defined room (Char.ofUInt8 b)
  unfold step
  dsimp only
  split
  · next went =>
    rw [went] at fits
    exact ⟨fits, hstack⟩
  · exact isFinite_stopBroken _ _ _ hstack
  · next went =>
    rw [went] at fits
    split
    · exact ⟨.number fits, hstack⟩
    · exact isFinite_stepAfter _ (.number fits) hstack

/-- **One byte more, and what has been read still holds finite numbers.** -/
theorem isFinite_step (defined : reading.IsDefined) {state : State} (h : state.IsFinite)
    (b : UInt8) : (state.step reading b).IsFinite := by
  cases state with
  | beforeValue slot stack =>
    unfold step
    dsimp only
    split
    · exact h
    · exact isFinite_stepValue _ slot h
  | inWord rest value stack => exact isFinite_step_inWord rest b h.1 h.2
  | inNumeral numeral stack => exact isFinite_step_inNumeral defined h.1 b h.2
  | inString token stack =>
    unfold step
    dsimp only
    split
    · exact h
    · exact ⟨.string _, h⟩
    · exact isFinite_stopBroken _ _ _ h
  | afterValue value stack =>
    unfold step
    dsimp only
    split
    · exact h
    · exact isFinite_stepAfter _ h.1 h.2
  | beforeKey first members stack =>
    unfold step
    dsimp only
    split
    · exact h
    · exact isFinite_stepKey _ first h.1 h.2
  | inKey token members stack =>
    unfold step
    dsimp only
    split
    · exact h
    · exact h
    · exact isFinite_stopObject h.1 _ h.2
  | beforeColon key members stack =>
    unfold step
    dsimp only
    split
    · exact h
    · split
      · exact stackIsFinite_cons.mpr h
      · exact isFinite_stopObject h.1 _ h.2
  | stopped document trailing => exact h

theorem isFinite_run (defined : reading.IsDefined) {state : State} (h : state.IsFinite)
    (bytes : List UInt8) : (state.run reading bytes).IsFinite := by
  induction bytes generalizing state with
  | nil => exact h
  | cons b bytes ih => exact ih (isFinite_step defined h b)

theorem isFinite_finishAfter (hvalue : value.IsFinite) (hstack : StackIsFinite stack) :
    (finishAfter value stack).IsFinite := by
  cases stack with
  | nil => exact hvalue
  | cons frame stack =>
    obtain ⟨hframe, below⟩ := stackIsFinite_cons.mp hstack
    cases frame with
    | list items => exact isFinite_stopList (List.forall_mem_cons.mpr ⟨hvalue, hframe⟩) _ below
    | object members key =>
      exact isFinite_stopObject (List.forall_mem_cons.mpr ⟨hvalue, hframe⟩) _ below

theorem isFinite_finishValue (slot : Slot) (hstack : StackIsFinite stack) :
    (finishValue slot stack).IsFinite := by
  unfold finishValue
  split
  · obtain ⟨hitems, hstack⟩ := stackIsFinite_cons.mp hstack
    exact isFinite_stopList hitems _ hstack
  · obtain ⟨hitems, hstack⟩ := stackIsFinite_cons.mp hstack
    exact isFinite_stopList hitems _ hstack
  · exact isFinite_stopBroken _ _ _ hstack

theorem isFinite_finish (defined : reading.IsDefined) {state : State} (h : state.IsFinite) :
    (state.finish reading).IsFinite := by
  cases state with
  | beforeValue slot stack => exact isFinite_finishValue slot h
  | inWord rest value stack => exact isFinite_stopBroken _ _ _ h.2
  | inNumeral numeral stack =>
    obtain ⟨room, hstack⟩ := h
    have fits := Numeral.stepFits_finish defined room
    rw [finish]
    split
    · next ended =>
      rw [ended] at fits
      exact isFinite_finishAfter (.number fits) hstack
    · exact isFinite_stopBroken _ _ _ hstack
    · exact isFinite_stopBroken _ _ _ hstack
  | inString token stack =>
    rw [finish]
    split
    · exact isFinite_stopBroken _ _ _ h
    · exact isFinite_stopBroken _ _ _ h
  | afterValue value stack => exact isFinite_finishAfter h.1 h.2
  | beforeKey first members stack => exact isFinite_stopObject h.1 _ h.2
  | inKey token members stack =>
    rw [finish]
    split
    · exact isFinite_stopObject h.1 _ h.2
    · exact isFinite_stopObject h.1 _ h.2
  | beforeColon key members stack => exact isFinite_stopObject h.1 _ h.2
  | stopped document trailing => exact h

theorem isFinite_result {state : State} (h : state.IsFinite) : state.result.1.IsFinite := by
  cases state with
  | stopped document trailing => exact h
  | _ => exact .broken _ _ _

end State

/-- **Every document that is read holds finite numbers.** -/
theorem Document.isFinite_ofBytesWith {reading : Numeral.Reading} (defined : reading.IsDefined)
    (bytes : List UInt8) : (ofBytesWith reading bytes).1.IsFinite := by
  have start : State.start.IsFinite := List.forall_mem_nil _
  exact State.isFinite_result (State.isFinite_finish defined (State.isFinite_run defined start bytes))

/-! ### Decoders -/

section Decoders

variable {α : Type}

/-- Of finite numbers the decoder makes only results with this property. -/
def Decoder.Yields (decoder : Decoder α) (property : α → Prop) : Prop :=
  ∀ document : Document, document.IsFinite → ∀ value, decoder document = .ok value → property value

namespace Decoder

theorem yields_true (decoder : Decoder α) : decoder.Yields fun _ => True :=
  fun _ _ _ _ => trivial

theorem yields_double : double.Yields (·.isFinite = true) := by
  intro document finite value decoded
  cases finite with
  | number h =>
    rename_i number
    cases number with
    | integer n =>
      obtain rfl := Except.ok.inj decoded
      exact Double.isFinite_ofInt h
    | float x =>
      obtain rfl := Except.ok.inj decoded
      exact h
    | tooLarge => cases decoded
  | _ => cases decoded

variable {decoder : Decoder α} {property : α → Prop}

theorem Yields.optional (h : decoder.Yields property) :
    decoder.optional.Yields fun value => ∀ x ∈ value.toList, property x := by
  intro document finite value decoded
  unfold Decoder.optional at decoded
  split at decoded
  · obtain rfl := Except.ok.inj decoded
    exact List.forall_mem_nil _
  · obtain ⟨x, hx, rfl⟩ := map_eq_ok_iff.mp decoded
    exact List.forall_mem_singleton.mpr (h _ finite x hx)

theorem Yields.list (h : decoder.Yields property) :
    decoder.list.Yields fun values => ∀ x ∈ values, property x := by
  intro document finite values decoded
  cases finite with
  | @list items stop hitems =>
    obtain ⟨read, hread, decoded⟩ := bind_eq_ok_iff.mp decoded
    have same : read = values := by
      revert decoded
      cases stop.fault? with
      | none => exact Except.ok.inj
      | some fault => exact fun failed => by cases failed
    subst same
    intro x hx
    obtain ⟨item, mem, decoded⟩ := exists_of_forall₂ (mapM_eq_ok_iff.mp hread) hx
    exact h item (hitems item mem) x decoded
  | _ => cases decoded

end Decoder

/-! ### Records -/

/-- Of finite numbers the field makes only drafts with this property. -/
def Field.Keeps {σ : Type} (field : Field σ) (property : σ → Prop) : Prop :=
  ∀ document : Document, document.IsFinite → ∀ draft, property draft → ∀ next,
    field.read document draft = .ok next → property next

theorem Field.eq_some_of_require {name : String} {field : Option α} {value : α}
    (h : Field.require name field = .ok value) : field = some value := by
  cases field with
  | none => cases h
  | some x => exact congrArg some (Except.ok.inj h)

variable {σ : Type} {name : String} {decoder : Decoder α} {get : σ → Option α} {set : σ → α → σ}
  {property : α → Prop} {kept : σ → Prop}

theorem Field.keeps_needed (yields : decoder.Yields property)
    (keeps : ∀ draft value, kept draft → property value → kept (set draft value)) :
    (Field.needed name decoder get set).Keeps kept := by
  intro document finite draft before next read
  obtain ⟨value, decoded, rfl⟩ := map_eq_ok_iff.mp read
  exact keeps draft value before (yields document finite value decoded)

theorem Field.keeps_optional (yields : decoder.Yields property)
    (keeps : ∀ draft value, kept draft → property value → kept (set draft value)) :
    (Field.optional name decoder get set).Keeps kept :=
  @Field.keeps_needed _ _ name decoder get set property kept yields keeps

namespace Layout

variable {layout : Layout σ α}

theorem keeps_readMembers (keeps : ∀ field ∈ layout.fields, field.Keeps kept)
    {members : List (Text × Document)} (finite : ∀ member ∈ members, member.2.IsFinite) {draft : σ}
    (before : kept draft) {filled : σ} (read : layout.readMembers members draft = .ok filled) :
    kept filled := by
  induction members generalizing draft with
  | nil =>
    obtain rfl := Except.ok.inj read
    exact before
  | cons member members ih =>
    obtain ⟨key, value⟩ := member
    obtain ⟨finiteValue, finite⟩ := List.forall_mem_cons.mp finite
    rw [readMembers] at read
    obtain ⟨name, -, read⟩ := bind_eq_ok_iff.mp read
    cases found : layout.field? name with
    | none =>
      rw [found] at read
      obtain ⟨-, -, read⟩ := bind_eq_ok_iff.mp read
      exact ih finite before read
    | some field =>
      rw [found] at read
      dsimp only at read
      split at read
      · cases read
      · obtain ⟨next, given, read⟩ := bind_eq_ok_iff.mp read
        have mem := List.mem_of_find?_eq_some found
        exact ih finite (keeps field mem value finiteValue draft before next given) read

theorem keeps_readItems {fields : List (Field σ)} (keeps : ∀ field ∈ fields, field.Keeps kept)
    {items : List Document} (finite : ∀ item ∈ items, item.IsFinite) {stop : ListEnd} {index : Nat}
    {draft : σ} (before : kept draft) {filled : σ}
    (read : layout.readItems stop index fields items draft = .ok filled) : kept filled := by
  induction fields generalizing items index draft with
  | nil =>
    cases items with
    | nil =>
      cases stop with
      | closed =>
        obtain rfl := Except.ok.inj read
        exact before
      | _ => cases read
    | cons item items => cases read
  | cons field fields ih =>
    obtain ⟨keepsField, keeps⟩ := List.forall_mem_cons.mp keeps
    cases items with
    | nil =>
      rw [readItems] at read
      split at read
      · cases read
      · split at read
        · cases read
        · exact ih keeps finite before read
    | cons item items =>
      obtain ⟨finiteItem, finite⟩ := List.forall_mem_cons.mp finite
      rw [readItems] at read
      obtain ⟨next, given, read⟩ := bind_eq_ok_iff.mp read
      exact ih keeps finite (keepsField item finiteItem draft before next given) read

/-- Only behind a closed object a record is finished. -/
theorem finish_of_readObjectEnd {draft : σ} {stop : ObjectEnd} {record : α}
    (read : layout.readObjectEnd draft stop = .ok record) : layout.finish draft = .ok record := by
  cases stop with
  | closed => exact read
  | missingColon key fault =>
    obtain ⟨name, -, read⟩ := bind_eq_ok_iff.mp read
    split at read
    all_goals cases read
  | _ => cases read

/-- **What holds of the empty draft and is kept by every field yields what holds of the record.** -/
theorem yields {property : α → Prop} (kept : σ → Prop) (empty : kept layout.empty)
    (keeps : ∀ field ∈ layout.fields, field.Keeps kept)
    (finish : ∀ draft, kept draft → ∀ record, layout.finish draft = .ok record → property record) :
    layout.decoder.Yields property := by
  intro document finite record decoded
  cases finite with
  | @object members stop hmembers =>
    obtain ⟨draft, read, decoded⟩ := bind_eq_ok_iff.mp decoded
    have filled := keeps_readMembers keeps hmembers empty read
    exact finish draft filled record (finish_of_readObjectEnd decoded)
  | @list items stop hitems =>
    obtain ⟨draft, read, decoded⟩ := bind_eq_ok_iff.mp decoded
    exact finish draft (keeps_readItems keeps hitems empty read) record decoded
  | _ => cases decoded

end Layout

theorem Decoder.Yields.of_decodeWith {reading : Numeral.Reading} (defined : reading.IsDefined)
    {decoder : Decoder α} {property : α → Prop} (yields : decoder.Yields property)
    {bytes : List UInt8} {value : α} (decoded : decoder.decodeWith reading bytes = .ok value) :
    property value := by
  have finite := Document.isFinite_ofBytesWith defined bytes
  rw [decodeWith] at decoded
  cases h : Document.ofBytesWith reading bytes with
  | mk document trailing =>
    rw [h] at decoded finite
    obtain ⟨result, read, decoded⟩ := bind_eq_ok_iff.mp decoded
    cases trailing with
    | true => cases decoded
    | false =>
      obtain rfl := Except.ok.inj decoded
      exact yields document finite result read

end Decoders

end ExamAdmission
