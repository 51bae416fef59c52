/-
Texts that were written are read.

Reading a value leaves a state behind from which the next character goes on as it does behind a
complete value.  A number does not end before that character, so the states need not be equal;
`State.Completes` says what they have in common.

* `Json.document` — the document that a value is read as;
* `Json.Readable` — the values whose numbers are read as they were written;
* `State.completes_value` — **reading the text of a value completes its document**, wherever the
  value stands, by induction on the value;
* `Document.ofBytesWith_bytes` — so the text of a value is read as its document.
-/
import ExamAdmission.Json.Decoder
import ExamAdmission.Proofs.Json.Numeral
import ExamAdmission.Proofs.Json.StringToken

namespace ExamAdmission

/-! ### The document of a value -/

namespace Json

mutual

/-- The document that a value is read as; a double that is not finite is written as null. -/
def document : Json → Document
  | null => .null
  | boolean value => .boolean value
  | integer value => .number (.integer value)
  | float value => if value.isFinite then .number (.float value) else .null
  | string text => .string (.ok text)
  | list items => .list (itemDocuments items) .closed
  | object members => .object (memberDocuments members) .closed

def itemDocuments : List Json → List Document
  | [] => []
  | item :: items => document item :: itemDocuments items

def memberDocuments : List (String × Json) → List (Text × Document)
  | [] => []
  | (key, value) :: members => (.ok key, document value) :: memberDocuments members

end

theorem itemDocuments_eq (items : List Json) : itemDocuments items = items.map document := by
  induction items with
  | nil => rfl
  | cons item items ih => rw [itemDocuments, ih, List.map_cons]

theorem memberDocuments_eq (members : List (String × Json)) :
    memberDocuments members = members.map fun member => (.ok member.1, member.2.document) := by
  induction members with
  | nil => rfl
  | cons member members ih => rw [memberDocuments, ih, List.map_cons]

theorem document_list (items : List Json) :
    (list items).document = .list (items.map document) .closed := by
  rw [document, itemDocuments_eq]

theorem document_object (members : List (String × Json)) :
    (object members).document =
      .object (members.map fun member => (.ok member.1, member.2.document)) .closed := by
  rw [document, memberDocuments_eq]

theorem document_float {x : Double} (h : x.isFinite = true) :
    (float x).document = .number (.float x) := by
  rw [document, if_pos h]

/-- The integers of a value have at most 64 bits, and its doubles are read as they were written. -/
inductive Readable (reading : Numeral.Reading) : Json → Prop
  | null : Readable reading .null
  | boolean (value : Bool) : Readable reading (.boolean value)
  | integer {value : Int} (low : -2 ^ 63 ≤ value) (high : value < 2 ^ 64) :
      Readable reading (.integer value)
  | float {value : Double} (h : value.isFinite = true → Numeral.readsBack reading value = true) :
      Readable reading (.float value)
  | string (text : String) : Readable reading (.string text)
  | list {items : List Json} (h : ∀ item ∈ items, Readable reading item) :
      Readable reading (.list items)
  | object {members : List (String × Json)} (h : ∀ member ∈ members, Readable reading member.2) :
      Readable reading (.object members)

end Json

/-! ### Reading characters -/

namespace State

variable (reading : Numeral.Reading)

/-- Reads characters in a row. -/
def runText (state : State) (chars : List Char) : State := state.run reading (charBytes chars)

theorem runText_append (state : State) (chars more : List Char) :
    state.runText reading (chars ++ more) = (state.runText reading chars).runText reading more := by
  rw [runText, charBytes_append, run_append]
  rfl

theorem runText_cons {c : Char} (ascii : c.toNat < 128) (state : State) (chars : List Char) :
    state.runText reading (c :: chars) =
      (state.step reading c.val.toUInt8).runText reading chars := by
  rw [runText, charBytes_cons, utf8EncodeChar_of_ascii ascii]
  rfl

/-- The characters that may follow a value. -/
def IsDelimiter (c : Char) : Prop := c = ',' ∨ c = ']' ∨ c = '\x7d'

/-- The state goes on as behind this value. -/
structure Completes (state : State) (value : Document) (stack : Stack) : Prop where
  step : ∀ c, IsDelimiter c → state.step reading c.val.toUInt8 = stepAfter c value stack
  finish : state.finish reading = finishAfter value stack

theorem completes_afterValue (value : Document) (stack : Stack) :
    (State.afterValue value stack).Completes reading value stack where
  step c h := by rcases h with rfl | rfl | rfl <;> rfl
  finish := rfl

/-! ### Numbers -/

variable {stack : Stack}

/-- A number goes on only with ASCII characters. -/
theorem ascii_of_step {n next : Numeral} {c : Char} (h : n.step reading c = .more next) :
    c.toNat < 128 := by
  by_contra above
  have digit : ¬ c.isDigit = true := by
    intro digit
    have small := Numeral.digitOf_le digit
    rw [Numeral.digitOf] at small
    omega
  have other : ∀ d : Char, d.toNat < 128 → c ≠ d := by
    rintro d low rfl
    exact above low
  have point := other '.' (by decide)
  have mark : ¬ (c = 'e' ∨ c = 'E') := by
    rintro (same | same)
    · exact other 'e' (by decide) same
    · exact other 'E' (by decide) same
  have zero := other '0' (by decide)
  have plus := other '+' (by decide)
  have minus := other '-' (by decide)
  unfold Numeral.step Numeral.afterWhole Numeral.needDigit at h
  split at h
  all_goals simp only [if_neg digit, if_neg point, if_neg mark, if_neg zero, if_neg plus,
    if_neg minus] at h
  all_goals cases h

theorem runText_inNumeral {n next : Numeral} {text : List Char}
    (h : n.steps reading text = some next) :
    (State.inNumeral n stack).runText reading text = .inNumeral next stack := by
  induction text generalizing n with
  | nil => exact congrArg (State.inNumeral · stack) (Option.some.inj h)
  | cons c text ih =>
    rw [Numeral.steps] at h
    cases went : n.step reading c with
    | more state =>
      rw [went] at h
      have ascii := ascii_of_step reading went
      have stepped : (State.inNumeral n stack).step reading c.val.toUInt8 = .inNumeral state stack := by
        rw [step, ofUInt8_of_ascii ascii, went]
      rw [runText_cons reading ascii, stepped, ih h]
    | done number =>
      rw [went] at h
      cases h
    | fault strict lenient =>
      rw [went] at h
      cases h

/-- A complete number goes on as any complete value does. -/
theorem completes_inNumeral {n : Numeral} (h : n.IsComplete) :
    (State.inNumeral n stack).Completes reading (.number (n.value reading)) stack where
  step c delimiter := by
    have done : n.step reading c = .done (n.value reading) := by
      refine Numeral.step_of_isComplete reading h ?_ ?_ ?_
      · rcases delimiter with rfl | rfl | rfl <;> rfl
      · rcases delimiter with rfl | rfl | rfl <;> decide
      · rcases delimiter with rfl | rfl | rfl <;> decide
    have ascii : c.toNat < 128 := by rcases delimiter with rfl | rfl | rfl <;> decide
    have blank : isJsonBlank c = false := by rcases delimiter with rfl | rfl | rfl <;> rfl
    rw [State.step, ofUInt8_of_ascii ascii, done]
    dsimp only
    rw [blank, if_neg Bool.false_ne_true]
  finish := by rw [State.finish, Numeral.finish_of_isComplete reading h]

/-! ### Strings and keys -/

theorem runBytes_inString {token next : StringToken} {bytes : List UInt8}
    (h : token.steps bytes = some next) :
    (State.inString token stack).run reading bytes = .inString next stack := by
  induction bytes generalizing token with
  | nil => exact congrArg (State.inString · stack) (Option.some.inj h)
  | cons b bytes ih =>
    rw [StringToken.steps] at h
    cases went : token.step b with
    | more state =>
      rw [went] at h
      have stepped : (State.inString token stack).step reading b = .inString state stack := by
        rw [step, went]
      rw [run, List.foldl_cons, stepped]
      exact ih h
    | done text =>
      rw [went] at h
      cases h
    | fault strict lenient =>
      rw [went] at h
      cases h

variable {members : List (Text × Document)}

theorem runBytes_inKey {token next : StringToken} {bytes : List UInt8}
    (h : token.steps bytes = some next) :
    (State.inKey token members stack).run reading bytes = .inKey next members stack := by
  induction bytes generalizing token with
  | nil => exact congrArg (State.inKey · members stack) (Option.some.inj h)
  | cons b bytes ih =>
    rw [StringToken.steps] at h
    cases went : token.step b with
    | more state =>
      rw [went] at h
      have stepped : (State.inKey token members stack).step reading b =
          .inKey state members stack := by
        rw [step, went]
      rw [run, List.foldl_cons, stepped]
      exact ih h
    | done text =>
      rw [went] at h
      cases h
    | fault strict lenient =>
      rw [went] at h
      cases h

/-- What is taken of a string before its closing mark. -/
theorem steps_string (s : String) :
    StringToken.start.steps (charBytes (s.toList.flatMap Json.escapeChar)) =
      some (.taken (charBytes s.toList).reverse) := by
  have taken := @StringToken.steps_escaped [] s.toList
  rwa [List.append_nil] at taken

theorem runText_string (s : String) (rest : List Char) :
    (State.inString .start stack).runText reading (s.toList.flatMap Json.escapeChar ++ '"' :: rest) =
      (State.afterValue (.string (.ok s)) stack).runText reading rest := by
  have closed : (State.inString (.taken (charBytes s.toList).reverse) stack).step reading 34 =
      .afterValue (.string (.ok s)) stack := by
    rw [step, StringToken.step_quote]
  have escaped : (State.inString .start stack).runText reading (s.toList.flatMap Json.escapeChar) =
      .inString (.taken (charBytes s.toList).reverse) stack :=
    runBytes_inString reading (steps_string s)
  rw [runText_append, escaped, runText_cons reading (by decide)]
  exact congrArg (runText reading · rest) closed

theorem runText_key (s : String) (rest : List Char) :
    (State.inKey .start members stack).runText reading
        (s.toList.flatMap Json.escapeChar ++ '"' :: rest) =
      (State.beforeColon (.ok s) members stack).runText reading rest := by
  have closed : (State.inKey (.taken (charBytes s.toList).reverse) members stack).step reading 34 =
      .beforeColon (.ok s) members stack := by
    rw [step, StringToken.step_quote]
  have escaped : (State.inKey .start members stack).runText reading
      (s.toList.flatMap Json.escapeChar) =
        .inKey (.taken (charBytes s.toList).reverse) members stack :=
    runBytes_inKey reading (steps_string s)
  rw [runText_append, escaped, runText_cons reading (by decide)]
  exact congrArg (runText reading · rest) closed

/-- A key with its quotation marks and the colon behind it. -/
theorem runText_member (first : Bool) (s : String) (rest : List Char) :
    (State.beforeKey first members stack).runText reading (Json.writeString s ++ ':' :: rest) =
      (State.beforeValue .only (.object members (.ok s) :: stack)).runText reading rest := by
  rw [Json.writeString, List.cons_append, List.append_assoc, List.singleton_append,
    runText_cons reading (by decide)]
  show (State.inKey .start members stack).runText reading _ = _
  rw [runText_key, runText_cons reading (by decide)]
  rfl

/-! ### Values -/

/-- A value starts with a character that is neither a blank nor a closing bracket, wherever it
stands. -/
theorem runText_start {c : Char} (ascii : c.toNat < 128) (blank : isJsonBlank c = false)
    (bracket : c ≠ ']') (slot : Slot) (rest : List Char) :
    (State.beforeValue slot stack).runText reading (c :: rest) =
      (startValue c stack).runText reading rest := by
  have started : stepValue c slot stack = startValue c stack := by
    cases slot with
    | only => rfl
    | first =>
      cases stack with
      | nil => rfl
      | cons frame stack =>
        cases frame with
        | list items => exact if_neg bracket
        | object members key => rfl
    | next =>
      cases stack with
      | nil => rfl
      | cons frame stack =>
        cases frame with
        | list items => exact if_neg bracket
        | object members key => rfl
  rw [runText_cons reading ascii, step, ofUInt8_of_ascii ascii, blank, if_neg Bool.false_ne_true,
    started]

/-- A value that starts like a number is one. -/
theorem startValue_of_start? {c : Char} {n : Numeral} (h : Numeral.start? c = some n) :
    c.toNat < 128 ∧ isJsonBlank c = false ∧ c ≠ ']' ∧ startValue c stack = .inNumeral n stack := by
  have first : c = '-' ∨ c.isDigit = true := by
    unfold Numeral.start? at h
    split at h
    · next minus => exact Or.inl minus
    · split at h
      · next zero => exact Or.inr (zero ▸ rfl)
      · split at h
        · next digit => exact Or.inr digit
        · cases h
  have other : ∀ d : Char, Numeral.start? d = none → c ≠ d := by
    rintro d none rfl
    rw [none] at h
    cases h
  refine ⟨?_, ?_, other ']' rfl, ?_⟩
  · rcases first with rfl | digit
    · decide
    · have small := Numeral.digitOf_le digit
      rw [Numeral.digitOf] at small
      omega
  · unfold isJsonBlank
    simp only [other ' ' rfl, other '\n' rfl, other '\t' rfl, other '\r' rfl, decide_false,
      Bool.or_false]
  · unfold startValue
    rw [if_neg (other '"' rfl), if_neg (other '[' rfl), if_neg (other '\x7b' rfl),
      if_neg (other 'n' rfl), if_neg (other 't' rfl), if_neg (other 'f' rfl), h]

/-- The text of a number is read as the number. -/
theorem completes_number {text : List Char} {n : Numeral}
    (read : Numeral.ofText? reading text = some n) (complete : n.IsComplete) (slot : Slot)
    (stack : Stack) :
    ((State.beforeValue slot stack).runText reading text).Completes reading
      (.number (n.value reading)) stack := by
  cases text with
  | nil => cases read
  | cons c text =>
    obtain ⟨first, started, rest⟩ := Option.bind_eq_some_iff.mp read
    obtain ⟨ascii, blank, bracket, starts⟩ := @startValue_of_start? stack c first started
    rw [runText_start reading ascii blank bracket, starts, runText_inNumeral reading rest]
    exact completes_inNumeral reading complete

/-- The text of the value is read as its document, wherever it stands. -/
def Reads (value : Json) : Prop :=
  ∀ slot stack, ((State.beforeValue slot stack).runText reading value.compact).Completes reading
    value.document stack

theorem reads_null : Reads reading .null := by
  intro slot stack
  show ((State.beforeValue slot stack).runText reading ('n' :: _)).Completes reading _ _
  rw [runText_start reading (by decide) rfl (by decide)]
  exact completes_afterValue reading .null stack

theorem reads_boolean (value : Bool) : Reads reading (.boolean value) := by
  intro slot stack
  cases value with
  | true =>
    show ((State.beforeValue slot stack).runText reading ('t' :: _)).Completes reading _ _
    rw [runText_start reading (by decide) rfl (by decide)]
    exact completes_afterValue reading (.boolean true) stack
  | false =>
    show ((State.beforeValue slot stack).runText reading ('f' :: _)).Completes reading _ _
    rw [runText_start reading (by decide) rfl (by decide)]
    exact completes_afterValue reading (.boolean false) stack

theorem reads_integer {value : Int} (low : -2 ^ 63 ≤ value) (high : value < 2 ^ 64) :
    Reads reading (.integer value) := by
  intro slot stack
  obtain ⟨n, read, complete, value_eq⟩ := Numeral.ofText?_integer reading low high
  have done := completes_number reading read complete slot stack
  rw [value_eq] at done
  exact done

/-- A double that is not finite is written and read as null. -/
theorem reads_float {value : Double}
    (h : value.isFinite = true → Numeral.readsBack reading value = true) :
    Reads reading (.float value) := by
  intro slot stack
  by_cases finite : value.isFinite = true
  · obtain ⟨n, read, complete, value_eq⟩ := Numeral.ofText?_float reading (h finite)
    have done := completes_number reading read complete slot stack
    rw [value_eq] at done
    rw [Json.document_float finite]
    exact done
  · have text : (Json.float value).compact = Json.null.compact := by
      cases value with
      | nan => rfl
      | infinity negative => rfl
      | finite negative m => exact absurd rfl finite
    have document : (Json.float value).document = .null := by
      rw [Json.document, if_neg finite]
    rw [text, document]
    exact reads_null reading slot stack

theorem reads_string (text : String) : Reads reading (.string text) := by
  intro slot stack
  show ((State.beforeValue slot stack).runText reading
    ('"' :: (text.toList.flatMap Json.escapeChar ++ ['"']))).Completes reading _ _
  rw [runText_start reading (by decide) rfl (by decide)]
  show ((State.inString .start stack).runText reading _).Completes reading _ _
  rw [runText_string]
  exact completes_afterValue reading (.string (.ok text)) stack

/-- Items in a row: each is followed by a comma or by the closing bracket. -/
theorem runText_items {items : List Json} (some_item : items ≠ [])
    (reads : ∀ item ∈ items, Reads reading item) (slot : Slot) (before : List Document)
    (stack : Stack) (rest : List Char) :
    (State.beforeValue slot (.list before :: stack)).runText reading
        (Json.compactItems items ++ ']' :: rest) =
      (State.afterValue (.list (before.reverse ++ items.map Json.document) .closed) stack).runText
        reading rest := by
  induction items generalizing slot before with
  | nil => exact absurd rfl some_item
  | cons item items ih =>
    have head := reads item List.mem_cons_self slot (.list before :: stack)
    cases items with
    | nil =>
      rw [Json.compactItems, runText_append, runText_cons reading (by decide),
        head.step ']' (Or.inr (Or.inl rfl))]
      show (State.afterValue (.list (item.document :: before).reverse .closed) stack).runText reading
        rest = _
      rw [List.reverse_cons, List.map_singleton]
    | cons second items =>
      have tail := ih (List.cons_ne_nil _ _) (fun i hi => reads i (List.mem_cons_of_mem item hi)) .next
        (item.document :: before)
      rw [Json.compactItems, List.append_assoc, runText_append, List.cons_append,
        runText_cons reading (by decide), head.step ',' (Or.inl rfl)]
      · refine (tail : (State.beforeValue .next (.list (item.document :: before) :: stack)).runText
          reading _ = _).trans ?_
        rw [List.reverse_cons, List.append_assoc, List.singleton_append]
        rfl
      · intro none
        cases none

theorem reads_list {items : List Json} (reads : ∀ item ∈ items, Reads reading item) :
    Reads reading (.list items) := by
  intro slot stack
  show ((State.beforeValue slot stack).runText reading
    ('[' :: (Json.compactItems items ++ [']']))).Completes reading _ _
  rw [runText_start reading (by decide) rfl (by decide), Json.document_list]
  show ((State.beforeValue .first (.list [] :: stack)).runText reading _).Completes reading _ _
  by_cases none : items = []
  · subst none
    exact completes_afterValue reading (.list [] .closed) stack
  · rw [runText_items reading none reads]
    exact completes_afterValue reading _ stack

/-- Members in a row: each is followed by a comma or by the closing brace. -/
theorem runText_members {members : List (String × Json)} (some_member : members ≠ [])
    (reads : ∀ member ∈ members, Reads reading member.2) (first : Bool)
    (before : List (Text × Document)) (stack : Stack) (rest : List Char) :
    (State.beforeKey first before stack).runText reading
        (Json.compactMembers members ++ '\x7d' :: rest) =
      (State.afterValue (.object (before.reverse ++
        members.map fun member => (.ok member.1, member.2.document)) .closed) stack).runText reading
          rest := by
  induction members generalizing first before with
  | nil => exact absurd rfl some_member
  | cons member members ih =>
    obtain ⟨key, value⟩ := member
    have head := reads (key, value) List.mem_cons_self .only (.object before (.ok key) :: stack)
    cases members with
    | nil =>
      rw [Json.compactMembers, List.append_assoc, List.cons_append, runText_member, runText_append,
        runText_cons reading (by decide), head.step '\x7d' (Or.inr (Or.inr rfl))]
      show (State.afterValue (.object ((.ok key, value.document) :: before).reverse .closed)
        stack).runText reading rest = _
      rw [List.reverse_cons, List.map_singleton]
    | cons second members =>
      have tail := ih (List.cons_ne_nil _ _) (fun m hm => reads m (List.mem_cons_of_mem _ hm)) false
        ((.ok key, value.document) :: before)
      rw [Json.compactMembers, List.append_assoc, List.cons_append, List.append_assoc, runText_member,
        runText_append, List.cons_append, runText_cons reading (by decide), head.step ',' (Or.inl rfl)]
      · refine (tail : (State.beforeKey false ((.ok key, value.document) :: before) stack).runText
          reading _ = _).trans ?_
        rw [List.reverse_cons, List.append_assoc, List.singleton_append]
        rfl
      · intro none
        cases none

theorem reads_object {members : List (String × Json)}
    (reads : ∀ member ∈ members, Reads reading member.2) : Reads reading (.object members) := by
  intro slot stack
  show ((State.beforeValue slot stack).runText reading
    ('\x7b' :: (Json.compactMembers members ++ ['\x7d']))).Completes reading _ _
  rw [runText_start reading (by decide) rfl (by decide), Json.document_object]
  show ((State.beforeKey true [] stack).runText reading _).Completes reading _ _
  by_cases none : members = []
  · subst none
    exact completes_afterValue reading (.object [] .closed) stack
  · rw [runText_members reading none reads]
    exact completes_afterValue reading _ stack

/-- **Reading the text of a value completes its document**, wherever the value stands. -/
theorem completes_value {value : Json} (h : value.Readable reading) : Reads reading value := by
  induction h with
  | null => exact reads_null reading
  | boolean value => exact reads_boolean reading value
  | integer low high => exact reads_integer reading low high
  | float back => exact reads_float reading back
  | string text => exact reads_string reading text
  | list _ reads => exact reads_list reading reads
  | object _ reads => exact reads_object reading reads

end State

/-- **The text of a value is read as its document**, with nothing behind it. -/
theorem Document.ofBytesWith_bytes {reading : Numeral.Reading} {value : Json}
    (h : value.Readable reading) : ofBytesWith reading value.bytes = (value.document, false) := by
  have done := (State.completes_value reading h .only []).finish
  rw [ofBytesWith, Json.bytes, toList_toUTF8]
  exact congrArg State.result done

/-- So decoding a text that was written is decoding the document of what was written. -/
theorem Decoder.decodeWith_bytes {α : Type} {reading : Numeral.Reading} {value : Json}
    (h : value.Readable reading) (decoder : Decoder α) :
    decoder.decodeWith reading value.bytes = decoder value.document := by
  rw [decodeWith, Document.ofBytesWith_bytes h]
  show (decoder value.document >>= fun value => .ok value) = _
  cases decoder value.document with
  | error fault => rfl
  | ok value => rfl

end ExamAdmission
