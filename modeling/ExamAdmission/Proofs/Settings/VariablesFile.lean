/-
Files of plain lines.

The lines of a file are read up to the first that is not UTF-8:

* `VariablesFile.textOf_toUTF8`, `VariablesFile.textOf_of_broken` — what is read of a file that is
  UTF-8 and of one that is not.

A line is plain if none of its characters has a meaning of its own: no quotation marks, no escapes,
no references, no blanks and no comment.  Such a line is read as the name and the value between which
its equals sign stands:

* `VariablesFile.Writes` — a text with a plain line for each variable;
* `VariablesFile.logicalLines_of_writes` — it falls into these lines;
* `VariablesFile.readLine_line` — each of which is read as its variable;
* `VariablesFile.lookup_fill` — and fills it in if nothing did before;
* `Variables.lookup_withFile` — so a name has its value from the environment, or else from the first
  line that sets it;
* `Variables.lookup_withFile_of_some` — **a file never changes a variable that is set**, whatever
  its lines look like.
-/
import ExamAdmission.Proofs.Text.Bytes
import ExamAdmission.Settings.VariablesFile
import Mathlib.Data.List.TakeWhile

namespace ExamAdmission

namespace VariablesFile

/-! ### The text of a file -/

/-- Only the end of a line has the byte that ends it. -/
theorem notMem_utf8EncodeChar {c : Char} (h : c ≠ '\n') : 10 ∉ String.utf8EncodeChar c := by
  intro mem
  by_cases ascii : c.toNat < 128
  · rw [utf8EncodeChar_of_ascii ascii, List.mem_singleton] at mem
    have same := ofUInt8_of_ascii ascii
    rw [← mem] at same
    exact h same.symm
  · exact absurd (le_of_mem_utf8EncodeChar (Nat.le_of_not_lt ascii) mem) (by decide)

/-- What is no end of a line belongs to the line. -/
theorem textOf_append {line bytes : List UInt8} (h : 10 ∉ bytes) (rest : List UInt8) :
    textOf line (bytes ++ rest) = textOf (bytes.reverse ++ line) rest := by
  induction bytes generalizing line with
  | nil => rfl
  | cons byte bytes ih =>
    rw [List.mem_cons, not_or] at h
    rw [List.cons_append, textOf, if_neg (Ne.symm h.1), ih h.2, List.reverse_cons,
      List.append_assoc, List.singleton_append]

/-- A line of text is read as such, and then the next one. -/
theorem textOf_line {line : List Char} (rest : List UInt8) :
    textOf (line.flatMap String.utf8EncodeChar).reverse (10 :: rest) =
      String.ofList (line ++ ['\n']) ++ textOf [] rest := by
  have ended : (10 :: (line.flatMap String.utf8EncodeChar).reverse).reverse =
      (String.ofList (line ++ ['\n'])).toList.flatMap String.utf8EncodeChar := by
    rw [String.toList_ofList, List.flatMap_append, List.reverse_cons, List.reverse_reverse]
    rfl
  rw [textOf, if_pos rfl, ended, fromUTF8?_toUTF8]

/-- Whatever follows, the lines of a text are read as they were written. -/
theorem textOf_lines {line chars : List Char} (rest : List UInt8) :
    textOf (line.flatMap String.utf8EncodeChar).reverse
        ((chars ++ ['\n']).flatMap String.utf8EncodeChar ++ rest) =
      String.ofList (line ++ chars ++ ['\n']) ++ textOf [] rest := by
  -- any line may have been started, as the end of a line among the characters starts another
  induction chars generalizing line with
  | nil =>
    rw [List.append_nil]
    exact textOf_line rest
  | cons c chars ih =>
    rw [List.cons_append, List.flatMap_cons, List.append_assoc]
    by_cases ends : c = '\n'
    · subst ends
      have next := @ih []
      rw [List.flatMap_nil, List.reverse_nil] at next
      refine (textOf_line _).trans ((congrArg _ next).trans ?_)
      rw [← String.append_assoc, ← String.ofList_append, List.nil_append, List.append_assoc,
        List.append_assoc]
      rfl
    · have more := @ih (line ++ [c])
      rw [textOf_append (notMem_utf8EncodeChar ends), ← List.reverse_append]
      rw [List.flatMap_append, List.flatMap_singleton] at more
      rw [more, List.append_assoc line]
      rfl

/-- The last line may lack its end. -/
theorem textOf_last {line : List Char} (one : '\n' ∉ line) :
    textOf [] (line.flatMap String.utf8EncodeChar) = String.ofList line := by
  have bytes : 10 ∉ line.flatMap String.utf8EncodeChar := fun mem => by
    obtain ⟨c, inside, byte⟩ := List.mem_flatMap.mp mem
    exact notMem_utf8EncodeChar (fun ends => one (ends ▸ inside)) byte
  have read := @textOf_append [] _ bytes []
  have whole := fromUTF8?_toUTF8 (String.ofList line)
  rw [String.toList_ofList] at whole
  rw [List.append_nil, List.append_nil] at read
  rw [read, textOf, List.reverse_reverse, whole, Option.getD_some]

/-- **A file that is UTF-8 is read whole.** -/
theorem textOf_toUTF8 (text : String) : textOf [] text.toUTF8.toList = text := by
  obtain ⟨chars, rfl⟩ : ∃ chars, text = String.ofList chars := ⟨text.toList, by simp⟩
  rw [toList_toUTF8]
  by_cases lines : '\n' ∈ chars
  · obtain ⟨last, first, split, one⟩ := List.eq_append_cons_of_mem (List.mem_reverse.mpr lines)
    obtain rfl : chars = first.reverse ++ ['\n'] ++ last.reverse := by
      rw [← List.reverse_reverse chars, split]
      simp
    have read := @textOf_lines [] first.reverse (last.reverse.flatMap String.utf8EncodeChar)
    have rest := textOf_last (fun mem => one (List.mem_reverse.mp mem))
    rw [rest] at read
    rw [List.flatMap_append]
    exact read.trans (String.ofList_append ..).symm
  · exact textOf_last lines

/-- **Of any other file the lines before the first that is not are read.** -/
theorem textOf_of_broken {chars : List Char} {line : List UInt8} (one : 10 ∉ line)
    (broken : String.fromUTF8? ⟨(line ++ [10]).toArray⟩ = none) (rest : List UInt8) :
    textOf [] ((chars ++ ['\n']).flatMap String.utf8EncodeChar ++ (line ++ 10 :: rest)) =
      String.ofList (chars ++ ['\n']) := by
  have read := @textOf_lines [] chars (line ++ 10 :: rest)
  have nothing : textOf [] (line ++ 10 :: rest) = "" := by
    rw [textOf_append one, textOf, if_pos rfl, List.append_nil, List.reverse_cons,
      List.reverse_reverse, broken]
  rw [nothing, String.append_empty] at read
  exact read

/-! ### Plain lines -/

/-- A character without a meaning of its own.  No variable can hold the character zero. -/
def isPlain (c : Char) : Bool :=
  !isBlank c && c != '\'' && c != '"' && c != '\\' && c != '$' && c != '\x00'

/-- A variable that can be set by a plain line. -/
structure IsPlainEntry (entry : String × String) : Prop where
  start : ∃ c ∈ entry.1.toList.head?, (c.isAlpha || c = '_') = true
  name : ∀ c ∈ entry.1.toList, isKeyChar c = true
  value : ∀ c ∈ entry.2.toList, isPlain c = true
  uncommented : entry.2.toList.head? ≠ some '#'

/-- The line that sets a variable. -/
def line (entry : String × String) : List Char := entry.1.toList ++ '=' :: entry.2.toList

/-- The text has a plain line for each variable; the last one may lack its line end. -/
inductive Writes : Variables → List Char → Prop
  | nil : Writes [] []
  | last {entry : String × String} (plain : IsPlainEntry entry) : Writes [entry] (line entry)
  | cons {entry : String × String} {entries : Variables} {ending text : List Char}
      (plain : IsPlainEntry entry) (ended : ending = ['\n'] ∨ ending = ['\r', '\n'])
      (rest : Writes entries text) : Writes (entry :: entries) (line entry ++ ending ++ text)

/-! ### Characters -/

theorem not_isBlank_of_isPlain {c : Char} (h : isPlain c = true) : isBlank c = false := by
  simp only [isPlain, Bool.and_eq_true, Bool.not_eq_true'] at h
  exact h.1.1.1.1.1

theorem ne_of_isPlain {c d : Char} (h : isPlain c = true) (special : isPlain d = false) : c ≠ d := by
  rintro rfl
  rw [h] at special
  cases special

/-- Letters, digits, underscores and dots are plain. -/
theorem isPlain_of_isKeyChar {c : Char} (h : isKeyChar c = true) : isPlain c = true := by
  have between (low high : UInt32) : (decide (low ≤ c.val) && decide (c.val ≤ high)) = true ↔
      low.toNat ≤ c.toNat ∧ c.toNat ≤ high.toNat := by
    rw [Bool.and_eq_true, decide_eq_true_iff, decide_eq_true_iff]
    exact Iff.rfl
  have upper : c.isUpper = true ↔ 65 ≤ c.toNat ∧ c.toNat ≤ 90 := decide_eq_true_iff
  have lower : c.isLower = true ↔ 97 ≤ c.toNat ∧ c.toNat ≤ 122 := between 97 122
  have digit : c.isDigit = true ↔ 48 ≤ c.toNat ∧ c.toNat ≤ 57 := between 48 57
  have range : 46 ≤ c.toNat ∧ c.toNat ≤ 122 ∧ c.toNat ≠ 92 := by
    have classes : (c.isUpper || c.isLower || c.isDigit || c = '_' || c = '.') = true := h
    simp only [Bool.or_eq_true, upper, lower, digit, decide_eq_true_eq] at classes
    rcases classes with (((h | h) | h) | rfl) | rfl
    · omega
    · omega
    · omega
    · decide
    · decide
  have other : ∀ d : Char, d.toNat < 46 ∨ d.toNat = 92 → (c != d) = true := by
    intro d special
    refine bne_iff_ne.mpr ?_
    rintro rfl
    omega
  have blank : isBlank c = false := by
    simp only [isBlank, Bool.or_eq_false_iff, Bool.and_eq_false_iff, decide_eq_false_iff_not]
    omega
  simp only [isPlain, blank, other '\'' (by decide), other '"' (by decide), other '\\' (by decide),
    other '$' (by decide), other '\x00' (by decide), Bool.not_false, Bool.and_self]

/-! ### Lines of a text -/

section Lines

variable {entry : String × String} {rest : List Char}

theorem isPlain_of_mem_line (plain : IsPlainEntry entry) {c : Char} (mem : c ∈ line entry) :
    c = '=' ∨ isPlain c = true := by
  rcases List.mem_append.mp mem with mem | mem
  · exact Or.inr (isPlain_of_isKeyChar (plain.name c mem))
  · rcases List.mem_cons.mp mem with same | mem
    · exact Or.inl same
    · exact Or.inr (plain.value c mem)

theorem not_isBlank_of_mem_line (plain : IsPlainEntry entry) {c : Char} (mem : c ∈ line entry) :
    isBlank c = false := by
  rcases isPlain_of_mem_line plain mem with rfl | h
  · decide
  · exact not_isBlank_of_isPlain h

theorem exists_line_eq (plain : IsPlainEntry entry) :
    ∃ c more, line entry = c :: more ∧ (c.isAlpha || c = '_') = true := by
  obtain ⟨c, first, letter⟩ := plain.start
  obtain ⟨more, name⟩ := List.head?_eq_some_iff.mp (Option.mem_def.mp first)
  exact ⟨c, more ++ '=' :: entry.2.toList, by rw [line, name, List.cons_append], letter⟩

/-- A line goes to its first line end. -/
theorem physicalLines_append {text : List Char} (current : List Char) (h : '\n' ∉ text) :
    physicalLines current (text ++ '\n' :: rest) =
      (current.reverse ++ text ++ ['\n']) :: physicalLines [] rest := by
  induction text generalizing current with
  | nil => simp [physicalLines]
  | cons c text ih =>
    rw [List.mem_cons, not_or] at h
    rw [List.cons_append, physicalLines, if_neg (Ne.symm h.1), ih (c :: current) h.2]
    simp

theorem physicalLines_last {text : List Char} (current : List Char) (h : '\n' ∉ text)
    (some_char : current ++ text ≠ []) :
    physicalLines current text = [current.reverse ++ text] := by
  induction text generalizing current with
  | nil =>
    rw [List.append_nil] at some_char
    rw [physicalLines, if_neg some_char, List.append_nil]
  | cons c text ih =>
    rw [List.mem_cons, not_or] at h
    rw [physicalLines, if_neg (Ne.symm h.1), ih (c :: current) h.2 (List.cons_ne_nil _ _)]
    simp

/-- A plain character, an equals sign and a line end leave a line outside of quotation marks. -/
theorem next_plain {c : Char} (h : c = '=' ∨ c = '\r' ∨ c = '\n' ∨ isPlain c = true) :
    Nesting.plain.next c = some .plain := by
  rcases h with rfl | rfl | rfl | h
  · rfl
  · rfl
  · rfl
  · rw [Nesting.next, not_isBlank_of_isPlain h, Bool.false_and, Bool.false_and,
      if_neg Bool.false_ne_true, Nesting.outside, if_neg (ne_of_isPlain h (by decide)),
      if_neg (ne_of_isPlain h (by decide)), if_neg (ne_of_isPlain h (by decide))]

theorem scan_plain {text : List Char} (h : ∀ c ∈ text, Nesting.plain.next c = some .plain) :
    scan .plain text = (text, some .plain) := by
  induction text with
  | nil => rfl
  | cons c text ih =>
    obtain ⟨first, rest⟩ := List.forall_mem_cons.mp h
    rw [scan, first]
    dsimp only
    rw [ih rest]

/-- What may stand behind a plain line: its end, or nothing at the end of the text. -/
def IsEnding (ending : List Char) : Prop := ending = [] ∨ ending = ['\n'] ∨ ending = ['\r', '\n']

theorem dropLineEnd_line (plain : IsPlainEntry entry) {ending : List Char} (h : IsEnding ending) :
    dropLineEnd (line entry ++ ending) = line entry := by
  have last : ∀ c more, (line entry).reverse = c :: more → c ≠ '\n' ∧ c ≠ '\r' := by
    intro c more reversed
    have mem : c ∈ line entry := by
      rw [← List.mem_reverse, reversed]
      exact List.mem_cons_self
    have visible := not_isBlank_of_mem_line plain mem
    constructor
    · rintro rfl
      cases visible
    · rintro rfl
      cases visible
  unfold dropLineEnd
  rcases h with rfl | rfl | rfl
  · rw [List.append_nil]
    split
    · next reversed => exact absurd rfl (last _ _ reversed).1
    · next reversed => exact absurd rfl (last _ _ reversed).1
    · rfl
  · rw [show (line entry ++ ['\n']).reverse = '\n' :: (line entry).reverse by simp]
    split
    · next reversed => exact absurd rfl (last _ _ (List.cons.inj reversed).2).2
    · next reversed => rw [← (List.cons.inj reversed).2, List.reverse_reverse]
    · next other => exact absurd rfl (other _)
  · rw [show (line entry ++ ['\r', '\n']).reverse = '\n' :: '\r' :: (line entry).reverse by simp]
    split
    · next reversed =>
      rw [← (List.cons.inj (List.cons.inj reversed).2).2, List.reverse_reverse]
    · next other reversed => exact absurd (List.cons.inj reversed).2.symm (other _)
    · next other => exact absurd rfl (other _)

/-- A plain line is a line of its own. -/
theorem logicalLines_line (plain : IsPlainEntry entry) {ending : List Char} (h : IsEnding ending)
    (more : List (List Char)) :
    logicalLines [] .plain ((line entry ++ ending) :: more) =
      some (line entry) :: logicalLines [] .plain more := by
  obtain ⟨c, others, start, letter⟩ := exists_line_eq plain
  have visible : isBlank c = false :=
    not_isBlank_of_mem_line plain (start ▸ List.mem_cons_self)
  have uncommented : ¬ ((line entry ++ ending).dropWhile isBlank).head? = some '#' := by
    rw [start, List.cons_append, List.dropWhile_cons_of_neg (by simp [visible])]
    rintro same
    obtain rfl := Option.some.inj same
    cases letter
  have steady : ∀ c ∈ line entry ++ ending, Nesting.plain.next c = some .plain := by
    intro c mem
    rcases List.mem_append.mp mem with mem | mem
    · rcases isPlain_of_mem_line plain mem with same | h
      · exact next_plain (Or.inl same)
      · exact next_plain (Or.inr (Or.inr (Or.inr h)))
    · refine next_plain ?_
      rcases h with rfl | rfl | rfl
      · cases mem
      · exact Or.inr (Or.inr (Or.inl (List.mem_singleton.mp mem)))
      · rcases List.mem_cons.mp mem with same | mem
        · exact Or.inr (Or.inl same)
        · exact Or.inr (Or.inr (Or.inl (List.mem_singleton.mp mem)))
  rw [logicalLines, List.nil_append, if_neg uncommented, scan_plain steady, dropLineEnd_line plain h]

theorem newline_not_mem_line (plain : IsPlainEntry entry) : '\n' ∉ line entry := by
  intro mem
  cases not_isBlank_of_mem_line plain mem

end Lines

/-- **A text of plain lines falls into them.** -/
theorem logicalLines_of_writes {entries : Variables} {text : List Char} (h : Writes entries text) :
    logicalLines [] .plain (physicalLines [] text) = entries.map fun entry => some (line entry) := by
  induction h with
  | nil => rfl
  | last plain =>
    obtain ⟨c, more, start, -⟩ := exists_line_eq plain
    have own := logicalLines_line plain (Or.inl rfl) []
    rw [List.append_nil] at own
    rw [physicalLines_last [] (newline_not_mem_line plain) (by simp [start])]
    exact own
  | @cons entry entries ending text plain ended rest ih =>
    have own := logicalLines_line plain (Or.inr ended) (physicalLines [] text)
    rw [ih] at own
    rw [List.map_cons, ← own]
    rcases ended with rfl | rfl
    · rw [List.append_assoc, List.singleton_append,
        physicalLines_append [] (newline_not_mem_line plain)]
      rfl
    · have inner : '\n' ∉ line entry ++ ['\r'] := by
        rw [List.mem_append, not_or]
        exact ⟨newline_not_mem_line plain, by decide⟩
      have split : line entry ++ ['\r', '\n'] ++ text = line entry ++ ['\r'] ++ '\n' :: text := by
        simp
      rw [split, physicalLines_append [] inner]
      simp

/-! ### Reading a line -/

/-- Plain characters are taken as they are. -/
theorem run_plain (valueOf : String → String) {text : List Char} (output : List Char)
    (h : ∀ c ∈ text, isPlain c = true) :
    ({ output := output } : ValueState).run valueOf text =
      some (String.ofList (output.reverse ++ text)) := by
  induction text generalizing output with
  | nil =>
    rw [List.append_nil]
    rfl
  | cons c text ih =>
    obtain ⟨plain, rest⟩ := List.forall_mem_cons.mp h
    have taken : ({ output := output } : ValueState).step valueOf c = some { output := c :: output } := by
      have other : ∀ d : Char, isPlain d = false → c ≠ d := fun d => ne_of_isPlain plain
      show some (ValueState.stepPlain _ c) = _
      unfold ValueState.stepPlain
      rw [if_neg Bool.false_ne_true, if_neg (other '$' (by decide)), if_neg (other '\\' (by decide)),
        if_neg Bool.false_ne_true, if_neg (other '\'' (by decide)), if_neg (other '"' (by decide)),
        if_neg (not_or.mpr ⟨other ' ' (by decide), other '\t' (by decide)⟩)]
      rfl
    rw [ValueState.run, taken]
    dsimp only
    rw [Bool.false_and, if_neg Bool.false_ne_true, ih (c :: output) rest, List.reverse_cons,
      List.append_assoc]
    rfl

section Lines

variable {entry : String × String}

theorem trimEnd_line (plain : IsPlainEntry entry) : trimEnd (line entry) = line entry := by
  have keep : (line entry).reverse.dropWhile isBlank = (line entry).reverse := by
    rw [List.dropWhile_eq_self_iff]
    intro nonempty
    have mem : (line entry).reverse[0] ∈ line entry := List.mem_reverse.mp (List.getElem_mem _)
    rw [not_isBlank_of_mem_line plain mem]
    exact Bool.false_ne_true
  rw [trimEnd, keep, List.reverse_reverse]

/-- The name goes to the equals sign. -/
theorem key?_line (plain : IsPlainEntry entry) :
    key? (line entry) = some (entry.1, '=' :: entry.2.toList) := by
  obtain ⟨c, more, start, letter⟩ := exists_line_eq plain
  have stop : ¬ isKeyChar '=' = true := by decide
  have name : (line entry).takeWhile isKeyChar = entry.1.toList := by
    rw [line, List.takeWhile_append_of_pos plain.name, List.takeWhile_cons_of_neg stop,
      List.append_nil]
  have others : (line entry).dropWhile isKeyChar = '=' :: entry.2.toList := by
    rw [line, List.dropWhile_append_of_pos plain.name, List.dropWhile_cons_of_neg stop]
  unfold key?
  rw [name, others]
  split
  · next none =>
    rw [none] at start
    cases start
  · next first _ same =>
    obtain rfl : first = c := (List.cons.inj (same.symm.trans start)).1
    rw [if_pos letter, String.ofList_toList, List.dropWhile_cons_of_neg (by decide)]

/-- **A plain line is read as its variable.** -/
theorem readLine_line (plain : IsPlainEntry entry) (valueOf : String → String) :
    readLine valueOf (line entry) = .assignment entry.1 entry.2 := by
  obtain ⟨c, more, start, letter⟩ := exists_line_eq plain
  have visible : isBlank c = false := not_isBlank_of_mem_line plain (start ▸ List.mem_cons_self)
  have kept : (line entry).dropWhile isBlank = line entry := by
    rw [start, List.dropWhile_cons_of_neg (by simp [visible])]
  have uncommented : ¬ (line entry = [] ∨ (line entry).head? = some '#') := by
    rw [start]
    rintro (none | same)
    · cases none
    · obtain rfl := Option.some.inj same
      cases letter
  have value : entry.2.toList.dropWhile isBlank = entry.2.toList := by
    rw [List.dropWhile_eq_self_iff]
    intro nonempty
    rw [not_isBlank_of_isPlain (plain.value _ (List.getElem_mem _))]
    exact Bool.false_ne_true
  have behind : afterEquals? ('=' :: entry.2.toList) = some entry.2.toList := congrArg some value
  have assigned : assignment? (line entry) = some (entry.1, entry.2.toList) := by
    rw [assignment?, key?_line plain, Option.bind_eq_bind, Option.bind_some]
    dsimp only
    rw [behind]
  have run := run_plain valueOf [] plain.value
  rw [List.reverse_nil, List.nil_append, String.ofList_toList] at run
  rw [readLine, trimEnd_line plain, kept, if_neg uncommented, assigned]
  dsimp only
  rw [if_neg plain.uncommented, run]

end Lines

/-! ### Filling in -/

/-- **A name has its value from the environment, or else from the first line that sets it.** -/
theorem lookup_fill {entries : Variables} (plain : ∀ entry ∈ entries, IsPlainEntry entry)
    (environment earlier : Variables) (name : String) :
    (fill environment earlier (entries.map fun entry => some (line entry))).lookup name =
      (environment.lookup name).or (entries.lookup name) := by
  induction entries generalizing environment earlier with
  | nil => exact (Option.or_none).symm
  | cons entry entries ih =>
    obtain ⟨here, rest⟩ := List.forall_mem_cons.mp plain
    rw [List.map_cons, fill]
    dsimp only
    rw [readLine_line here]
    dsimp only
    rw [ih rest, List.lookup_cons]
    cases set : environment.lookup entry.1 with
    | some value =>
      by_cases same : name = entry.1
      · rw [same, set]
        rfl
      · rw [beq_eq_false_iff_ne.mpr same]
    | none =>
      dsimp only
      rw [List.lookup_cons]
      by_cases same : name = entry.1
      · rw [same, set, beq_self_eq_true]
        rfl
      · rw [beq_eq_false_iff_ne.mpr same]

theorem Writes.plain {entries : Variables} {text : List Char} (h : Writes entries text) :
    ∀ entry ∈ entries, IsPlainEntry entry := by
  induction h with
  | nil => exact List.forall_mem_nil _
  | last plain => exact List.forall_mem_singleton.mpr plain
  | cons plain _ _ ih => exact List.forall_mem_cons.mpr ⟨plain, ih⟩

/-- The text of a file of plain lines starts with no byte order mark. -/
theorem Writes.head?_ne {entries : Variables} {text : List Char} (h : Writes entries text) :
    text.head? ≠ some '\ufeff' := by
  have letter : ∀ entry : String × String, IsPlainEntry entry →
      ∀ more, (line entry ++ more).head? ≠ some '\ufeff' := by
    intro entry plain more same
    obtain ⟨c, others, start, letter⟩ := exists_line_eq plain
    rw [start] at same
    obtain rfl := Option.some.inj same
    cases letter
  cases h with
  | nil => nofun
  | last plain => exact List.append_nil (line _) ▸ letter _ plain []
  | cons plain ended rest =>
    rw [List.append_assoc]
    exact letter _ plain _

/-- What is set stays as it is, whatever a file says. -/
theorem lookup_fill_of_some {name value : String} {environment : Variables} (earlier : Variables)
    (lines : List (Option (List Char))) (set : environment.lookup name = some value) :
    (fill environment earlier lines).lookup name = some value := by
  induction lines generalizing environment earlier with
  | nil => exact set
  | cons first lines ih =>
    cases first with
    | none => exact set
    | some text =>
      rw [fill]
      dsimp only
      split
      · exact ih earlier set
      · exact set
      · next other given _ =>
        refine ih _ ?_
        split
        · exact set
        · next unset =>
          have differs : name ≠ other := fun same => by
            rw [← same, set] at unset
            cases unset
          rw [List.lookup_cons, beq_eq_false_iff_ne.mpr differs]
          exact set

/-- The variables that a file of plain lines sets; without a file there are none. -/
inductive Supplies : Option String → Variables → Prop
  | absent : Supplies none []
  | present {text : String} {entries : Variables} (written : Writes entries text.toList) :
      Supplies (some text) entries

end VariablesFile

namespace Variables

open VariablesFile

/-- **A file never changes a variable that is set.** -/
theorem lookup_withFile_of_some {environment : Variables} {name value : String}
    (set : environment.lookup name = some value) (file : Option String) :
    (environment.withFile file).lookup name = some value := by
  cases file with
  | none => exact set
  | some text => exact lookup_fill_of_some [] _ set

/-- **A file of plain lines fills in what is not set**, the first line of a name being the one that
counts. -/
theorem lookup_withFile {file : Option String} {entries : Variables}
    (supplied : Supplies file entries) (environment : Variables) (name : String) :
    (environment.withFile file).lookup name =
      (environment.lookup name).or (entries.lookup name) := by
  cases supplied with
  | absent => exact (Option.or_none).symm
  | @present text _ written =>
    rw [withFile, load, if_neg written.head?_ne, logicalLines_of_writes written]
    exact lookup_fill written.plain environment [] name

end Variables

end ExamAdmission
