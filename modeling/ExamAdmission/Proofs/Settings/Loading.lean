/-
How loading the settings ends.

A variable has its value from the environment, or else from the file, or none.  The port is judged
first and the path of the snapshot after it; nothing else is judged, so any text stands for a host,
a level and a stage:

* `Settings.WritesPort` — digits that say a number, perhaps behind a plus sign;
* `Settings.port?_eq_some_iff` — a port is read exactly from these texts;
* `IsTrimmed`, `isTrimmed_trim` — a text without the blanks at its ends;
* `Settings.ofVariables_eq_error_iff`, `Settings.exists_ofVariables_eq_ok` — the ways to end, by the
  two values that can be at fault;
* `Settings.load_outcome` — **which variables are accepted, what is wrong with the others, and which
  settings come out**, over any environment and any file of plain lines.
-/
import ExamAdmission.Proofs.Double.Notation
import ExamAdmission.Proofs.Rule.Construction
import ExamAdmission.Proofs.Settings.VariablesFile
import ExamAdmission.Settings.Basic

namespace ExamAdmission

/-! ### Texts without blanks at their ends -/

section Trimming

variable {text : List Char}

/-- The path is what the text holds between the blanks at its ends. -/
structure IsTrimmed (path text : List Char) : Prop where
  within : ∃ before after, text = before ++ path ++ after ∧
    (∀ c ∈ before, isBlank c = true) ∧ ∀ c ∈ after, isBlank c = true
  starts : ∀ c ∈ path.head?, isBlank c = false
  ends : ∀ c ∈ path.getLast?, isBlank c = false

theorem dropWhile_isBlank_head? (text : List Char) :
    ∀ c ∈ (text.dropWhile isBlank).head?, isBlank c = false := by
  intro c first
  have visible := List.head?_dropWhile_not isBlank text
  rw [Option.mem_def.mp first] at visible
  exact visible

theorem trimEnd_append (text : List Char) :
    trimEnd text ++ (text.reverse.takeWhile isBlank).reverse = text := by
  rw [trimEnd, ← List.reverse_append, List.takeWhile_append_dropWhile, List.reverse_reverse]

theorem isTrimmed_trim (text : List Char) : IsTrimmed (trim text) text where
  within := by
    refine ⟨text.takeWhile isBlank, ((text.dropWhile isBlank).reverse.takeWhile isBlank).reverse,
      ?_, fun c mem => List.mem_takeWhile_imp mem,
      fun c mem => List.mem_takeWhile_imp (List.mem_reverse.mp mem)⟩
    rw [List.append_assoc, trim, trimEnd_append, List.takeWhile_append_dropWhile]
  starts := by
    intro c first
    refine dropWhile_isBlank_head? text c ?_
    rw [← trimEnd_append (text.dropWhile isBlank), List.head?_append]
    exact Option.mem_def.mpr (Option.or_eq_some_iff.mpr (Or.inl first))
  ends := by
    intro c last
    rw [trim, trimEnd, List.getLast?_reverse] at last
    exact dropWhile_isBlank_head? _ c last

/-- Nothing is left of a text of blanks alone. -/
theorem trim_eq_nil_iff : trim text = [] ↔ ∀ c ∈ text, isBlank c = true := by
  rw [trim, trimEnd, List.reverse_eq_nil_iff, List.dropWhile_eq_nil_iff]
  constructor
  · intro h
    -- Behind the leading blanks a visible character would stand first.
    cases rest : text.dropWhile isBlank with
    | nil => exact List.dropWhile_eq_nil_iff.mp rest
    | cons c more =>
      have visible := dropWhile_isBlank_head? text c (by rw [rest]; rfl)
      rw [h c (by rw [rest]; exact List.mem_reverse.mpr List.mem_cons_self)] at visible
      cases visible
  · intro h c mem
    exact h c ((List.dropWhile_suffix isBlank).subset (List.mem_reverse.mp mem))

end Trimming

namespace Settings

/-! ### Ports -/

/-- Digits that say a number, perhaps behind a plus sign. -/
def WritesPort (text : List Char) (number : Nat) : Prop :=
  ∃ digits, (text = digits ∨ text = '+' :: digits) ∧ digits ≠ [] ∧ AllDigits digits ∧
    digitsValue digits = number

theorem portOfDigits?_eq_some_iff (digits : List Char) (port : UInt16) :
    portOfDigits? digits = some port ↔
      digits ≠ [] ∧ AllDigits digits ∧ digitsValue digits = port.toNat := by
  have value : digits.foldl (fun n c => 10 * n + (c.toNat - 48)) 0 = digitsValue digits := rfl
  have judged : digits.all Char.isDigit = true ↔ AllDigits digits := List.all_eq_true
  unfold portOfDigits?
  rw [value]
  dsimp only
  constructor
  · intro h
    split at h
    · next fits =>
      rw [← Option.some.inj h]
      exact ⟨fits.1, judged.mp fits.2.1, (UInt16.toNat_ofNat_of_lt' fits.2.2).symm⟩
    · cases h
  · rintro ⟨some_digit, digit, same⟩
    rw [if_pos ⟨some_digit, judged.mpr digit, same ▸ port.toNat_lt⟩, same]
    exact congrArg some UInt16.ofNat_toNat

/-- **Which texts are read as a port.** -/
theorem port?_eq_some_iff (text : String) (port : UInt16) :
    port? text = some port ↔ WritesPort text.toList port.toNat := by
  unfold port? WritesPort
  split
  · next digits signed =>
    rw [portOfDigits?_eq_some_iff]
    constructor
    · exact fun h => ⟨digits, Or.inr signed, h⟩
    · rintro ⟨others, same | same, some_digit, digit, value⟩
      · -- A plus sign is no digit.
        rw [← same, signed] at digit
        exact absurd (digit '+' List.mem_cons_self) (by decide)
      · rw [signed] at same
        obtain rfl := (List.cons.inj same).2
        exact ⟨some_digit, digit, value⟩
  · next unsigned =>
    rw [portOfDigits?_eq_some_iff]
    constructor
    · exact fun h => ⟨text.toList, Or.inl rfl, h⟩
    · rintro ⟨digits, same | same, h⟩
      · exact same ▸ h
      · exact absurd same (unsigned digits)

/-- A text names a port: what it says is at most 65535. -/
def NamesPort (text : String) : Prop := ∃ number ≤ 65535, WritesPort text.toList number

theorem namesPort_iff (text : String) : NamesPort text ↔ ∃ port, port? text = some port := by
  constructor
  · rintro ⟨number, small, written⟩
    refine ⟨number.toUInt16, (port?_eq_some_iff text _).mpr ?_⟩
    rwa [UInt16.toNat_ofNat_of_lt' (Nat.lt_succ_of_le small)]
  · rintro ⟨port, read⟩
    exact ⟨port.toNat, Nat.le_of_lt_succ port.toNat_lt, (port?_eq_some_iff text port).mp read⟩

/-! ### Settings from variables -/

section Variables

variable {vars : Variables} {valueOf : String → Option String} {settings : Settings}

/-- The value of the port can be used. -/
def PortIsFine (valueOf : String → Option String) : Prop :=
  ∀ text, valueOf "APP_PORT" = some text → NamesPort text

/-- The value of the snapshot is there, but blank. -/
def SnapshotIsBlank (valueOf : String → Option String) : Prop :=
  ∃ text, valueOf "APP_COURSE_SNAPSHOT" = some text ∧ ∀ c ∈ text.toList, isBlank c = true

/-- The settings that values stand for. -/
structure Reflects (settings : Settings) (valueOf : String → Option String) : Prop where
  port_unset : valueOf "APP_PORT" = none → settings.port = 3000
  port_set : ∀ text, valueOf "APP_PORT" = some text → WritesPort text.toList settings.port.toNat
  snapshot_unset : valueOf "APP_COURSE_SNAPSHOT" = none → settings.snapshot = none
  snapshot_set : ∀ text, valueOf "APP_COURSE_SNAPSHOT" = some text →
    ∃ path, settings.snapshot = some path ∧ IsTrimmed path.toList text.toList
  host : settings.host = (valueOf "APP_HOST").getD "127.0.0.1"
  logLevel : settings.logLevel = (valueOf "APP_LOG_LEVEL").getD "info"
  stage : settings.stage = .ofString ((valueOf "APP_ENV").getD "development")

/-- The port that is read, where the one of an absent variable is 3000. -/
theorem portIsFine_iff (valueOf : String → Option String) :
    PortIsFine valueOf ↔ ∃ port, port? ((valueOf "APP_PORT").getD "3000") = some port := by
  unfold PortIsFine
  cases valueOf "APP_PORT" with
  | none => exact iff_of_true nofun ⟨3000, by decide⟩
  | some text =>
    rw [Option.getD_some, ← namesPort_iff]
    exact ⟨fun h => h text rfl, fun h other same => Option.some.inj same ▸ h⟩

theorem snapshotPath_eq_error_iff (valueOf : String → Option String) (e : SettingsError) :
    snapshotPath (valueOf "APP_COURSE_SNAPSHOT") = .error e ↔
      SnapshotIsBlank valueOf ∧ e = .emptySnapshotPath := by
  unfold SnapshotIsBlank
  cases valueOf "APP_COURSE_SNAPSHOT" with
  | none => exact iff_of_false nofun fun h => nomatch h
  | some text =>
    rw [snapshotPath]
    split
    · next blank =>
      rw [trim_eq_nil_iff] at blank
      constructor
      · intro h
        exact ⟨⟨text, rfl, blank⟩, (Except.error.inj h).symm⟩
      · rintro ⟨-, rfl⟩
        rfl
    · next visible =>
      refine iff_of_false nofun ?_
      rintro ⟨⟨other, same, blank⟩, -⟩
      exact visible (trim_eq_nil_iff.mpr (Option.some.inj same ▸ blank))

variable (values : ∀ name, vars.lookup name = valueOf name)
include values

/-- What variables are at fault: the port before the snapshot. -/
theorem ofVariables_eq_error_iff (e : SettingsError) :
    ofVariables vars = .error e ↔
      (¬ PortIsFine valueOf ∧ e = .invalidPort) ∨
        (PortIsFine valueOf ∧ SnapshotIsBlank valueOf ∧ e = .emptySnapshotPath) := by
  rw [portIsFine_iff, ← snapshotPath_eq_error_iff]
  unfold ofVariables
  dsimp only
  rw [values, values]
  cases port? ((valueOf "APP_PORT").getD "3000") with
  | none =>
    constructor
    · intro h
      exact Or.inl ⟨nofun, (Except.error.inj h).symm⟩
    · rintro (⟨-, rfl⟩ | ⟨⟨port, none⟩, -⟩)
      · rfl
      · cases none
  | some port =>
    have fine : ∃ other, some port = some other := ⟨port, rfl⟩
    cases snapshotPath (valueOf "APP_COURSE_SNAPSHOT") with
    | ok path => exact iff_of_false nofun fun h => h.elim (fun h => h.1 fine) fun h => nomatch h.2
    | error other =>
      show Except.error other = .error e ↔ _
      rw [Except.error.injEq, Except.error.injEq]
      exact ⟨fun h => Or.inr ⟨fine, h⟩, fun h => h.elim (fun h => absurd fine h.1) (·.2)⟩

theorem reflects_of_ofVariables (loaded : ofVariables vars = .ok settings) :
    settings.Reflects valueOf := by
  unfold ofVariables at loaded
  dsimp only at loaded
  rw [values, values] at loaded
  cases read : port? ((valueOf "APP_PORT").getD "3000") with
  | none =>
    rw [read] at loaded
    cases loaded
  | some port =>
    rw [read] at loaded
    obtain ⟨_, ⟨⟩, loaded⟩ := bind_eq_ok_iff.mp loaded
    obtain ⟨path, found, made⟩ := bind_eq_ok_iff.mp loaded
    obtain rfl := Except.ok.inj made
    refine ⟨fun unset => ?_, fun text set => ?_, fun unset => ?_, fun text set => ?_,
      by rw [← values], by rw [← values], by rw [← values]⟩
    · rw [unset] at read
      exact Option.some.inj (read.symm.trans (by decide : port? "3000" = some 3000))
    · rw [set] at read
      exact (port?_eq_some_iff text port).mp read
    · rw [unset] at found
      exact (Except.ok.inj found).symm
    · rw [set, snapshotPath] at found
      split at found
      · cases found
      · refine ⟨_, (Except.ok.inj found).symm, ?_⟩
        rw [String.toList_ofList]
        exact isTrimmed_trim text.toList

/-- Variables that are not at fault make settings. -/
theorem exists_ofVariables_eq_ok (port : PortIsFine valueOf) (snapshot : ¬ SnapshotIsBlank valueOf) :
    ∃ settings, ofVariables vars = .ok settings := by
  cases loaded : ofVariables vars with
  | ok settings => exact ⟨settings, rfl⟩
  | error e =>
    rcases (ofVariables_eq_error_iff values e).mp loaded with ⟨bad, -⟩ | ⟨-, blank, -⟩
    · exact absurd port bad
    · exact absurd blank snapshot

end Variables

/-! ### Loading -/

/-- **How loading ends.**  With the value of each name from the environment, or else from the file,
a port that is none fails, then a blank snapshot does, and all else gives the settings that the
values stand for. -/
theorem load_outcome {file : Option String} {entries : Variables}
    (supplied : VariablesFile.Supplies file entries) (environment : Variables) :
    let valueOf name := (environment.lookup name).or (entries.lookup name)
    (load environment file = .error .invalidPort ↔ ¬ PortIsFine valueOf) ∧
      (load environment file = .error .emptySnapshotPath ↔
        PortIsFine valueOf ∧ SnapshotIsBlank valueOf) ∧
      (PortIsFine valueOf → ¬ SnapshotIsBlank valueOf →
        ∃ settings, load environment file = .ok settings ∧ settings.Reflects valueOf) := by
  intro valueOf
  have values : ∀ name, (environment.withFile file).lookup name = valueOf name :=
    Variables.lookup_withFile supplied environment
  have failure := ofVariables_eq_error_iff values
  refine ⟨(failure _).trans ?_, (failure _).trans ?_, fun port snapshot => ?_⟩
  · exact ⟨fun h => h.elim (·.1) (fun h => nomatch h.2.2), fun bad => Or.inl ⟨bad, rfl⟩⟩
  · exact ⟨fun h => h.elim (fun h => nomatch h.2) fun h => ⟨h.1, h.2.1⟩,
      fun h => Or.inr ⟨h.1, h.2, rfl⟩⟩
  · obtain ⟨settings, loaded⟩ := exists_ofVariables_eq_ok values port snapshot
    exact ⟨settings, loaded, reflects_of_ofVariables values loaded⟩

/-- A file of three lines, of which two end in different ways. -/
def demoFile : String := "APP_PORT=4000\nAPP_COURSE_SNAPSHOT=courses.json\r\nAPP_LOG_LEVEL=debug"

/-- What the lines set. -/
def demoEntries : Variables :=
  [("APP_PORT", "4000"), ("APP_COURSE_SNAPSHOT", "courses.json"), ("APP_LOG_LEVEL", "debug")]

/-- The file sets a port, but the environment has one already, and its host is there though empty.
An empty port and a blank path in the environment hide those of the file as well. -/
theorem demo_load_outcome :
    VariablesFile.Supplies (some demoFile) demoEntries ∧
      load [("APP_PORT", "")] (some demoFile) = .error .invalidPort ∧
      load [("APP_COURSE_SNAPSHOT", " \t")] (some demoFile) = .error .emptySnapshotPath ∧
      ∃ settings, load [("APP_PORT", "+5000"), ("APP_HOST", "")] (some demoFile) = .ok settings ∧
        settings.port = 5000 ∧ settings.host = "" ∧ settings.logLevel = "debug" := by
  have plain : ∀ entry ∈ demoEntries, VariablesFile.IsPlainEntry entry := by
    intro entry mem
    simp only [demoEntries, List.mem_cons, List.not_mem_nil, or_false] at mem
    rcases mem with rfl | rfl | rfl <;>
      exact ⟨⟨'A', by decide, by decide⟩, List.all_eq_true.mp (by decide),
        List.all_eq_true.mp (by decide), by decide⟩
  have supplied : VariablesFile.Supplies (some demoFile) demoEntries :=
    .present (.cons (plain _ (by decide)) (Or.inl rfl)
      (.cons (plain _ (by decide)) (Or.inr rfl) (.last (plain _ (by decide)))))
  have port := load_outcome supplied [("APP_PORT", "")]
  have snapshot := load_outcome supplied [("APP_COURSE_SNAPSHOT", " \t")]
  have fine := load_outcome supplied [("APP_PORT", "+5000"), ("APP_HOST", "")]
  refine ⟨supplied, port.1.mpr ?_, snapshot.2.1.mpr ⟨?_, " \t", rfl, ?_⟩, ?_⟩
  · intro named
    obtain ⟨port, read⟩ := (namesPort_iff "").mp (named "" rfl)
    cases read
  · intro text set
    obtain rfl := Option.some.inj set
    exact (namesPort_iff "4000").mpr ⟨4000, by decide⟩
  · exact List.all_eq_true.mp (by decide)
  · obtain ⟨settings, loaded, reflects⟩ := fine.2.2
      (fun text set => by
        obtain rfl := Option.some.inj set
        exact (namesPort_iff "+5000").mpr ⟨5000, by decide⟩)
      (fun ⟨text, set, blank⟩ => by
        obtain rfl := Option.some.inj set
        exact absurd (blank 'c' (by decide)) (by decide))
    have read := (port?_eq_some_iff "+5000" settings.port).mpr (reflects.port_set "+5000" rfl)
    exact ⟨settings, loaded, Option.some.inj (read.symm.trans (by decide)), reflects.host,
      reflects.logLevel⟩

end Settings

end ExamAdmission
