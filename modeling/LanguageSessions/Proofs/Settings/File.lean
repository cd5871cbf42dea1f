import LanguageSessions.Proofs.Yaml.Floats
import LanguageSessions.Proofs.Yaml.Mapping
import LanguageSessions.Settings.File

/-!
# Settings survive their file

The file written for settings is a mapping with one entry for each field, the fields for diagnostics forming a block of
their own (`toContent_eq`). Each entry fits its line: a text is written in a style in which it is read back
(`wrote_writeText`), and flags and numbers are words. So the file is read as the values that were written, from which
the same settings are taken (`ofContent_toContent`).
-/

namespace LanguageSessions

open Text

namespace Yaml

variable {text : List Char}

/-! ## Texts in their style -/

theorem not_blank_of_not_loose (h : hasLooseEnd text = false) : text.head? ≠ some ' ' ∧ text.getLast? ≠ some ' ' := by
  simp only [hasLooseEnd, Bool.or_eq_false_iff, beq_eq_false_iff_ne] at h
  exact ⟨h.1.1, h.2.1⟩

/-- A text that needs no quotes is read back without them. -/
theorem bare_of_needsQuotes (hordinary : ∀ c ∈ text, isOrdinary c = true) (h : needsQuotes text = false) :
    Bare text ∧ Meaning.ofText text = .text := by
  simp only [needsQuotes, Bool.or_eq_false_iff, bne_eq_false_iff_eq] at h
  obtain ⟨⟨⟨⟨⟨-, hloose⟩, hinner⟩, hends⟩, hline⟩, htext⟩ := h
  have hprintable : ∀ c ∈ text, ' ' ≤ c ∧ c ≤ '~' := by
    intro c hc
    have hne : c ≠ '\n' := by
      rintro rfl
      rw [List.contains_iff_mem.2 hc] at hline
      cases hline
    simpa [isOrdinary, hne] using hordinary c hc
  obtain ⟨hhead, hlast⟩ := not_blank_of_not_loose hends
  refine ⟨⟨?_, hprintable, hhead, hlast, hloose, ?_⟩, htext⟩
  · rintro rfl
    exact absurd htext (by decide)
  · cases text with
    | nil => rfl
    | cons c text =>
      obtain ⟨hc, -⟩ := List.forall_mem_cons.1 hprintable
      have hblank : c ≠ ' ' := fun hc => hhead (congrArg some hc)
      rw [startsWithIndicator, Bool.or_eq_false_iff] at hloose
      have hcolon : (c == ':' && atWordEnd text) = false := by
        have := hloose.2
        grind
      rw [hasInnerIndicator, hcolon, isGap_of_printable hc hblank, isBreak_of_printable hc, Bool.and_false]
      exact hinner

/-- **A text is written so that it is read back.** -/
theorem wrote_writeText (column : Nat) (text : List Char) :
    Wrote ((0 : Nat) : Int) (writeText column text) text (styleOf text == .plain) ∧
      Value.ofScalar false text (styleOf text == .plain) = .ok (.string text) := by
  have hstyle : styleOf text = if !text.all isOrdinary || blankAtBreak text then .double
      else if needsQuotes text then .single else .plain := rfl
  rw [writeText]
  split at hstyle
  next =>
    rw [hstyle]
    exact ⟨.double text _, rfl⟩
  next hplain =>
    rw [Bool.or_eq_true, not_or, Bool.not_eq_true', Bool.not_eq_false, Bool.not_eq_true] at hplain
    obtain ⟨hordinary, hbreaks⟩ := hplain
    have hordinary := List.all_eq_true.1 hordinary
    split at hstyle
    next =>
      rw [hstyle]
      exact ⟨.single hordinary hbreaks _, rfl⟩
    next hquotes =>
      rw [hstyle]
      obtain ⟨hbare, htext⟩ := bare_of_needsQuotes hordinary (Bool.not_eq_true _ ▸ hquotes)
      exact ⟨.bare hbare (fun _ => by decide) column, by simp [Value.ofScalar, htext]⟩

theorem wrote_of_isWord (h : isWord text = true) (indent : Int) : Wrote indent text text true := by
  have hwrote : Wrote indent (writePlain 0 none text) text true :=
    .bare (bare_of_isWord h) (fun hm => absurd hm (blank_not_mem_of_isWord h)) 0
  rwa [writePlain_of_not_mem (blank_not_mem_of_isWord h)] at hwrote

end Yaml

namespace Settings

open Yaml

/-! ## Entries -/

/-- The entry with a text. -/
def textEntry (name text : String) : Entry :=
  ⟨name.toList, writeText (name.length + 2) text.toList, text.toList, styleOf text.toList == .plain,
    .string text.toList⟩

/-- The entry with a flag. -/
def boolEntry (name : String) (b : Bool) : Entry := ⟨name.toList, writeBool b, writeBool b, true, .bool b⟩

/-- The entry with a number. -/
def floatEntry (name : String) (x : Binary64) : Entry := ⟨name.toList, writeFloat x, writeFloat x, true, .float x⟩

/-- Whether a field has a name that is read back as a text. -/
def isFieldName (name : String) : Bool := isName name.toList && Meaning.ofText name.toList == .text

variable {name : String}

theorem fits_textEntry (hname : isFieldName name = true) (text : String) : (textEntry name text).Fits 0 := by
  rw [isFieldName, Bool.and_eq_true, beq_iff_eq] at hname
  obtain ⟨hwrote, hmeans⟩ := wrote_writeText (name.length + 2) text.toList
  exact ⟨hname.1, hname.2, hwrote, hmeans⟩

theorem fits_boolEntry (hname : isFieldName name = true) (column : Nat) (b : Bool) :
    (boolEntry name b).Fits column := by
  rw [isFieldName, Bool.and_eq_true, beq_iff_eq] at hname
  have hword : isWord (writeBool b) = true := by
    cases b <;> decide
  refine ⟨hname.1, hname.2, wrote_of_isWord hword column, ?_⟩
  cases b <;> rfl

theorem fits_floatEntry (hname : isFieldName name = true) (column : Nat) {x : Binary64} (hx : x.isPositive = true) :
    (floatEntry name x).Fits column := by
  rw [isFieldName, Bool.and_eq_true, beq_iff_eq] at hname
  refine ⟨hname.1, hname.2, wrote_of_isWord (isWord_writeFloat hx) column, ?_⟩
  simp [floatEntry, Value.ofScalar, ofText_writeFloat hx]

/-! ## The file -/

/-- The entries in front of the diagnostics. -/
def entriesBefore (settings : Settings) : List Entry :=
  [textEntry "client_name" settings.clientName, textEntry "client_version" settings.clientVersion]

/-- The entries for the diagnostics. -/
def visibilityEntries (visibility : Visibility) : List Entry :=
  [boolEntry "show_diagnostics" visibility.showDiagnostics, boolEntry "show_errors" visibility.showErrors,
    boolEntry "show_hints" visibility.showHints, boolEntry "show_info" visibility.showInfo,
    boolEntry "show_warnings" visibility.showWarnings]

/-- The entries behind the diagnostics. -/
def entriesAfter (settings : Settings) : List Entry :=
  [boolEntry "enabled" settings.enabled, floatEntry "request_timeout" settings.requestTimeout.seconds,
    floatEntry "shutdown_timeout" settings.shutdownTimeout.seconds]

/-- The file of settings is made of its entries. -/
theorem toContent_eq (settings : Settings) : settings.toContent =
    Scan.fileText 2 settings.entriesBefore "diagnostics".toList (visibilityEntries settings.diagnostics)
      settings.entriesAfter := by
  have hheader : "diagnostics:\n".toList = "diagnostics".toList ++ [':', '\n'] := by decide
  simp only [toContent, hheader, Scan.fileText, entriesBefore, visibilityEntries, entriesAfter, List.flatMap_cons,
    List.flatMap_nil, List.append_nil, List.append_assoc, List.cons_append, List.nil_append]
  rfl

theorem fits_entriesBefore (settings : Settings) : ∀ entry ∈ settings.entriesBefore, entry.Fits 0 := by
  rw [entriesBefore, List.forall_mem_cons, List.forall_mem_singleton]
  exact ⟨fits_textEntry (by decide) _, fits_textEntry (by decide) _⟩

theorem fits_visibilityEntries (visibility : Visibility) : ∀ entry ∈ visibilityEntries visibility, entry.Fits 2 := by
  rw [visibilityEntries]
  iterate 4 rw [List.forall_mem_cons]
  rw [List.forall_mem_singleton]
  exact ⟨fits_boolEntry (by decide) 2 _, fits_boolEntry (by decide) 2 _, fits_boolEntry (by decide) 2 _,
    fits_boolEntry (by decide) 2 _, fits_boolEntry (by decide) 2 _⟩

theorem fits_entriesAfter (settings : Settings) : ∀ entry ∈ settings.entriesAfter, entry.Fits 0 := by
  rw [entriesAfter, List.forall_mem_cons, List.forall_mem_cons, List.forall_mem_singleton]
  exact ⟨fits_boolEntry (by decide) 0 _, fits_floatEntry (by decide) 0 settings.requestTimeout.positive,
    fits_floatEntry (by decide) 0 settings.shutdownTimeout.positive⟩

/-! ## What is read -/

/-- What is written of which diagnostics are kept. -/
def visibilityMembers (visibility : Visibility) : Members :=
  [("show_diagnostics", .bool visibility.showDiagnostics), ("show_errors", .bool visibility.showErrors),
    ("show_hints", .bool visibility.showHints), ("show_info", .bool visibility.showInfo),
    ("show_warnings", .bool visibility.showWarnings)]

/-- What is written of settings. -/
def fileMembers (settings : Settings) : Members :=
  [("client_name", .string settings.clientName), ("client_version", .string settings.clientVersion),
    ("diagnostics", .object (visibilityMembers settings.diagnostics)), ("enabled", .bool settings.enabled),
    ("request_timeout", .float settings.requestTimeout.seconds),
    ("shutdown_timeout", .float settings.shutdownTimeout.seconds)]

theorem toMembers_visibility (visibility : Visibility) :
    Value.toMembers [] ((visibilityEntries visibility).map Entry.member) = visibilityMembers visibility := by
  simp [visibilityEntries, visibilityMembers, boolEntry, Entry.member, Value.toMembers, Value.toJson, Members.set]

/-- The values of a file of settings. -/
def fileValue (settings : Settings) : Value :=
  .mapping (settings.entriesBefore.map Entry.member ++
    (.string "diagnostics".toList, .mapping ((visibilityEntries settings.diagnostics).map Entry.member)) ::
      settings.entriesAfter.map Entry.member)

theorem toJson_fileValue (settings : Settings) : settings.fileValue.toJson = .object settings.fileMembers := by
  have hvisibility := toMembers_visibility settings.diagnostics
  simp [fileValue, fileMembers, entriesBefore, entriesAfter, textEntry, boolEntry, floatEntry, Entry.member,
    Value.toMembers, Value.toJson, Members.set, hvisibility]

/-- A field that is there is read. -/
theorem read_of_get {α : Type} {members : Members} (within : String) {name : String} {value : Json}
    (hvalue : Members.get? members name = some value) {reader : Json → Except FieldFault α} {a : α}
    (ha : reader value = .ok a) (otherwise : α) : SettingField.read members within name reader otherwise = .ok a := by
  rw [SettingField.read, hvalue]
  dsimp only
  rw [ha]

theorem ofMembers_visibility (base visibility : Visibility) (within : String) :
    base.ofMembers within (visibilityMembers visibility) = .ok visibility := by
  have hread : ∀ name b, Members.get? (visibilityMembers visibility) name = some (.bool b) → ∀ otherwise,
      SettingField.read (visibilityMembers visibility) within name SettingField.flag otherwise = .ok b :=
    fun _ _ hvalue => read_of_get within hvalue rfl
  rw [Visibility.ofMembers, hread "show_diagnostics" visibility.showDiagnostics rfl,
    hread "show_errors" visibility.showErrors rfl, hread "show_warnings" visibility.showWarnings rfl,
    hread "show_info" visibility.showInfo rfl, hread "show_hints" visibility.showHints rfl]
  rfl

theorem timeout_seconds (timeout : Timeout) : SettingField.timeout (.float timeout.seconds) = .ok timeout := by
  exact dif_pos timeout.positive

/-- **What is written of settings is read as the settings.** -/
theorem ofJson_fileMembers (settings : Settings) : ofJson (.object settings.fileMembers) = .ok settings := by
  have hdiagnostics : diagnosticsField settings.fileMembers = .ok settings.diagnostics :=
    ofMembers_visibility Visibility.standard settings.diagnostics "diagnostics."
  have hread : ∀ {α : Type} (name : String) {reader : Json → Except FieldFault α} {value : Json} (a : α),
      Members.get? settings.fileMembers name = some value → reader value = .ok a → ∀ otherwise,
        SettingField.read settings.fileMembers "" name reader otherwise = .ok a :=
    fun _ _ _ _ hvalue ha => read_of_get "" hvalue ha
  rw [ofJson, hread "enabled" settings.enabled rfl rfl,
    hread "request_timeout" settings.requestTimeout rfl (timeout_seconds _),
    hread "shutdown_timeout" settings.shutdownTimeout rfl (timeout_seconds _),
    hread "client_name" settings.clientName rfl rfl, hread "client_version" settings.clientVersion rfl rfl,
    hdiagnostics]
  rfl

/-- What is written into a file is read back as the settings. -/
theorem ofContent_toContent (settings : Settings) : ofContent settings.toContent = .ok settings := by
  have hread : Yaml.read settings.toContent = .ok settings.fileValue := by
    rw [toContent_eq]
    exact read_file (by decide) (by decide) (by decide) (List.cons_ne_nil _ _) (List.cons_ne_nil _ _)
      (List.cons_ne_nil _ _) settings.fits_entriesBefore (fits_visibilityEntries settings.diagnostics)
      settings.fits_entriesAfter
  have hjson : ofJson settings.fileValue.toJson = .ok settings := by
    rw [toJson_fileValue, ofJson_fileMembers]
  rw [ofContent, hread]
  dsimp only
  rw [hjson]
  rfl

/-- **Settings survive their file**: a file that holds what is written for settings is read as the settings. -/
theorem ofFile_toContent (settings : Settings) :
    ofFile (some (String.ofList settings.toContent)) = .ok settings := by
  rw [ofFile, String.toList_ofList]
  exact settings.ofContent_toContent

end Settings

end LanguageSessions
