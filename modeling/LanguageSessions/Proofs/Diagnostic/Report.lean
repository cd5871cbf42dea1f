import LanguageSessions.Diagnostic.Report
import LanguageSessions.Proofs.Console.Table
import LanguageSessions.Proofs.Diagnostic.Malformed
import LanguageSessions.Proofs.Diagnostic.Runs
import LanguageSessions.Proofs.Number.Numeral
import LanguageSessions.Proofs.Readings

/-!
# What reports about diagnostics show

The parts of a line that come from outside are escaped, and styles are closed again, so that a report never fails. What
is seen of each line is `lineAs shown`: the line itself, with the paths, codes and messages as `shown` has them.

- `fileReport_prints`: on a console with room, the report about a file has these lines, one for each diagnostic in
  order, and says when one of them is the line as it should be.
- `summary_adds_up`: the summary has a row for each file, and its columns add up to the counts of all files.
-/

namespace LanguageSessions

open Text Console

/-! ## Integers in reports -/

section Integers

theorem forall_mem_intDigits {P : Char → Prop} (hminus : P '-') (hdigit : ∀ d < 10, P (digitChar d)) (n : Int) :
    ∀ c ∈ intDigits n, P c := by
  cases n with
  | ofNat n => exact forall_mem_natDigits hdigit n
  | negSucc n => exact List.forall_mem_cons.2 ⟨hminus, forall_mem_natDigits hdigit (n + 1)⟩

/-- There is no markup in the digits of an integer. -/
theorem inert_intDigits (n : Int) : Inert (intDigits n) := forall_mem_intDigits (by decide) (by decide) n

theorem flat_intDigits (n : Int) : Flat (intDigits n) := forall_mem_intDigits (by decide) (by decide) n

theorem endsWithInk_intDigits (n : Int) : EndsWithInk (intDigits n) := fun c hc =>
  forall_mem_intDigits (P := fun c => isBlank c = false) (by decide) (by decide) n c (List.mem_of_getLast? hc)

end Integers

/-! ## The line about a diagnostic -/

namespace Diagnostic

/-- A code in brackets. -/
def inBrackets (code : String) : List Char := '[' :: code.toList ++ [']']

/-- The code in brackets, behind a blank, as it is seen; nothing without a code. -/
def codeAs (seen : List Char → List Char) (diagnostic : Diagnostic) : List Char :=
  match diagnostic.code with
  | none | some "" => []
  | some code => ' ' :: seen (inBrackets code)

/-- Where a diagnostic is, behind the path; positions count from one. -/
def spot (diagnostic : Diagnostic) : List Char :=
  ':' :: intDigits (diagnostic.range.start.line + 1) ++ ':' :: intDigits (diagnostic.range.start.character + 1) ++ [' ']

/-- The line about a diagnostic of a file, when of the parts that come from outside so much is seen. -/
def lineAs (seen : List Char → List Char) (path : String) (diagnostic : Diagnostic) : List Char :=
  seen path.toList ++ (diagnostic.spot ++ (diagnostic.severity.name.toList ++
    (diagnostic.codeAs seen ++ ' ' :: seen diagnostic.message.toList)))

/-- The line about a diagnostic of a file, as it should be. -/
def line (path : String) (diagnostic : Diagnostic) : List Char := diagnostic.lineAs (fun text => text) path

section Lines

variable {path : String} {diagnostic : Diagnostic}

theorem isTag_style (severity : Severity) : IsTag (style severity).toList := by
  cases severity <;> exact ⟨⟨_, _, rfl, by decide⟩, by decide, by decide⟩

theorem style_opens (openStyles : List (List Char)) (severity : Severity) :
    ∃ opened, applyTag openStyles (style severity).toList = .ok (opened :: openStyles) := by
  cases severity <;> exact ⟨_, rfl⟩

theorem forall_mem_spot {P : Char → Prop} (hcolon : P ':') (hblank : P ' ') (hdigits : ∀ n, ∀ c ∈ intDigits n, P c)
    (diagnostic : Diagnostic) : ∀ c ∈ diagnostic.spot, P c := by
  simp only [spot, List.forall_mem_append, List.forall_mem_cons]
  exact ⟨⟨⟨hcolon, hdigits _⟩, hcolon, hdigits _⟩, hblank, nofun⟩

theorem inert_spot (diagnostic : Diagnostic) : Inert diagnostic.spot :=
  forall_mem_spot (by decide) (by decide) inert_intDigits diagnostic

theorem no_closing_spot (diagnostic : Diagnostic) : ']' ∉ diagnostic.spot := by
  have hdigits : ∀ n, ∀ c ∈ intDigits n, c ≠ ']' := forall_mem_intDigits (by decide) (by decide)
  exact fun hm => forall_mem_spot (by decide) (by decide) hdigits diagnostic _ hm rfl

/-- There is nothing to see of the code, or the code in brackets. -/
theorem code_cases (diagnostic : Diagnostic) :
    ((diagnostic.code = none ∨ diagnostic.code = some "") ∧ diagnostic.codeMarkup = [] ∧
        ∀ seen, diagnostic.codeAs seen = []) ∨
      ∃ code, diagnostic.code = some code ∧ diagnostic.codeMarkup = ' ' :: escape (inBrackets code) ∧
        ∀ seen, diagnostic.codeAs seen = ' ' :: seen (inBrackets code) := by
  cases hcode : diagnostic.code with
  | none => exact .inl ⟨.inl rfl, by simp [codeMarkup, hcode], by simp [codeAs, hcode]⟩
  | some code =>
    by_cases hempty : code = ""
    · subst hempty
      exact .inl ⟨.inr rfl, by simp [codeMarkup, hcode], by simp [codeAs, hcode]⟩
    · exact .inr ⟨code, rfl, by simp [codeMarkup, hcode, inBrackets], by simp [codeAs, hcode]⟩

theorem apart_inBrackets (code : String) (rest : List Char) : Apart (inBrackets code) (' ' :: rest) := by
  refine ⟨fun c hc => ?_, fun c hc => .inl ?_⟩
  · cases hc
    decide
  · rw [inBrackets, List.getLast?_concat] at hc
    exact (Option.some.inj hc).symm

theorem reading_code (diagnostic : Diagnostic) (rest : List Char) :
    reading [] (diagnostic.codeMarkup ++ ' ' :: rest) =
      (reading [] (' ' :: rest)).map (diagnostic.codeAs shown ++ ·) := by
  rcases diagnostic.code_cases with ⟨-, hmarkup, hseen⟩ | ⟨code, -, hmarkup, hseen⟩
  · rw [hmarkup, hseen]
    exact reading_plain nofun
  · have hblank : reading [] ([' '] ++ (escape (inBrackets code) ++ ' ' :: rest)) = _ :=
      reading_plain (by decide)
    rw [reading_escape (apart_inBrackets _ _)] at hblank
    rw [hmarkup, hseen]
    refine hblank.trans ?_
    cases reading [] (' ' :: rest) <;> rfl

/-- Behind the path and the position comes a bracket, and from there on the line can be read. -/
theorem reading_behind_spot (diagnostic : Diagnostic) : ∃ rest,
    (∀ path, diagnostic.markup path = escape path.toList ++ (diagnostic.spot ++ '[' :: rest)) ∧
    reading [] ('[' :: rest) = .ok (diagnostic.severity.name.toList ++
      (diagnostic.codeAs shown ++ ' ' :: shown diagnostic.message.toList)) := by
  refine ⟨(style diagnostic.severity).toList ++ ']' :: (diagnostic.severity.name.toList ++ '[' :: '/' :: ']' ::
    (diagnostic.codeMarkup ++ ' ' :: escape diagnostic.message.toList)), fun path => by simp [markup, spot], ?_⟩
  have hname : Inert diagnostic.severity.name.toList := by cases diagnostic.severity <;> decide
  have hmessage : reading [] ([' '] ++ escape diagnostic.message.toList) = _ := reading_plain (by decide)
  rw [reading_escape_alone, List.singleton_append] at hmessage
  rw [reading_styled (isTag_style _) (style_opens [] _) hname, reading_code, hmessage]
  rfl

/-- **The line about a diagnostic can be read**, and this is what is seen of it. -/
theorem reading_markup (path : String) (diagnostic : Diagnostic) :
    reading [] (diagnostic.markup path) = .ok (diagnostic.lineAs shown path) := by
  obtain ⟨rest, hsplit, hrest⟩ := diagnostic.reading_behind_spot
  have hpath : Apart path.toList (diagnostic.spot ++ '[' :: rest) := by
    refine ⟨fun c hc => ?_, fun _ _ => .inr ?_⟩
    · cases hc
      decide
    · exact upToBracket_of_opening diagnostic.no_closing_spot
  rw [hsplit, reading_escape hpath, reading_plain diagnostic.inert_spot, hrest]
  rfl

theorem visible_markup (path : String) (diagnostic : Diagnostic) :
    visible (diagnostic.markup path) = .ok ((diagnostic.lineAs shown path).filter isPrinted) := by
  rw [visible_eq_reading, reading_markup]
  rfl

/-- The message and the code of a diagnostic can stand in a line. -/
structure IsFlat (diagnostic : Diagnostic) : Prop where
  message : Flat diagnostic.message.toList
  code : ∀ code, diagnostic.code = some code → Flat code.toList

theorem IsFlat.lineAs_shown (h : diagnostic.IsFlat) (hpath : Flat path.toList) :
    Flat (diagnostic.lineAs shown path) := by
  have hspot : Flat diagnostic.spot := forall_mem_spot (by decide) (by decide) flat_intDigits diagnostic
  have hname : Flat diagnostic.severity.name.toList := by cases diagnostic.severity <;> decide
  have hcode : Flat (diagnostic.codeAs shown) := by
    rcases diagnostic.code_cases with ⟨-, -, hseen⟩ | ⟨code, heq, -, hseen⟩
    · rw [hseen]
      exact nofun
    · rw [hseen]
      have hbrackets : Flat (inBrackets code) := ((h.code code heq).cons (by decide)).append (by decide)
      exact hbrackets.shown.cons (by decide)
  exact hpath.shown.append (hspot.append (hname.append (hcode.append (h.message.shown.cons (by decide)))))

/-- **What is seen is the line as it should be just if** the path, the code in its brackets and the message are all
shown as they are. -/
theorem lineAs_shown_eq_line_iff : diagnostic.lineAs shown path = diagnostic.line path ↔
    shown path.toList = path.toList ∧
    (∀ code, diagnostic.code = some code → shown (inBrackets code) = inBrackets code) ∧
    shown diagnostic.message.toList = diagnostic.message.toList := by
  have hcode : ∀ behind others : List Char, diagnostic.codeAs shown ++ ' ' :: behind =
      diagnostic.codeAs (fun text => text) ++ ' ' :: others ↔
        (∀ code, diagnostic.code = some code → shown (inBrackets code) = inBrackets code) ∧
          behind = others := by
    intro behind others
    rcases diagnostic.code_cases with ⟨hnone, -, hseen⟩ | ⟨code, heq, -, hseen⟩
    · have hall : ∀ code, diagnostic.code = some code → shown (inBrackets code) = inBrackets code := by
        intro code hcode
        rcases hnone with h | h <;> rw [h] at hcode <;> cases hcode
        rfl
      rw [hseen, hseen, List.nil_append, List.nil_append, List.cons_inj_right]
      exact (and_iff_right hall).symm
    · rw [hseen, hseen, List.cons_append, List.cons_append, List.cons_inj_right, shown_append_eq_iff (by simp),
        List.cons_inj_right]
      simp [heq]
  rw [line, lineAs, lineAs, shown_append_eq_iff (by simp [spot]), List.append_cancel_left_eq,
    List.append_cancel_left_eq, hcode]

end Lines

end Diagnostic

/-! ## The report about a file -/

namespace DiagnosticStore

/-- The report about a file never fails, and has a line for each diagnostic. -/
theorem fileReport_eq (store : DiagnosticStore) (path : String) (width : Nat) :
    store.fileReport path width = .ok (((store.get path).map fun diagnostic =>
      (diagnostic.lineAs shown path).filter isPrinted).flatMap (printed width)) := by
  have hlines : ((store.get path).mapM fun diagnostic => visible (diagnostic.markup path)) = _ :=
    mapM_eq_map fun diagnostic _ => Diagnostic.visible_markup path diagnostic
  rw [fileReport, hlines]
  rfl

/-- **The report about a file prints its diagnostics line by line.** It never fails. Where there is room, and the texts
can stand in a line, it has one line for each diagnostic, in order, and the line is as it should be just if the path,
the code in its brackets and the message are all shown as they are. -/
theorem fileReport_prints (store : DiagnosticStore) (path : String) (width : Nat) :
    (∃ lines, store.fileReport path width = .ok lines) ∧
    (Flat path.toList →
      (∀ diagnostic ∈ store.get path, diagnostic.IsFlat ∧ (diagnostic.lineAs shown path).length ≤ width) →
      store.fileReport path width = .ok ((store.get path).map fun diagnostic => diagnostic.lineAs shown path)) ∧
    ∀ diagnostic ∈ store.get path, diagnostic.lineAs shown path = diagnostic.line path ↔
      shown path.toList = path.toList ∧
      (∀ code, diagnostic.code = some code → shown (Diagnostic.inBrackets code) = Diagnostic.inBrackets code) ∧
      shown diagnostic.message.toList = diagnostic.message.toList := by
  refine ⟨⟨_, store.fileReport_eq path width⟩, fun hpath hall => ?_,
    fun diagnostic _ => Diagnostic.lineAs_shown_eq_line_iff⟩
  have hprinted : ∀ diagnostic ∈ store.get path,
      printed width ((diagnostic.lineAs shown path).filter isPrinted) = [diagnostic.lineAs shown path] := by
    intro diagnostic hm
    obtain ⟨hflat, hroom⟩ := hall diagnostic hm
    have hline := hflat.lineAs_shown hpath
    rw [hline.filter_printed, hline.printed hroom]
  rw [fileReport_eq, List.flatMap_map, List.flatMap_congr hprinted]
  exact congrArg Except.ok (List.flatMap_pure_eq_map _ _)

/-- A backslash right before a bracket that begins no tag is lost on its way to the console, and a lone one at the end
of a message is seen twice. -/
theorem report_alters_backslashes :
    let desk := fun (message : String) =>
      Desk.run ⟨empty .standard, 0, []⟩ [.push "/w/a.py" (.array [placed (.int 0) message])]
    let report := fun (message : String) => (desk message).store.fileReport "/w/a.py" 80
    report "invalid escape \\[0" = .ok ["/w/a.py:1:1 error invalid escape [0".toList] ∧
      report "ends in \\" = .ok ["/w/a.py:1:1 error ends in \\\\".toList] := by
  decide +kernel

end DiagnosticStore

/-! ## Counts -/

namespace SeverityCounts

/-- A number of diagnostics and what they are. -/
def counted (n : Int) (name : String) : List Char := intDigits n ++ ' ' :: name.toList

/-- Counts as they are seen. -/
def text (counts : SeverityCounts) : List Char :=
  counted counts.errors "errors" ++ ", ".toList ++ counted counts.warnings "warnings" ++ ", ".toList ++
    counted counts.info "info" ++ ", ".toList ++ counted counts.hints "hints"

/-- The line about the counts of all files. -/
def totalLine (counts : SeverityCounts) : List Char := "Total: ".toList ++ counts.text

/-- A number of diagnostics and what they are, in the style of a severity. -/
def styled (severity : Severity) (n : Int) (name : String) : List Char :=
  '[' :: (Diagnostic.style severity).toList ++ ']' :: intDigits n ++ ' ' :: name.toList ++ "[/]".toList

section Counts

variable {name : String} {counts : SeverityCounts}

theorem reading_styled_count (severity : Severity) (n : Int) (hname : Inert name.toList) (rest : List Char) :
    reading [] (styled severity n name ++ rest) = (reading [] rest).map (counted n name ++ ·) := by
  have hinert : Inert (counted n name) :=
    List.forall_mem_append.2 ⟨inert_intDigits n, List.forall_mem_cons.2 ⟨by decide, hname⟩⟩
  have hsplit : styled severity n name ++ rest =
      '[' :: ((Diagnostic.style severity).toList ++ ']' :: (counted n name ++ '[' :: '/' :: ']' :: rest)) := by
    simp [styled, counted]
  rw [hsplit, reading_styled (Diagnostic.isTag_style severity) (Diagnostic.style_opens [] severity) hinert]

theorem markup_eq (counts : SeverityCounts) : counts.markup =
    styled .error counts.errors "errors" ++ (", ".toList ++ (styled .warning counts.warnings "warnings" ++
      (", ".toList ++ (styled .info counts.info "info" ++ (", ".toList ++
        (styled .hint counts.hints "hints" ++ [])))))) := by
  have hparts : counts.markup = joinWith ", ".toList [styled .error counts.errors "errors",
      styled .warning counts.warnings "warnings", styled .info counts.info "info",
      styled .hint counts.hints "hints"] := rfl
  rw [hparts, Table.joinWith_cons_cons, Table.joinWith_cons_cons, Table.joinWith_cons_cons, joinWith]
  simp only [List.append_assoc, List.append_nil]

theorem visible_total (counts : SeverityCounts) :
    visible ("Total: ".toList ++ counts.markup) = .ok (counts.totalLine.filter isPrinted) := by
  have hcomma : Inert ", ".toList := by decide
  have hstart : Inert "Total: ".toList := by decide
  have hread : reading [] ("Total: ".toList ++ counts.markup) = .ok counts.totalLine := by
    rw [markup_eq, reading_plain hstart, reading_styled_count _ _ (by decide), reading_plain hcomma,
      reading_styled_count _ _ (by decide), reading_plain hcomma, reading_styled_count _ _ (by decide),
      reading_plain hcomma, reading_styled_count _ _ (by decide), reading_nil]
    unfold totalLine text
    simp only [Except.map, List.append_assoc, List.append_nil]
  rw [visible_eq_reading, hread]
  rfl

theorem flat_counted (hname : Flat name.toList) (n : Int) : Flat (counted n name) :=
  (flat_intDigits n).append (hname.cons (by decide))

theorem flat_totalLine (counts : SeverityCounts) : Flat counts.totalLine := by
  have hcomma : Flat ", ".toList := by decide
  have hcounts : Flat counts.text :=
    ((((((flat_counted (by decide) _).append hcomma).append (flat_counted (by decide) _)).append hcomma).append
      (flat_counted (by decide) _)).append hcomma).append (flat_counted (by decide) _)
  exact Flat.append (by decide) hcounts

end Counts

end SeverityCounts

/-! ## The summary -/

namespace DiagnosticStore

/-- The counts of a file. -/
def countsOf (store : DiagnosticStore) (path : String) : SeverityCounts := SeverityCounts.ofList (store.get path)

/-- The columns of the summary, when of paths so much is seen: the files, and their counts. -/
def features (seen : List Char → List Char) (store : DiagnosticStore) : List (Table.Feature String) :=
  let number := fun (head : String) (number : SeverityCounts → Int) =>
    (⟨head, .right, fun path => intDigits (number (store.countsOf path))⟩ : Table.Feature String)
  [⟨"File", .left, fun path => seen path.toList⟩, number "Errors" SeverityCounts.errors,
   number "Warnings" SeverityCounts.warnings, number "Info" SeverityCounts.info, number "Hints" SeverityCounts.hints]

/-- The table of the summary, when of paths so much is seen. -/
def tableAs (seen : List Char → List Char) (store : DiagnosticStore) : Table :=
  Table.ofItems "Diagnostics" (store.features seen) store.sortedFiles

section Summary

variable {store : DiagnosticStore}

theorem summary_eq (store : DiagnosticStore) (width : Nat) :
    store.summary width = .ok ((store.tableAs fun text => (shown text).filter isPrinted).lines width ++
      printed width (store.counts.totalLine.filter isPrinted)) := by
  have hnames : (store.sortedFiles.mapM fun path => visible (escape path.toList)) = _ :=
    mapM_eq_map fun path _ => visible_escape path.toList
  have htable : store.summaryTable = .ok (store.tableAs fun text => (shown text).filter isPrinted) := by
    rw [summaryTable, hnames]
    simp [tableAs, Table.ofItems, features, countsOf, bind, Except.bind, pure, Except.pure]
  rw [summary, htable, SeverityCounts.visible_total]
  rfl

theorem mem_sortedFiles {path : String} : path ∈ store.sortedFiles ↔ path ∈ store.files.keys :=
  (List.mergeSort_perm store.files.keys _).mem_iff

/-- A number takes a column in which it can be read. -/
theorem legible_intDigits (n : Int) : Legible (intDigits n) ∧ EndsWithInk (intDigits n) :=
  ⟨⟨flat_intDigits n, .inr (endsWithInk_intDigits n)⟩, endsWithInk_intDigits n⟩

theorem legible_features (h : ∀ path ∈ store.files.keys, Legible path.toList) :
    ∀ feature ∈ store.features shown, Table.LegibleFeature store.sortedFiles feature := by
  have hnumber : ∀ (head : String) (number : SeverityCounts → Int),
      Legible head.toList ∧ EndsWithInk head.toList ∧ 0 < Console.cells head.toList →
        Table.LegibleFeature store.sortedFiles ⟨head, .right, fun path => intDigits (number (store.countsOf path))⟩ :=
    fun head number hhead => ⟨hhead.1, hhead.2.2, fun path _ => (legible_intDigits _).1,
      fun _ => ⟨hhead.2.1, fun path _ => (legible_intDigits _).2⟩, nofun⟩
  have hfile : Table.LegibleFeature store.sortedFiles ⟨"File", .left, fun path => shown path.toList⟩ := by
    constructor
    case head => exact (by decide : Legible "File".toList)
    case head_pos => exact (by decide : 0 < Console.cells "File".toList)
    case texts => exact fun path hm => (h path (mem_sortedFiles.1 hm)).shown
    case ink => simp
    case justify => exact nofun
  simp only [features, List.forall_mem_cons]
  exact ⟨hfile, hnumber _ _ (by decide), hnumber _ _ (by decide), hnumber _ _ (by decide), hnumber _ _ (by decide),
    nofun⟩

theorem tableAs_printed (h : ∀ path ∈ store.files.keys, Legible path.toList) :
    (store.tableAs fun text => (shown text).filter isPrinted) = store.tableAs shown := by
  have hnames : (store.sortedFiles.map fun path => (shown path.toList).filter isPrinted) =
      store.sortedFiles.map fun path => shown path.toList :=
    List.map_congr_left fun path hm => (h path (mem_sortedFiles.1 hm)).flat.shown.filter_printed
  simp only [tableAs, Table.ofItems, features, List.map_cons, hnames]

theorem rows_tableAs (seen : List Char → List Char) (store : DiagnosticStore) :
    (store.tableAs seen).rows = store.sortedFiles.map fun path =>
      [(.left, seen path.toList), (.right, intDigits (store.countsOf path).errors),
       (.right, intDigits (store.countsOf path).warnings), (.right, intDigits (store.countsOf path).info),
       (.right, intDigits (store.countsOf path).hints)] := by
  have hne : store.features seen ≠ [] := List.cons_ne_nil _ _
  rw [tableAs, Table.rows_ofItems "Diagnostics" hne store.sortedFiles]
  rfl

theorem lines_tableAs (h : ∀ path ∈ store.files.keys, Legible path.toList) {width : Nat}
    (hroom : (store.tableAs shown).totalWidth ≤ width) :
    (store.tableAs shown).lines width = (store.tableAs shown).plainLines := by
  have hne : store.features shown ≠ [] := List.cons_ne_nil _ _
  have hheads : (store.features shown).map Table.Feature.head = ["File", "Errors", "Warnings", "Info", "Hints"] := rfl
  refine Table.lines_ofItems hne (legible_features h) (by decide) ?_ hroom
  rw [hheads]
  decide

/-- What is counted file by file makes up the counts that are kept. -/
theorem Balanced.sum_countsOf (h : store.Balanced) : (store.sortedFiles.map store.countsOf).sum = store.counts := by
  have hperm : (store.sortedFiles.map store.countsOf).Perm (store.files.keys.map store.countsOf) :=
    (List.mergeSort_perm store.files.keys _).map store.countsOf
  have hvalues : store.files.keys.map store.countsOf = store.files.values.map SeverityCounts.ofList := by
    rw [Entries.keys, Entries.values, List.map_map, List.map_map]
    refine List.map_congr_left fun entry hm => ?_
    have hget : store.files.get? entry.1 = some entry.2 := Entries.get?_of_mem h.keys hm
    simp [countsOf, get, hget]
  rw [hperm.sum_eq, hvalues, h.counts, Entries.total]

/-- Each column of the summary adds up to the number in its last line. -/
theorem Balanced.sum_number (h : store.Balanced) {number : SeverityCounts → Int}
    (hm : number ∈ [SeverityCounts.errors, SeverityCounts.warnings, SeverityCounts.info, SeverityCounts.hints]) :
    (store.sortedFiles.map fun path => number (store.countsOf path)).sum = number store.counts := by
  have hadd : ∀ all : List SeverityCounts, (all.map number).sum = number all.sum := by
    have hlaws : number 0 = 0 ∧ ∀ a b, number (a + b) = number a + number b := by
      simp only [List.mem_cons, List.not_mem_nil, or_false] at hm
      rcases hm with rfl | rfl | rfl | rfl <;> exact ⟨rfl, fun _ _ => rfl⟩
    intro all
    induction all with
    | nil => exact hlaws.1.symm
    | cons counts all ih => rw [List.map_cons, List.sum_cons, List.sum_cons, ih, hlaws.2]
  rw [← h.sum_countsOf, ← hadd, List.map_map]
  rfl

/-- **The summary has a row for each file and adds up.** In every state that a run comes to, the table has one row for
each file that is stored, with its path as `shown` has it and its counts, and its columns add up to the counts in the
last line. The summary never fails, and where there is room, and the paths can be read in one line each, it is drawn in
plain lines. -/
theorem summary_adds_up (visibility : Visibility) (counts : SeverityCounts) (list : List Diagnostic)
    (events : List Event) :
    let store := (Desk.run ⟨empty visibility, counts, list⟩ events).store
    (store.sortedFiles.Perm store.files.keys ∧ store.sortedFiles.Nodup) ∧
    (store.tableAs shown).rows = (store.sortedFiles.map fun path =>
      [(.left, shown path.toList), (.right, intDigits (store.countsOf path).errors),
       (.right, intDigits (store.countsOf path).warnings), (.right, intDigits (store.countsOf path).info),
       (.right, intDigits (store.countsOf path).hints)]) ∧
    (∀ number ∈ [SeverityCounts.errors, SeverityCounts.warnings, SeverityCounts.info, SeverityCounts.hints],
      (store.sortedFiles.map fun path => number (store.countsOf path)).sum = number store.counts) ∧
    ∀ width, (∃ lines, store.summary width = .ok lines) ∧
      ((∀ path ∈ store.files.keys, Legible path.toList) → (store.tableAs shown).totalWidth ≤ width →
        store.counts.totalLine.length ≤ width →
        store.summary width = .ok ((store.tableAs shown).plainLines ++ [store.counts.totalLine])) := by
  intro store
  have hb : store.Balanced := (balanced_empty visibility).run events
  have hperm : store.sortedFiles.Perm store.files.keys := List.mergeSort_perm store.files.keys _
  refine ⟨⟨hperm, hperm.nodup_iff.2 hb.keys⟩, store.rows_tableAs shown, fun number hm => hb.sum_number hm,
    fun width => ⟨⟨_, store.summary_eq width⟩, fun hlegible htable htotal => ?_⟩⟩
  have hflat := store.counts.flat_totalLine
  rw [summary_eq, tableAs_printed hlegible, lines_tableAs hlegible htable, hflat.filter_printed, hflat.printed htotal]

end Summary

end DiagnosticStore

end LanguageSessions
