import LanguageSessions.Proofs.Console.Table
import LanguageSessions.Proofs.Readings
import LanguageSessions.Status.Report

/-!
# What the report about servers shows

Roots and errors are escaped, and styles are closed again, so that they never make the report fail, and they are seen as
`shown` has them: as they are, if there is no backslash in them. Sessions and languages are read as markup. They make
the report fail if they close what is not open (`table_fails_iff`), and a text without backslashes is seen as it is just
if there is no tag in it; `statuses_are_reported` puts this together.
-/

namespace LanguageSessions

open Text Console

namespace ServerStatus

/-- The state, and the error behind it, when of the error so much is seen. -/
def stateAs (seen : List Char → List Char) (status : ServerStatus) : List Char :=
  match status.error with
  | none | some "" => status.state.name.toList
  | some error => status.state.name.toList ++ ' ' :: '(' :: seen error.toList ++ [')']

/-- The name of the state in its style. -/
def styledState (status : ServerStatus) : List Char :=
  '[' :: (style status.state).toList ++ ']' :: status.state.name.toList ++ "[/]".toList

section Texts

variable {status : ServerStatus}

/-- The state stands alone, or the error stands behind it. -/
theorem error_cases (status : ServerStatus) :
    ((status.error = none ∨ status.error = some "") ∧ status.stateMarkup = status.styledState ∧
        ∀ seen, status.stateAs seen = status.state.name.toList) ∨
      ∃ error, status.error = some error ∧
        status.stateMarkup = status.styledState ++ ' ' :: '(' :: escape error.toList ++ [')'] ∧
        ∀ seen, status.stateAs seen = status.state.name.toList ++ ' ' :: '(' :: seen error.toList ++ [')'] := by
  cases herror : status.error with
  | none => exact .inl ⟨.inl rfl, by simp [stateMarkup, herror, styledState], by simp [stateAs, herror]⟩
  | some error =>
    by_cases hempty : error = ""
    · subst hempty
      exact .inl ⟨.inr rfl, by simp [stateMarkup, herror, styledState], by simp [stateAs, herror]⟩
    · exact .inr ⟨error, rfl, by simp [stateMarkup, herror, styledState], by simp [stateAs, herror]⟩

theorem reading_styledState (status : ServerStatus) (rest : List Char) :
    reading [] (status.styledState ++ rest) = (reading [] rest).map (status.state.name.toList ++ ·) := by
  have hstyle : IsTag (style status.state).toList := by
    cases status.state <;> exact ⟨⟨_, _, rfl, by decide⟩, by decide, by decide⟩
  have hopens : ∃ opened, applyTag [] (style status.state).toList = .ok [opened] := by
    cases status.state <;> exact ⟨_, rfl⟩
  have hname : Inert status.state.name.toList := by cases status.state <;> decide
  have hsplit : status.styledState ++ rest =
      '[' :: ((style status.state).toList ++ ']' :: (status.state.name.toList ++ '[' :: '/' :: ']' :: rest)) := by
    simp [styledState]
  rw [hsplit, reading_styled hstyle hopens hname]

theorem reading_error (error : List Char) :
    reading [] (' ' :: '(' :: escape error ++ [')']) = .ok (' ' :: '(' :: shown error ++ [')']) := by
  have hapart : Apart error [')'] := by
    refine ⟨fun c hc => ?_, fun _ _ => .inr rfl⟩
    cases hc
    decide
  have hend : reading [] [')'] = .ok [')'] := rfl
  have hopen : reading [] ([' ', '('] ++ (escape error ++ [')'])) = _ := reading_plain (by decide)
  rw [reading_escape hapart, hend] at hopen
  exact hopen

/-- **The state and the error can be read**, whatever the error says. -/
theorem visible_stateMarkup (status : ServerStatus) :
    visible status.stateMarkup = .ok ((status.stateAs shown).filter isPrinted) := by
  have hread : reading [] status.stateMarkup = .ok (status.stateAs shown) := by
    rcases status.error_cases with ⟨-, hmarkup, hseen⟩ | ⟨error, -, hmarkup, hseen⟩
    · have hstate := status.reading_styledState []
      rw [List.append_nil, reading_nil] at hstate
      rw [hmarkup, hseen, hstate]
      simp [Except.map]
    · have hrest := reading_error error.toList
      rw [List.cons_append, List.cons_append] at hrest
      rw [hmarkup, hseen, List.append_assoc, List.cons_append, List.cons_append, reading_styledState, hrest,
        List.append_assoc]
      rfl
  rw [visible_eq_reading, hread]
  rfl

/-- The texts of a status can be read in one line each. -/
structure IsLegible (status : ServerStatus) : Prop where
  session : Legible status.session.toList
  language : Legible status.language.toList
  root : Legible status.root.toList
  error : ∀ error, status.error = some error → Flat error.toList

/-- There is no backslash in the texts of a status. -/
structure NoSlash (status : ServerStatus) : Prop where
  session : '\\' ∉ status.session.toList
  language : '\\' ∉ status.language.toList
  root : '\\' ∉ status.root.toList
  error : ∀ error, status.error = some error → '\\' ∉ error.toList

theorem IsLegible.state (h : status.IsLegible) : Legible (status.stateAs shown) := by
  have hname : Legible status.state.name.toList := by cases status.state <;> decide
  rcases status.error_cases with ⟨-, -, hseen⟩ | ⟨error, herror, -, hseen⟩
  · rw [hseen]
    exact hname
  · rw [hseen]
    have hbehind : Flat (' ' :: '(' :: shown error.toList) :=
      ((h.error error herror).shown.cons (by decide)).cons (by decide)
    exact ⟨(hname.flat.append hbehind).append (by decide), .inr (endsWithInk_append_cons (by decide) _)⟩

theorem NoSlash.state (h : status.NoSlash) : status.stateAs shown = status.stateAs fun text => text := by
  rcases status.error_cases with ⟨-, -, hseen⟩ | ⟨error, herror, -, hseen⟩
  · rw [hseen, hseen]
  · rw [hseen, hseen, shown_of_no_slash (h.error error herror)]

end Texts

end ServerStatus

namespace StatusBoard

/-- The columns of the report, when of sessions and languages so much is read, and of roots and errors so much is seen.
-/
def features (read seen : List Char → List Char) : List (Table.Feature ServerStatus) :=
  [⟨"Session", .left, fun status => read status.session.toList⟩,
   ⟨"Language", .left, fun status => read status.language.toList⟩,
   ⟨"Root", .left, fun status => seen status.root.toList⟩, ⟨"Status", .left, fun status => status.stateAs seen⟩]

/-- The table of all servers, when of sessions and languages so much is read, and of roots and errors so much is seen.
-/
def tableAs (read seen : List Char → List Char) (board : StatusBoard) : Table :=
  Table.ofItems "Language Servers" (features read seen) board.servers.values

/-- Sessions and languages are read as markup in a certain way. -/
def ReadAs (board : StatusBoard) (read : List Char → List Char) : Prop :=
  ∀ status ∈ board.servers.values, visible status.session.toList = .ok (read status.session.toList) ∧
    visible status.language.toList = .ok (read status.language.toList)

section Reports

variable {board : StatusBoard} {read : List Char → List Char}

/-- Only sessions and languages matter for whether the table can be made. -/
theorem table_eq (board : StatusBoard) : board.table =
    (board.servers.values.mapM fun status => visible status.session.toList) >>= fun sessions =>
    (board.servers.values.mapM fun status => visible status.language.toList) >>= fun languages =>
    .ok ⟨"Language Servers".toList,
      [⟨"Session".toList, .left, sessions⟩, ⟨"Language".toList, .left, languages⟩,
       ⟨"Root".toList, .left, board.servers.values.map fun status => (shown status.root.toList).filter isPrinted⟩,
       ⟨"Status".toList, .left, board.servers.values.map fun status => (status.stateAs shown).filter isPrinted⟩]⟩ := by
  have hroots : (board.servers.values.mapM fun status => visible (escape status.root.toList)) = _ :=
    mapM_eq_map fun status _ => visible_escape status.root.toList
  have hstates : (board.servers.values.mapM fun status => visible status.stateMarkup) = _ :=
    mapM_eq_map fun status _ => status.visible_stateMarkup
  rw [table, hroots, hstates]
  rfl

/-- **The report fails just if** a session or a language closes what is not open. -/
theorem table_fails_iff : (∃ e, board.table = .error e) ↔ ∃ status ∈ board.servers.values,
    (∃ e, visible status.session.toList = .error e) ∨ ∃ e, visible status.language.toList = .error e := by
  have hsessions : (∃ e, (board.servers.values.mapM fun status => visible status.session.toList) = .error e) ↔ _ :=
    mapM_fails_iff
  have hlanguages : (∃ e, (board.servers.values.mapM fun status => visible status.language.toList) = .error e) ↔ _ :=
    mapM_fails_iff
  simp only [and_or_left, exists_or]
  rw [table_eq, ← hsessions, ← hlanguages]
  cases board.servers.values.mapM fun status => visible status.session.toList with
  | error e => exact iff_of_true ⟨e, rfl⟩ (.inl ⟨e, rfl⟩)
  | ok sessions =>
    cases board.servers.values.mapM fun status => visible status.language.toList with
    | error e => exact iff_of_true ⟨e, rfl⟩ (.inr ⟨e, rfl⟩)
    | ok languages => exact iff_of_false nofun (by simp)

theorem table_of_readAs (h : board.ReadAs read) (hlegible : ∀ status ∈ board.servers.values, status.IsLegible) :
    board.table = .ok (board.tableAs read shown) := by
  have hsessions : (board.servers.values.mapM fun status => visible status.session.toList) = _ :=
    mapM_eq_map fun status hm => (h status hm).1
  have hlanguages : (board.servers.values.mapM fun status => visible status.language.toList) = _ :=
    mapM_eq_map fun status hm => (h status hm).2
  have hroots : (board.servers.values.map fun status => (shown status.root.toList).filter isPrinted) =
      board.servers.values.map fun status => shown status.root.toList :=
    List.map_congr_left fun status hm => (hlegible status hm).root.flat.shown.filter_printed
  have hstates : (board.servers.values.map fun status => (status.stateAs shown).filter isPrinted) =
      board.servers.values.map fun status => status.stateAs shown :=
    List.map_congr_left fun status hm => (hlegible status hm).state.flat.filter_printed
  rw [table_eq, hsessions, hlanguages, hroots, hstates]
  rfl

theorem tableAs_of_noSlash (h : ∀ status ∈ board.servers.values, status.NoSlash) :
    board.tableAs read shown = board.tableAs read fun text => text := by
  have hroots : (board.servers.values.map fun status => shown status.root.toList) =
      board.servers.values.map fun status => status.root.toList :=
    List.map_congr_left fun status hm => shown_of_no_slash (h status hm).root
  have hstates : (board.servers.values.map fun status => status.stateAs shown) =
      board.servers.values.map fun status => status.stateAs fun text => text :=
    List.map_congr_left fun status hm => (h status hm).state
  simp only [tableAs, Table.ofItems, features, List.map_cons, hroots, hstates]

/-- If the table is made, each session and each language is what it is read as. -/
theorem readAs_of_table (h : board.table = .ok (board.tableAs read shown)) : board.ReadAs read := by
  rw [table_eq, bind_eq_ok_iff] at h
  obtain ⟨sessions, hsessions, h⟩ := h
  obtain ⟨languages, hlanguages, h⟩ := bind_eq_ok_iff.1 h
  have hcolumns := congrArg Table.columns (Except.ok.inj h)
  simp only [tableAs, Table.ofItems, features, List.map_cons, List.cons.injEq, Column.mk.injEq] at hcolumns
  obtain ⟨⟨-, -, rfl⟩, ⟨-, -, rfl⟩, -⟩ := hcolumns
  rw [mapM_eq_ok_iff, List.forall₂_map_right_iff, List.forall₂_same] at hsessions hlanguages
  exact fun status hm => ⟨hsessions status hm, hlanguages status hm⟩

theorem rows_tableAs (read seen : List Char → List Char) (board : StatusBoard) :
    (board.tableAs read seen).rows = board.servers.values.map fun status =>
      [(.left, read status.session.toList), (.left, read status.language.toList), (.left, seen status.root.toList),
       (.left, status.stateAs seen)] := by
  have hne : features read seen ≠ [] := List.cons_ne_nil _ _
  rw [tableAs, Table.rows_ofItems "Language Servers" hne board.servers.values]
  rfl

theorem lines_tableAs (hlegible : ∀ status ∈ board.servers.values, status.IsLegible)
    (hread : ∀ status ∈ board.servers.values,
      Legible (read status.session.toList) ∧ Legible (read status.language.toList))
    {width : Nat} (hroom : (board.tableAs read shown).totalWidth ≤ width) :
    (board.tableAs read shown).lines width = (board.tableAs read shown).plainLines := by
  have hfeature : ∀ (head : String) (text : ServerStatus → List Char),
      Legible head.toList ∧ 0 < Console.cells head.toList → (∀ status ∈ board.servers.values, Legible (text status)) →
        Table.LegibleFeature board.servers.values ⟨head, .left, text⟩ :=
    fun head text hhead htexts => ⟨hhead.1, hhead.2, htexts, by simp, nofun⟩
  have hall : ∀ feature ∈ features read shown, Table.LegibleFeature board.servers.values feature := by
    simp only [features, List.forall_mem_cons]
    exact ⟨hfeature _ _ (by decide) fun status hm => (hread status hm).1,
      hfeature _ _ (by decide) fun status hm => (hread status hm).2,
      hfeature _ _ (by decide) fun status hm => (hlegible status hm).root.shown,
      hfeature _ _ (by decide) fun status hm => (hlegible status hm).state, nofun⟩
  have hne : features read shown ≠ [] := List.cons_ne_nil _ _
  have hheads : (features read shown).map Table.Feature.head = ["Session", "Language", "Root", "Status"] := rfl
  refine Table.lines_ofItems hne hall (by decide) ?_ hroom
  rw [hheads]
  decide

/-- Sessions and languages without backslashes are read as they are just if there is no tag in them. -/
theorem readAs_self_iff (hlegible : ∀ status ∈ board.servers.values, status.IsLegible)
    (hslash : ∀ status ∈ board.servers.values, status.NoSlash) :
    board.ReadAs (fun text => text) ↔
      ∀ status ∈ board.servers.values, ¬ HasTag status.session.toList ∧ ¬ HasTag status.language.toList := by
  refine forall₂_congr fun status hm => ?_
  have hsession := visible_eq_self_iff (hslash status hm).session
    fun c hc => ((hlegible status hm).session.flat c hc).1
  have hlanguage := visible_eq_self_iff (hslash status hm).language
    fun c hc => ((hlegible status hm).language.flat c hc).1
  rw [hsession, hlanguage]

/-- **What the report shows of texts that can be read in one line each and have no backslashes.** It fails just if a
session or a language closes what is not open. Otherwise there is a row for each server, in order, in which the root,
the state and the error stand as they are, and the session and the language as they are read as markup. These too stand
as they are just if there is no tag in any of them, and where there is room, the table is then drawn in plain lines. -/
theorem statuses_are_reported (board : StatusBoard) (hlegible : ∀ status ∈ board.servers.values, status.IsLegible)
    (hslash : ∀ status ∈ board.servers.values, status.NoSlash) :
    let asItIs := fun text : List Char => text
    ((∃ e, board.table = .error e) ↔ ∃ status ∈ board.servers.values,
      (∃ e, visible status.session.toList = .error e) ∨ ∃ e, visible status.language.toList = .error e) ∧
    (∀ read, board.ReadAs read → ∃ table, board.table = .ok table ∧
      table.rows = board.servers.values.map fun status =>
        [(.left, read status.session.toList), (.left, read status.language.toList), (.left, status.root.toList),
         (.left, status.stateAs asItIs)]) ∧
    (board.table = .ok (board.tableAs asItIs asItIs) ↔
      ∀ status ∈ board.servers.values, ¬ HasTag status.session.toList ∧ ¬ HasTag status.language.toList) ∧
    ∀ width, (∀ status ∈ board.servers.values, ¬ HasTag status.session.toList ∧ ¬ HasTag status.language.toList) →
      (board.tableAs asItIs asItIs).totalWidth ≤ width →
      board.report width = .ok (board.tableAs asItIs asItIs).plainLines := by
  intro asItIs
  have hseen : ∀ read, board.tableAs read shown = board.tableAs read asItIs := fun read => tableAs_of_noSlash hslash
  have hself : board.ReadAs asItIs ↔ _ := readAs_self_iff hlegible hslash
  have htable : ∀ read, board.ReadAs read → board.table = .ok (board.tableAs read asItIs) := fun read h =>
    hseen read ▸ table_of_readAs h hlegible
  refine ⟨table_fails_iff, fun read h => ⟨_, htable read h, rows_tableAs read asItIs board⟩, ?_,
    fun width htags hroom => ?_⟩
  · rw [← hself, ← hseen]
    exact ⟨readAs_of_table, fun h => table_of_readAs h hlegible⟩
  · have hread := hself.2 htags
    have hlines : (board.tableAs asItIs shown).lines width = (board.tableAs asItIs shown).plainLines :=
      lines_tableAs hlegible (fun status hm => ⟨(hlegible status hm).session, (hlegible status hm).language⟩)
        (hseen asItIs ▸ hroom)
    rw [report, table_of_readAs hread hlegible, ← hseen]
    exact congrArg Except.ok hlines

/-- A session whose name closes a style that is not open makes the whole report fail, and a tag in the name of a session
is not seen; the same texts as roots stand as they are. -/
theorem tags_in_sessions_are_lost :
    let report := fun (session root : String) =>
      (StatusBoard.empty.set ⟨session, "go", root, .running, none⟩).table.map Table.rows
    report "[/x]" "/w" = .error .nothingToClose ∧
      report "go[a]-1" "[/x]" = .ok [[(.left, "go-1".toList), (.left, "go".toList), (.left, "[/x]".toList),
        (.left, "running".toList)]] := by
  decide +kernel

end Reports

end StatusBoard

end LanguageSessions
