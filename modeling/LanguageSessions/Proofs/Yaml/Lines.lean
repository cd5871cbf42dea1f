import LanguageSessions.Proofs.Yaml.Scalars
import LanguageSessions.Yaml.Value

/-!
# Lines that were written

A scan outside of brackets that stands behind a whole token (`Scan.outside`) is known by its place, the blocks around it,
whether a key may start, and the tokens so far. From the start of a line (`Scan.lineStart`) it reads an entry up to the
start of the next one (`run_entry`): the blanks in front, the key with its colon (`run_key`), which begins a block when
it is indented more than the block around it, and the value in any of its styles (`run_value`). By induction it reads a
block (`run_entries`), and then a file with one entry that is a block itself (`run_file`).
-/

namespace LanguageSessions.Yaml

open Text

/-! ## Places -/

namespace Cursor

theorem forward_nil (line column index n : Nat) :
    (⟨line, column, index, []⟩ : Cursor).forward n = ⟨line, column, index, []⟩ := by
  cases n <;> rfl

theorem forward_add (cursor : Cursor) (m n : Nat) : cursor.forward (m + n) = (cursor.forward m).forward n := by
  induction m generalizing cursor with
  | zero => rw [Nat.zero_add]; rfl
  | succ m ih =>
    rw [Nat.add_right_comm]
    match cursor with
    | ⟨line, column, index, []⟩ => rw [forward_nil, forward_nil, forward_nil]
    | ⟨line, column, index, c :: rest⟩ => rw [forward, forward, ih]

theorem rest_forward (cursor : Cursor) (n : Nat) : (cursor.forward n).rest = cursor.rest.drop n := by
  induction n generalizing cursor with
  | zero => rfl
  | succ n ih =>
    match cursor with
    | ⟨line, column, index, []⟩ => rw [forward_nil, List.drop_nil]
    | ⟨line, column, index, c :: rest⟩ =>
      rw [forward, ih]
      split <;> rfl

/-- A cursor goes along a line. -/
theorem forward_line {front : List Char} (h : ∀ c ∈ front, ' ' ≤ c ∧ c ≤ '~') (line column index : Nat)
    (rest : List Char) :
    (⟨line, column, index, front ++ rest⟩ : Cursor).forward front.length =
      ⟨line, column + front.length, index + front.length, rest⟩ := by
  induction front generalizing column index with
  | nil => rfl
  | cons c front ih =>
    rw [List.forall_mem_cons] at h
    have hmark : c ≠ '\ufeff' := by
      rintro rfl
      exact absurd h.1.2 (by decide)
    rw [List.length_cons, List.cons_append, forward, if_neg (by rw [isBreak_of_printable h.1]; decide), if_neg hmark,
      ih h.2, Nat.add_assoc, Nat.add_assoc, Nat.add_comm 1]

theorem forward_blanks (blanks line column index : Nat) (rest : List Char) :
    (⟨line, column, index, List.replicate blanks ' ' ++ rest⟩ : Cursor).forward blanks =
      ⟨line, column + blanks, index + blanks, rest⟩ := by
  have hprintable : ∀ c ∈ List.replicate blanks ' ', ' ' ≤ c ∧ c ≤ '~' := fun c hc => by
    rw [List.eq_of_mem_replicate hc]
    decide
  have hforward := forward_line hprintable line column index rest
  rwa [List.length_replicate] at hforward

theorem moveTo_append (line column index : Nat) (front rest : List Char) :
    (⟨line, column, index, front ++ rest⟩ : Cursor).moveTo rest =
      (⟨line, column, index, front ++ rest⟩ : Cursor).forward front.length := by
  rw [moveTo, List.length_append, Nat.add_sub_cancel]

/-- A cursor goes on to the next line, and past the blanks in front of it. -/
theorem forward_newLine (line column index : Nat) (front rest : List Char) (blanks : Nat) :
    ∃ line' index', (⟨line, column, index, front ++ '\n' :: (List.replicate blanks ' ' ++ rest)⟩ : Cursor).forward
      (front.length + 1 + blanks) = ⟨line', blanks, index' + blanks, rest⟩ := by
  rw [forward_add, forward_add]
  have hrest := rest_forward ⟨line, column, index, front ++ '\n' :: (List.replicate blanks ' ' ++ rest)⟩ front.length
  rw [List.drop_left'] at hrest
  · generalize (⟨line, column, index, front ++ '\n' :: (List.replicate blanks ' ' ++ rest)⟩ : Cursor).forward
      front.length = cursor at hrest
    obtain ⟨line', column', index', _⟩ := cursor
    subst hrest
    refine ⟨line' + 1, index' + 1, ?_⟩
    have hblanks := forward_blanks blanks (line' + 1) 0 (index' + 1) rest
    rwa [Nat.zero_add] at hblanks
  · rfl

end Cursor

/-! ## Reading on -/

/-- Whether a text can be a key: it is a word, not too long, and looks like no mark of a document. -/
def isName (name : List Char) : Bool :=
  isWord name && name.length ≤ Scan.maxKeyLength && name.head? != some '-' && name.head? != some '.'

namespace Scan

/-- The state outside brackets, where no key may have started. -/
def outside (cursor : Cursor) (indent : Int) (indents : List Int) (allowKey : Bool) (tokens : List Token) : Scan :=
  ⟨cursor, 0, indent, indents, allowKey, [], tokens⟩

/-- Whether a text begins with the first character of a token, or is at its end. -/
def startsToken : List Char → Bool
  | [] => true
  | c :: _ => c != ' ' && c != '#' && !isBreak c

/-- What comes behind blanks and a comment. -/
def behindGap (text : List Char) : List Char :=
  match text.dropWhile (· == ' ') with
  | '#' :: _ => (text.dropWhile (· == ' ')).dropWhile fun c => !isBreak c
  | text => text

theorem behindGap_blanks {text : List Char} (h : startsToken text = true) (blanks : Nat) :
    behindGap (List.replicate blanks ' ' ++ text) = text := by
  have hdrop : (List.replicate blanks ' ' ++ text).dropWhile (· == ' ') = text := by
    rw [List.dropWhile_append_of_pos (fun c hc => by rw [List.eq_of_mem_replicate hc]; rfl)]
    cases text with
    | nil => rfl
    | cons c rest =>
      simp only [startsToken, Bool.and_eq_true, bne_iff_ne] at h
      exact List.dropWhile_cons_of_neg (by simpa using h.1.1)
  rw [behindGap, hdrop]
  split
  · cases h
  · rfl

theorem skipGaps_succ (fuel : Nat) (scan : Scan) :
    scan.skipGaps (fuel + 1) =
      let scan' := { scan with cursor := scan.cursor.moveTo (behindGap scan.cursor.rest) }
      match behindGap scan.cursor.rest with
      | c :: _ =>
        if isBreak c then
          let scan' := scan'.skip 1
          skipGaps fuel { scan' with allowKey := scan'.allowKey || !scan'.inFlow }
        else scan'
      | [] => scan' :=
  rfl

/-- Blanks in front of a token are skipped. -/
theorem skipGaps_blanks {scan : Scan} (blanks : Nat) {text : List Char}
    (hrest : scan.cursor.rest = List.replicate blanks ' ' ++ text) (h : startsToken text = true) (fuel : Nat) :
    scan.skipGaps (fuel + 1) = { scan with cursor := scan.cursor.forward blanks } := by
  obtain ⟨⟨line, column, index, _⟩, flow, indent, indents, allowKey, keys, tokens⟩ := scan
  subst hrest
  rw [skipGaps_succ, behindGap_blanks h, Cursor.moveTo_append, List.length_replicate]
  cases text with
  | nil => rfl
  | cons c rest =>
    simp only [startsToken, Bool.and_eq_true, Bool.not_eq_true'] at h
    dsimp only
    rw [h.2, if_neg Bool.false_ne_true]

theorem skipGaps_of_startsToken (scan : Scan) (h : startsToken scan.cursor.rest = true) (fuel : Nat) :
    scan.skipGaps (fuel + 1) = scan :=
  skipGaps_blanks 0 rfl h fuel

/-- Behind the end of a line a key may start. -/
theorem skipGaps_newLine (scan : Scan) {text : List Char} (hrest : scan.cursor.rest = '\n' :: text)
    (hflow : scan.flow = 0) (fuel : Nat) :
    scan.skipGaps (fuel + 1) = skipGaps fuel { scan with cursor := scan.cursor.forward 1, allowKey := true } := by
  obtain ⟨⟨line, column, index, _⟩, flow, indent, indents, allowKey, keys, tokens⟩ := scan
  subst hrest hflow
  have hbehind : behindGap ('\n' :: text) = '\n' :: text := rfl
  rw [skipGaps_succ, hbehind, Cursor.moveTo, Nat.sub_self]
  dsimp only
  rw [if_pos (by decide)]
  exact congrArg (fun allowKey => skipGaps fuel ⟨_, 0, indent, indents, allowKey, keys, tokens⟩) (Bool.or_true allowKey)

/-! ## Tokens of a line -/

theorem unwind_of_close {scan : Scan} {column indent : Int} {indents : List Int} {tokens : List Token}
    (hflow : scan.inFlow = false)
    (hclose : closeBlocks column scan.indents scan.indent scan.tokens = (indent, indents, tokens)) :
    scan.unwind column = { scan with indent, indents, tokens } := by
  rw [unwind, hflow, hclose]
  rfl

/-- Nothing is unwound at a place that is indented as much as the innermost block. -/
theorem unwind_of_le {scan : Scan} {column : Int} (h : scan.indent ≤ column) : scan.unwind column = scan := by
  obtain ⟨cursor, flow, indent, indents, allowKey, keys, tokens⟩ := scan
  unfold unwind
  split
  · rfl
  · cases indents with
    | nil => rfl
    | cons outer indents =>
      rw [closeBlocks, if_neg (Int.not_lt.2 h)]

/-- What a scan does where it stands, once the blocks have ended that are indented more. -/
def proceed (fuel : Nat) (scan : Scan) : Except ReadError (List Token) :=
  match scan.cursor.rest with
  | [] => scan.finish
  | c :: rest => scan.token c rest >>= run fuel

/-- A scan that stands at a token, or at the end, and where no key has gone stale. -/
theorem run_proceed (scan : Scan) (hstarts : startsToken scan.cursor.rest = true)
    (hkeys : scan.dropStaleKeys = .ok scan) (fuel : Nat) :
    scan.run (fuel + 1) = proceed fuel (scan.unwind scan.cursor.column) := by
  rw [run, skipGaps_of_startsToken scan hstarts, hkeys]
  rfl

/-- A token is read. -/
theorem run_token (scan : Scan) {c : Char} {rest : List Char} (hrest : scan.cursor.rest = c :: rest)
    (hstarts : startsToken (c :: rest) = true) (hkeys : scan.dropStaleKeys = .ok scan)
    (hindent : scan.indent ≤ scan.cursor.column) (fuel : Nat) :
    scan.run (fuel + 1) = scan.token c rest >>= run fuel := by
  rw [run_proceed scan (hrest ▸ hstarts) hkeys, unwind_of_le hindent, proceed, hrest]

/-- A character that is no indicator starts a scalar without quotes. -/
theorem startsPlain_of_loose {c : Char} {rest : List Char} (hindicator : startsWithIndicator (c :: rest) = false)
    (hgap : isGap c = false) (hbreak : isBreak c = false) : startsPlain false (c :: rest) = true := by
  simp only [startsWithIndicator, Bool.or_eq_false_iff, Bool.and_eq_false_iff, beq_eq_false_iff_ne] at hindicator
  simp only [startsPlain, hgap, hbreak]
  by_cases hc : c ∈ ['?', ':', '-']
  · have hword : atWordEnd rest = false := by
      refine hindicator.2.resolve_left fun hne => ?_
      simp [hne.1.1, hne.1.2, hne.2] at hc
    simp only [List.mem_cons, List.not_mem_nil, or_false] at hc
    rcases hc with rfl | rfl | rfl <;> simp [hword]
  · simp only [List.mem_cons, List.not_mem_nil, or_false, not_or] at hc
    simp only [List.contains_eq_mem, decide_eq_false_iff_not, String.reduceToList, List.mem_cons, List.not_mem_nil,
      or_false, not_or] at hindicator
    simp [hindicator.1, hc]

/-- A character that starts a scalar without quotes is taken for one. -/
theorem token_plain {scan : Scan} {c : Char} {rest : List Char} (hflow : scan.flow = 0)
    (hindicator : startsWithIndicator (c :: rest) = false) (hgap : isGap c = false) (hbreak : isBreak c = false)
    (hmark : scan.cursor.column = 0 → atDocumentMark (c :: rest) = false) : scan.token c rest = scan.plainScalar := by
  have hstarts := startsPlain_of_loose hindicator hgap hbreak
  have hatMark : (scan.cursor.column == 0 && atDocumentMark (c :: rest)) = false := by
    rw [Bool.and_eq_false_imp, beq_iff_eq]
    exact hmark
  have hinFlow : scan.inFlow = false := by
    rw [inFlow, hflow]
    rfl
  simp only [startsWithIndicator, Bool.or_eq_false_iff, Bool.and_eq_false_imp, Bool.or_eq_true, beq_iff_eq,
    List.contains_eq_mem, decide_eq_false_iff_not, String.reduceToList, List.mem_cons, List.not_mem_nil, or_false,
    not_or] at hindicator
  obtain ⟨⟨-, hcomma, hlist, hlistEnd, hmap, hmapEnd, -, -, -, hbar, hfold, hsingle, hdouble, hpercent, -, -⟩,
    hword⟩ := hindicator
  have hdash : ¬ (c = '-' ∧ atWordEnd rest = true) := fun h =>
    Bool.false_ne_true ((hword (.inr h.1)).symm.trans h.2)
  have hquestion : ¬ (c = '?' ∧ atWordEnd rest = true) := fun h =>
    Bool.false_ne_true ((hword (.inl (.inl h.1))).symm.trans h.2)
  have hcolon : ¬ (c = ':' ∧ atWordEnd rest = true) := fun h =>
    Bool.false_ne_true ((hword (.inl (.inr h.1))).symm.trans h.2)
  rw [token, hatMark, hinFlow, hstarts]
  simp [hcomma, hlist, hlistEnd, hmap, hmapEnd, hbar, hfold, hsingle, hdouble, hpercent, hdash, hquestion, hcolon]

variable {cursor : Cursor} {indent : Int} {indents : List Int} {allowKey crossed : Bool} {tokens : List Token}
  {text rest : List Char}

/-- The place where a key starts, if one may start at a cursor. -/
def startsAt (cursor : Cursor) (indent : Int) (tokens : List Token) : Bool → Entries Nat KeyStart
  | true => [(0, ⟨tokens.length, indent == cursor.column, cursor.line, cursor.column, cursor.index⟩)]
  | false => []

theorem noteKey_outside (cursor : Cursor) (indent : Int) (indents : List Int) (allowKey : Bool) (tokens : List Token) :
    (outside cursor indent indents allowKey tokens).noteKey =
      .ok ⟨cursor, 0, indent, indents, allowKey, startsAt cursor indent tokens allowKey, tokens⟩ := by
  cases allowKey <;> rfl

/-- A text without quotes is read as a scalar; a key may start with it if one may start here. -/
theorem plainScalar_outside
    (h : plain false (indent + 1) Gap.none cursor.column cursor.rest = ⟨text, crossed, rest⟩) :
    (outside cursor indent indents allowKey tokens).plainScalar =
      .ok
        ⟨cursor.moveTo rest, 0, indent, indents, crossed, startsAt cursor indent tokens allowKey,
          tokens ++ [.scalar text true]⟩ := by
  rw [plainScalar, noteKey_outside]
  exact congrArg (fun found : PlainText => (Except.ok
    ⟨cursor.moveTo found.rest, 0, indent, indents, found.crossedLine, startsAt cursor indent tokens allowKey,
      tokens ++ [.scalar found.text true]⟩ : Except ReadError Scan)) h

/-- A scalar between quotes is read. -/
theorem quotedScalar_outside {read : List Char → Scanned} (h : read (cursor.rest.drop 1) = .ok (text, rest)) :
    (outside cursor indent indents false tokens).quotedScalar read =
      .ok (outside (cursor.moveTo rest) indent indents false (tokens ++ [.scalar text false])) := by
  rw [quotedScalar, noteKey_outside]
  exact congrArg (fun found : Scanned => found >>= fun found => (Except.ok
    (outside (cursor.moveTo found.2) indent indents false (tokens ++ [.scalar found.1 false])))) h

/-! ## Keys -/

theorem atDocumentMark_of_head {c : Char} (hdash : c ≠ '-') (hdot : c ≠ '.') (rest : List Char) :
    atDocumentMark (c :: rest) = false := by
  unfold atDocumentMark
  split
  · next heq => exact absurd (List.cons.inj heq).1 hdash
  · next heq => exact absurd (List.cons.inj heq).1 hdot
  · rfl

theorem startsToken_of_printable {c : Char} (h : ' ' ≤ c ∧ c ≤ '~') (hblank : c ≠ ' ') (hcomment : c ≠ '#')
    (rest : List Char) : startsToken (c :: rest) = true := by
  simp [startsToken, isBreak_of_printable h, hblank, hcomment]

theorem ne_of_loose {c : Char} {rest : List Char} (h : startsWithIndicator (c :: rest) = false) : c ≠ '#' := by
  rintro rfl
  cases h

/-- A scalar without quotes is read. -/
theorem run_plain (line index : Nat) (indents : List Int) (allowKey : Bool) (tokens : List Token) {column : Nat}
    {crossed : Bool} {text stop : List Char} (bare : Bare text)
    (hcolumn : indent ≤ column) (written : Nat) (hindent : ' ' ∈ text → indent + 1 ≤ foldIndent)
    (hstop : ∀ place, plain false (indent + 1) Gap.none place stop = ⟨[], crossed, rest⟩)
    (hmark : column = 0 → text.head? ≠ some '-' ∧ text.head? ≠ some '.') (fuel : Nat) :
    let cursor : Cursor := ⟨line, column, index, writePlain written none text ++ stop⟩
    (outside cursor indent indents allowKey tokens).run (fuel + 1) =
      run fuel ⟨cursor.moveTo rest, 0, indent, indents, crossed, startsAt cursor indent tokens allowKey,
        tokens ++ [.scalar text true]⟩ := by
  intro cursor
  obtain ⟨c, more, hwritten, hhead, hblank, hprintable, hloose⟩ := bare.exists_cons written stop
  have hstarts := startsToken_of_printable hprintable hblank (ne_of_loose hloose) more
  rw [run_token (outside cursor indent indents allowKey tokens) hwritten hstarts rfl hcolumn,
    token_plain rfl hloose (isGap_of_printable hprintable hblank) (isBreak_of_printable hprintable),
    plainScalar_outside (bare.plain hstop hindent written column)]
  · rfl
  · intro hzero
    rw [hhead] at hmark
    exact atDocumentMark_of_head (fun h => (hmark hzero).1 (congrArg some h))
      (fun h => (hmark hzero).2 (congrArg some h)) more

/-- On its line, and while it is not too long, a key does not go stale. -/
theorem dropStaleKeys_behind {start : KeyStart} (hline : start.line = cursor.line)
    (hshort : cursor.index - start.index ≤ maxKeyLength) :
    dropStaleKeys ⟨cursor, 0, indent, indents, allowKey, [(0, start)], tokens⟩ =
      .ok ⟨cursor, 0, indent, indents, allowKey, [(0, start)], tokens⟩ := by
  have hfresh : (start.line != cursor.line || decide (maxKeyLength < cursor.index - start.index)) = false := by
    simp only [Bool.or_eq_false_iff, bne_eq_false_iff_eq, decide_eq_false_iff_not, Nat.not_lt]
    exact ⟨hline, hshort⟩
  simp only [dropStaleKeys, List.any_cons, List.any_nil, List.filter_cons, List.filter_nil, hfresh]
  rfl

/-- A colon with a gap behind it ends a scalar without quotes. -/
theorem plain_colon (h : atWordEnd rest = true) (indent : Int) (place : Nat) :
    plain false indent Gap.none place (':' :: rest) = ⟨[], false, ':' :: rest⟩ := by
  rw [plain, if_neg (by decide), if_neg (by decide), if_pos]
  · rfl
  · simp [endsPlain, h]

theorem openBlock_of_lt {scan : Scan} {column place : Nat} {token : Token} (h : scan.indent < column) :
    scan.openBlock column place token =
      { scan with
        indents := scan.indent :: scan.indents, indent := column, tokens := insertToken scan.tokens place token } :=
  if_pos h

theorem openBlock_of_le {scan : Scan} {column place : Nat} {token : Token} (h : column ≤ scan.indent) :
    scan.openBlock column place token = scan :=
  if_neg (Int.not_lt.2 h)

theorem token_colon (scan : Scan) (h : atWordEnd rest = true) : scan.token ':' rest = scan.colon := by
  have hmark : atDocumentMark (':' :: rest) = false := rfl
  simp [token, hmark, h]

/-- A colon makes a key of what was read in front of it. -/
theorem colon_outside (line column index start : Nat) (scalar : Token) (required : Bool) (line' index' : Nat) :
    colon ⟨⟨line, column, index, ':' :: rest⟩, 0, indent, indents, false,
        [(0, ⟨tokens.length, required, line', start, index'⟩)], tokens ++ [scalar]⟩ =
      .ok (((outside ⟨line, column + 1, index + 1, rest⟩ indent indents false
        (tokens ++ [.key, scalar])).openBlock start tokens.length .blockMapStart).emit .value) := by
  have hinsert : insertToken (tokens ++ [scalar]) tokens.length .key = tokens ++ [.key, scalar] := by
    simp [insertToken]
  change Except.ok (emit (skip { (openBlock ⟨_, 0, indent, indents, false, [],
    insertToken (tokens ++ [scalar]) tokens.length .key⟩ start tokens.length .blockMapStart) with allowKey := false } 1)
      .value) = _
  rw [hinsert]
  by_cases h : indent < (start : Int)
  · rw [openBlock_of_lt h, openBlock_of_lt h]
    rfl
  · rw [openBlock_of_le (Int.not_lt.1 h), openBlock_of_le (Int.not_lt.1 h)]
    rfl

/-- **A key is read**, and begins a block if it is indented more than the block around it. -/
theorem run_key (indents : List Int) (tokens : List Token) {name : List Char} (hname : isName name = true)
    (hrest : atWordEnd rest = true) {column : Nat}
    (hcolumn : indent ≤ column) (line index fuel : Nat) :
    (outside ⟨line, column, index, name ++ ':' :: rest⟩ indent indents true tokens).run (fuel + 2) =
      run fuel (((outside ⟨line, column + name.length + 1, index + name.length + 1, rest⟩ indent indents false
        (tokens ++ [.key, .scalar name true])).openBlock column tokens.length .blockMapStart).emit .value) := by
  simp only [isName, Bool.and_eq_true, decide_eq_true_eq, bne_iff_ne] at hname
  obtain ⟨⟨⟨hword, hshort⟩, hdash⟩, hdot⟩ := hname
  have hbare := bare_of_isWord hword
  have hplain := run_plain line index indents true tokens hbare hcolumn column
    (fun hm => absurd hm (blank_not_mem_of_isWord hword)) (fun place => plain_colon hrest _ place)
    (fun _ => ⟨hdash, hdot⟩) (fuel + 1)
  dsimp only at hplain
  rw [writePlain_of_not_mem (blank_not_mem_of_isWord hword), Cursor.moveTo_append,
    Cursor.forward_line hbare.printable] at hplain
  refine hplain.trans ?_
  let behind : Scan := ⟨⟨line, column + name.length, index + name.length, ':' :: rest⟩, 0, indent, indents, false,
    [(0, ⟨tokens.length, indent == column, line, column, index⟩)], tokens ++ [.scalar name true]⟩
  have hkeys : behind.dropStaleKeys = .ok behind := dropStaleKeys_behind rfl (by dsimp only; omega)
  have hcolumn' : indent ≤ ((column + name.length : Nat) : Int) := by omega
  rw [startsAt, run_token behind rfl rfl hkeys hcolumn', token_colon _ hrest, colon_outside]
  rfl

theorem startsToken_of_isName {name : List Char} (h : isName name = true) (rest : List Char) :
    startsToken (name ++ rest) = true := by
  simp only [isName, Bool.and_eq_true] at h
  obtain ⟨c, name, rfl⟩ := List.exists_cons_of_ne_nil (bare_of_isWord h.1.1.1).nonempty
  obtain ⟨hprintable, hblank, -, hcomment⟩ := mem_of_isWord h.1.1.1 (List.mem_cons_self : c ∈ c :: name)
  exact startsToken_of_printable hprintable hblank hcomment _

/-! ## Values -/

/-- A value begins with the first character of a token. -/
theorem startsToken_of_wrote {value : List Char} {isPlain : Bool} (wrote : Wrote indent value text isPlain)
    (rest : List Char) : startsToken (value ++ rest) = true := by
  cases wrote with
  | bare bare _ column =>
    obtain ⟨c, more, hwritten, -, hblank, hprintable, hloose⟩ := bare.exists_cons column rest
    rw [hwritten]
    exact startsToken_of_printable hprintable hblank (ne_of_loose hloose) more
  | single _ _ _ => rfl
  | double _ _ => rfl

/-- What is skipped makes no difference. -/
theorem run_of_skipGaps {scan scan' : Scan} (h : scan.skipGaps (scan.cursor.rest.length + 1) =
    scan'.skipGaps (scan'.cursor.rest.length + 1)) (fuel : Nat) : scan.run fuel = scan'.run fuel := by
  cases fuel with
  | zero => rfl
  | succ fuel => rw [run, run, h]

theorem run_blanks (blanks : Nat) (hstarts : startsToken text = true) (line column index fuel : Nat) :
    (outside ⟨line, column, index, List.replicate blanks ' ' ++ text⟩ indent indents allowKey tokens).run fuel =
      (outside ⟨line, column + blanks, index + blanks, text⟩ indent indents allowKey tokens).run fuel := by
  refine run_of_skipGaps ?_ fuel
  rw [skipGaps_of_startsToken (outside ⟨line, column + blanks, index + blanks, text⟩ indent indents allowKey tokens)
    hstarts]
  exact (skipGaps_blanks blanks rfl hstarts _).trans
    (congrArg (outside · indent indents allowKey tokens) (Cursor.forward_blanks blanks line column index text))

/-- The scan goes on at the next line, where a key may start. -/
theorem run_lineEnd {blanks : Nat} (hrest : startsToken rest = true)
    (hcursor : cursor.rest = '\n' :: (List.replicate blanks ' ' ++ rest)) (fuel : Nat) :
    (outside cursor indent indents false tokens).run fuel =
      (outside (cursor.forward (1 + blanks)) indent indents true tokens).run fuel := by
  have hnext : (cursor.forward 1).rest = List.replicate blanks ' ' ++ rest := by
    rw [Cursor.rest_forward, hcursor]
    rfl
  have hlast : (cursor.forward (1 + blanks)).rest = rest := by
    rw [Cursor.forward_add, Cursor.rest_forward, hnext, List.drop_left' (List.length_replicate ..)]
  refine run_of_skipGaps ?_ fuel
  rw [skipGaps_newLine (outside cursor indent indents false tokens) hcursor rfl,
    skipGaps_of_startsToken (outside (cursor.forward (1 + blanks)) indent indents true tokens)
      (hlast.symm ▸ hrest), Cursor.forward_add]
  have hlength : (outside cursor indent indents false tokens).cursor.rest.length =
      (List.replicate blanks ' ' ++ rest).length + 1 := congrArg List.length hcursor
  rw [hlength]
  exact skipGaps_blanks blanks hnext hrest _

/-- A scalar between quotes is read. -/
theorem run_quoted (read : List Char → Scanned) {c : Char} {written : List Char} {blanks : Nat}
    (hrest : startsToken rest = true) (hc : ∀ more, startsToken (c :: more) = true)
    (htoken : ∀ (scan : Scan) more, scan.token c more = scan.quotedScalar read)
    (hread : ∀ more, read (written ++ '\n' :: more) = .ok (text, '\n' :: more)) {line column index : Nat}
    (hcolumn : indent ≤ column) (fuel : Nat) :
    (outside ⟨line, column, index, c :: written ++ '\n' :: (List.replicate blanks ' ' ++ rest)⟩ indent indents false
        tokens).run (fuel + 2) =
      (outside ((⟨line, column, index, c :: written ++ '\n' :: (List.replicate blanks ' ' ++ rest)⟩ : Cursor).forward
        ((c :: written).length + 1 + blanks)) indent indents true (tokens ++ [.scalar text false])).run (fuel + 1) := by
  let cursor : Cursor := ⟨line, column, index, c :: written ++ '\n' :: (List.replicate blanks ' ' ++ rest)⟩
  have hquoted : (outside cursor indent indents false tokens).quotedScalar read = _ := quotedScalar_outside (hread _)
  have hcursor : cursor.rest = c :: (written ++ '\n' :: (List.replicate blanks ' ' ++ rest)) := rfl
  rw [run_token (outside cursor indent indents false tokens) hcursor (hc _) rfl hcolumn, htoken, hquoted,
    Cursor.moveTo_append, Nat.add_assoc, Cursor.forward_add]
  refine run_lineEnd hrest ?_ _
  rw [Cursor.rest_forward, List.drop_left' rfl]

/-- **A value is read**, and the scan goes on at the start of the next line. -/
theorem run_value {value : List Char} {isPlain : Bool} (wrote : Wrote indent value text isPlain) (indents : List Int)
    (tokens : List Token) {column blanks : Nat} (hcolumn : indent ≤ column) (hpositive : 0 < column)
    (hblanks : (blanks : Int) ≤ indent)
    (hrest : startsToken rest = true) (line index fuel : Nat) :
    ∃ line' index', (outside ⟨line, column, index, value ++ '\n' :: (List.replicate blanks ' ' ++ rest)⟩ indent indents
        false tokens).run (fuel + 2) =
      (outside ⟨line', 0, index', List.replicate blanks ' ' ++ rest⟩ indent indents true
        (tokens ++ [.scalar text isPlain])).run (fuel + 1) := by
  obtain ⟨line', index', hforward⟩ := Cursor.forward_newLine line column index value rest blanks
  refine ⟨line', index', ?_⟩
  rw [run_blanks blanks hrest, Nat.zero_add, ← hforward]
  cases wrote with
  | bare bare folds written =>
    have hstop : ∀ place, plain false (indent + 1) Gap.none place ('\n' :: (List.replicate blanks ' ' ++ rest)) =
        ⟨[], true, rest⟩ := by
      refine plain_lineEnd (by omega) fun c more heq => ?_
      rw [heq] at hrest
      simp only [startsToken, Bool.and_eq_true, bne_iff_ne, Bool.not_eq_true'] at hrest
      exact ⟨hrest.1.1, hrest.2⟩
    have hmove := Cursor.moveTo_append line column index
      (writePlain written none text ++ '\n' :: List.replicate blanks ' ') rest
    rw [List.append_assoc, List.cons_append] at hmove
    have hread := run_plain line index indents false tokens bare hcolumn written folds hstop
      (fun hzero => absurd hpositive (by omega)) (fuel + 1)
    dsimp only at hread
    rw [hmove] at hread
    refine hread.trans ?_
    rw [List.length_append, List.length_cons, List.length_replicate, Nat.add_comm blanks 1, ← Nat.add_assoc]
    rfl
  | single ordinary breaks written =>
    have hbreaks : blankAtBreak (Option.toList none ++ text) = false := breaks
    refine run_quoted (singleQuoted Gap.none) hrest (fun _ => rfl) (fun scan more => ?_) (fun more => ?_) hcolumn fuel
    · have hmark : atDocumentMark ('\'' :: more) = false := rfl
      simp [token, hmark]
    · exact (congrArg _ (List.append_assoc ..)).trans
        (singleQuoted_writeSingle ordinary written hbreaks ⟨nofun, .inr rfl⟩ nofun)
  | double text written =>
    refine run_quoted (doubleQuoted (.plain Gap.none)) hrest (fun _ => rfl) (fun scan more => ?_) (fun more => ?_)
      hcolumn fuel
    · have hmark : atDocumentMark ('"' :: more) = false := rfl
      simp [token, hmark]
    · exact (congrArg _ (List.append_assoc ..)).trans (doubleQuoted_writeDouble _ _ _ text Gap.none trivial _)

/-! ## Entries -/

end Scan

/-- An entry of a block: a key, what is written of its value, the scalar that this is read as, and what the scalar
stands for. -/
structure Entry where
  name : List Char
  written : List Char
  text : List Char
  isPlain : Bool
  value : Value

namespace Entry

/-- The line of an entry in a block that is indented so much. -/
def print (column : Nat) (entry : Entry) : List Char :=
  List.replicate column ' ' ++ entry.name ++ ':' :: ' ' :: entry.written ++ ['\n']

/-- The tokens of an entry. -/
def tokens (entry : Entry) : List Token :=
  [.key, .scalar entry.name true, .value, .scalar entry.text entry.isPlain]

/-- Whether an entry was written for a block that is indented so much. -/
structure Fits (column : Nat) (entry : Entry) : Prop where
  name : isName entry.name = true
  isText : Meaning.ofText entry.name = .text
  wrote : Wrote column entry.written entry.text entry.isPlain
  means : Value.ofScalar false entry.text entry.isPlain = .ok entry.value

end Entry

namespace Scan

variable {indent : Int} {indents : List Int} {tokens : List Token} {rest : List Char}

/-- The state at the start of a line. -/
def lineStart (text : List Char) (line index : Nat) (indent : Int) (indents : List Int) (tokens : List Token) : Scan :=
  outside ⟨line, 0, index, text⟩ indent indents true tokens

/-- A text of which the first line is indented by so much at most. -/
def IndentedBy (column : Nat) (text : List Char) : Prop :=
  ∃ blanks rest, text = List.replicate blanks ' ' ++ rest ∧ blanks ≤ column ∧ startsToken rest = true

/-- What a key does to the blocks: it belongs to the innermost one, or begins a new one. -/
inductive Opens (column : Nat) : Int → List Int → List Int → List Token → Prop where
  | again (indents : List Int) : Opens column column indents indents []
  | first {indent : Int} (h : indent < column) (indents : List Int) :
      Opens column indent indents (indent :: indents) [.blockMapStart]

/-- **An entry is read**, and the scan goes on at the start of the next line. -/
theorem run_entry (tokens : List Token) {entry : Entry} {column : Nat} (fits : entry.Fits column) {indents' : List Int}
    {opening : List Token} (opens : Opens column indent indents indents' opening)
    (hrest : IndentedBy column rest) (line index fuel : Nat) :
    ∃ line' index', (lineStart (entry.print column ++ rest) line index indent indents tokens).run (fuel + 4) =
      (lineStart rest line' index' column indents' (tokens ++ opening ++ entry.tokens)).run (fuel + 1) := by
  obtain ⟨blanks, rest, rfl, hblanks, hstarts⟩ := hrest
  have hcolumn : indent ≤ column := by
    cases opens with
    | again _ => exact Int.le_refl _
    | first h _ => exact Int.le_of_lt h
  let behind := ' ' :: (entry.written ++ '\n' :: (List.replicate blanks ' ' ++ rest))
  have hprint : entry.print column ++ (List.replicate blanks ' ' ++ rest) =
      List.replicate column ' ' ++ (entry.name ++ ':' :: behind) := by
    simp [Entry.print, behind]
  have hopened : ∀ cursor, ((outside cursor indent indents false (tokens ++ [.key, .scalar entry.name true])).openBlock
      column tokens.length .blockMapStart).emit .value =
        outside cursor column indents' false (tokens ++ opening ++ [.key, .scalar entry.name true, .value]) := by
    intro cursor
    cases opens with
    | again _ =>
      rw [openBlock_of_le (Int.le_refl _)]
      simp [emit, outside]
    | first h _ =>
      rw [openBlock_of_lt h]
      simp [emit, outside, insertToken]
  have hvalue : startsToken (entry.written ++ '\n' :: (List.replicate blanks ' ' ++ rest)) = true :=
    startsToken_of_wrote fits.wrote _
  obtain ⟨line', index', hread⟩ := run_value fits.wrote indents'
    (tokens ++ opening ++ [.key, .scalar entry.name true, .value])
    (by omega : (column : Int) ≤ ((column + entry.name.length + 1 + 1 : Nat) : Int)) (by omega)
    (by omega : (blanks : Int) ≤ column) hstarts line (index + column + entry.name.length + 1 + 1) fuel
  refine ⟨line', index', ?_⟩
  rw [hprint, lineStart, run_blanks column (startsToken_of_isName fits.name _), Nat.zero_add,
    run_key indents tokens fits.name rfl hcolumn, hopened]
  refine (run_blanks 1 hvalue _ _ _ _).trans (hread.trans ?_)
  rw [lineStart, Entry.tokens, List.append_assoc _ [_, _, _]]
  rfl

theorem indentedBy_print {entry : Entry} {column : Nat} (fits : entry.Fits column) (rest : List Char) :
    IndentedBy column (entry.print column ++ rest) := by
  refine ⟨column, entry.name ++ (':' :: ' ' :: entry.written ++ ['\n'] ++ rest), ?_, Nat.le_refl _,
    startsToken_of_isName fits.name _⟩
  simp [Entry.print]

theorem startsToken_print {entry : Entry} (fits : entry.Fits 0) (rest : List Char) :
    startsToken (entry.print 0 ++ rest) = true := by
  have hname := startsToken_of_isName fits.name (':' :: ' ' :: entry.written ++ ['\n'] ++ rest)
  simpa [Entry.print] using hname

/-- **The entries of a block are read.** -/
theorem run_entries (tokens : List Token) {column : Nat} {indent : Int} {indents indents' : List Int}
    {opening : List Token} {rest : List Char} {entries : List Entry} (nonempty : entries ≠ [])
    (fits : ∀ entry ∈ entries, entry.Fits column) (opens : Opens column indent indents indents' opening)
    (hrest : IndentedBy column rest) (line index fuel : Nat) :
    ∃ line' index',
      (lineStart (entries.flatMap (Entry.print column) ++ rest) line index indent indents tokens).run
          (fuel + 3 * entries.length + 1) =
        (lineStart rest line' index' column indents' (tokens ++ opening ++ entries.flatMap Entry.tokens)).run
          (fuel + 1) := by
  match entries, nonempty with
  | [entry], _ =>
    rw [List.flatMap_singleton, List.flatMap_singleton]
    exact run_entry tokens (fits entry List.mem_cons_self) opens hrest line index fuel
  | entry :: next :: entries, _ =>
    rw [List.forall_mem_cons] at fits
    have hnext : IndentedBy column ((next :: entries).flatMap (Entry.print column) ++ rest) := by
      rw [List.flatMap_cons, List.append_assoc]
      exact indentedBy_print (fits.2 next List.mem_cons_self) _
    obtain ⟨line', index', hentry⟩ := run_entry tokens fits.1 opens hnext line index
      (fuel + 3 * (next :: entries).length)
    obtain ⟨line'', index'', hentries⟩ := run_entries (tokens ++ opening ++ entry.tokens)
      (List.cons_ne_nil _ _) fits.2 (.again indents') hrest line' index' fuel
    have htext : (entry :: next :: entries).flatMap (Entry.print column) ++ rest =
        entry.print column ++ ((next :: entries).flatMap (Entry.print column) ++ rest) := by
      rw [List.flatMap_cons, List.append_assoc]
    have htokens : tokens ++ opening ++ (entry :: next :: entries).flatMap Entry.tokens =
        tokens ++ opening ++ entry.tokens ++ [] ++ (next :: entries).flatMap Entry.tokens := by
      rw [List.flatMap_cons, List.append_nil, List.append_assoc _ entry.tokens]
    refine ⟨line'', index'', ?_⟩
    rw [htext, htokens]
    exact hentry.trans hentries

/-- **A key is read whose value begins on the next line.** -/
theorem run_header (indents : List Int) (tokens : List Token) {name : List Char} (hname : isName name = true)
    {column : Nat} (hrest : IndentedBy column rest)
    (line index fuel : Nat) :
    ∃ line' index', (lineStart (name ++ ':' :: '\n' :: rest) line index (0 : Nat) indents tokens).run (fuel + 2) =
      (lineStart rest line' index' (0 : Nat) indents (tokens ++ [.key, .scalar name true, .value])).run fuel := by
  obtain ⟨blanks, rest, rfl, -, hstarts⟩ := hrest
  refine ⟨line + 1, index + name.length + 1 + 1, ?_⟩
  have hend : atWordEnd ('\n' :: (List.replicate blanks ' ' ++ rest)) = true := rfl
  have hkey := run_key indents tokens hname hend (Int.le_refl ((0 : Nat) : Int)) line index fuel
  rw [openBlock_of_le (Int.le_refl _)] at hkey
  refine hkey.trans ((run_lineEnd hstarts rfl fuel).trans ?_)
  have hforward := Cursor.forward_blanks blanks (line + 1) 0 (index + name.length + 1 + 1) rest
  have htokens : tokens ++ [.key, .scalar name true, .value] = tokens ++ [.key, .scalar name true] ++ [.value] := by
    rw [List.append_assoc]
    rfl
  rw [lineStart, run_blanks blanks hstarts, ← hforward, Cursor.forward_add, htokens]
  rfl

/-- **At a line that is indented less, the blocks end that are indented more.** -/
theorem run_unwind (hstarts : startsToken rest = true) {indents' : List Int} {tokens' : List Token}
    (hclose : closeBlocks (0 : Nat) indents indent tokens = (((0 : Nat) : Int), indents', tokens'))
    (line index fuel : Nat) :
    (lineStart rest line index indent indents tokens).run fuel =
      (lineStart rest line index (0 : Nat) indents' tokens').run fuel := by
  have hunwind : (lineStart rest line index indent indents tokens).unwind (0 : Nat) =
      lineStart rest line index (0 : Nat) indents' tokens' := unwind_of_close rfl hclose
  have hagain : (lineStart rest line index (0 : Nat) indents' tokens').unwind (0 : Nat) =
      lineStart rest line index (0 : Nat) indents' tokens' := unwind_of_le (Int.le_refl _)
  cases fuel with
  | zero => rfl
  | succ fuel =>
    rw [run_proceed (lineStart rest line index indent indents tokens) hstarts rfl,
      run_proceed (lineStart rest line index (0 : Nat) indents' tokens') hstarts rfl]
    exact (congrArg (proceed fuel) hunwind).trans (congrArg (proceed fuel) hagain).symm

theorem indentedBy_of_startsToken (hstarts : startsToken rest = true) {column : Nat} : IndentedBy column rest :=
  ⟨0, rest, rfl, Nat.zero_le _, hstarts⟩

/-- A block in the outermost one ends in front of an entry of that one. -/
theorem closeBlocks_inner {column : Nat} (h : 0 < column) (tokens : List Token) :
    closeBlocks (0 : Nat) [(0 : Nat), -1] column tokens = (((0 : Nat) : Int), [-1], tokens ++ [.blockEnd]) := by
  rw [closeBlocks, if_pos (by omega)]
  rfl

/-- At the end the outermost block ends. -/
theorem run_end (line index fuel : Nat) (tokens : List Token) :
    (lineStart [] line index (0 : Nat) [-1] tokens).run (fuel + 1) = .ok (tokens ++ [.blockEnd]) :=
  rfl

/-- The text of a mapping whose entries are those before, a block of entries, and those after. -/
def fileText (column : Nat) (before : List Entry) (name : List Char) (inner after : List Entry) : List Char :=
  before.flatMap (Entry.print 0) ++ (name ++ ':' :: '\n' ::
    (inner.flatMap (Entry.print column) ++ after.flatMap (Entry.print 0)))

/-- The tokens of a mapping whose entries are those before, a block of entries, and those after. -/
def fileTokens (before : List Entry) (name : List Char) (inner after : List Entry) : List Token :=
  [.blockMapStart] ++ before.flatMap Entry.tokens ++ [.key, .scalar name true, .value] ++ [.blockMapStart]
    ++ inner.flatMap Entry.tokens ++ [.blockEnd] ++ after.flatMap Entry.tokens ++ [.blockEnd]

/-- **A file is read** that holds a mapping, one entry of which is a block of entries itself. -/
theorem run_file {before inner after : List Entry} {name : List Char} {column : Nat} (hcolumn : 0 < column)
    (hname : isName name = true) (hbefore : before ≠ []) (hinner : inner ≠ []) (hafter : after ≠ [])
    (fitsBefore : ∀ entry ∈ before, entry.Fits 0) (fitsInner : ∀ entry ∈ inner, entry.Fits column)
    (fitsAfter : ∀ entry ∈ after, entry.Fits 0) (fuel : Nat) :
    (start (fileText column before name inner after)).run
      (fuel + 3 * after.length + 3 * inner.length + 2 + 3 * before.length + 1) =
      .ok (fileTokens before name inner after) := by
  have hafter' : startsToken (after.flatMap (Entry.print 0)) = true := by
    obtain ⟨entry, after, rfl⟩ := List.exists_cons_of_ne_nil hafter
    exact startsToken_print (fitsAfter entry List.mem_cons_self) _
  have hinner' : IndentedBy column (inner.flatMap (Entry.print column) ++ after.flatMap (Entry.print 0)) := by
    obtain ⟨entry, inner, rfl⟩ := List.exists_cons_of_ne_nil hinner
    rw [List.flatMap_cons, List.append_assoc]
    exact indentedBy_print (fitsInner entry List.mem_cons_self) _
  obtain ⟨line, index, hread⟩ := run_entries [] hbefore fitsBefore
    (.first (by decide : (-1 : Int) < (0 : Nat)) []) (indentedBy_of_startsToken (startsToken_of_isName hname
      (':' :: '\n' :: (inner.flatMap (Entry.print column) ++ after.flatMap (Entry.print 0))))) 0 0
    (fuel + 3 * after.length + 3 * inner.length + 2)
  refine hread.trans ?_
  obtain ⟨line, index, hread⟩ := run_header [-1] _ hname hinner' line index
    (fuel + 3 * after.length + 3 * inner.length + 1)
  refine hread.trans ?_
  obtain ⟨line, index, hread⟩ := run_entries _ hinner fitsInner
    (.first (by omega : ((0 : Nat) : Int) < column) [-1]) (indentedBy_of_startsToken hafter') line index
    (fuel + 3 * after.length)
  refine hread.trans ?_
  rw [run_unwind hafter' (closeBlocks_inner hcolumn _)]
  obtain ⟨line, index, hread⟩ := run_entries _ hafter fitsAfter (.again [-1])
    (indentedBy_of_startsToken (rfl : startsToken [] = true)) line index fuel
  rw [List.append_nil] at hread
  refine hread.trans ?_
  rw [run_end]
  simp only [fileTokens, List.nil_append, List.append_nil, List.append_assoc]

end Scan

end LanguageSessions.Yaml
