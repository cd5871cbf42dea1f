import LanguageSessions.Proofs.Text.Utf8
import LanguageSessions.Proofs.Uri
import LanguageSessions.Yaml.Printer
import LanguageSessions.Yaml.Quoted
import Mathlib.Algebra.Ring.Nat

/-!
# Scalars that were written

Each of the three styles is read as the text that it was written of: between double quotes any text
(`doubleQuoted_writeDouble`), between single quotes one of ordinary characters with no blank at a line break
(`singleQuoted_writeSingle`), and without quotes one that needs none (`plain_writePlain`). Where a line was folded the
reader stands in a gap, so each induction carries the gap along, and what the text may go on with behind it.
-/

namespace LanguageSessions.Yaml

open Text

theorem isBreak_of_printable {c : Char} (h : ' ' ≤ c ∧ c ≤ '~') : isBreak c = false := by
  simp only [isBreak, Bool.or_eq_false_iff, beq_eq_false_iff_ne]
  refine ⟨⟨⟨?_, ?_⟩, ?_⟩, ?_⟩
  all_goals
    rintro rfl
    revert h
    decide

theorem isGap_of_printable {c : Char} (h : ' ' ≤ c ∧ c ≤ '~') (hblank : c ≠ ' ') : isGap c = false := by
  rw [isGap, Bool.or_eq_false_iff, beq_eq_false_iff_ne, beq_eq_false_iff_ne]
  refine ⟨hblank, ?_⟩
  rintro rfl
  exact absurd h.1 (by decide)

/-! ## Between double quotes -/

section Double

variable {text rest : List Char} {gap : Gap}

theorem prepend_prepend (front middle : List Char) (scanned : Scanned) :
    prepend front (prepend middle scanned) = prepend (front ++ middle) scanned := by
  cases scanned with
  | ok result => exact congrArg (fun text => Except.ok (text, result.2)) (List.append_assoc _ _ _).symm
  | error e => rfl

theorem charOfCode_toNat (c : Char) : charOfCode c.toNat = .ok c := by
  have hs := Utf8.isScalar_toNat c
  unfold Utf8.IsScalar at hs
  rw [charOfCode, if_pos (by omega), if_neg (by omega), Char.ofNat_toNat]

/-- The digits of a code are gathered from the first one on. -/
theorem doubleQuoted_upperHexDigits (width owed value code : Nat) (rest : List Char) :
    doubleQuoted (.code (owed + 1 + width) value) (upperHexDigits width code ++ rest) =
      doubleQuoted (.code (owed + 1) (value * 16 ^ width + code % 16 ^ width)) rest := by
  induction width generalizing owed code rest with
  | zero => rw [upperHexDigits, Nat.pow_zero, Nat.mul_one, Nat.mod_one]; rfl
  | succ width ih =>
    have hcode : (value * 16 ^ width + code / 16 % 16 ^ width) * 16 + code % 16 =
        value * 16 ^ (width + 1) + code % 16 ^ (width + 1) := by
      rw [Nat.pow_succ, Nat.mul_comm (16 ^ width) 16, Nat.mod_mul, Nat.mul_left_comm]
      omega
    have hread := ih (owed + 1) (code / 16) (upperHexChar (code % 16) :: rest)
    have howed : owed + 1 + (width + 1) = owed + 1 + 1 + width := by omega
    rw [howed, upperHexDigits, List.append_assoc, List.singleton_append, hread, doubleQuoted,
      Uri.hexValue?_upperHexChar _ (Nat.mod_lt _ (by decide))]
    dsimp only
    rw [if_neg (by omega), hcode]
    rfl

/-- A code of so many digits is read as the character that it was written of. -/
theorem doubleQuoted_code (width : Nat) {c : Char} (h : c.toNat < 16 ^ (width + 1)) (rest : List Char) :
    doubleQuoted (.code (width + 1) 0) (upperHexDigits (width + 1) c.toNat ++ rest) =
      prepend [c] (doubleQuoted (.plain Gap.none) rest) := by
  have hcode : (0 * 16 ^ width + c.toNat / 16 % 16 ^ width) * 16 + c.toNat % 16 = c.toNat := by
    have hlt : c.toNat / 16 < 16 ^ width := Nat.div_lt_of_lt_mul (by rwa [Nat.pow_succ, Nat.mul_comm] at h)
    rw [Nat.zero_mul, Nat.zero_add, Nat.mod_eq_of_lt hlt]
    omega
  rw [upperHexDigits, List.append_assoc, List.singleton_append, Nat.add_comm width 1,
    ← Nat.zero_add 1, doubleQuoted_upperHexDigits, doubleQuoted,
    Uri.hexValue?_upperHexChar _ (Nat.mod_lt _ (by decide))]
  dsimp only
  rw [if_pos (by decide), hcode, charOfCode_toNat]

theorem mem_of_lookup {α β : Type} [BEq α] [LawfulBEq α] {a : α} {b : β} {entries : List (α × β)}
    (h : entries.lookup a = some b) : (a, b) ∈ entries := by
  obtain ⟨before, after, rfl, -⟩ := List.lookup_eq_some_iff.1 h
  exact List.mem_append_right before List.mem_cons_self

/-- **Each character is read from its own escape.** -/
theorem doubleQuoted_escapeOf (gap : Gap) (c : Char) (rest : List Char) :
    doubleQuoted (.plain gap) (escapeOf c ++ rest) =
      prepend (gap.text ++ [c]) (doubleQuoted (.plain Gap.none) rest) := by
  have hescape : ∀ written : List Char, doubleQuoted (.plain gap) ('\\' :: written) =
      prepend gap.text (doubleQuoted .escape written) := by
    intro written
    rw [doubleQuoted, if_neg (by decide), if_pos rfl]
  have hscalar := Utf8.isScalar_toNat c
  unfold Utf8.IsScalar at hscalar
  rw [← prepend_prepend]
  unfold escapeOf
  dsimp only
  split
  · next name hname =>
    have hmeant : ∀ entry ∈ [('\x00', '0'), ('\x07', 'a'), ('\x08', 'b'), ('\t', 't'), ('\n', 'n'), ('\x0b', 'v'),
        ('\x0c', 'f'), ('\r', 'r'), ('\x1b', 'e'), ('"', '"'), ('\\', '\\'), ('\x85', 'N'), ('\xa0', '_'),
        ('\u2028', 'L'), ('\u2029', 'P')], escapes.lookup entry.2 = some entry.1 := by decide
    rw [List.cons_append, List.singleton_append, hescape, doubleQuoted, hmeant _ (mem_of_lookup hname)]
  · split
    · rw [List.cons_append, List.cons_append, hescape]
      exact congrArg (prepend gap.text) (doubleQuoted_code 1 (by omega) rest)
    · split
      · rw [List.cons_append, List.cons_append, hescape]
        exact congrArg (prepend gap.text) (doubleQuoted_code 3 (by omega) rest)
      · rw [List.cons_append, List.cons_append, hescape]
        exact congrArg (prepend gap.text) (doubleQuoted_code 7 (by omega) rest)

theorem doubleQuoted_of_plain {c : Char} (hescaped : isEscaped c = false) (hblank : c ≠ ' ') (gap : Gap)
    (rest : List Char) :
    doubleQuoted (.plain gap) (c :: rest) = prepend (gap.text ++ [c]) (doubleQuoted (.plain Gap.none) rest) := by
  simp only [isEscaped, Bool.or_eq_false_iff, beq_eq_false_iff_ne, Bool.not_eq_false', Bool.and_eq_true,
    decide_eq_true_eq] at hescaped
  obtain ⟨⟨hquote, hbackslash⟩, hprintable⟩ := hescaped
  rw [doubleQuoted, if_neg hquote, if_neg hbackslash, isGap_of_printable hprintable hblank,
    isBreak_of_printable hprintable, if_neg Bool.false_ne_true, if_neg Bool.false_ne_true]

/-- An escaped blank stands for itself. -/
theorem doubleQuoted_blank (gap : Gap) (rest : List Char) :
    doubleQuoted (.plain gap) ('\\' :: ' ' :: rest) =
      prepend (gap.text ++ [' ']) (doubleQuoted (.plain Gap.none) rest) :=
  (prepend_prepend gap.text [' '] _)

/-- A fold is read as nothing, and so are the blanks in front of the next line. -/
theorem doubleQuoted_fold (gap : Gap) (rest : List Char) :
    doubleQuoted (.plain gap) ('\\' :: newLine ++ rest) =
      prepend gap.text (doubleQuoted (.plain (.joined [])) rest) :=
  rfl

/-- No line is folded at its start. -/
theorem writeDouble_blank (fresh : Bool) (text : List Char) :
    writeDouble false (foldIndent + 1) fresh (' ' :: text) = ' ' :: writeDouble false (foldIndent + 2) false text := by
  rw [writeDouble, if_neg (by decide), if_neg (fun h => absurd h.2.2 (by decide))]

/-- Where the gap in front of a text between double quotes may lie: behind a fold no blank stands for itself. -/
def Gap.PrecedesDouble (text : List Char) : Gap → Prop
  | .blanks _ => True
  | .lines _ _ => False
  | .joined others => others = [] ∧ text.head? ≠ some ' '

/-- **What was written between double quotes is read back**, whatever comes behind it. -/
theorem doubleQuoted_writeDouble (isFirst : Bool) (column : Nat) (fresh : Bool) (text : List Char) (gap : Gap)
    (hgap : gap.PrecedesDouble text) (rest : List Char) :
    doubleQuoted (.plain gap) (writeDouble isFirst column fresh text ++ '"' :: rest) =
      .ok (gap.text ++ text, rest) := by
  match text with
  | [] => rw [writeDouble, List.nil_append, doubleQuoted, if_pos rfl, List.append_nil]
  | c :: text =>
    have hread : ∀ isFirst column fresh, doubleQuoted (.plain Gap.none)
        (writeDouble isFirst column fresh text ++ '"' :: rest) = .ok (text, rest) := fun isFirst column fresh =>
      doubleQuoted_writeDouble isFirst column fresh text Gap.none trivial rest
    have hwhole : prepend (gap.text ++ [c]) (.ok (text, rest)) = .ok (gap.text ++ c :: text, rest) := by
      rw [prepend, List.append_assoc, List.singleton_append]
    rw [← hwhole, writeDouble]
    dsimp only
    split
    · split
      · -- the line ends behind the escape
        rw [List.append_assoc, List.append_assoc, List.append_assoc, doubleQuoted_escapeOf, List.cons_append,
          ← List.cons_append, doubleQuoted_fold]
        refine congrArg (prepend _) ?_
        by_cases hblank : text.head? = some ' '
        · rw [hblank, if_pos (beq_self_eq_true _), if_pos (beq_self_eq_true _)]
          obtain ⟨text, rfl⟩ := List.head?_eq_some_iff.1 hblank
          rw [writeDouble_blank, List.singleton_append, List.cons_append, doubleQuoted_blank,
            doubleQuoted_writeDouble _ _ _ text Gap.none trivial]
          rfl
        · rw [if_neg (by simpa using hblank), if_neg (by simpa using hblank), List.nil_append,
            doubleQuoted_writeDouble _ _ _ text (.joined []) ⟨rfl, hblank⟩]
          rfl
      · rw [List.append_assoc, doubleQuoted_escapeOf, hread]
    · next hescaped =>
      rw [Bool.not_eq_true] at hescaped
      split
      · -- the line ends in front of the character
        rw [List.append_assoc, List.append_assoc, doubleQuoted_fold, ← prepend_prepend]
        refine congrArg (prepend _) ?_
        by_cases hc : c = ' '
        · subst hc
          rw [if_pos rfl, List.singleton_append, List.cons_append, doubleQuoted_blank, hread]
          rfl
        · rw [if_neg hc, List.nil_append, List.cons_append, doubleQuoted_of_plain hescaped hc, hread]
          rfl
      · by_cases hc : c = ' '
        · subst hc
          cases gap with
          | blanks held =>
            exact doubleQuoted_writeDouble _ _ _ text (.blanks (held ++ [' '])) trivial rest
          | lines _ _ => exact hgap.elim
          | joined _ => exact absurd rfl hgap.2
        · rw [List.cons_append, doubleQuoted_of_plain hescaped hc, hread]
termination_by text.length

end Double

/-! ## Between single quotes -/

section Single

variable {text rest : List Char} {gap : Gap} {c : Char}

theorem singleQuoted_quote (gap : Gap) (rest : List Char) :
    singleQuoted gap ('\'' :: '\'' :: rest) = prepend (gap.text ++ ['\'']) (singleQuoted Gap.none rest) := by
  rw [singleQuoted]

theorem singleQuoted_end (gap : Gap) (h : rest.head? ≠ some '\'') :
    singleQuoted gap ('\'' :: rest) = .ok (gap.text, rest) := by
  unfold singleQuoted
  split
  · next heq => cases heq
  · next heq =>
    cases heq
    exact absurd rfl h
  · next heq =>
    cases heq
    exact if_pos rfl

theorem singleQuoted_of_ne (gap : Gap) (h : c ≠ '\'') (rest : List Char) :
    singleQuoted gap (c :: rest) =
      if isGap c then singleQuoted (gap.blank c) rest
      else if isBreak c then
        if atDocumentMark rest then .error .syntaxError else singleQuoted (gap.lineBreak c) rest
      else prepend (gap.text ++ [c]) (singleQuoted Gap.none rest) := by
  rw [singleQuoted]
  · exact if_neg h
  · rintro _ rfl
    exact absurd rfl h

theorem singleQuoted_blank (gap : Gap) (rest : List Char) :
    singleQuoted gap (' ' :: rest) = singleQuoted (gap.blank ' ') rest :=
  singleQuoted_of_ne gap (by decide) rest

theorem singleQuoted_break (gap : Gap) (h : atDocumentMark rest = false) :
    singleQuoted gap ('\n' :: rest) = singleQuoted (gap.lineBreak '\n') rest := by
  rw [singleQuoted_of_ne gap (by decide), if_neg (by decide), if_pos (by decide), h, if_neg Bool.false_ne_true]

theorem singleQuoted_of_printable (gap : Gap) (h : ' ' ≤ c ∧ c ≤ '~') (hblank : c ≠ ' ') (hquote : c ≠ '\'')
    (rest : List Char) :
    singleQuoted gap (c :: rest) = prepend (gap.text ++ [c]) (singleQuoted Gap.none rest) := by
  rw [singleQuoted_of_ne gap hquote, isGap_of_printable h hblank, isBreak_of_printable h, if_neg Bool.false_ne_true,
    if_neg Bool.false_ne_true]

/-- The line break that ends a folded line, and the blanks in front of the next one. -/
theorem singleQuoted_newLine (gap : Gap) (rest : List Char) :
    singleQuoted gap (newLine ++ rest) = singleQuoted (gap.lineBreak '\n') rest := by
  change singleQuoted gap ('\n' :: ' ' :: ' ' :: rest) = _
  rw [singleQuoted_break gap rfl, singleQuoted_blank, singleQuoted_blank]
  cases gap <;> rfl

theorem blankAtBreak_cons {d : Char} (h : blankAtBreak (c :: d :: text) = false) :
    blankAtBreak (d :: text) = false ∧ (c = ' ' → d ≠ '\n') ∧ (c = '\n' → d ≠ ' ') := by
  refine ⟨?_, ?_, ?_⟩
  · unfold blankAtBreak at h
    split at h
    · cases h
    · cases h
    · next heq =>
      cases heq
      exact h
    · next heq => cases heq
  · rintro rfl rfl
    cases h
  · rintro rfl rfl
    cases h

/-- Where the gap in front of a text between single quotes may lie: it holds the blanks right behind the last character,
the line breaks there, or a fold at a lone blank. -/
def Gap.PrecedesSingle (before : Option Char) (text : List Char) : Gap → Prop
  | .blanks held => before ≠ some '\n' ∧ (before = some ' ' ∨ held = [])
  | .lines first others => first = '\n' ∧
      (before = some '\n' ∧ others ≠ [] ∨ before = some ' ' ∧ others = [] ∧ text.head? ≠ some ' ')
  | .joined _ => False

theorem Gap.precedesSingle_none (hc : c ≠ '\n') (text : List Char) : Gap.none.PrecedesSingle (some c) text :=
  ⟨fun h => hc (Option.some.inj h), .inr rfl⟩

/-- A blank lies behind other blanks at most. -/
theorem Gap.PrecedesSingle.of_blank {before : Option Char} (h : gap.PrecedesSingle before (' ' :: text))
    (hbreaks : blankAtBreak (before.toList ++ ' ' :: text) = false) :
    ∃ held, gap = .blanks held ∧ (before = some ' ' ∨ held = []) := by
  cases gap with
  | blanks held => exact ⟨held, rfl, h.2⟩
  | lines first others =>
    obtain ⟨-, ⟨rfl, -⟩ | ⟨-, -, hnext⟩⟩ := h
    · exact absurd rfl ((blankAtBreak_cons hbreaks).2.2 rfl)
    · exact absurd rfl hnext
  | joined _ => exact h.elim

theorem atDocumentMark_writeSingle (column : Nat) (before : Option Char) (text rest : List Char) :
    atDocumentMark (writeSingle column before ('\n' :: text) ++ rest) = false := by
  rw [writeSingle, if_pos rfl]
  dsimp only
  split <;> split <;> rfl

/-- A line break that was written behind no blank is read; a lone one was written twice. -/
theorem singleQuoted_breaks {before : Option Char} (hgap : gap.PrecedesSingle before text) (hbefore : before ≠ some ' ')
    (hrest : atDocumentMark rest = false) :
    ∃ others, others ≠ [] ∧ (Gap.lines '\n' others).text = gap.text ++ ['\n'] ∧
      singleQuoted gap ((if before == some '\n' then ['\n'] else ['\n', '\n']) ++ rest) =
        singleQuoted (.lines '\n' others) rest := by
  cases gap with
  | blanks held =>
    obtain rfl : held = [] := hgap.2.resolve_left hbefore
    refine ⟨['\n'], by decide, rfl, ?_⟩
    have hlone : (before == some '\n') = false := beq_eq_false_iff_ne.2 hgap.1
    rw [hlone, if_neg Bool.false_ne_true, List.cons_append, List.singleton_append, singleQuoted_break _ rfl,
      singleQuoted_break _ hrest]
    rfl
  | lines first others =>
    obtain ⟨rfl, ⟨rfl, hne⟩ | ⟨heq, -⟩⟩ := hgap
    · refine ⟨others ++ ['\n'], by simp, by simp [Gap.text, hne], ?_⟩
      rw [if_pos (beq_self_eq_true _), List.singleton_append, singleQuoted_break _ hrest]
      rfl
    · exact absurd heq hbefore
  | joined _ => exact hgap.elim

/-- **What was written between single quotes is read back**, if its characters are ordinary and no blank of it touches a
line break. -/
theorem singleQuoted_writeSingle {text : List Char} (hordinary : ∀ c ∈ text, isOrdinary c = true) (column : Nat)
    {before : Option Char} (hbreaks : blankAtBreak (before.toList ++ text) = false) {gap : Gap}
    (hgap : gap.PrecedesSingle before text) (hrest : rest.head? ≠ some '\'') :
    singleQuoted gap (writeSingle column before text ++ '\'' :: rest) = .ok (gap.text ++ text, rest) := by
  induction text generalizing column before gap with
  | nil => rw [writeSingle, List.nil_append, singleQuoted_end gap hrest, List.append_nil]
  | cons c text ih =>
    rw [List.forall_mem_cons] at hordinary
    have hwhole : prepend (gap.text ++ [c]) (.ok (text, rest)) = .ok (gap.text ++ c :: text, rest) := by
      rw [prepend, List.append_assoc, List.singleton_append]
    have hkept : blankAtBreak ((some c).toList ++ text) = false := by
      cases before with
      | none => exact hbreaks
      | some b => exact (blankAtBreak_cons hbreaks).1
    have ih := fun column (gap : Gap) (hgap : gap.PrecedesSingle (some c) text) => ih hordinary.2 column hkept hgap
    unfold writeSingle
    split
    · next hbreak =>
      subst hbreak
      have hbefore : before ≠ some ' ' := by
        rintro rfl
        exact (blankAtBreak_cons hbreaks).2.1 rfl rfl
      dsimp only
      split
      · next hnext =>
        obtain ⟨text, rfl⟩ := List.head?_eq_some_iff.1 (beq_iff_eq.1 hnext)
        obtain ⟨others, hne, htext, hread⟩ := singleQuoted_breaks hgap hbefore
          (atDocumentMark_writeSingle 0 (some '\n') text ('\'' :: rest))
        rw [List.append_assoc, hread]
        refine (ih 0 (.lines '\n' others) ⟨rfl, .inl ⟨rfl, hne⟩⟩).trans ?_
        rw [htext, List.append_assoc, List.singleton_append]
      · obtain ⟨others, hne, htext, hread⟩ := singleQuoted_breaks hgap hbefore (rfl : atDocumentMark
          (List.replicate foldIndent ' ' ++ (writeSingle foldIndent (some '\n') text ++ '\'' :: rest)) = false)
        rw [List.append_assoc, List.append_assoc, hread]
        change singleQuoted (.lines '\n' others) (' ' :: ' ' :: _) = _
        rw [singleQuoted_blank, singleQuoted_blank]
        refine (ih foldIndent (.lines '\n' others) ⟨rfl, .inl ⟨rfl, hne⟩⟩).trans ?_
        rw [htext, List.append_assoc, List.singleton_append]
    · next hbreak =>
      split
      · next hquote =>
        subst hquote
        rw [List.cons_append, List.cons_append, singleQuoted_quote, ih _ _ (Gap.precedesSingle_none hbreak text)]
        exact hwhole
      · next hquote =>
        split
        · next hfolds =>
          obtain ⟨rfl, hfolds⟩ := hfolds
          simp only [foldsAt, Bool.and_eq_true, bne_iff_ne] at hfolds
          obtain ⟨⟨⟨-, hbefore⟩, -⟩, hnext⟩ := hfolds
          obtain ⟨held, rfl, hheld⟩ := hgap.of_blank hbreaks
          obtain rfl : held = [] := hheld.resolve_left hbefore
          rw [List.append_assoc, singleQuoted_newLine]
          exact ih foldIndent (.lines '\n' []) ⟨rfl, .inr ⟨rfl, rfl, hnext⟩⟩
        · by_cases hblank : c = ' '
          · subst hblank
            obtain ⟨held, rfl, -⟩ := hgap.of_blank hbreaks
            rw [List.cons_append, singleQuoted_blank]
            exact (ih _ (.blanks (held ++ [' '])) ⟨by decide, .inl rfl⟩).trans hwhole
          · have hprintable : ' ' ≤ c ∧ c ≤ '~' := by
              have h := hordinary.1
              simpa [isOrdinary, hbreak] using h
            rw [List.cons_append, singleQuoted_of_printable gap hprintable hblank hquote,
              ih _ _ (Gap.precedesSingle_none hbreak text)]
            exact hwhole

end Single

/-! ## Without quotes -/

section Plain

variable {text rest stop : List Char} {gap : Gap} {c : Char} {indent : Int}

theorem plain_blank (gap : Gap) (place : Nat) (rest : List Char) :
    plain false indent gap place (' ' :: rest) = plain false indent (gap.blank ' ') (place + 1) rest := by
  rw [plain, if_pos rfl]

theorem plain_newLine (gap : Gap) (place : Nat) (rest : List Char) :
    plain false indent gap place (newLine ++ rest) = plain false indent (gap.lineBreak '\n') foldIndent rest := by
  change plain false indent gap place ('\n' :: ' ' :: ' ' :: rest) = _
  rw [plain, if_neg (by decide), if_pos (by decide), if_neg nofun, plain_blank, plain_blank]
  cases gap <;> rfl

theorem plain_of_printable {place : Nat} (h : ' ' ≤ c ∧ c ≤ '~') (hblank : c ≠ ' ')
    (hcomment : c = '#' → allowsComment gap = false) (hplace : gap.crossesLine = true → indent ≤ place)
    (hcolon : c = ':' → atWordEnd rest = false) :
    plain false indent gap place (c :: rest) =
      let found := plain false indent Gap.none (place + 1) rest
      { found with text := gap.text ++ c :: found.text } := by
  have htab : c ≠ '\t' := by
    rintro rfl
    exact absurd h.1 (by decide)
  have hends : endsPlain false c rest = false := by
    by_cases hc : c = ':'
    · simp [endsPlain, hc, hcolon hc]
    · simp [endsPlain, hc, htab]
  rw [plain, if_neg hblank, isBreak_of_printable h, if_neg Bool.false_ne_true, if_neg]
  rintro (⟨hc, hallowed⟩ | ⟨hcrosses, -, hlt⟩ | hended)
  · exact nomatch (hcomment hc).symm.trans hallowed
  · exact absurd (hplace hcrosses) (Int.not_le.2 hlt)
  · exact nomatch hends.symm.trans hended

/-- Where the gap in front of a text without quotes may lie: it holds the blanks right behind the last character, or a
fold at a lone blank. -/
def Gap.PrecedesPlain (before : Option Char) (text : List Char) : Gap → Prop
  | .blanks held => (before = some ' ' ∨ held = []) ∧ (text = [] → held = [])
  | .lines first others => first = '\n' ∧ others = [] ∧ text ≠ [] ∧ text.head? ≠ some ' '
  | .joined _ => False

theorem atWordEnd_of_writePlain {column : Nat} {before : Option Char}
    (h : atWordEnd (writePlain column before text ++ stop) = true) : atWordEnd text = true := by
  cases text with
  | nil => rfl
  | cons c text =>
    by_cases hc : c = ' '
    · subst hc
      rfl
    · rwa [writePlain, if_neg fun h => hc h.1] at h

/-- **What was written without quotes is read back**, if it has printable characters only, no indicator inside and no
blank at its end. -/
theorem plain_writePlain {crossed : Bool}
    (hstop : ∀ place, plain false indent Gap.none place stop = ⟨[], crossed, rest⟩)
    (hindent : ' ' ∈ text → indent ≤ foldIndent) (hprintable : ∀ c ∈ text, ' ' ≤ c ∧ c ≤ '~')
    (hend : text.getLast? ≠ some ' ') (column place : Nat) {before : Option Char}
    (hgap : gap.PrecedesPlain before text) (hinner : hasInnerIndicator (allowsComment gap) text = false)
    (hplace : gap.crossesLine = true → indent ≤ place) :
    plain false indent gap place (writePlain column before text ++ stop) = ⟨gap.text ++ text, crossed, rest⟩ := by
  induction text generalizing column place before gap with
  | nil =>
    cases gap with
    | blanks held =>
      obtain rfl : held = [] := hgap.2 rfl
      exact hstop place
    | lines first others => exact absurd rfl hgap.2.2.1
    | joined _ => exact hgap.elim
  | cons c text ih =>
    rw [List.forall_mem_cons] at hprintable
    rw [hasInnerIndicator, Bool.or_eq_false_iff, Bool.or_eq_false_iff, Bool.and_eq_false_imp, Bool.and_eq_false_imp,
      beq_iff_eq, beq_iff_eq] at hinner
    obtain ⟨⟨hcolon, hcomment⟩, hinner⟩ := hinner
    have hkept : text.getLast? ≠ some ' ' := by
      intro hlast
      rw [List.getLast?_cons, hlast] at hend
      exact hend rfl
    have ih := fun (gap : Gap) column place =>
      @ih gap (fun hm => hindent (List.mem_cons_of_mem _ hm)) hprintable.2 hkept column place (some c)
    rw [writePlain]
    split
    · next hfolds =>
      obtain ⟨rfl, hfolds⟩ := hfolds
      simp only [foldsAt, Bool.and_eq_true, bne_iff_ne, Bool.not_eq_true', List.isEmpty_eq_false_iff] at hfolds
      obtain ⟨⟨⟨-, hbefore⟩, hne⟩, hnext⟩ := hfolds
      cases gap with
      | blanks held =>
        obtain rfl : held = [] := hgap.1.resolve_left hbefore
        rw [List.append_assoc, plain_newLine]
        exact ih (.lines '\n' []) _ _ ⟨rfl, rfl, hne, hnext⟩ hinner fun _ =>
          hindent List.mem_cons_self
      | lines first others => exact absurd rfl hgap.2.2.2
      | joined _ => exact hgap.elim
    · by_cases hblank : c = ' '
      · subst hblank
        cases gap with
        | blanks held =>
          rw [List.cons_append, plain_blank]
          have hallowed : allowsComment (.blanks (held ++ [' '])) = true := by cases held <;> rfl
          refine (ih (.blanks (held ++ [' '])) _ _ ⟨.inl rfl, ?_⟩ (by rw [hallowed]; exact hinner) nofun).trans ?_
          · rintro rfl
            exact absurd rfl hend
          · rw [Gap.text, List.append_assoc, List.singleton_append]
            rfl
        | lines first others => exact absurd rfl hgap.2.2.2
        | joined _ => exact hgap.elim
      · rw [List.cons_append, plain_of_printable hprintable.1 hblank hcomment hplace,
          ih Gap.none _ _ ⟨.inr rfl, fun _ => rfl⟩]
        · rfl
        · rw [isGap_of_printable hprintable.1 hblank, isBreak_of_printable hprintable.1] at hinner
          exact hinner
        · nofun
        · exact fun hc => Bool.eq_false_iff.2 fun hword =>
            nomatch (hcolon hc).symm.trans (atWordEnd_of_writePlain hword)

theorem plain_blanks (gap : Gap) (hgap : gap.crossesLine = true) (blanks place : Nat) (rest : List Char) :
    plain false indent gap place (List.replicate blanks ' ' ++ rest) =
      plain false indent gap (place + blanks) rest := by
  induction blanks generalizing place with
  | zero => rfl
  | succ blanks ih =>
    have hsame : gap.blank ' ' = gap := by
      cases gap with
      | blanks held => cases hgap
      | lines _ _ | joined _ => rfl
    rw [List.replicate_succ, List.cons_append, plain_blank, hsame, ih, Nat.add_assoc, Nat.add_comm 1]

/-- A line that is not indented enough ends a scalar without quotes, and so does the end of the text. -/
theorem plain_lineEnd {blanks : Nat} (hblanks : (blanks : Int) < indent)
    (hrest : ∀ c more, rest = c :: more → c ≠ ' ' ∧ isBreak c = false) (place : Nat) :
    plain false indent Gap.none place ('\n' :: (List.replicate blanks ' ' ++ rest)) = ⟨[], true, rest⟩ := by
  have hline : plain false indent (.lines '\n' []) 0 (List.replicate blanks ' ' ++ rest) = ⟨[], true, rest⟩ := by
    rw [plain_blanks _ rfl, Nat.zero_add]
    cases rest with
    | nil => rfl
    | cons c more =>
      obtain ⟨hblank, hbreak⟩ := hrest c more rfl
      rw [plain, if_neg hblank, hbreak, if_neg Bool.false_ne_true, if_pos (.inr (.inl ⟨rfl, rfl, hblanks⟩))]
      rfl
  rw [plain, if_neg (by decide), if_pos (by decide)]
  split
  · next hmark =>
    cases blanks with
    | zero => rfl
    | succ blanks => cases hmark
  · exact hline

/-- A text that may stand without quotes, as far as it is read as a text at all. -/
structure Bare (text : List Char) : Prop where
  nonempty : text ≠ []
  printable : ∀ c ∈ text, ' ' ≤ c ∧ c ≤ '~'
  starts : text.head? ≠ some ' '
  ends : text.getLast? ≠ some ' '
  loose : startsWithIndicator text = false
  inner : hasInnerIndicator false text = false

theorem Bare.plain {crossed : Bool} (bare : Bare text)
    (hstop : ∀ place, plain false indent Gap.none place stop = ⟨[], crossed, rest⟩)
    (hindent : ' ' ∈ text → indent ≤ foldIndent) (column place : Nat) :
    plain false indent Gap.none place (writePlain column none text ++ stop) = ⟨text, crossed, rest⟩ :=
  have hgap : Gap.none.PrecedesPlain none text := ⟨.inr rfl, fun _ => rfl⟩
  plain_writePlain hstop hindent bare.printable bare.ends column place hgap bare.inner nofun

/-- What is written of a bare text begins with its first character, which is no indicator there. -/
theorem Bare.exists_cons (bare : Bare text) (column : Nat) (stop : List Char) :
    ∃ c rest, writePlain column none text ++ stop = c :: rest ∧ text.head? = some c ∧ c ≠ ' ' ∧
      (' ' ≤ c ∧ c ≤ '~') ∧ startsWithIndicator (c :: rest) = false := by
  obtain ⟨nonempty, printable, starts, -, loose, -⟩ := bare
  obtain ⟨c, text, rfl⟩ := List.exists_cons_of_ne_nil nonempty
  have hfirst : writePlain column none (c :: text) = c :: writePlain (column + 1) (some c) text := by
    rw [writePlain, if_neg]
    rintro ⟨-, hfolds⟩
    simp [foldsAt] at hfolds
  refine ⟨c, _, by rw [hfirst, List.cons_append], rfl, fun hc => starts (congrArg some hc),
    printable c List.mem_cons_self, ?_⟩
  rw [startsWithIndicator, Bool.or_eq_false_iff, Bool.and_eq_false_imp] at loose ⊢
  refine ⟨loose.1, fun hc => Bool.eq_false_iff.2 fun hword => ?_⟩
  exact nomatch (loose.2 hc).symm.trans (atWordEnd_of_writePlain hword)

/-- Whether a text has no character that any style is concerned about, and begins with no indicator. -/
def isWord (text : List Char) : Bool :=
  !text.isEmpty && !startsWithIndicator text && text.all fun c => ' ' ≤ c && c ≤ '~' && c != ' ' && c != ':' && c != '#'

theorem writePlain_of_not_mem (h : ' ' ∉ text) (column : Nat) (before : Option Char) :
    writePlain column before text = text := by
  induction text generalizing column before with
  | nil => rfl
  | cons c text ih =>
    rw [List.mem_cons, not_or] at h
    rw [writePlain, if_neg fun hc => h.1 hc.1.symm, ih h.2]

theorem hasInnerIndicator_of_not_mem (hcolon : ':' ∉ text) (hcomment : '#' ∉ text) (afterGap : Bool) :
    hasInnerIndicator afterGap text = false := by
  induction text generalizing afterGap with
  | nil => rfl
  | cons c text ih =>
    rw [List.mem_cons, not_or] at hcolon hcomment
    simp [hasInnerIndicator, ih hcolon.2 hcomment.2, Ne.symm hcolon.1, Ne.symm hcomment.1]

theorem mem_of_isWord (h : isWord text = true) (hc : c ∈ text) : (' ' ≤ c ∧ c ≤ '~') ∧ c ≠ ' ' ∧ c ≠ ':' ∧ c ≠ '#' := by
  have hall := List.all_eq_true.1 (Bool.and_eq_true_iff.1 h).2 c hc
  simpa [and_assoc] using hall

theorem blank_not_mem_of_isWord (h : isWord text = true) : ' ' ∉ text := fun hm => (mem_of_isWord h hm).2.1 rfl

theorem bare_of_isWord (h : isWord text = true) : Bare text where
  nonempty := by
    rintro rfl
    cases h
  printable c hc := (mem_of_isWord h hc).1
  starts hhead := blank_not_mem_of_isWord h (List.mem_of_head? hhead)
  ends hlast := blank_not_mem_of_isWord h (List.mem_of_getLast? hlast)
  loose := by
    rw [isWord, Bool.and_eq_true, Bool.and_eq_true] at h
    exact Bool.not_eq_true' _ ▸ h.1.2
  inner :=
    hasInnerIndicator_of_not_mem (fun hm => (mem_of_isWord h hm).2.2.1 rfl) (fun hm => (mem_of_isWord h hm).2.2.2 rfl)
      false

end Plain

/-- What is written of a text in a block that is indented so much, and whether it stands without quotes. -/
inductive Wrote (indent : Int) : List Char → List Char → Bool → Prop where
  | bare {text : List Char} (bare : Bare text) (folds : ' ' ∈ text → indent + 1 ≤ foldIndent) (column : Nat) :
      Wrote indent (writePlain column none text) text true
  | single {text : List Char} (ordinary : ∀ c ∈ text, isOrdinary c = true) (breaks : blankAtBreak text = false)
      (column : Nat) : Wrote indent ('\'' :: writeSingle column none text ++ ['\'']) text false
  | double (text : List Char) (column : Nat) :
      Wrote indent ('"' :: writeDouble true column true text ++ ['"']) text false

end LanguageSessions.Yaml
