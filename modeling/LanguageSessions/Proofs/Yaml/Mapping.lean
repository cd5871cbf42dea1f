import LanguageSessions.Proofs.Yaml.Lines

/-!
# Mappings that were written

The tokens of a file are read as the mapping of its entries (`ofTokens_fileTokens`), each node of which has the value
that the entry stands for. A file has ordinary characters only, so nothing is done to it before its tokens are read
(`tokens_of_ordinary`). So a file is read as what it was written of (`read_file`).
-/

namespace LanguageSessions.Yaml

/-! ## Nodes -/

namespace Entry

/-- The nodes of an entry. -/
def node (entry : Entry) : Node × Node := (.scalar entry.name true, .scalar entry.text entry.isPlain)

/-- The member that an entry stands for. -/
def member (entry : Entry) : Value × Value := (.string entry.name, entry.value)

end Entry

namespace Node

/-- With enough fuel tokens are read as the entries of a block. -/
def ReadsAs (tokens : List Token) (entries : List (Node × Node)) (rest : List Token) (least : Nat) : Prop :=
  ∀ fuel, least ≤ fuel → blockEntries fuel tokens = .ok (.mapping entries, rest)

variable {tokens rest : List Token} {entries inner : List (Node × Node)} {least : Nat}

theorem readsAs_end (rest : List Token) : ReadsAs (.blockEnd :: rest) [] rest 1 := by
  intro fuel hfuel
  obtain ⟨fuel, rfl⟩ := Nat.exists_eq_add_of_le' hfuel
  rfl

theorem readsAs_entry (entry : Entry) (h : ReadsAs tokens entries rest least) :
    ReadsAs (entry.tokens ++ tokens) (entry.node :: entries) rest (least + 3) := by
  intro fuel hfuel
  obtain ⟨fuel, rfl⟩ := Nat.exists_eq_add_of_le' (Nat.le_trans (Nat.le_add_left 3 least) hfuel)
  change prependEntry entry.node (blockEntries (fuel + 2) tokens) = _
  rw [h _ (by omega)]
  rfl

theorem readsAs_entries (block : List Entry) (h : ReadsAs tokens entries rest least) :
    ReadsAs (block.flatMap Entry.tokens ++ tokens) (block.map Entry.node ++ entries) rest
      (least + 3 * block.length) := by
  induction block with
  | nil => exact h
  | cons entry block ih =>
    rw [List.flatMap_cons, List.append_assoc]
    exact readsAs_entry entry ih

/-- An entry whose value is a block of entries. -/
theorem readsAs_block (name : List Char) {most : Nat} (hinner : ReadsAs tokens inner rest least)
    {last : List Token} (h : ReadsAs rest entries last most) :
    ReadsAs (.key :: .scalar name true :: .value :: .blockMapStart :: tokens)
      ((.scalar name true, .mapping inner) :: entries) last (least + most + 3) := by
  intro fuel hfuel
  obtain ⟨fuel, rfl⟩ := Nat.exists_eq_add_of_le' (Nat.le_trans (Nat.le_add_left 3 (least + most)) hfuel)
  change (blockEntries fuel tokens >>= fun found => prependEntry (.scalar name true, found.1)
    (blockEntries (fuel + 2) found.2)) = _
  rw [hinner _ (by omega)]
  change prependEntry _ (blockEntries (fuel + 2) rest) = _
  rw [h _ (by omega)]
  rfl

theorem length_tokens (block : List Entry) : (block.flatMap Entry.tokens).length = 4 * block.length := by
  induction block with
  | nil => rfl
  | cons entry block ih =>
    rw [List.flatMap_cons, List.length_append, ih, List.length_cons]
    change 4 + _ = _
    omega

/-- **The tokens of a file are read as the mapping of its entries.** -/
theorem ofTokens_fileTokens (before : List Entry) (name : List Char) (inner after : List Entry) :
    ofTokens (Scan.fileTokens before name inner after) = .ok (some (.mapping
      (before.map Entry.node ++ (.scalar name true, .mapping (inner.map Entry.node)) :: after.map Entry.node))) := by
  have hafter := readsAs_entries after (readsAs_end [])
  have hinner := readsAs_entries inner (readsAs_end (after.flatMap Entry.tokens ++ [.blockEnd]))
  rw [List.append_nil] at hafter hinner
  have hall := readsAs_entries before (readsAs_block name hinner hafter)
  have htokens : Scan.fileTokens before name inner after =
      .blockMapStart :: (before.flatMap Entry.tokens ++ .key :: .scalar name true :: .value :: .blockMapStart ::
        (inner.flatMap Entry.tokens ++ .blockEnd :: (after.flatMap Entry.tokens ++ [.blockEnd]))) := by
    simp [Scan.fileTokens]
  have hlength := congrArg List.length htokens
  simp only [List.length_cons, List.length_append, length_tokens, List.length_nil] at hlength
  rw [htokens] at hlength ⊢
  change (read true false (2 * _ + 2) _ >>= fun found => dropEnds found.2 >>= fun _ => pure (some found.1)) = _
  change (blockEntries (2 * _ + 1) _ >>= fun found => dropEnds found.2 >>= fun _ => pure (some found.1)) = _
  rw [hall _ (by omega)]
  rfl

end Node

/-! ## Values -/

namespace Value

variable {column : Nat} {block : List Entry} {entries : List (Node × Node)} {members : List (Value × Value)}

theorem ofKey_of_text {name : List Char} (h : Meaning.ofText name = .text) :
    ofKey (.scalar name true) = .ok (.string name) := by
  simp [ofKey, ofScalar, h]

theorem ofEntries_cons {key value : Node} {name : List Char} {found : Value} (hkey : Meaning.ofText name = .text)
    (hk : key = .scalar name true) (hvalue : ofNode value = .ok found) (h : ofEntries entries = .ok members) :
    ofEntries ((key, value) :: entries) = .ok ((.string name, found) :: members) := by
  rw [ofEntries, hk, ofKey_of_text hkey, hvalue, h]
  rfl

/-- The nodes of a block have the values that its entries stand for. -/
theorem ofEntries_append (fits : ∀ entry ∈ block, entry.Fits column) (h : ofEntries entries = .ok members) :
    ofEntries (block.map Entry.node ++ entries) = .ok (block.map Entry.member ++ members) := by
  induction block with
  | nil => exact h
  | cons entry block ih =>
    rw [List.forall_mem_cons] at fits
    exact ofEntries_cons fits.1.isText rfl (by rw [ofNode, fits.1.means]) (ih fits.2)

theorem ofEntries_block (fits : ∀ entry ∈ block, entry.Fits column) :
    ofEntries (block.map Entry.node) = .ok (block.map Entry.member) := by
  have hall := ofEntries_append fits (rfl : ofEntries [] = .ok [])
  rwa [List.append_nil, List.append_nil] at hall

end Value

/-! ## Ordinary characters -/

section Ordinary

variable {text : List Char}

theorem isOrdinary_of_printable {c : Char} (h : ' ' ≤ c ∧ c ≤ '~') : isOrdinary c = true := by
  simp [isOrdinary, h]

theorem all_newLine : newLine.all isOrdinary = true := by decide

theorem all_writePlain (h : text.all isOrdinary = true) (column : Nat) (before : Option Char) :
    (writePlain column before text).all isOrdinary = true := by
  induction text generalizing column before with
  | nil => rfl
  | cons c text ih =>
    rw [List.all_cons, Bool.and_eq_true] at h
    rw [writePlain]
    split <;> simp [h.1, ih h.2, all_newLine]

theorem all_writeSingle (h : text.all isOrdinary = true) (column : Nat) (before : Option Char) :
    (writeSingle column before text).all isOrdinary = true := by
  induction text generalizing column before with
  | nil => rfl
  | cons c text ih =>
    rw [List.all_cons, Bool.and_eq_true] at h
    have hindent : (List.replicate foldIndent ' ').all isOrdinary = true := by decide
    rw [writeSingle]
    split
    · have hbreaks : (if before == some '\n' then ['\n'] else ['\n', '\n']).all isOrdinary = true := by
        split <;> decide
      dsimp only
      split <;> simp only [List.all_append, hbreaks, hindent, ih h.2, Bool.and_self]
    · have hquote : isOrdinary '\'' = true := by decide
      split
      · simp only [List.all_cons, hquote, ih h.2, Bool.and_self]
      · split <;> simp only [List.all_cons, List.all_append, h.1, ih h.2, all_newLine, Bool.and_self]

theorem isOrdinary_upperHexChar : ∀ d < 16, isOrdinary (Text.upperHexChar d) = true := by decide

theorem all_upperHexDigits (width n : Nat) : (Text.upperHexDigits width n).all isOrdinary = true := by
  induction width generalizing n with
  | zero => rfl
  | succ width ih =>
    have hlast := isOrdinary_upperHexChar (n % 16) (Nat.mod_lt _ (by decide))
    simp [Text.upperHexDigits, ih, hlast]

theorem all_escapeOf (c : Char) : (escapeOf c).all isOrdinary = true := by
  unfold escapeOf
  dsimp only
  split
  next name hname =>
    have hnames : ∀ entry ∈ [('\x00', '0'), ('\x07', 'a'), ('\x08', 'b'), ('\t', 't'), ('\n', 'n'), ('\x0b', 'v'),
        ('\x0c', 'f'), ('\r', 'r'), ('\x1b', 'e'), ('"', '"'), ('\\', '\\'), ('\x85', 'N'), ('\xa0', '_'),
        ('\u2028', 'L'), ('\u2029', 'P')], ['\\', entry.2].all isOrdinary = true := by decide
    exact hnames _ (mem_of_lookup hname)
  next =>
    have hmarks : ['\\', 'x', 'u', 'U'].all isOrdinary = true := by decide
    simp only [List.all_cons, List.all_nil, Bool.and_true, Bool.and_eq_true] at hmarks
    split
    · simp only [List.all_cons, hmarks, all_upperHexDigits, Bool.and_self]
    · split <;> simp only [List.all_cons, hmarks, all_upperHexDigits, Bool.and_self]

theorem isOrdinary_of_not_escaped {c : Char} (h : isEscaped c = false) : isOrdinary c = true := by
  rw [isEscaped, Bool.or_eq_false_iff, Bool.not_eq_false'] at h
  rw [isOrdinary, h.2, Bool.or_true]

theorem all_writeDouble (isFirst : Bool) (column : Nat) (fresh : Bool) (text : List Char) :
    (writeDouble isFirst column fresh text).all isOrdinary = true := by
  induction text generalizing isFirst column fresh with
  | nil => rfl
  | cons c text ih =>
    have hmark (b : Bool) : (if b then ['\\'] else []).all isOrdinary = true := by
      cases b <;> decide
    have hslash : isOrdinary '\\' = true := by decide
    rw [writeDouble]
    dsimp only
    split
    · split <;> simp only [List.all_append, List.all_cons, all_escapeOf, all_newLine, hslash, hmark, ih, Bool.and_self]
    next hescaped =>
      have hc := isOrdinary_of_not_escaped (Bool.eq_false_iff.2 hescaped)
      have hstart : (if c = ' ' then ['\\'] else []).all isOrdinary = true := by
        split <;> decide
      split <;> simp only [List.all_append, List.all_cons, hc, all_newLine, hslash, hstart, ih, Bool.and_self]

theorem Wrote.all_ordinary {indent : Int} {written : List Char} {isPlain : Bool}
    (h : Wrote indent written text isPlain) : written.all isOrdinary = true := by
  cases h with
  | bare bare _ column =>
    exact all_writePlain (List.all_eq_true.2 fun c hc => isOrdinary_of_printable (bare.printable c hc)) column none
  | single ordinary _ column =>
    simp [all_writeSingle (List.all_eq_true.2 ordinary), show isOrdinary '\'' = true by decide]
  | double _ column =>
    simp [all_writeDouble, show isOrdinary '"' = true by decide]

theorem unifyLineEnds_of_ordinary (h : text.all isOrdinary = true) : unifyLineEnds text = text := by
  induction text with
  | nil => rfl
  | cons c text ih =>
    rw [List.all_cons, Bool.and_eq_true] at h
    have hc : c ≠ '\r' := by
      rintro rfl
      exact absurd h.1 (by decide)
    rw [unifyLineEnds, ih h.2]
    · exact fun _ hr => absurd hr hc
    · exact hc

theorem isAllowed_of_ordinary {c : Char} (h : isOrdinary c = true) : isAllowed c = true := by
  rw [isOrdinary, Bool.or_eq_true, beq_iff_eq, Bool.and_eq_true, decide_eq_true_eq, decide_eq_true_eq] at h
  obtain rfl | ⟨hlow, hhigh⟩ := h
  · decide
  · have hlow : 0x20 ≤ c.toNat := hlow
    have hhigh : c.toNat ≤ 0x7E := hhigh
    simp [isAllowed, hlow, hhigh]

/-- Nothing is done to a text of ordinary characters before its tokens are read. -/
theorem tokens_of_ordinary (h : text.all isOrdinary = true) :
    tokens text = (Scan.start text).run (text.length + 1) := by
  have hallowed : text.all isAllowed = true :=
    List.all_eq_true.2 fun c hc => isAllowed_of_ordinary (List.all_eq_true.1 h c hc)
  have hmark : dropOrderMark text = text := by
    unfold dropOrderMark
    split
    · exact absurd (List.all_eq_true.1 h _ List.mem_cons_self) (by decide)
    · rfl
  rw [tokens, unifyLineEnds_of_ordinary h]
  dsimp only
  rw [if_pos hallowed, hmark]

theorem all_of_isName {name : List Char} (h : isName name = true) : name.all isOrdinary = true := by
  simp only [isName, Bool.and_eq_true] at h
  exact List.all_eq_true.2 fun c hc => isOrdinary_of_printable (mem_of_isWord h.1.1.1 hc).1

end Ordinary

/-! ## Files -/

namespace Entry

variable {column : Nat} {block : List Entry}

theorem all_print {entry : Entry} (fits : entry.Fits column) : (entry.print column).all isOrdinary = true := by
  have hblanks : (List.replicate column ' ').all isOrdinary = true :=
    List.all_eq_true.2 fun c hc => List.eq_of_mem_replicate hc ▸ by decide
  have hmarks : [':', ' ', '\n'].all isOrdinary = true := by decide
  simp only [List.all_cons, List.all_nil, Bool.and_true, Bool.and_eq_true] at hmarks
  simp only [print, List.all_append, List.all_cons, List.all_nil, hblanks, all_of_isName fits.name,
    fits.wrote.all_ordinary, hmarks, Bool.and_self]

theorem all_prints (fits : ∀ entry ∈ block, entry.Fits column) :
    (block.flatMap (print column)).all isOrdinary = true := by
  rw [List.all_flatMap]
  exact List.all_eq_true.2 fun entry hentry => all_print (fits entry hentry)

theorem length_prints (column : Nat) (block : List Entry) :
    3 * block.length ≤ (block.flatMap (print column)).length := by
  induction block with
  | nil => exact Nat.le_refl _
  | cons entry block ih =>
    rw [List.flatMap_cons, List.length_append, List.length_cons, print]
    simp only [List.length_append, List.length_cons, List.length_nil]
    omega

end Entry

/-- **What is read of a file is what was written** into it. -/
theorem read_file {before inner after : List Entry} {name : List Char} {column : Nat} (hcolumn : 0 < column)
    (hname : isName name = true) (htext : Meaning.ofText name = .text)
    (hbefore : before ≠ []) (hinner : inner ≠ []) (hafter : after ≠ [])
    (fitsBefore : ∀ entry ∈ before, entry.Fits 0) (fitsInner : ∀ entry ∈ inner, entry.Fits column)
    (fitsAfter : ∀ entry ∈ after, entry.Fits 0) :
    read (Scan.fileText column before name inner after) =
      .ok (.mapping (before.map Entry.member ++
        (.string name, .mapping (inner.map Entry.member)) :: after.map Entry.member)) := by
  have hordinary : (Scan.fileText column before name inner after).all isOrdinary = true := by
    have hmarks : [':', '\n'].all isOrdinary = true := by decide
    simp only [List.all_cons, List.all_nil, Bool.and_true, Bool.and_eq_true] at hmarks
    simp only [Scan.fileText, List.all_append, List.all_cons, Entry.all_prints fitsBefore, Entry.all_prints fitsInner,
      Entry.all_prints fitsAfter, all_of_isName hname, hmarks, Bool.and_self]
  have hlength : 3 * after.length + 3 * inner.length + 2 + 3 * before.length ≤
      (Scan.fileText column before name inner after).length := by
    have hbefore := Entry.length_prints 0 before
    have hinner := Entry.length_prints column inner
    have hafter := Entry.length_prints 0 after
    simp only [Scan.fileText, List.length_append, List.length_cons]
    omega
  obtain ⟨fuel, hfuel⟩ := Nat.exists_eq_add_of_le' hlength
  have hblock : Value.ofNode (.mapping (inner.map Entry.node)) = .ok (.mapping (inner.map Entry.member)) := by
    rw [Value.ofNode, Value.ofEntries_block fitsInner]
    rfl
  have hmembers := Value.ofEntries_append fitsBefore
    (Value.ofEntries_cons htext rfl hblock (Value.ofEntries_block fitsAfter))
  rw [read, tokens_of_ordinary hordinary, hfuel, ← Nat.add_assoc, ← Nat.add_assoc, ← Nat.add_assoc,
    Scan.run_file hcolumn hname hbefore hinner hafter fitsBefore fitsInner fitsAfter fuel]
  change (Node.ofTokens _ >>= _) = _
  rw [Node.ofTokens_fileTokens]
  change (Value.ofEntries _).map Value.mapping = _
  rw [hmembers]
  rfl

end LanguageSessions.Yaml
