import LanguageSessions.Proofs.Frame.Chunks
import LanguageSessions.Proofs.Number.Numeral
import LanguageSessions.Proofs.Text.Utf8

/-!
# Streams of blocks

A stream that was put together from blocks is taken apart into the same blocks. A `Block` is a frame, whose header
lines state the length of its body, or header lines that state no usable length.

- The end of the header lines is found behind the last line (`splitHeader_octets`), and the lines are read as they were
  written (`lines_headerText`).
- So the front of a stream is the whole first block (`front_octets_append`), whatever its body contains, and reading
  goes on at the next one (`drain_blocks`, `blocks_are_read_back`).
-/

namespace LanguageSessions.Frame

open Text

/-! ## Header lines -/

/-- The end of a header line. -/
def lineEnd : List Char := ['\r', '\n']

/-- Header lines: at least one, none of them empty, of the printable characters of ASCII. -/
structure IsHeader (header : List (List Char)) : Prop where
  ne_nil : header ≠ []
  line_ne_nil : ∀ line ∈ header, line ≠ []
  printable : ∀ line ∈ header, ∀ c ∈ line, ' ' ≤ c ∧ c ≤ '~'

/-- The length that the first header line to state one states, as it is written there. -/
def lengthText? (header : List (List Char)) : Option (List Char) :=
  (header.find? statesLength).map (·.drop lengthName.length)

/-- The octets of header lines and their end. -/
def headerOctets (header : List (List Char)) : List UInt8 := ascii (joinWith lineEnd header) ++ headerEnd

theorem IsHeader.tail {line other : List Char} {header : List (List Char)} (h : IsHeader (line :: other :: header)) :
    IsHeader (other :: header) where
  ne_nil := List.cons_ne_nil _ _
  line_ne_nil l hl := h.line_ne_nil l (List.mem_cons_of_mem _ hl)
  printable l hl := h.printable l (List.mem_cons_of_mem _ hl)

theorem toNat_of_printable {c : Char} (h : ' ' ≤ c ∧ c ≤ '~') : 32 ≤ c.toNat ∧ c.toNat ≤ 126 := h

/-- The octet of a printable character is below the octets of other scripts, and ends no line. -/
theorem toNat_octet {c : Char} (h : ' ' ≤ c ∧ c ≤ '~') : (UInt8.ofNat c.toNat).toNat = c.toNat := by
  have := toNat_of_printable h
  exact Utf8.toNat_ofNat_of_lt (by omega)

theorem octet_ne {c : Char} (h : ' ' ≤ c ∧ c ≤ '~') : UInt8.ofNat c.toNat ≠ 13 := by
  intro he
  have hn := toNat_octet h
  rw [he] at hn
  have := toNat_of_printable h
  have h13 : (13 : UInt8).toNat = 13 := rfl
  omega

theorem char_ne {c : Char} (h : ' ' ≤ c ∧ c ≤ '~') : c ≠ '\r' := by
  rintro rfl
  exact absurd (toNat_of_printable h).1 (by decide)

theorem ascii_append (text more : List Char) : ascii (text ++ more) = ascii text ++ ascii more := List.map_append

theorem joinWith_cons_cons (line other : List Char) (header : List (List Char)) :
    joinWith lineEnd (line :: other :: header) = line ++ ('\r' :: '\n' :: joinWith lineEnd (other :: header)) := by
  rw [joinWith, List.append_assoc]
  · rfl
  · nofun

/-! ## The end of the header lines -/

/-- Octets that do not begin the end of a line are passed over. -/
theorem splitHeader_append_left {octets : List UInt8} (h : ∀ octet ∈ octets, octet ≠ 13) (rest : List UInt8) :
    splitHeader (octets ++ rest) = (splitHeader rest).map fun parts => (octets ++ parts.1, parts.2) := by
  induction octets with
  | nil => rw [List.nil_append]; cases splitHeader rest <;> rfl
  | cons octet octets ih =>
    have hne := h octet List.mem_cons_self
    rw [List.cons_append, splitHeader, ih fun o ho => h o (List.mem_cons_of_mem _ ho), Option.map_map]
    · rfl
    · intro rest' ho
      exact absurd ho hne

/-- An end of line that another line comes behind is passed over. -/
theorem splitHeader_lineEnd {octet : UInt8} {rest : List UInt8} (h : octet ≠ 13) :
    splitHeader (13 :: 10 :: octet :: rest) =
      (splitHeader (octet :: rest)).map fun parts => (13 :: 10 :: parts.1, parts.2) := by
  rw [splitHeader]
  · have hten : ∀ octet ∈ [(10 : UInt8)], octet ≠ 13 := by simp
    have hrest := splitHeader_append_left hten (octet :: rest)
    rw [List.singleton_append] at hrest
    rw [hrest, Option.map_map]
    rfl
  · intro rest' _ hr
    exact h (List.cons.inj (List.cons.inj hr).2).1

/-- **The end of the header lines is found behind the last one.** -/
theorem splitHeader_octets : ∀ {header : List (List Char)} (body : List UInt8), IsHeader header →
    splitHeader (headerOctets header ++ body) = some (ascii (joinWith lineEnd header), body)
  | [], _, h => absurd rfl h.ne_nil
  | [line], body, h => by
    have hl : ∀ octet ∈ ascii line, octet ≠ 13 := fun octet ho => by
      obtain ⟨c, hc, rfl⟩ := List.mem_map.1 ho
      exact octet_ne (h.printable line List.mem_cons_self c hc)
    rw [headerOctets, joinWith, List.append_assoc, splitHeader_append_left hl]
    simp [headerEnd, splitHeader]
  | line :: other :: header, body, h => by
    have hl : ∀ octet ∈ ascii line, octet ≠ 13 := fun octet ho => by
      obtain ⟨c, hc, rfl⟩ := List.mem_map.1 ho
      exact octet_ne (h.printable line List.mem_cons_self c hc)
    have ih := splitHeader_octets body h.tail
    -- The next line is not empty, so its first octet keeps the two line ends apart.
    obtain ⟨octet, rest, ho, hne⟩ : ∃ octet rest, headerOctets (other :: header) ++ body = octet :: rest ∧
        octet ≠ 13 := by
      obtain ⟨c, text, hother⟩ := List.exists_cons_of_ne_nil
        (h.line_ne_nil other (List.mem_cons_of_mem _ List.mem_cons_self))
      have hc := h.printable other (List.mem_cons_of_mem _ List.mem_cons_self) c (hother ▸ List.mem_cons_self)
      cases header with
      | nil => exact ⟨_, _, by rw [headerOctets, joinWith, hother]; rfl, octet_ne hc⟩
      | cons third header => exact ⟨_, _, by rw [headerOctets, joinWith_cons_cons, hother]; rfl, octet_ne hc⟩
    have hs : headerOctets (line :: other :: header) ++ body = ascii line ++ (13 :: 10 :: octet :: rest) := by
      rw [← ho, headerOctets, headerOctets, joinWith_cons_cons, ascii_append, List.append_assoc, List.append_assoc,
        List.append_assoc]
      rfl
    rw [hs, splitHeader_append_left hl, splitHeader_lineEnd hne, ← ho, ih, joinWith_cons_cons, ascii_append]
    rfl

/-! ## The header lines are read back -/

theorem headerText_ascii {text : List Char} (h : ∀ c ∈ text, c.toNat < 0x80) : headerText (ascii text) = text := by
  rw [headerText, ascii, List.map_map]
  refine (List.map_congr_left fun c hc => ?_).trans (List.map_id text)
  have hlt := h c hc
  have hn : (UInt8.ofNat c.toNat).toNat = c.toNat := Utf8.toNat_ofNat_of_lt (by omega)
  have ho : UInt8.ofNat c.toNat < 0x80 := by
    rw [UInt8.lt_iff_toNat_lt, hn]
    exact hlt
  simp only [Function.comp_apply, ho, if_true, hn, Char.ofNat_toNat, id]

theorem lines_of_line {line : List Char} (h : ∀ c ∈ line, c ≠ '\r') : lines line = [line] := by
  induction line with
  | nil => rfl
  | cons c line ih =>
    rw [lines, ih fun d hd => h d (List.mem_cons_of_mem _ hd)]
    · intro rest hc
      exact absurd hc (h c List.mem_cons_self)

theorem lines_append {line rest : List Char} (h : ∀ c ∈ line, c ≠ '\r') :
    lines (line ++ ('\r' :: '\n' :: rest)) = line :: lines rest := by
  induction line with
  | nil => rfl
  | cons c line ih =>
    rw [List.cons_append, lines, ih fun d hd => h d (List.mem_cons_of_mem _ hd)]
    · intro rest hc
      exact absurd hc (h c List.mem_cons_self)

theorem lines_joinWith : ∀ {header : List (List Char)}, IsHeader header → lines (joinWith lineEnd header) = header
  | [], h => absurd rfl h.ne_nil
  | [line], h => lines_of_line fun c hc => char_ne (h.printable line List.mem_cons_self c hc)
  | line :: other :: header, h => by
    rw [joinWith_cons_cons, lines_append fun c hc => char_ne (h.printable line List.mem_cons_self c hc),
      lines_joinWith h.tail]

theorem toNat_lt_of_mem_joinWith : ∀ {header : List (List Char)}, IsHeader header →
    ∀ c ∈ joinWith lineEnd header, c.toNat < 0x80
  | [], h => absurd rfl h.ne_nil
  | [line], h => fun c hc => by
    have := toNat_of_printable (h.printable line List.mem_cons_self c hc)
    omega
  | line :: other :: header, h => fun c hc => by
    rw [joinWith_cons_cons] at hc
    rcases List.mem_append.1 hc with hc | hc
    · have := toNat_of_printable (h.printable line List.mem_cons_self c hc)
      omega
    rcases List.mem_cons.1 hc with rfl | hc
    · decide
    rcases List.mem_cons.1 hc with rfl | hc
    · decide
    · exact toNat_lt_of_mem_joinWith h.tail c hc

/-- **Header lines are read as they were written.** -/
theorem lines_headerText {header : List (List Char)} (h : IsHeader header) :
    lines (headerText (ascii (joinWith lineEnd header))) = header := by
  rw [headerText_ascii (toNat_lt_of_mem_joinWith h), lines_joinWith h]

/-- The length that header lines state is the numeral in the first line to state one. -/
theorem statedLength_eq {header : List (List Char)} (h : IsHeader header) :
    statedLength (ascii (joinWith lineEnd header)) =
      (lengthText? header).bind fun value => Numeral.integer? (trim isBlank value) := by
  rw [statedLength, lines_headerText h, lengthText?]
  cases header.find? statesLength <;> rfl

/-! ## Blocks -/

/-- What a stream is put together from. -/
inductive Block where
  /-- Header lines and the text that comes behind them. -/
  | frame (header : List (List Char)) (text : List Char)
  /-- Header lines that nothing belongs to. -/
  | unusable (header : List (List Char))

/-- The octets of a block. -/
def Block.octets : Block → List UInt8
  | .frame header text => headerOctets header ++ Utf8.encode text
  | .unusable header => headerOctets header

/-- The text of a block, if it has one. -/
def Block.text? : Block → Option (List Char)
  | .frame _ text => some text
  | .unusable _ => none

/-- The header lines of a frame state the number of octets of its text, which is not empty; those of an unusable block
state no length, none that is an integer, or none above zero. -/
def Block.WellFormed : Block → Prop
  | .frame header text => IsHeader header ∧ text ≠ [] ∧ ∃ value, lengthText? header = some value ∧
      Numeral.integer? (trim isBlank value) = some ((Utf8.encode text).length : Int)
  | .unusable header => IsHeader header ∧ ∀ value length, lengthText? header = some value →
      Numeral.integer? (trim isBlank value) = some length → length ≤ 0

/-- The front of a stream that begins with a block, as it is to be read. -/
def Block.front (rest : List UInt8) : Block → Front
  | .frame _ text => .frame text rest
  | .unusable _ => .unusable rest

theorem frontOf_of_length {header body : List UInt8} {length : Nat} (h : statedLength header = some (length : Int))
    (hpos : 0 < length) (hle : length ≤ body.length) :
    frontOf header body = .frame (Utf8.decode (body.take length)) (body.drop length) := by
  obtain ⟨length, rfl⟩ := Nat.exists_eq_add_of_lt hpos
  have hl : statedLength header = some (.ofNat (length + 1)) := by
    rw [h, Nat.zero_add]
    rfl
  rw [frontOf, hl, Nat.zero_add] at *
  exact if_neg (by omega)

theorem frontOf_of_no_length {header body : List UInt8} (h : ∀ length, statedLength header = some length → length ≤ 0) :
    frontOf header body = .unusable body := by
  rw [frontOf]
  split
  · next length hl =>
    have := h _ hl
    exact absurd this (by simp)
  · rfl

/-- **The front of a stream is its first block.** -/
theorem front_octets_append {block : Block} (h : block.WellFormed) (rest : List UInt8) :
    Frame.front (block.octets ++ rest) = block.front rest := by
  cases block with
  | frame header text =>
    obtain ⟨hh, hne, value, hv, hn⟩ := h
    have hl : statedLength (ascii (joinWith lineEnd header)) = some ((Utf8.encode text).length : Int) := by
      rw [statedLength_eq hh, hv]
      exact hn
    have hpos : 0 < (Utf8.encode text).length := List.length_pos_iff.2 (mt Utf8.encode_eq_nil_iff.1 hne)
    rw [Block.octets, List.append_assoc, front_of_splitHeader (splitHeader_octets _ hh),
      frontOf_of_length hl hpos (by rw [List.length_append]; omega), List.take_left', List.drop_left',
      Utf8.decode_encode]
    · rfl
    · rfl
    · rfl
  | unusable header =>
    obtain ⟨hh, hn⟩ := h
    rw [Block.octets, front_of_splitHeader (splitHeader_octets _ hh)]
    refine frontOf_of_no_length fun length hl => ?_
    rw [statedLength_eq hh] at hl
    obtain ⟨value, hv, hl⟩ := Option.bind_eq_some_iff.1 hl
    exact hn value length hv hl

/-- The texts of the frames are read, each once and in their order, and nothing is left. -/
theorem drain_blocks : ∀ {blocks : List Block}, (∀ block ∈ blocks, block.WellFormed) →
    drain (blocks.flatMap Block.octets) = (blocks.filterMap Block.text?, [])
  | [], _ => drain_of_partly rfl
  | block :: blocks, h => by
    have ih := drain_blocks fun b hb => h b (List.mem_cons_of_mem _ hb)
    have hf := front_octets_append (h block List.mem_cons_self) (blocks.flatMap Block.octets)
    rw [List.flatMap_cons]
    cases block with
    | frame header text =>
      rw [drain_of_frame hf, ih]
      rfl
    | unusable header =>
      rw [drain_of_unusable hf, ih]
      rfl

/-! ## Blocks that are well-formed -/

/-- A frame whose header lines state the length of its body in decimal, with blanks around it or without. -/
theorem wellFormed_of_decimal {header : List (List Char)} {text : List Char} (before after : List Char)
    (hh : IsHeader header)
    (hne : text ≠ []) (hv : lengthText? header = some (before ++ natDigits (Utf8.encode text).length ++ after))
    (hb : ∀ c ∈ before, isBlank c = true) (ha : ∀ c ∈ after, isBlank c = true)
    (hl : (natDigits (Utf8.encode text).length).length ≤ Numeral.maxDigits) : (Block.frame header text).WellFormed :=
  ⟨hh, hne, _, hv, Numeral.integer?_natDigits hb ha hl⟩

/-- The frame that is written of a text, as a block. -/
def Block.ofText (text : List Char) : Block :=
  .frame ["Content-Length: ".toList ++ natDigits (Utf8.encode text).length] text

theorem octets_ofText (text : List Char) : (Block.ofText text).octets = encode text := rfl

theorem printable_digitChar : ∀ d < 10, ' ' ≤ digitChar d ∧ digitChar d ≤ '~' := by decide

theorem statesLength_append (text : List Char) : statesLength ("Content-Length: ".toList ++ text) = true := by
  rw [statesLength, lower, List.map_append, startsWith, List.isPrefixOf_iff_prefix]
  exact ⟨' ' :: text.map Char.toLower, rfl⟩

/-- What is written of a text is a well-formed frame. -/
theorem wellFormed_ofText {text : List Char} (hne : text ≠ [])
    (hl : (natDigits (Utf8.encode text).length).length ≤ Numeral.maxDigits) : (Block.ofText text).WellFormed := by
  have hp : ∀ c ∈ "Content-Length: ".toList, ' ' ≤ c ∧ c ≤ '~' := by simp
  have hh : IsHeader ["Content-Length: ".toList ++ natDigits (Utf8.encode text).length] := by
    refine ⟨List.cons_ne_nil _ _, fun line hm => ?_, fun line hm c hc => ?_⟩
    · rw [List.mem_singleton.1 hm]
      exact List.append_ne_nil_of_right_ne_nil _ (natDigits_ne_nil _)
    · rw [List.mem_singleton.1 hm] at hc
      rcases List.mem_append.1 hc with hc | hc
      · exact hp c hc
      · exact forall_mem_natDigits (P := fun c => ' ' ≤ c ∧ c ≤ '~') printable_digitChar _ c hc
  have hblank : ∀ c ∈ [' '], isBlank c = true := by
    intro c hc
    rw [List.mem_singleton.1 hc]
    rfl
  refine wellFormed_of_decimal [' '] [] hh hne ?_ hblank nofun hl
  rw [lengthText?, List.find?_cons_of_pos (statesLength_append _), List.append_nil]
  rfl

/-- What is written of a text is read from the front of a stream. -/
theorem read_encode_append {text : List Char} (hne : text ≠ [])
    (hl : (natDigits (Utf8.encode text).length).length ≤ Numeral.maxDigits) (rest : List UInt8) :
    read (encode text ++ rest) = (some text, rest) := by
  rw [read, ← octets_ofText, front_octets_append (wellFormed_ofText hne hl)]
  rfl

/-- **A stream of blocks is read as what was put into it**, in whatever chunks it arrives: the texts of its frames, each
once and in their order, and nothing is left over. Header lines that state the length in decimal make a frame, and so
does what is written of a text. -/
theorem blocks_are_read_back {blocks : List Block} {chunks : List (List UInt8)} (h : ∀ block ∈ blocks, block.WellFormed)
    (hc : chunks.flatten = blocks.flatMap Block.octets) :
    readChunks [] chunks = (blocks.filterMap Block.text?, []) ∧
      ((∀ chunk ∈ chunks, chunk ≠ []) → readStream chunks = blocks.filterMap Block.text?) ∧
      (∀ header text before after, IsHeader header → text ≠ [] →
        lengthText? header = some (before ++ natDigits (Utf8.encode text).length ++ after) →
        (∀ c ∈ before, isBlank c = true) → (∀ c ∈ after, isBlank c = true) →
        (natDigits (Utf8.encode text).length).length ≤ Numeral.maxDigits → (Block.frame header text).WellFormed) ∧
      ∀ text, text ≠ [] → (natDigits (Utf8.encode text).length).length ≤ Numeral.maxDigits →
        ∃ header, (Block.frame header text).WellFormed ∧ (Block.frame header text).octets = encode text := by
  refine ⟨?_, fun hne => ?_, fun header text before after hh hne hv hb ha hl => ?_, fun text hne hl => ?_⟩
  · rw [readChunks_nil, hc, drain_blocks h]
  · rw [readStream_eq hne, hc, drain_blocks h]
  · exact wellFormed_of_decimal _ _ hh hne hv hb ha hl
  · exact ⟨_, wellFormed_ofText hne hl, octets_ofText text⟩

/-- A header without a length, and behind it a frame whose body looks like the end of header lines. -/
theorem body_like_a_header :
    readChunks [] [[65, 58, 13, 10, 13, 10], [67, 111, 110, 116, 101, 110, 116, 45, 76, 69, 78, 71, 84, 72, 58, 32, 53,
      13, 10, 13, 10, 13, 10, 13, 10, 65]] = ([['\r', '\n', '\r', '\n', 'A']], []) := by
  have h : ∀ block ∈ [Block.unusable [['A', ':']],
      .frame ["Content-LENGTH: 5".toList] ['\r', '\n', '\r', '\n', 'A']], block.WellFormed := by
    intro block hb
    rcases List.mem_cons.1 hb with rfl | hb
    · exact ⟨⟨by simp, by simp, by simp⟩, fun value length hv => by cases hv⟩
    · rw [List.mem_singleton.1 hb]
      exact ⟨⟨by simp, by simp, by simp⟩, by simp, [' ', '5'], by rfl, by decide⟩
  exact (blocks_are_read_back h (by decide)).1

end LanguageSessions.Frame
