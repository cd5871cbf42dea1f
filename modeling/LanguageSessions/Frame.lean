import LanguageSessions.Number.Numeral
import LanguageSessions.Text.Utf8

/-!
# Frames

Messages travel as frames: header lines, an empty line, and a body whose length in octets a header states. A header
block that states no usable length is dropped, and reading goes on behind it.
-/

namespace LanguageSessions.Frame

open Text

/-! ## Writing -/

/-- The octets of characters of ASCII. -/
def ascii (text : List Char) : List UInt8 := text.map fun c => UInt8.ofNat c.toNat

/-- The end of the header lines. -/
def headerEnd : List UInt8 := [13, 10, 13, 10]

/-- The frame of a text. -/
def encode (text : List Char) : List UInt8 :=
  let body := Utf8.encode text
  ascii ("Content-Length: ".toList ++ natDigits body.length) ++ headerEnd ++ body

/-! ## Reading the header -/

/-- What stands before the first end of header lines, and what comes behind it. -/
def splitHeader : List UInt8 → Option (List UInt8 × List UInt8)
  | 13 :: 10 :: 13 :: 10 :: rest => some ([], rest)
  | [] => none
  | octet :: rest => (splitHeader rest).map fun (header, body) => (octet :: header, body)

/-- The characters of a header; an octet outside ASCII is replaced. -/
def headerText (header : List UInt8) : List Char :=
  header.map fun octet => if octet < 0x80 then Char.ofNat octet.toNat else Utf8.replacement

/-- The lines of a header. -/
def lines : List Char → List (List Char)
  | [] => [[]]
  | '\r' :: '\n' :: rest => [] :: lines rest
  | c :: rest =>
    match lines rest with
    | [] => [[c]]
    | line :: others => (c :: line) :: others

/-- The name of the header that states the length of the body, with its colon. -/
def lengthName : List Char := "content-length:".toList

/-- Whether a line states the length of the body. -/
def statesLength (line : List Char) : Bool := startsWith lengthName (lower line)

/-- The length that the first line to state one states. -/
def statedLength (header : List UInt8) : Option Int := do
  let line ← (lines (headerText header)).find? statesLength
  Numeral.integer? (trim isBlank (line.drop lengthName.length))

/-! ## Reading frames -/

/-- What stands at the front of a stream. -/
inductive Front where
  /-- Nothing that can be read yet. -/
  | partly
  /-- A header block without a usable length. -/
  | unusable (rest : List UInt8)
  /-- A frame. -/
  | frame (text : List Char) (rest : List UInt8)

/-- What a header block and what comes behind it stand for. -/
def frontOf (header body : List UInt8) : Front :=
  match statedLength header with
  | some (.ofNat (length + 1)) =>
    if body.length < length + 1 then .partly
    else .frame (Utf8.decode (body.take (length + 1))) (body.drop (length + 1))
  | _ => .unusable body

/-- Reads the front of a stream. -/
def front (stream : List UInt8) : Front :=
  match splitHeader stream with
  | none => .partly
  | some (header, body) => frontOf header body

/-- What comes behind the end of header lines is shorter than the whole. -/
theorem length_of_splitHeader {stream header body : List UInt8} (h : splitHeader stream = some (header, body)) :
    body.length < stream.length := by
  induction stream using splitHeader.induct generalizing header with
  | case1 rest =>
    simp only [splitHeader, Option.some.injEq, Prod.mk.injEq] at h
    simp [← h.2]; omega
  | case2 => simp [splitHeader] at h
  | case3 octet rest hne ih =>
    rw [splitHeader] at h
    · obtain ⟨⟨header', body'⟩, h', heq⟩ := Option.map_eq_some_iff.1 h
      simp only [Prod.mk.injEq] at heq
      have := @ih header' (heq.2 ▸ h')
      simp only [List.length_cons]; omega
    · exact hne

/-- Behind an unusable header block the stream is shorter. -/
theorem length_of_unusable {stream rest : List UInt8} (h : front stream = .unusable rest) :
    rest.length < stream.length := by
  unfold front at h
  split at h
  · simp at h
  · next header body hs =>
    have := length_of_splitHeader hs
    unfold frontOf at h
    split at h
    · split at h <;> simp at h
    · simp only [Front.unusable.injEq] at h
      exact h ▸ this

/-- Behind a frame the stream is shorter. -/
theorem length_of_frame {stream rest : List UInt8} {text : List Char} (h : front stream = .frame text rest) :
    rest.length < stream.length := by
  unfold front at h
  split at h
  · simp at h
  · next header body hs =>
    have := length_of_splitHeader hs
    unfold frontOf at h
    split at h
    · split at h
      · simp at h
      · simp only [Front.frame.injEq] at h
        have := congrArg List.length h.2
        simp only [List.length_drop] at this
        omega
    · simp at h

/-- The texts of all frames that can be read from the front of a stream, and what is left of it. -/
def drain (stream : List UInt8) : List (List Char) × List UInt8 :=
  match _h : front stream with
  | .partly => ([], stream)
  | .unusable rest => drain rest
  | .frame text rest =>
    let (texts, left) := drain rest
    (text :: texts, left)
  termination_by stream.length
  decreasing_by
  · exact length_of_unusable _h
  · exact length_of_frame _h

/-- Reads chunks one after the other, beginning with what is left of earlier ones. -/
def readChunks (left : List UInt8) : List (List UInt8) → List (List Char) × List UInt8
  | [] => ([], left)
  | chunk :: chunks =>
    let (texts, left) := drain (left ++ chunk)
    let (others, left) := readChunks left chunks
    (texts ++ others, left)

/-- The texts that come out of a stream; it ends with its first empty chunk. -/
def readStream (chunks : List (List UInt8)) : List (List Char) :=
  (readChunks [] (chunks.takeWhile fun chunk => !chunk.isEmpty)).1

end LanguageSessions.Frame
