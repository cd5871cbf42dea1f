/-!
# UTF-8

Texts are lists of characters and streams are lists of octets. `encode` writes a text as octets; `decode` reads any
octets, one at a time and without looking ahead, putting U+FFFD for each maximal piece that cannot be part of a
well-formed character.
-/

namespace LanguageSessions.Text.Utf8

/-! ## Writing -/

/-- The octet that carries the six lowest bits of `code` after the first octet of a character. -/
def tail (code : Nat) : UInt8 := UInt8.ofNat (0x80 + code % 64)

/-- The octets of a code point. -/
def encodeCode (code : Nat) : List UInt8 :=
  if code < 0x80 then [UInt8.ofNat code]
  else if code < 0x800 then [UInt8.ofNat (0xC0 + code / 64), tail code]
  else if code < 0x10000 then [UInt8.ofNat (0xE0 + code / 4096), tail (code / 64), tail code]
  else [UInt8.ofNat (0xF0 + code / 262144), tail (code / 4096), tail (code / 64), tail code]

/-- The octets of a text. -/
def encode (text : List Char) : List UInt8 :=
  text.flatMap fun c => encodeCode c.toNat

/-! ## Reading -/

/-- Put in place of a piece that is not part of a well-formed character. -/
def replacement : Char := Char.ofNat 0xFFFD

/-- Where the reader stands: between characters, or inside one with `owed + 1` octets to come, the bits read so far,
and the bounds of the next octet. -/
inductive State where
  | between
  | inside (owed : Nat) (bits : Nat) (low high : Nat)
  deriving DecidableEq, Repr

/-- Reads the first octet of a character. -/
def first (octet : Nat) : List Char × State :=
  if octet < 0x80 then ([Char.ofNat octet], .between)
  else if octet < 0xC2 then ([replacement], .between)
  else if octet < 0xE0 then ([], .inside 0 (octet - 0xC0) 0x80 0xBF)
  else if octet = 0xE0 then ([], .inside 1 0 0xA0 0xBF)
  else if octet = 0xED then ([], .inside 1 0xD 0x80 0x9F)
  else if octet < 0xF0 then ([], .inside 1 (octet - 0xE0) 0x80 0xBF)
  else if octet = 0xF0 then ([], .inside 2 0 0x90 0xBF)
  else if octet < 0xF4 then ([], .inside 2 (octet - 0xF0) 0x80 0xBF)
  else if octet = 0xF4 then ([], .inside 2 4 0x80 0x8F)
  else ([replacement], .between)

/-- Reads one octet: the characters it completes or spoils, and where the reader stands after it. -/
def step (state : State) (octet : UInt8) : List Char × State :=
  match state with
  | .between => first octet.toNat
  | .inside owed bits low high =>
    if low ≤ octet.toNat ∧ octet.toNat ≤ high then
      let bits := bits * 64 + (octet.toNat - 0x80)
      match owed with
      | 0 => ([Char.ofNat bits], .between)
      | owed + 1 => ([], .inside owed bits 0x80 0xBF)
    else
      let (written, next) := first octet.toNat
      (replacement :: written, next)

/-- What is still written when the octets end. -/
def State.flush : State → List Char
  | .between => []
  | .inside .. => [replacement]

/-- Reads octets from a state. -/
def run : State → List UInt8 → List Char
  | state, [] => state.flush
  | state, octet :: rest =>
    let (written, next) := step state octet
    written ++ run next rest

/-- The text of any octets. -/
def decode (octets : List UInt8) : List Char := run .between octets

end LanguageSessions.Text.Utf8
