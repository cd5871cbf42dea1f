/-!
# Blanks

The characters with the Unicode property White_Space, together with the four separators U+001C to U+001F, and the
removal of blanks at the ends of a text.
-/

namespace LanguageSessions.Text

/-- Whether a character has the property White_Space. -/
def hasWhiteSpace (c : Char) : Bool :=
  let n := c.toNat
  (9 ≤ n && n ≤ 13) || n == 32 || n == 0x85 || n == 0xA0 || n == 0x1680 || (0x2000 ≤ n && n ≤ 0x200A)
    || n == 0x2028 || n == 0x2029 || n == 0x202F || n == 0x205F || n == 0x3000

/-- Whether a character is blank: white space or a separator. -/
def isBlank (c : Char) : Bool := hasWhiteSpace c || (28 ≤ c.toNat && c.toNat ≤ 31)

/-- Drops the characters in a class from the end of a text. -/
def dropEndWhile (p : Char → Bool) (text : List Char) : List Char :=
  (text.reverse.dropWhile p).reverse

/-- Drops the characters in a class from both ends of a text. -/
def trim (p : Char → Bool) (text : List Char) : List Char :=
  dropEndWhile p (text.dropWhile p)

/-- The pieces between the characters equal to `separator`; a text without one is its only piece. -/
def splitOn (separator : Char) : List Char → List (List Char)
  | [] => [[]]
  | c :: rest =>
    if c = separator then [] :: splitOn separator rest
    else
      match splitOn separator rest with
      | [] => [[c]]
      | piece :: pieces => (c :: piece) :: pieces

/-- Puts `separator` between the pieces. -/
def joinWith (separator : List Char) : List (List Char) → List Char
  | [] => []
  | [piece] => piece
  | piece :: pieces => piece ++ separator ++ joinWith separator pieces

/-- The lower-case form of the letters A to Z. Capitals of other scripts are kept as they are, and so are the Kelvin
sign and the dotted capital I, whose lower-case forms begin with letters from a to z: words and names written with any
of them are looked up in vain. -/
def lower (text : List Char) : List Char := text.map Char.toLower

/-- Whether the text begins with `start`. -/
def startsWith (start text : List Char) : Bool := start.isPrefixOf text

end LanguageSessions.Text
