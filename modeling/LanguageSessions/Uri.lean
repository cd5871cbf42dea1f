import LanguageSessions.Text.Digit
import LanguageSessions.Text.Utf8
import LanguageSessions.Path

/-!
# File URIs

`Uri.ofPath` writes the path of a file as a `file` URI, percent-encoding the octets of all characters but a safe set;
`Uri.toPath` reads such a URI back. A path may be that of a drive, which gets a slash in front inside a URI. Texts that
carry a scheme of their own pass through `ofPath`, and texts that are no `file` URIs pass through `toPath`.
-/

namespace LanguageSessions.Uri

open Text

/-! ## Classes of characters -/

/-- Whether a character is a letter of ASCII. -/
def isLetter (c : Char) : Bool := ('a' ≤ c && c ≤ 'z') || ('A' ≤ c && c ≤ 'Z')

/-- Whether a character may stand in a scheme after its first letter. -/
def isSchemeChar (c : Char) : Bool := isLetter c || isAsciiDigit c || c == '+' || c == '.' || c == '-'

/-- Whether a text begins with a scheme, which has two characters at least, so that a drive is none. -/
def hasScheme : List Char → Bool
  | first :: second :: rest =>
    isLetter first && isSchemeChar second && (rest.dropWhile isSchemeChar).head? == some ':'
  | _ => false

/-- Whether a path begins with a drive and a slash. -/
def hasDrive : List Char → Bool
  | letter :: ':' :: '/' :: _ => isLetter letter
  | _ => false

/-- Whether an octet stands for itself in a URI. -/
def isSafe (octet : UInt8) : Bool :=
  let c := Char.ofNat octet.toNat
  octet < 0x80 && (isLetter c || isAsciiDigit c || "_.-~/:@&=+$,;!*'()".toList.contains c)

/-! ## Percent-encoding -/

/-- An octet in a URI. -/
def encodeOctet (octet : UInt8) : List Char :=
  if isSafe octet then [Char.ofNat octet.toNat] else '%' :: upperHexDigits 2 octet.toNat

/-- A text in a URI. -/
def encode (text : List Char) : List Char := (Utf8.encode text).flatMap encodeOctet

/-- The octet that two hexadecimal digits write. -/
def octet? (high low : Char) : Option UInt8 := do
  let high ← hexValue? high
  let low ← hexValue? low
  return UInt8.ofNat (high * 16 + low)

/-- Decodes a text from a state of the reader of octets. A character outside ASCII ends the run of octets before it,
and a percent sign without two digits after it stands for itself. -/
def decodeFrom (state : Utf8.State) : List Char → List Char
  | [] => state.flush
  | '%' :: high :: low :: rest =>
    match octet? high low with
    | some octet =>
      let (written, state) := Utf8.step state octet
      written ++ decodeFrom state rest
    | none =>
      let (written, state) := Utf8.step state 0x25
      written ++ decodeFrom state (high :: low :: rest)
  | c :: rest =>
    if c.toNat < 0x80 then
      let (written, state) := Utf8.step state (UInt8.ofNat c.toNat)
      written ++ decodeFrom state rest
    else state.flush ++ c :: decodeFrom .between rest

/-- The text that a part of a URI stands for. -/
def decode (text : List Char) : List Char := decodeFrom .between text

/-! ## Paths and URIs -/

/-- What every URI of a file begins with. -/
def fileScheme : List Char := "file://".toList

/-- Puts a slash in front of a drive. -/
def rootDrive (path : List Char) : List Char := if hasDrive path then '/' :: path else path

/-- Takes the slash away from the front of a drive. -/
def unrootDrive : List Char → List Char
  | '/' :: letter :: ':' :: rest => if isLetter letter then letter :: ':' :: rest else '/' :: letter :: ':' :: rest
  | path => path

/-- The URI of a path. -/
def ofPathList (path : List Char) : List Char :=
  if hasScheme path then path else fileScheme ++ encode (rootDrive (Path.forwardSlashes path))

/-- The path of a URI. -/
def toPathList (uri : List Char) : List Char :=
  if startsWith fileScheme uri then unrootDrive (decode (uri.drop fileScheme.length)) else uri

/-- The URI of a path. -/
def ofPath (path : String) : String := String.ofList (ofPathList path.toList)

/-- The path of a URI. -/
def toPath (uri : String) : String := String.ofList (toPathList uri.toList)

end LanguageSessions.Uri
