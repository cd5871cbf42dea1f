import LanguageSessions.Json.Basic

/-!
# Reading JSON

A reader of JSON texts that also takes `NaN`, `Infinity` and `-Infinity`. Of two members with one key the later value
counts, in the place of the earlier one. A text can be refused for two reasons: it is not JSON, or an integer in it is
too long; the first fault met from the left decides.
-/

namespace LanguageSessions.Json

open Text

/-- Why a text was refused. -/
inductive ParseError where
  | notJson
  /-- An integer of more than `Numeral.maxDigits` digits. -/
  | longInteger
  deriving DecidableEq, Repr

/-- What is read, and the rest of the text. -/
abbrev Parsed (α : Type) := Except ParseError (α × List Char)

/-- Whether a character may stand between tokens. -/
def isGap (c : Char) : Bool := c == ' ' || c == '\t' || c == '\n' || c == '\r'

/-- Drops the characters between tokens. -/
def skipGap (text : List Char) : List Char := text.dropWhile isGap

/-! ## Numbers -/

/-- The sign, the digits before the point and the rest of a number; none where no number starts. -/
def takeWhole (text : List Char) : Option (Bool × List Nat × List Char) :=
  let (negative, body) :=
    match text with
    | '-' :: rest => (true, rest)
    | text => (false, text)
  match body with
  | '0' :: rest => some (negative, [0], rest)
  | body =>
    match Numeral.spanDigits body with
    | ([], _) => none
    | (digits, rest) => some (negative, digits, rest)

/-- The digits after a point, if a point with digits comes next. -/
def takeFraction (text : List Char) : Option (List Nat × List Char) :=
  match text with
  | '.' :: rest =>
    match Numeral.spanDigits rest with
    | ([], _) => none
    | found => some found
  | _ => none

/-- The exponent, if one with digits comes next. -/
def takeExponent (text : List Char) : Option (Int × List Char) :=
  match text with
  | e :: rest =>
    if e = 'e' ∨ e = 'E' then
      let (negative, digits) := Numeral.takeSign rest
      match Numeral.spanDigits digits with
      | ([], _) => none
      | (ds, rest) => some (if negative then -(ofDigits ds : Int) else (ofDigits ds : Int), rest)
    else none
  | [] => none

/-- Reads a number. -/
def number (text : List Char) : Parsed Json :=
  match takeWhole text with
  | none => .error .notJson
  | some (negative, whole, rest) =>
    let (fraction, afterFraction) := (takeFraction rest).getD ([], rest)
    let (exponent, afterExponent) := (takeExponent afterFraction).getD (0, afterFraction)
    if (takeFraction rest).isNone && (takeExponent afterFraction).isNone then
      if Numeral.maxDigits < whole.length then .error .longInteger
      else .ok (.int (if negative then -(ofDigits whole : Int) else (ofDigits whole : Int)), rest)
    else .ok (.float (Numeral.decimal negative whole fraction exponent), afterExponent)

/-! ## Strings -/

/-- Takes four hexadecimal digits. -/
def takeUnit : List Char → Option (Nat × List Char)
  | a :: b :: c :: d :: rest => do
    let a ← hexValue? a
    let b ← hexValue? b
    let c ← hexValue? c
    let d ← hexValue? d
    return (((a * 16 + b) * 16 + c) * 16 + d, rest)
  | _ => none

/-- Takes the second half of a pair of escapes that stand for one character. -/
def takeLowHalf : List Char → Option (Nat × List Char)
  | '\\' :: 'u' :: rest =>
    match takeUnit rest with
    | some (unit, rest) => if 0xDC00 ≤ unit ∧ unit < 0xE000 then some (unit, rest) else none
    | none => none
  | _ => none

/-- The character of a UTF-16 unit, with the second half of a pair if one follows. -/
def takeCharacter (unit : Nat) (rest : List Char) : Char × List Char :=
  if 0xD800 ≤ unit ∧ unit < 0xDC00 then
    match takeLowHalf rest with
    | some (low, rest) => (Char.ofNat (0x10000 + (unit - 0xD800) * 0x400 + (low - 0xDC00)), rest)
    | none => (Char.ofNat 0xFFFD, rest)
  else if 0xDC00 ≤ unit ∧ unit < 0xE000 then (Char.ofNat 0xFFFD, rest)
  else (Char.ofNat unit, rest)

/-- Takes what a backslash starts. -/
def takeEscape : List Char → Option (Char × List Char)
  | '"' :: rest => some ('"', rest)
  | '\\' :: rest => some ('\\', rest)
  | '/' :: rest => some ('/', rest)
  | 'b' :: rest => some ('\x08', rest)
  | 'f' :: rest => some ('\x0c', rest)
  | 'n' :: rest => some ('\n', rest)
  | 'r' :: rest => some ('\r', rest)
  | 't' :: rest => some ('\t', rest)
  | 'u' :: rest => (takeUnit rest).map fun (unit, rest) => takeCharacter unit rest
  | _ => none

/-- Puts a character in front of what is read after it. -/
def consCharacter (c : Char) : Parsed (List Char) → Parsed (List Char)
  | .ok (cs, rest) => .ok (c :: cs, rest)
  | .error e => .error e

/-- Reads the characters of a string up to the closing quote. -/
def characters : Nat → List Char → Parsed (List Char)
  | 0, _ => .error .notJson
  | _, [] => .error .notJson
  | fuel + 1, c :: rest =>
    if c = '"' then .ok ([], rest)
    else if c = '\\' then
      match takeEscape rest with
      | none => .error .notJson
      | some (c, rest) => consCharacter c (characters fuel rest)
    else if c.toNat < 0x20 then .error .notJson
    else consCharacter c (characters fuel rest)

/-! ## Values -/

/-- The words that stand for values. -/
def words : List (List Char × Json) :=
  [("null".toList, .null), ("true".toList, .bool true), ("false".toList, .bool false), ("NaN".toList, .float .nan),
   ("Infinity".toList, .float (.infinite false)), ("-Infinity".toList, .float (.infinite true))]

/-- The word that a text starts with. -/
def takeWord (text : List Char) : Option (Json × List Char) :=
  (words.find? fun word => word.1.isPrefixOf text).map fun word => (word.2, text.drop word.1.length)

mutual

/-- Reads a value. -/
def value : Nat → List Char → Parsed Json
  | 0, _ => .error .notJson
  | fuel + 1, text =>
    match text with
    | '"' :: rest =>
      match characters (rest.length + 1) rest with
      | .ok (cs, rest) => .ok (.string (String.ofList cs), rest)
      | .error e => .error e
    | '[' :: rest =>
      match skipGap rest with
      | ']' :: rest => .ok (.array [], rest)
      | rest =>
        match elements fuel rest with
        | .ok (items, rest) => .ok (.array items, rest)
        | .error e => .error e
    | '\x7b' :: rest =>
      match skipGap rest with
      | '\x7d' :: rest => .ok (.object [], rest)
      | rest =>
        match fields fuel [] rest with
        | .ok (members, rest) => .ok (.object members, rest)
        | .error e => .error e
    | text =>
      match takeWord text with
      | some found => .ok found
      | none => number text

/-- Reads the items of an array that has some, and the closing bracket. -/
def elements : Nat → List Char → Parsed (List Json)
  | 0, _ => .error .notJson
  | fuel + 1, text =>
    match value fuel text with
    | .error e => .error e
    | .ok (item, rest) =>
      match skipGap rest with
      | ',' :: rest =>
        match elements fuel (skipGap rest) with
        | .ok (items, rest) => .ok (item :: items, rest)
        | .error e => .error e
      | ']' :: rest => .ok ([item], rest)
      | _ => .error .notJson

/-- Reads the members of an object that has some, and the closing brace; `members` are those read before. -/
def fields : Nat → List (String × Json) → List Char → Parsed (List (String × Json))
  | 0, _, _ => .error .notJson
  | fuel + 1, members, text =>
    match text with
    | '"' :: rest =>
      match characters (rest.length + 1) rest with
      | .error e => .error e
      | .ok (key, rest) =>
        match skipGap rest with
        | ':' :: rest =>
          match value fuel (skipGap rest) with
          | .error e => .error e
          | .ok (item, rest) =>
            let members := Members.set members (String.ofList key) item
            match skipGap rest with
            | ',' :: rest => fields fuel members (skipGap rest)
            | '\x7d' :: rest => .ok (members, rest)
            | _ => .error .notJson
        | _ => .error .notJson
    | _ => .error .notJson

end

/-- Reads a whole text. -/
def parseList (text : List Char) : Except ParseError Json := do
  let (found, rest) ← value (text.length + 1) (skipGap text)
  if (skipGap rest).isEmpty then return found else .error .notJson

/-- Reads a whole text. -/
def parse (text : String) : Except ParseError Json := parseList text.toList

end LanguageSessions.Json
