import LanguageSessions.Number.Numeral
import LanguageSessions.Yaml.Basic

/-!
# Plain scalars as values

A plain scalar may stand for nothing, for a flag, for a number or for a date, by its form; otherwise it is a text.
Integers may have base two, eight, ten, sixteen or sixty; floating-point numbers have a point.
-/

namespace LanguageSessions.Yaml

open Text

/-- What a plain scalar stands for. -/
inductive Meaning where
  | null
  | bool (b : Bool)
  | int (n : Int)
  | float (x : Binary64)
  | date
  | text
  /-- A mark that stands for no value of its own. -/
  | mark
  /-- The form of a number or a date with a content that is none. -/
  | invalid
  deriving DecidableEq

namespace Meaning

/-! ## Integers -/

/-- Drops the underscores of a text. -/
def withoutUnderscores (text : List Char) : List Char := text.filter (· != '_')

/-- Whether a text is not empty and holds digits below `base` and underscores alone. -/
def areDigits (base : Nat) (text : List Char) : Bool :=
  !text.isEmpty && text.all fun c => c == '_' || match hexValue? c with | some d => d < base | none => false

/-- The number that digits write in a base, not counting underscores; none without a digit. -/
def ofDigits? (base : Nat) (text : List Char) : Option Nat :=
  match withoutUnderscores text with
  | [] => none
  | digits => some (digits.foldl (fun n c => n * base + (hexValue? c).getD 0) 0)

/-- The number that decimal digits write; none if there are too many of them. -/
def ofDecimal? (text : List Char) : Option Nat :=
  if Numeral.maxDigits < (withoutUnderscores text).length then none else ofDigits? 10 text

/-- Whether a text is a part of a number in base sixty. -/
def isSixtieth : List Char → Bool
  | [c] => isAsciiDigit c
  | [c, d] => '0' ≤ c && c ≤ '5' && isAsciiDigit d
  | _ => false

/-- Whether a text begins with a digit that is not nought. -/
def startsWithNonzero : List Char → Bool
  | c :: _ => '1' ≤ c && c ≤ '9'
  | [] => false

/-- The meaning of an integer with a sign; none of a number with bad digits. -/
def signedInt (negative : Bool) : Option Nat → Meaning
  | some n => .int (if negative then -(n : Int) else (n : Int))
  | none => .invalid

/-- The number whose parts are written in base sixty, given the first one and the others. -/
def ofSixtieths? (first : List Char) (others : List (List Char)) : Option Nat := do
  let first ← ofDecimal? first
  others.foldlM (fun n part => (ofDigits? 10 part).map (n * 60 + ·)) first

/-- The meaning of a text that has the form of an integer. -/
def int? (text : List Char) : Option Meaning :=
  let (negative, body) := Numeral.takeSign text
  match body with
  | ['0'] => some (.int 0)
  | '0' :: 'b' :: digits => if areDigits 2 digits then some (signedInt negative (ofDigits? 2 digits)) else none
  | '0' :: 'x' :: digits => if areDigits 16 digits then some (signedInt negative (ofDigits? 16 digits)) else none
  | '0' :: digits => if areDigits 8 digits then some (signedInt negative (ofDigits? 8 ('0' :: digits))) else none
  | body =>
    if startsWithNonzero body then
      match splitOn ':' body with
      | [digits] => if areDigits 10 digits then some (signedInt negative (ofDecimal? digits)) else none
      | first :: others =>
        if areDigits 10 first && others.all isSixtieth then some (signedInt negative (ofSixtieths? first others))
        else none
      | [] => none
    else none

/-! ## Floating-point numbers -/

/-- Whether a text is an exponent with its sign, or nothing. -/
def isExponent : List Char → Bool
  | [] => true
  | e :: sign :: digits =>
    (e == 'e' || e == 'E') && (sign == '+' || sign == '-') && !digits.isEmpty && digits.all isAsciiDigit
  | _ => false

/-- Whether a character is a decimal digit or an underscore. -/
def isDigitOrUnderscore (c : Char) : Bool := isAsciiDigit c || c == '_'

/-- Whether a text is a digit with digits and underscores behind it. -/
def isWhole : List Char → Bool
  | c :: rest => isAsciiDigit c && rest.all isDigitOrUnderscore
  | [] => false

/-- Whether a text has the form of a decimal number with a point. -/
def isDecimal (text : List Char) : Bool :=
  match text with
  | '.' :: rest =>
    let (fraction, exponent) := rest.span isDigitOrUnderscore
    isWhole fraction && isExponent exponent
  | text =>
    let (whole, rest) := (Numeral.takeSign text).2.span isDigitOrUnderscore
    match rest with
    | '.' :: rest => isWhole whole && isExponent (rest.dropWhile isDigitOrUnderscore)
    | _ => false

/-- Sixty times a magnitude and another one; none beyond the greatest magnitude. -/
def addMagnitudes? (a b : Magnitude) (factor : Nat) : Option Magnitude := do
  let (n, d) := b.ratio
  let product ← Magnitude.ofRatio? (n * factor) d
  let (n₁, d₁) := a.ratio
  let (n₂, d₂) := product.ratio
  Magnitude.ofRatio? (n₁ * d₂ + n₂ * d₁) (d₁ * d₂)

/-- The magnitude that decimal text writes. -/
def magnitude? (text : List Char) : Option Magnitude :=
  match Numeral.float? text with
  | some (.finite _ m) => some m
  | _ => none

/-- The sum of parts in base sixty, the last part first. -/
def sumSixtieths? (sum : Magnitude) (factor : Nat) : List (List Char) → Option Magnitude
  | [] => some sum
  | part :: parts => do
    let m ← magnitude? part
    let sum ← addMagnitudes? sum m factor
    sumSixtieths? sum (factor * 60) parts

/-- The meaning of a text that has the form of a floating-point number in base sixty. -/
def sexagesimal? (text : List Char) : Option Meaning :=
  let (negative, body) := Numeral.takeSign text
  let (before, after) := body.span (· != '.')
  match after with
  | '.' :: fraction =>
    match splitOn ':' before with
    | first :: part :: parts =>
      if isWhole first && (part :: parts).all isSixtieth && fraction.all isDigitOrUnderscore then
        let last := (part :: parts).getLastD [] ++ '.' :: withoutUnderscores fraction
        let pieces := last :: ((withoutUnderscores first :: part :: parts).dropLast).reverse
        match sumSixtieths? .nought 1 pieces with
        | some m => some (.float (.finite negative m))
        | none => some (.float (.infinite negative))
      else none
    | _ => none
  | _ => none

/-- The meaning of a text that has the form of a floating-point number. -/
def float? (text : List Char) : Option Meaning :=
  let (negative, body) := Numeral.takeSign text
  if [".inf", ".Inf", ".INF"].contains (String.ofList body) then some (.float (.infinite negative))
  else if [".nan", ".NaN", ".NAN"].contains (String.ofList text) then some (.float .nan)
  else if isDecimal text then (Numeral.float? (withoutUnderscores text)).map .float
  else sexagesimal? text

/-! ## Dates -/

/-- Takes one or two digits; two if `full`. -/
def takeTwo (full : Bool) : List Char → Option (Nat × List Char)
  | c :: d :: rest =>
    match asciiDigit? c, asciiDigit? d with
    | some a, some b => some (a * 10 + b, rest)
    | some a, none => if full then none else some (a, d :: rest)
    | none, _ => none
  | [c] => if full then none else (asciiDigit? c).map (·, [])
  | [] => none

/-- Takes a character. -/
def takeChar (c : Char) : List Char → Option (List Char)
  | d :: rest => if c = d then some rest else none
  | [] => none

/-- Whether there is such a day. -/
def isDay (year month day : Nat) : Bool :=
  let leap := year % 4 == 0 && (year % 100 != 0 || year % 400 == 0)
  let length := if month == 2 then (if leap then 29 else 28) else if [4, 6, 9, 11].contains month then 30 else 31
  1 ≤ year && 1 ≤ month && month ≤ 12 && 1 ≤ day && day ≤ length

/-- Reads the zone at the end of a time: whether it is a possible one. -/
def zone? (text : List Char) : Option Bool :=
  match text.dropWhile isGap with
  | [] => if text.isEmpty then some true else none
  | ['Z'] => some true
  | sign :: rest =>
    if sign = '+' ∨ sign = '-' then do
      let (hours, rest) ← takeTwo false rest
      match rest with
      | [] => some (hours < 24)
      | ':' :: rest =>
        match takeTwo true rest with
        | some (minutes, []) => some (hours * 60 + minutes < 24 * 60)
        | _ => none
      | _ => none
    else none

/-- Reads the time behind a date: whether it is a possible one. -/
def time? (text : List Char) : Option Bool := do
  let (hour, rest) ← takeTwo false text
  let (minute, rest) ← takeTwo true (← takeChar ':' rest)
  let (second, rest) ← takeTwo true (← takeChar ':' rest)
  let rest :=
    match rest with
    | '.' :: fraction => fraction.dropWhile isAsciiDigit
    | rest => rest
  let possible ← zone? rest
  return possible && hour < 24 && minute < 60 && second < 60

/-- Takes the gap between a date and a time. -/
def takeTimeMark : List Char → Option (List Char)
  | 'T' :: rest => some rest
  | 't' :: rest => some rest
  | c :: rest => if isGap c then some (rest.dropWhile isGap) else none
  | [] => none

/-- The meaning of a text that has the form of a date, with or without a time. -/
def date? (text : List Char) : Option Meaning := do
  let (century, rest) ← takeTwo true text
  let (year, rest) ← takeTwo true rest
  let year := century * 100 + year
  let rest ← takeChar '-' rest
  let (month, afterMonth) ← takeTwo false rest
  let (day, afterDay) ← takeTwo false (← takeChar '-' afterMonth)
  let meaning := fun (possible : Bool) => if possible && isDay year month day then Meaning.date else .invalid
  if afterDay.isEmpty then
    -- a date alone has two digits for the month and for the day
    if rest.length = 5 then return meaning true else none
  else
    let possible ← time? (← takeTimeMark afterDay)
    return meaning possible

/-! ## All forms -/

/-- The flag that a word stands for. -/
def bool? (word : String) : Option Meaning :=
  if ["yes", "Yes", "YES", "true", "True", "TRUE", "on", "On", "ON"].contains word then some (.bool true)
  else if ["no", "No", "NO", "false", "False", "FALSE", "off", "Off", "OFF"].contains word then some (.bool false)
  else none

/-- What a plain scalar stands for. -/
def ofText (text : List Char) : Meaning :=
  let word := String.ofList text
  if ["", "~", "null", "Null", "NULL"].contains word then .null
  else if word = "=" ∨ word = "<<" then .mark
  else ((((bool? word).or (float? text)).or (int? text)).or (date? text)).getD .text

end Meaning

end LanguageSessions.Yaml
