import LanguageSessions.Diagnostic.Visibility
import LanguageSessions.Number.Numeral

/-!
# Settings

What a user can set: whether servers are used, how long to wait for them, what the client says about itself, and which
diagnostics are kept. Settings are read from a value field by field; all faults are reported, in the order of the
fields.
-/

namespace LanguageSessions

open Text

/-- A time to wait, in seconds; infinity is one. -/
structure Timeout where
  seconds : Binary64
  positive : seconds.isPositive = true
  deriving DecidableEq

/-- What a user can set. -/
structure Settings where
  enabled : Bool
  requestTimeout : Timeout
  shutdownTimeout : Timeout
  clientName : String
  clientVersion : String
  diagnostics : Visibility
  deriving DecidableEq

/-- Why a field does not hold what it should. -/
inductive FieldFault where
  | boolParsing
  | boolType
  | floatParsing
  | floatType
  | notPositive
  | stringType
  | modelType
  deriving DecidableEq, Repr

namespace FieldFault

/-- The name of a fault. -/
def name : FieldFault → String
  | .boolParsing => "bool_parsing"
  | .boolType => "bool_type"
  | .floatParsing => "float_parsing"
  | .floatType => "float_type"
  | .notPositive => "greater_than"
  | .stringType => "string_type"
  | .modelType => "model_type"

end FieldFault

/-- Faults with the paths of the fields they were found in. -/
abbrev FieldFaults := List (String × FieldFault)

/-! ## Values of fields -/

namespace SettingField

/-- The flag that a word stands for. -/
def flagOfWord? (word : List Char) : Option Bool :=
  let word := String.ofList (lower word)
  if ["0", "off", "f", "false", "n", "no"].contains word then some false
  else if ["1", "on", "t", "true", "y", "yes"].contains word then some true
  else none

/-- The flag that a number stands for. -/
def flagOfInt (n : Int) : Except FieldFault Bool :=
  if n = 0 then .ok false else if n = 1 then .ok true else .error .boolParsing

/-- Reads a flag. -/
def flag : Json → Except FieldFault Bool
  | .bool b => .ok b
  | .int n => flagOfInt n
  | .float x =>
    match x.toInt? with
    | some n => flagOfInt n
    | none => .error .boolType
  | .string s =>
    match flagOfWord? s.toList with
    | some b => .ok b
    | none => .error .boolParsing
  | _ => .error .boolType

/-- A text without the underscores between its characters; none if one is at an end or next to another one. -/
def withoutUnderscores? (text : List Char) : Option (List Char) :=
  let pieces := splitOn '_' text
  if pieces.all fun piece => !piece.isEmpty then some pieces.flatten else none

/-- The number that a text writes. -/
def numberOfText? (text : List Char) : Option Binary64 :=
  match Numeral.float? (trim hasWhiteSpace text) with
  | some x => some x
  | none => (withoutUnderscores? text).bind fun text => Numeral.float? (trim hasWhiteSpace text)

/-- Reads a number. -/
def number : Json → Except FieldFault Binary64
  | .bool b => .ok (Binary64.ofRatio false (if b then 1 else 0) 1)
  | .int n =>
    match Binary64.ofInt? n with
    | some x => .ok x
    | none => .error .floatType
  | .float x => .ok x
  | .string s =>
    match numberOfText? s.toList with
    | some x => .ok x
    | none => .error .floatParsing
  | _ => .error .floatType

/-- Reads a time to wait. -/
def timeout (value : Json) : Except FieldFault Timeout := do
  let seconds ← number value
  if h : seconds.isPositive = true then .ok ⟨seconds, h⟩ else .error .notPositive

/-- Reads a text. -/
def text : Json → Except FieldFault String
  | .string s => .ok s
  | _ => .error .stringType

/-- Reads a field of an object, or takes what stands for it when it is left out. -/
def read {α : Type} (members : Members) (within name : String) (reader : Json → Except FieldFault α) (otherwise : α) :
    Except FieldFaults α :=
  match Members.get? members name with
  | none => .ok otherwise
  | some value =>
    match reader value with
    | .ok a => .ok a
    | .error fault => .error [(within ++ name, fault)]

/-- Applies a function that may be missing to a value that may be missing, and gathers the faults of both. -/
def gather {α β : Type} (f : Except FieldFaults (α → β)) (x : Except FieldFaults α) : Except FieldFaults β :=
  match f, x with
  | .ok f, .ok x => .ok (f x)
  | .error faults, .ok _ => .error faults
  | .ok _, .error faults => .error faults
  | .error faults, .error others => .error (faults ++ others)

end SettingField

open SettingField

namespace Visibility

/-- Reads which diagnostics are kept; fields that are left out keep the value they have in `base`. -/
def ofMembers (base : Visibility) (within : String) (members : Members) : Except FieldFaults Visibility :=
  gather (gather (gather (gather (gather (.ok Visibility.mk)
    (read members within "show_diagnostics" flag base.showDiagnostics))
    (read members within "show_errors" flag base.showErrors))
    (read members within "show_warnings" flag base.showWarnings))
    (read members within "show_info" flag base.showInfo))
    (read members within "show_hints" flag base.showHints)

/-- Reads which diagnostics are kept. -/
def ofJson (data : Json) : Except FieldFaults Visibility :=
  match data with
  | .object members => standard.ofMembers "" members
  | _ => .error [("", .modelType)]

end Visibility

namespace Settings

/-- Reads the field that says which diagnostics are kept. -/
def diagnosticsField (members : Members) : Except FieldFaults Visibility :=
  match Members.get? members "diagnostics" with
  | none => .ok Visibility.standard
  | some (.object members) => Visibility.standard.ofMembers "diagnostics." members
  | some _ => .error [("diagnostics", .modelType)]

/-- Thirty seconds, the time to wait for a response. -/
def standardRequestTimeout : Timeout := ⟨Binary64.ofRatio false 30 1, by decide +kernel⟩

/-- Five seconds, the time to wait as a server shuts down. -/
def standardShutdownTimeout : Timeout := ⟨Binary64.ofRatio false 5 1, by decide +kernel⟩

/-- The settings of a user who sets nothing. -/
def standard : Settings where
  enabled := true
  requestTimeout := standardRequestTimeout
  shutdownTimeout := standardShutdownTimeout
  clientName := "polyglot-lsp"
  clientVersion := "1.0.0"
  diagnostics := Visibility.standard

/-- Reads settings. -/
def ofJson (data : Json) : Except FieldFaults Settings :=
  match data with
  | .object members =>
    gather (gather (gather (gather (gather (gather (.ok Settings.mk)
      (read members "" "enabled" flag standard.enabled))
      (read members "" "request_timeout" timeout standard.requestTimeout))
      (read members "" "shutdown_timeout" timeout standard.shutdownTimeout))
      (read members "" "client_name" text standard.clientName))
      (read members "" "client_version" text standard.clientVersion))
      (diagnosticsField members)
  | _ => .error [("", .modelType)]

end Settings

end LanguageSessions
