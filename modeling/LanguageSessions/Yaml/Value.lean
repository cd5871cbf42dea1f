import LanguageSessions.Json.Basic
import LanguageSessions.Yaml.Node
import LanguageSessions.Yaml.Scalar

/-!
# Values of YAML

The value of a document, with the plain scalars read as what they stand for.
-/

namespace LanguageSessions.Yaml

/-- A value. -/
inductive Value where
  | null
  | bool (b : Bool)
  | int (n : Int)
  | float (x : Binary64)
  | string (s : List Char)
  | date
  | list (items : List Value)
  | mapping (entries : List (Value × Value))

namespace Value

/-- The value of a scalar. As a key the equals sign stands for itself. -/
def ofScalar (isKey : Bool) (text : List Char) (isPlain : Bool) : Except ReadError Value :=
  if !isPlain then .ok (.string text)
  else
    match Meaning.ofText text with
    | .null => .ok .null
    | .bool b => .ok (.bool b)
    | .int n => .ok (.int n)
    | .float x => .ok (.float x)
    | .date => .ok .date
    | .text => .ok (.string text)
    | .mark => if isKey ∧ text = ['='] then .ok (.string text) else .error .syntaxError
    | .invalid => .error .badValue

mutual

/-- The value of a node. -/
def ofNode : Node → Except ReadError Value
  | .scalar text isPlain => ofScalar false text isPlain
  | .list items => (ofNodes items).map .list
  | .mapping entries => (ofEntries entries).map .mapping

/-- The values of nodes. -/
def ofNodes : List Node → Except ReadError (List Value)
  | [] => .ok []
  | node :: nodes => do
    let value ← ofNode node
    return value :: (← ofNodes nodes)

/-- The entries of a mapping; a key has to be a scalar. -/
def ofEntries : List (Node × Node) → Except ReadError (List (Value × Value))
  | [] => .ok []
  | (key, node) :: entries => do
    let key ← ofKey key
    let value ← ofNode node
    return (key, value) :: (← ofEntries entries)

/-- The value of a key. -/
def ofKey : Node → Except ReadError Value
  | .scalar text isPlain => ofScalar true text isPlain
  | _ => .error .syntaxError

end

mutual

/-- A value as a JSON value. Keys that are no texts are dropped, and a date is as useless as an empty list. -/
def toJson : Value → Json
  | .null => .null
  | .bool b => .bool b
  | .int n => .int n
  | .float x => .float x
  | .string s => .string (String.ofList s)
  | .date => .array []
  | .list items => .array (toItems items)
  | .mapping entries => .object (toMembers [] entries)

/-- Values as JSON values. -/
def toItems : List Value → List Json
  | [] => []
  | value :: values => toJson value :: toItems values

/-- Entries as members behind those read before; of two entries with one key the later one counts. -/
def toMembers (members : Members) : List (Value × Value) → Members
  | [] => members
  | (.string key, value) :: entries => toMembers (Members.set members (String.ofList key) (toJson value)) entries
  | (_, _) :: entries => toMembers members entries

end

/-- Whether a value counts as no content. -/
def isBlank : Value → Bool
  | .null => true
  | .bool b => !b
  | .int n => n == 0
  | .float x => x.isNought
  | .string s => s.isEmpty
  | .date => false
  | .list items => items.isEmpty
  | .mapping entries => entries.isEmpty

end Value

/-- The value of a text; null if the text holds no document. -/
def read (text : List Char) : Except ReadError Value := do
  match ← Node.ofTokens (← tokens text) with
  | none => return .null
  | some node => Value.ofNode node

end LanguageSessions.Yaml
