import LanguageSessions.Fault
import LanguageSessions.Json.Parser
import LanguageSessions.Json.Printer

/-!
# Messages

The envelopes that requests and notifications travel in, and how the envelopes that come back are told apart: a text
with a method is a notification, one with an identifier and no method is a response, and every other one is refused.
-/

namespace LanguageSessions

/-- The identifier of a request. -/
inductive RequestId where
  | number (n : Int)
  | text (s : String)
  deriving DecidableEq, Repr

namespace RequestId

/-- An identifier as people read it. -/
def display : RequestId → String
  | .number n => String.ofList (Text.intDigits n)
  | .text s => s

/-- An identifier as a value. -/
def toJson : RequestId → Json
  | .number n => .int n
  | .text s => .string s

end RequestId

/-- A message that came in. -/
inductive Message where
  /-- The response to a request; `error` holds the members of its error, if it is one. -/
  | response (id : RequestId) (result : Json) (error : Option Members)
  /-- A notification, or a request of the server if it has an identifier. -/
  | notification (method : String) (params id : Json)

/-- Why a text is no message. -/
inductive DecodeError where
  | notJson
  | longInteger
  | notObject
  | methodKind
  | idKind
  | errorKind
  | shapeless
  deriving DecidableEq, Repr

namespace DecodeError

/-- The reason in words. -/
def reason : DecodeError → String
  | .notJson => "invalid JSON"
  | .longInteger => "integer too long"
  | .notObject => "not a JSON object"
  | .methodKind => "method is not a string"
  | .idKind => "id is neither a number nor a string"
  | .errorKind => "error is not an object"
  | .shapeless => "neither a response nor a notification"

/-- The fault that a refused text gives rise to. -/
def fault (raw : String) : DecodeError → Fault
  | .notJson => .notJson raw
  | .longInteger => .longInteger
  | error => .malformed raw error.reason

end DecodeError

namespace Message

/-! ## Sending -/

/-- The version of the protocol that envelopes state. -/
def version : Json := .string "2.0"

/-- The envelope of a request. -/
def request (id : Json) (method : String) (params : Json) : Json :=
  .object [("jsonrpc", version), ("id", id), ("method", .string method), ("params", params)]

/-- The envelope of a notification. -/
def notice (method : String) (params : Json) : Json :=
  .object [("jsonrpc", version), ("method", .string method), ("params", params)]

/-! ## Receiving -/

/-- Reads the members of an envelope without a method. -/
def responseOf (members : Members) (id : RequestId) : Except DecodeError Message :=
  let result := (members.get? "result").getD .null
  match (members.get? "error").getD .null with
  | .null => .ok (.response id result none)
  | .object error => .ok (.response id result (some error))
  | _ => .error .errorKind

/-- Reads the members of an envelope. -/
def ofMembers (members : Members) : Except DecodeError Message :=
  let id := (members.get? "id").getD .null
  match (members.get? "method").getD .null with
  | .string method => .ok (.notification method ((members.get? "params").getD .null) id)
  | .null =>
    match id with
    | .null => .error .shapeless
    | .int n => responseOf members (.number n)
    | .string s => responseOf members (.text s)
    | _ => .error .idKind
  | _ => .error .methodKind

/-- Reads an envelope. -/
def ofJson : Json → Except DecodeError Message
  | .object members => ofMembers members
  | _ => .error .notObject

/-- Reads the text of a message. -/
def decode (text : String) : Except DecodeError Message :=
  match Json.parse text with
  | .ok value => ofJson value
  | .error .notJson => .error .notJson
  | .error .longInteger => .error .longInteger

end Message

end LanguageSessions
