import LanguageSessions.Client.Operation
import LanguageSessions.Json.Fields

/-!
# Scripts of operations

Operations, and what observers do, as they are written in JSON.
-/

namespace LanguageSessions

/-- Reads a position. -/
def Position.ofScript (data : Json) : Position := ⟨data.intAt "line", data.intAt "character"⟩

/-- Reads whether references come with the declaration; they do if it is not said. -/
def Query.withDeclaration (data : Json) : Bool :=
  match Members.get? data.asMembers "include_declaration" with
  | some value => value.isTruthy
  | none => true

/-- Reads an operation, if it is one. The numbers of bindings are found by name. -/
def Operation.ofScript? (bindings : Entries String Nat) (data : Json) : Option Operation :=
  let session := data.stringAt "session"
  let path := data.stringAt "path"
  let content := data.stringAt "text"
  let language := data.stringAt "language"
  let root := data.stringAt "root"
  let place := Position.ofScript data
  let bound := fun (operation : Nat → Operation) => (bindings.get? (data.stringAt "name")).map operation
  match data.stringAt "do" with
  | "init" => some (.enter .everything)
  | "dispose" => some (.close .everything)
  | "manager_init" => some (.enter .sessions)
  | "manager_dispose" => some (.close .sessions)
  | "context" => some (.visit .everything language root)
  | "manager_context" => some (.visit .sessions language root)
  | "start" => some (.start language root)
  | "stop" => some (.stop session)
  | "stop_all" => some .stopAll
  | "open" => some (.openDocument session path (data.stringAt "language_id") content)
  | "change" => some (.changeDocument session path content)
  | "close" => some (.closeDocument session path)
  | "request" => some (.request session (data.stringAt "method") (data.get "params") (data.millisAt? "timeout_ms"))
  | "notify" => some (.notify session (data.stringAt "method") (data.get "params"))
  | "hover" => some (.hover session path place)
  | "definition" => some (.definition session path place)
  | "references" => some (.references session path place (Query.withDeclaration data))
  | "symbols" => some (.symbols session path)
  | "server_status" => some (.inspect language)
  | "download" => some (.download language)
  | "lookup_definition" => some (.lookupDefinition path place)
  | "lookup_references" => some (.lookupReferences path place)
  | "b_connect" => bound .connect
  | "b_disconnect" => bound .disconnect
  | "b_open" => bound (.openBinding · content)
  | "b_update" => bound (.updateBinding · content)
  | "b_close" => bound .closeBinding
  | "b_hover" => bound (.bindingHover · place)
  | "b_definition" => bound (.bindingDefinition · place)
  | "b_references" => bound (.bindingReferences · place)
  | _ => none

/-- Reads an observer; one that ends a subscription ends its own if it is not said whose. -/
def Observer.ofScript (data : Json) : Observer :=
  let name := data.stringAt "name"
  ⟨name, if data.stringAt "kind" == "diagnostics" then .diagnostics else .notifications,
    match data.stringAt "behavior" with
    | "raise" => .fail
    | "unsubscribe" => .unsubscribe ((data.stringAt? "target").getD name)
    | _ => .listen⟩

end LanguageSessions
