import LanguageSessions.Json.Fields
import LanguageSessions.Language
import LanguageSessions.Layer.Scripted

/-!
# Scripts

Scripts for the scripted layer, and changes to the known servers, as they are written in JSON. What a script leaves out
stays as it is.
-/

namespace LanguageSessions

/-- Reads how the requests of a method are answered. -/
def AutoReply.ofJson (data : Json) : AutoReply :=
  match Members.get? data.asMembers "result", Members.get? data.asMembers "error", data.get "raw" with
  | some value, _, _ => .result value
  | Option.none, some value, _ => .error value
  | Option.none, Option.none, .string text => .raw text
  | _, _, _ => .none

/-- Reads the result of a start. -/
def StartResult.ofJson (data : Json) : StartResult :=
  ⟨data.stringAt "session_id", data.flagAt "success", data.stringAt? "error"⟩

namespace ScriptedLayer

/-- Reads a table, one member after the other. -/
def table {α : Type} (read : Json → α) (data : Json) : Entries String α :=
  data.asMembers.map fun member => (member.1, read member.2)

/-- Takes over one field of a script; answers to requests are added to the ones there are. -/
def setField (layer : ScriptedLayer) (name : String) (value : Json) : ScriptedLayer :=
  match name with
  | "available" => { layer with available := table Json.isTruthy value }
  | "can_download" => { layer with canDownload := table Json.isTruthy value }
  | "download_url" => { layer with downloadUrl := value.asString? }
  | "fail_download" => { layer with failDownload := value.isTruthy }
  | "start_raises" => { layer with startRaises := table Json.asString value }
  | "start_results" => { layer with startResults := table StartResult.ofJson value }
  | "auto" =>
    { layer with
      replies := (table AutoReply.ofJson value).foldl (fun replies entry => replies.set entry.1 entry.2) layer.replies }
  | "fail_send" => { layer with failSend := value.asStrings }
  | "fail_stop" => { layer with failStop := value.isTruthy }
  | "hold_check" => { layer with holdCheck := value.isTruthy }
  | "hold_start" => { layer with holdStart := value.isTruthy }
  | "hold_send" => { layer with holdSend := value.asStrings }
  | _ => layer

/-- Takes over a script. -/
def follow (layer : ScriptedLayer) (script : Json) : ScriptedLayer :=
  script.asMembers.foldl (fun layer member => layer.setField member.1 member.2) layer

end ScriptedLayer

namespace Server

/-- Changes one field of a server. -/
def setField (server : Server) (name : String) (value : Json) : Server :=
  match name with
  | "name" => { server with name := value.asString }
  | "language_id" => { server with languageId := value.asString }
  | "file_extensions" => { server with fileExtensions := value.asStrings }
  | "command" => { server with command := value.asStrings }
  | "args" => { server with arguments := value.asStrings }
  | "initialization_options" => { server with initializationOptions := value.asMembers }
  | "settings" => { server with settings := value.asMembers }
  | "root_patterns" => { server with rootPatterns := value.asStrings }
  | "install_command" => { server with installCommand := value.asString? }
  | _ => server

/-- Changes fields of a server. -/
def change (server : Server) (fields : Json) : Server :=
  fields.asMembers.foldl (fun server member => server.setField member.1 member.2) server

end Server

/-- Reads servers from nothing but the fields that are given for them. -/
def Servers.ofJson (data : Json) : Servers :=
  data.asMembers.map fun member => (member.1, Server.change ⟨"", member.1, [], [], [], [], [], [], none⟩ member.2)

/-- Changes fields of known servers, language by language. -/
def Servers.change (servers : Servers) (changes : Json) : Servers :=
  servers.map fun entry => (entry.1, entry.2.change (changes.get entry.1))

end LanguageSessions
