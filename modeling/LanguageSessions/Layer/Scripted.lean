import LanguageSessions.Entries
import LanguageSessions.Json.Parser
import LanguageSessions.Json.Printer
import LanguageSessions.Layer

/-!
# A scripted layer

A process layer without processes: a script says which servers there are, which calls fail or wait, and how each request
is answered. It keeps a record of what reached it.
-/

namespace LanguageSessions

/-- How requests of a method are answered. -/
inductive AutoReply where
  | none
  | result (value : Json)
  | error (value : Json)
  /-- With a text, in which the identifier of the request takes the place of `{id}`. -/
  | raw (text : String)

/-- What reached the layer. -/
inductive LayerEvent where
  | sent (session : String) (message : Json)
  | sendFailed (session : String) (method : Json)
  | started (language root : String)
  | stopped (session : String)
  | downloaded (language : String)

/-- The calls that a script can make wait. -/
inductive HeldCall where
  | check
  | start
  | send
  deriving DecidableEq, Repr

/-- A script, the calls that wait, and what reached the layer. -/
structure ScriptedLayer where
  /-- The languages of which it is said whether their servers can be run; all others can. -/
  available : Entries String Bool
  /-- The languages of which it is said whether their servers can be downloaded; no others can. -/
  canDownload : Entries String Bool
  downloadUrl : Option String
  failDownload : Bool
  /-- The languages whose servers cannot be reached, and why. -/
  startRaises : Entries String String
  /-- The languages for which the result of a start is laid down. -/
  startResults : Entries String StartResult
  /-- The answers to requests, by method. -/
  replies : Entries String AutoReply
  /-- The methods of the messages that cannot be handed over. -/
  failSend : List String
  failStop : Bool
  holdCheck : Bool
  holdStart : Bool
  /-- The methods of the messages whose handing over waits. -/
  holdSend : List String
  /-- The number of sessions that were given an identifier. -/
  started : Nat
  /-- The tickets of the calls that wait, in the order in which they began to. -/
  waiting : List (HeldCall × Nat)
  /-- What reached the layer, the oldest first. -/
  events : List LayerEvent

namespace ScriptedLayer

/-- A layer on which everything goes well. -/
def standard : ScriptedLayer where
  available := []
  canDownload := []
  downloadUrl := some "https://example.invalid/server.tar.gz"
  failDownload := false
  startRaises := []
  startResults := []
  replies :=
    [("initialize", .result (.object [("capabilities", .object [("hoverProvider", .bool true)])])),
     ("shutdown", .result .null)]
  failSend := []
  failStop := false
  holdCheck := false
  holdStart := false
  holdSend := []
  started := 0
  waiting := []
  events := []

/-! ## Parts of calls -/

/-- Takes note of what reached the layer. -/
def record (layer : ScriptedLayer) (event : LayerEvent) : ScriptedLayer :=
  { layer with events := layer.events ++ [event] }

/-- Makes a call wait. -/
def hold {α : Type} (layer : ScriptedLayer) (what : HeldCall) (ticket : Nat) : LayerStep ScriptedLayer α :=
  ⟨{ layer with waiting := layer.waiting ++ [(what, ticket)] }, .waits, []⟩

/-- Whether the server of a language can be run. -/
def isAvailable (layer : ScriptedLayer) (language : String) : Bool := (layer.available.get? language).getD true

/-- What is known about the server of a language. -/
def availability (layer : ScriptedLayer) (language : String) : Availability where
  available := layer.isAvailable language
  installed := layer.isAvailable language
  canDownload := (layer.canDownload.get? language).getD false
  installPath := none
  downloadUrl := layer.downloadUrl

/-- The identifier of the next session for a language. -/
def nextSession (layer : ScriptedLayer) (language : String) : String :=
  language ++ "-" ++ String.ofList (Text.natDigits (layer.started + 1))

/-- Starts a server. -/
def startServer (layer : ScriptedLayer) (language : String) : LayerStep ScriptedLayer StartResult :=
  match layer.startRaises.get? language with
  | some text => ⟨layer, .raises (.connection text), []⟩
  | none =>
    match layer.startResults.get? language with
    | some result => ⟨layer, .returns result, []⟩
    | none =>
      ⟨{ layer with started := layer.started + 1 }, .returns ⟨layer.nextSession language, true, none⟩, []⟩

/-- Downloads a server. -/
def downloadServer (layer : ScriptedLayer) (language : String) : LayerStep ScriptedLayer String :=
  let layer := layer.record (.downloaded language)
  if layer.failDownload then ⟨layer, .raises (.serverUnavailable language none), []⟩
  else
    ⟨{ layer with available := layer.available.set language true }, .returns ("/opt/servers/" ++ language), []⟩

/-- Stops a server. -/
def stopServer (layer : ScriptedLayer) (session : String) : LayerStep ScriptedLayer Unit :=
  let layer := layer.record (.stopped session)
  if layer.failStop then ⟨layer, .raises (.connection "already dead"), []⟩ else ⟨layer, .returns (), []⟩

/-! ## Messages -/

/-- A member of a message, or null. -/
def member (message : Json) (key : String) : Json :=
  match message with
  | .object members => (Members.get? members key).getD .null
  | _ => .null

/-- The method of a message. -/
def methodOf (message : Json) : String :=
  match member message "method" with
  | .string method => method
  | _ => ""

/-- The message that a text writes. -/
def messageOf (text : String) : Json :=
  match Json.parse text with
  | .ok message => message
  | .error _ => .null

/-- The placeholder for the identifier of a request. -/
def placeholder : List Char := ['\x7b', 'i', 'd', '\x7d']

/-- A text with another one in place of each placeholder, the next `skip` characters of which are passed over. -/
def fillIn (id : List Char) (skip : Nat) : List Char → List Char
  | [] => []
  | c :: rest =>
    match skip with
    | skip + 1 => fillIn id skip rest
    | 0 =>
      if placeholder.isPrefixOf (c :: rest) then id ++ fillIn id (placeholder.length - 1) rest
      else c :: fillIn id 0 rest

/-- The text of an answer to a request. -/
def replyText (id : Json) : AutoReply → Option String
  | .none => Option.none
  | .result value => some (Json.print (.object [("jsonrpc", .string "2.0"), ("id", id), ("result", value)]))
  | .error value => some (Json.print (.object [("jsonrpc", .string "2.0"), ("id", id), ("error", value)]))
  | .raw text => some (String.ofList (fillIn id.display.toList 0 text.toList))

/-- The answers to a message: none unless it is a request. -/
def answers (layer : ScriptedLayer) (session : String) (message : Json) : List Delivery :=
  match member message "id" with
  | .null => []
  | id =>
    match (layer.replies.get? (methodOf message)).bind (replyText id) with
    | some text => [⟨session, text⟩]
    | Option.none => []

/-- The end of handing over a message. -/
def sendEnd (layer : ScriptedLayer) (session text : String) : LayerStep ScriptedLayer Unit :=
  ⟨layer, .returns (), layer.answers session (messageOf text)⟩

/-- Hands over a message. -/
def sendMessage (layer : ScriptedLayer) (ticket : Nat) (session text : String) : LayerStep ScriptedLayer Unit :=
  let message := messageOf text
  if layer.failSend.contains (methodOf message) then
    ⟨layer.record (.sendFailed session (member message "method")), .raises (.connection "pipe closed"), []⟩
  else
    let layer := layer.record (.sent session message)
    if layer.holdSend.contains (methodOf message) then layer.hold .send ticket else layer.sendEnd session text

/-! ## The layer -/

/-- Makes a call. -/
def call (layer : ScriptedLayer) (ticket : Nat) : (call : LayerCall) → LayerStep ScriptedLayer call.Answer
  | .check language =>
    if layer.holdCheck then layer.hold .check ticket else ⟨layer, .returns (layer.isAvailable language), []⟩
  | .inspect language => ⟨layer, .returns (layer.availability language), []⟩
  | .download language => layer.downloadServer language
  | .start language root =>
    let layer := layer.record (.started language root)
    if layer.holdStart then layer.hold .start ticket else layer.startServer language
  | .stop session => layer.stopServer session
  | .send session text => layer.sendMessage ticket session text

/-- Goes on with a call that waited. -/
def resume (layer : ScriptedLayer) (_ticket : Nat) : (call : LayerCall) → LayerStep ScriptedLayer call.Answer
  | .check language => ⟨layer, .returns (layer.isAvailable language), []⟩
  | .inspect language => ⟨layer, .returns (layer.availability language), []⟩
  | .download language => layer.downloadServer language
  | .start language _ => layer.startServer language
  | .stop session => layer.stopServer session
  | .send session text => layer.sendEnd session text

/-- The process layer that follows a script. -/
def layer : Layer ScriptedLayer := ⟨ScriptedLayer.call, ScriptedLayer.resume⟩

/-- Lets the waiting calls of a kind go on: the layer then, and their tickets in order. -/
def release (layer : ScriptedLayer) (what : HeldCall) : ScriptedLayer × List Nat :=
  let (free, waiting) := layer.waiting.partition fun entry => entry.1 == what
  ({ layer with waiting }, free.map Prod.snd)

end ScriptedLayer

end LanguageSessions
