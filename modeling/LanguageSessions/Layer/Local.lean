import LanguageSessions.Entries
import LanguageSessions.Frame
import LanguageSessions.Language
import LanguageSessions.Layer
import LanguageSessions.Log
import LanguageSessions.Text.Quoted

/-!
# The local layer

A process layer that runs the known servers as processes of the machine it is on. Messages go to a process as frames,
and what it writes is read as frames. The machine is described by a `Host`, which tells what there is to run and what a
program does with its input.
-/

namespace LanguageSessions

open Text

/-- What a program does with its input. -/
inductive Program where
  /-- It writes what it reads, and ends with its input. -/
  | echo
  /-- It pays no attention to its input, and has to be killed. -/
  | idle
  deriving DecidableEq, Repr

namespace Program

/-- What a program writes after it was given octets. -/
def output (program : Program) (input : List UInt8) : List UInt8 :=
  match program with
  | .echo => input
  | .idle => []

/-- The exit code of a program that is stopped: its own one, or that of a process that was killed. -/
def exitCode : Program → Int
  | .echo => 0
  | .idle => -9

end Program

/-- What stands at a path of a machine. -/
inductive HostFile where
  | directory
  /-- A file that cannot be run. -/
  | plain
  | program (program : Program)
  deriving DecidableEq, Repr

/-- A machine: what stands at which path. -/
abbrev Host := Entries String HostFile

namespace Host

/-- The program at a path. -/
def program? (host : Host) (path : String) : Option Program :=
  match host.get? path with
  | some (.program program) => some program
  | _ => none

/-- The error of a path at which nothing stands. -/
def missing (path : String) : String :=
  String.ofList ("[Errno 2] No such file or directory: ".toList ++ quoted path.toList)

/-- The error of a file that cannot be run. -/
def forbidden (path : String) : String :=
  String.ofList ("[Errno 13] Permission denied: ".toList ++ quoted path.toList)

/-- The program that a command runs in a directory, or why it cannot be run. -/
def run (host : Host) (command directory : String) : Except String Program :=
  if !host.has directory then .error (missing directory)
  else
    match host.get? command with
    | none => .error (missing command)
    | some (.program program) => .ok program
    | some _ => .error (forbidden command)

end Host

/-- A process: its program, and what was read of its output but is no whole frame yet. -/
structure RunningProcess where
  program : Program
  unread : List UInt8
  deriving DecidableEq, Repr

/-- The processes of servers on a machine. -/
structure LocalLayer where
  host : Host
  servers : Servers
  /-- The number of starts that were tried. -/
  started : Nat
  running : Entries String RunningProcess
  /-- The exit codes of the processes that were stopped. -/
  ended : Entries String Int
  log : Log

namespace LocalLayer

/-- No processes. -/
def new (host : Host) (servers : Servers) : LocalLayer := ⟨host, servers, 0, [], [], []⟩

/-- The command that runs a server. -/
def commandOf (server : Server) : String := server.command.headD ""

/-- Logs an entry. -/
def report (layer : LocalLayer) (entry : LogEntry) : LocalLayer := { layer with log := layer.log ++ [entry] }

/-- The path of the server of a language, if there is a program there. -/
def installPath? (layer : LocalLayer) (language : String) : Option String :=
  ((layer.servers.get? language).map commandOf).filter fun command => (layer.host.program? command).isSome

/-- What is known about the server of a language. -/
def availability (layer : LocalLayer) (language : String) : Availability where
  available := (layer.installPath? language).isSome
  installed := (layer.installPath? language).isSome
  canDownload := false
  installPath := layer.installPath? language
  downloadUrl := none

/-- Starts a server in a directory. -/
def startServer (layer : LocalLayer) (language root : String) : LocalLayer × StartResult :=
  match layer.servers.get? language with
  | none => (layer, ⟨"", false, some ("No server configuration for " ++ language)⟩)
  | some server =>
    let number := layer.started + 1
    let words := (server.command ++ server.arguments).map String.toList
    let layer :=
      { layer with started := number }.report
        (.info (String.ofList ("Starting LSP server: ".toList ++ joinWith [' '] words)))
    match layer.host.run (commandOf server) root with
    | .error text =>
      (layer.report (.error ("LSP server not found: " ++ commandOf server)), ⟨"", false, some text⟩)
    | .ok program =>
      let session := language ++ "-" ++ String.ofList (natDigits number)
      ({ layer with running := layer.running.set session ⟨program, []⟩ }, ⟨session, true, none⟩)

/-- Stops the process of a session, if there is one. -/
def stopServer (layer : LocalLayer) (session : String) : LocalLayer :=
  match layer.running.get? session with
  | none => layer
  | some process =>
    { layer with
      running := layer.running.erase session, ended := layer.ended.set session process.program.exitCode }

/-- Hands a message to the process of a session; what the process writes is read at once. -/
def sendMessage (layer : LocalLayer) (session text : String) : LayerStep LocalLayer Unit :=
  match layer.running.get? session with
  | none => ⟨layer, .raises (.connection ("No running server for session " ++ session)), []⟩
  | some process =>
    let written := process.program.output (Frame.encode text.toList)
    let (texts, unread) := Frame.drain (process.unread ++ written)
    ⟨{ layer with running := layer.running.set session { process with unread } }, .returns (),
      texts.map fun text => ⟨session, String.ofList text⟩⟩

/-- Makes a call. -/
def call (layer : LocalLayer) (_ticket : Nat) : (call : LayerCall) → LayerStep LocalLayer call.Answer
  | .check language => ⟨layer, .returns (layer.installPath? language).isSome, []⟩
  | .inspect language => ⟨layer, .returns (layer.availability language), []⟩
  | .download language =>
    ⟨layer, .raises (.serverUnavailable language ((layer.servers.get? language).bind (·.installCommand))), []⟩
  | .start language root =>
    let (layer, result) := layer.startServer language root
    ⟨layer, .returns result, []⟩
  | .stop session => ⟨layer.stopServer session, .returns (), []⟩
  | .send session text => layer.sendMessage session text

/-- The process layer of a machine; its calls never wait. -/
def layer : Layer LocalLayer := ⟨LocalLayer.call, LocalLayer.call⟩

/-- The sessions with a process, in the order of their characters. -/
def sessions (layer : LocalLayer) : List String := layer.running.keys.mergeSort fun a b => decide (a ≤ b)

end LocalLayer

end LanguageSessions
