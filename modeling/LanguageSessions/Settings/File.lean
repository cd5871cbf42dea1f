import LanguageSessions.Settings.Basic
import LanguageSessions.Yaml.Printer
import LanguageSessions.Yaml.Value

/-!
# The settings file

Settings are kept in a YAML file, one line for each field in the order of the names. What is left out of the file, or
the file itself, is taken as it is in the standard settings.
-/

namespace LanguageSessions

/-- Why a settings file was refused. -/
inductive SettingsError where
  | unreadable (e : Yaml.ReadError)
  /-- The file holds something, but no mapping. -/
  | notMapping
  | invalid (faults : FieldFaults)
  deriving DecidableEq, Repr

namespace Settings

/-- The settings in the content of a file. -/
def ofContent (content : List Char) : Except SettingsError Settings :=
  match Yaml.read content with
  | .error e => .error (.unreadable e)
  | .ok value =>
    if value.isBlank then .ok standard
    else
      match value with
      | .mapping _ =>
        match ofJson value.toJson with
        | .ok settings => .ok settings
        | .error faults => .error (.invalid faults)
      | _ => .error .notMapping

/-- The settings in a file that may be missing. -/
def ofFile (content : Option String) : Except SettingsError Settings :=
  match content with
  | none => .ok standard
  | some content => ofContent content.toList

/-- A line with a field. -/
def line (indent : Nat) (name : String) (value : List Char) : List Char :=
  List.replicate indent ' ' ++ name.toList ++ ':' :: ' ' :: value ++ ['\n']

/-- A line with a field that holds a text. -/
def textLine (name text : String) : List Char := line 0 name (Yaml.writeText (name.length + 2) text.toList)

/-- A line with a field that holds a flag. -/
def boolLine (indent : Nat) (name : String) (b : Bool) : List Char := line indent name (Yaml.writeBool b)

/-- A line with a field that holds a number. -/
def floatLine (name : String) (x : Binary64) : List Char := line 0 name (Yaml.writeFloat x)

/-- The content of a file with the settings. -/
def toContent (settings : Settings) : List Char :=
  textLine "client_name" settings.clientName
    ++ textLine "client_version" settings.clientVersion
    ++ "diagnostics:\n".toList
    ++ boolLine 2 "show_diagnostics" settings.diagnostics.showDiagnostics
    ++ boolLine 2 "show_errors" settings.diagnostics.showErrors
    ++ boolLine 2 "show_hints" settings.diagnostics.showHints
    ++ boolLine 2 "show_info" settings.diagnostics.showInfo
    ++ boolLine 2 "show_warnings" settings.diagnostics.showWarnings
    ++ boolLine 0 "enabled" settings.enabled
    ++ floatLine "request_timeout" settings.requestTimeout.seconds
    ++ floatLine "shutdown_timeout" settings.shutdownTimeout.seconds

/-- Whether the file written for settings reads back as them. -/
def survivesFile (settings : Settings) : Bool :=
  match ofContent settings.toContent with
  | .ok found => found == settings
  | .error _ => false

end Settings

end LanguageSessions
