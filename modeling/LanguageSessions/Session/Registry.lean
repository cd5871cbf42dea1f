import LanguageSessions.Session.Basic

/-!
# The registry of sessions

Every session keeps the number it got when it was added, also after it has left the registry or another session has
taken its identifier. The registry finds sessions by identifier, in the order in which the identifiers were added.
-/

namespace LanguageSessions

/-- All sessions there ever were, and the registered ones by identifier. -/
structure SessionRegistry where
  /-- The sessions by number. -/
  sessions : List Session
  /-- The numbers of the registered sessions. -/
  numbers : Entries String Nat

namespace SessionRegistry

/-- No sessions. -/
def empty : SessionRegistry := ⟨[], []⟩

/-- The identifiers of the registered sessions. -/
def ids (registry : SessionRegistry) : List String := registry.numbers.keys

/-- The session with a number. -/
def session? (registry : SessionRegistry) (number : Nat) : Option Session := registry.sessions[number]?

/-- The number of the session registered under an identifier. -/
def number? (registry : SessionRegistry) (id : String) : Option Nat := registry.numbers.get? id

/-- The session registered under an identifier. -/
def get? (registry : SessionRegistry) (id : String) : Option Session := (registry.number? id).bind registry.session?

/-- Whether a session is registered under an identifier. -/
def has (registry : SessionRegistry) (id : String) : Bool := registry.numbers.has id

/-- The registered sessions. -/
def registered (registry : SessionRegistry) : List Session := registry.numbers.values.filterMap registry.session?

/-- Registers a session in place of one with the same identifier. -/
def add (registry : SessionRegistry) (session : Session) : SessionRegistry where
  sessions := registry.sessions ++ [session]
  numbers := registry.numbers.set session.id registry.sessions.length

/-- Changes the session with a number. -/
def modify (registry : SessionRegistry) (number : Nat) (f : Session → Session) : SessionRegistry :=
  { registry with sessions := registry.sessions.modify number f }

/-- Takes a session out of the registry; it forgets its documents. -/
def remove (registry : SessionRegistry) (id : String) : SessionRegistry :=
  match registry.number? id with
  | none => registry
  | some number => { registry.modify number Session.closeAll with numbers := registry.numbers.erase id }

/-- The first registered session that is live for a language and a root. -/
def find? (registry : SessionRegistry) (language root : String) : Option Session :=
  registry.registered.find? fun session =>
    session.language == language && session.root == root && session.stage.isLive

end SessionRegistry

end LanguageSessions
