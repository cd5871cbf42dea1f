import LanguageSessions.Client.Document

/-!
# Queries

What can be asked about a place in a document. A query that fails answers nothing in place of the fault. The places of a
definition and references are also found for files without a session of their own, by way of the routes.
-/

namespace LanguageSessions

/-- What is asked, or looked up by way of the routes. -/
inductive Query where
  | hover
  | definition
  | references
  | symbols
  | lookupDefinition
  | lookupReferences
  deriving DecidableEq, Repr

/-- A query on its way. -/
structure QueryPhase where
  query : Query
  request : RequestPhase
  deriving DecidableEq, Repr

/-- What a query waits for. -/
def QueryPhase.signal (phase : QueryPhase) : Signal := phase.request.signal

namespace Query

/-- Reads the places in a result; null means none. -/
def placesOf (read : Json → Except ConversionError (Option (List Location))) (result : Json) : Except Fault Answer :=
  match result with
  | .null => .ok (.locations none)
  | result =>
    match read result with
    | .ok places => .ok (.locations places)
    | .error e => .error (.conversion e)

/-- Reads references. -/
def references? (result : Json) : Except ConversionError (Option (List Location)) :=
  (Location.listOfJson result).map some

/-- Reads the result of a query. -/
def read (query : Query) (result : Json) : Except Fault Answer :=
  match query with
  | .hover =>
    match result with
    | .null => .ok (.hover none)
    | result =>
      match Hover.ofJson result with
      | .ok found => .ok (.hover (some found))
      | .error e => .error (.conversion e)
  | .definition | .lookupDefinition => placesOf Location.definition result
  | .references | .lookupReferences => placesOf references? result
  | .symbols => .ok (.value result)

/-- The answer of a query that failed. -/
def nothing : Query → Answer
  | .hover => .hover none
  | .symbols => .value .null
  | _ => .locations none

/-- Whether a query answers nothing in place of a fault. -/
def absorbs (query : Query) (fault : Fault) : Bool :=
  match query with
  | .symbols => fault.isClient
  | _ => fault.isQueryFault

/-- What a query that is done gives back. -/
def conclude (query : Query) (outcome : Outcome) : Except Fault Answer :=
  match outcome.bind query.read with
  | .ok answer => .ok answer
  | .error fault => if query.absorbs fault then .ok query.nothing else .error fault

/-- What places that were looked up are called. -/
def plural : Query → Option String
  | .lookupDefinition => some "definitions"
  | .lookupReferences => some "references"
  | _ => none

/-- What is given back of places that were looked up, and what is logged about them. -/
def lookedUp (plural : String) : Option (List Location) → Answer × Log
  | none | some [] => (.locations none, [])
  | some places =>
    (.locations (some places),
      [.info ("Found " ++ String.ofList (Text.natDigits places.length) ++ " " ++ plural)])

/-- What is given back in the end, and what is logged about it. -/
def finish (query : Query) (answer : Answer) : Answer × Log :=
  match query.plural, answer with
  | some plural, .locations places => lookedUp plural places
  | _, answer => (answer, [])

end Query

namespace Client

variable {σ : Type}

/-- The parameters of a query about a place. -/
def placeParameters (path : String) (position : Position) : Members :=
  [("textDocument", documentId (Uri.ofPath path)), ("position", position.toJson)]

/-- What becomes of a query. -/
def afterQuery (client : Client σ) (query : Query) :
    Progress RequestPhase Json → Client σ × Progress QueryPhase Answer
  | .waits request => (client, .waits ⟨query, request⟩)
  | .ends outcome =>
    match query.conclude outcome with
    | .error fault => (client, .ends (.error fault))
    | .ok answer =>
      let (answer, entries) := query.finish answer
      (client.logAll entries, .ends (.ok answer))

/-- Asks the server of a session. -/
def query (client : Client σ) (setup : Setup σ) (query : Query) (id method : String) (params : Members) :
    Client σ × Progress QueryPhase Answer :=
  let (client, asked) := client.requestIfPrintable setup id method (.object params) none
  client.afterQuery query asked

/-- Goes on with a query. -/
def resumeQuery (client : Client σ) (setup : Setup σ) (cancelled : Bool) (phase : QueryPhase) :
    Client σ × Progress QueryPhase Answer :=
  let (client, asked) := client.resumeRequest setup cancelled phase.request
  client.afterQuery phase.query asked

/-! ## Asking a session -/

/-- Asks what there is to say about a place. -/
def hover (client : Client σ) (setup : Setup σ) (id path : String) (position : Position) :
    Client σ × Progress QueryPhase Answer :=
  client.query setup .hover id "textDocument/hover" (placeParameters path position)

/-- Asks where the thing at a place is defined. -/
def definition (client : Client σ) (setup : Setup σ) (id path : String) (position : Position) :
    Client σ × Progress QueryPhase Answer :=
  client.query setup .definition id "textDocument/definition" (placeParameters path position)

/-- The parameters of a query for references. -/
def referenceParameters (path : String) (position : Position) (withDeclaration : Bool) : Members :=
  placeParameters path position ++ [("context", .object [("includeDeclaration", .bool withDeclaration)])]

/-- Asks where the thing at a place is used. -/
def references (client : Client σ) (setup : Setup σ) (id path : String) (position : Position)
    (withDeclaration : Bool) : Client σ × Progress QueryPhase Answer :=
  client.query setup .references id "textDocument/references" (referenceParameters path position withDeclaration)

/-- Asks for the symbols of a document. -/
def symbols (client : Client σ) (setup : Setup σ) (id path : String) : Client σ × Progress QueryPhase Answer :=
  client.query setup .symbols id "textDocument/documentSymbol" [("textDocument", documentId (Uri.ofPath path))]

/-! ## Looking up -/

/-- The entry about a place that is looked up; lines and characters count from one in it. -/
def lookingUp (what path : String) (position : Position) : LogEntry :=
  .info ("Getting " ++ what ++ " at " ++ path ++ ":" ++ String.ofList (Text.intDigits (position.line + 1)) ++ ":"
    ++ String.ofList (Text.intDigits (position.character + 1)))

/-- Looks up where the thing at a place of any file is defined. -/
def lookupDefinition (client : Client σ) (setup : Setup σ) (path : String) (position : Position) :
    Client σ × Progress QueryPhase Answer :=
  match client.routes.resolve setup.servers path with
  | none => (client, .ends (.ok (.locations none)))
  | some route =>
    (client.log (lookingUp "definition" path position)).query setup .lookupDefinition route.session
      "textDocument/definition" (placeParameters path position)

/-- Looks up where the thing at a place of any file is used. -/
def lookupReferences (client : Client σ) (setup : Setup σ) (path : String) (position : Position) :
    Client σ × Progress QueryPhase Answer :=
  match client.routes.resolve setup.servers path with
  | none => (client, .ends (.ok (.locations none)))
  | some route =>
    (client.log (lookingUp "references" path position)).query setup .lookupReferences route.session
      "textDocument/references" (referenceParameters path position true)

end Client

end LanguageSessions
