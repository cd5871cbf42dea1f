import LanguageSessions.Entries

/-!
# Routes

Which session serves which file, and which one serves the files of a root that were never registered.
-/

namespace LanguageSessions

/-- Where a file is served. -/
structure Route where
  session : String
  language : String
  root : String
  deriving DecidableEq, Repr

/-- The routes of files, and the sessions by root and language. -/
structure Routes where
  byFile : Entries String Route
  byRoot : Entries (String × String) String

namespace Routes

/-- No routes. -/
def empty : Routes := ⟨[], []⟩

/-- The route registered for a file. -/
def get? (routes : Routes) (path : String) : Option Route := routes.byFile.get? path

/-- The route for the files of a root and language. -/
def ofRoot? (routes : Routes) (root language : String) : Option Route :=
  (routes.byRoot.get? (root, language)).map fun session => ⟨session, language, root⟩

/-- The roots with a session for a language. -/
def rootsFor (routes : Routes) (language : String) : List String :=
  (routes.byRoot.keys.filter fun key => key.2 == language).map Prod.fst

/-- Registers the route of a file. -/
def register (routes : Routes) (path : String) (route : Route) : Routes where
  byFile := routes.byFile.set path route
  byRoot := routes.byRoot.set (route.root, route.language) route.session

/-- Drops the route of a file; its root stays for other files. -/
def unregister (routes : Routes) (path : String) : Routes := { routes with byFile := routes.byFile.erase path }

/-- Drops every route to a session. -/
def unregisterSession (routes : Routes) (session : String) : Routes where
  byFile := routes.byFile.filter fun entry => entry.2.session != session
  byRoot := routes.byRoot.filter fun entry => entry.2 != session

end Routes

end LanguageSessions
