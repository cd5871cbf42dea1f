import LanguageSessions.Language
import LanguageSessions.Routes.Basic

/-!
# Finding a route

The route of any file: its own one, that of the deepest root above it, or that of any file of the same language.
-/

namespace LanguageSessions.Routes

/-- The roots with a session for a language that a file lies in, the longest first. -/
def rootsAbove (routes : Routes) (path language : String) : List String :=
  ((routes.rootsFor language).filter fun root => Path.isWithin path.toList root.toList).mergeSort
    fun a b => decide (b.length ≤ a.length)

/-- The route for a file that has none of its own, by its language. -/
def resolveLanguage (routes : Routes) (path language : String) : Option Route :=
  match (routes.rootsAbove path language).findSome? fun root => routes.ofRoot? root language with
  | some route => some route
  | none => routes.byFile.values.find? fun route => route.language == language

/-- The route for a file. -/
def resolve (routes : Routes) (servers : Servers) (path : String) : Option Route :=
  match routes.get? path with
  | some route => some route
  | none =>
    match servers.languageOfPath path with
    | none => none
    | some language => routes.resolveLanguage path language

end LanguageSessions.Routes
