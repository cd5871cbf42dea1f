import LanguageSessions.Text.Blank

/-!
# Paths

Paths whose components are separated by slashes. `normalizeRoot` gives every spelling of a directory the same absolute
form; it never looks at a file system.
-/

namespace LanguageSessions

open Text

/-- What the meaning of a relative path depends on. -/
structure Surroundings where
  /-- The directory that relative paths start from. -/
  workingDirectory : String
  /-- The directory that a lone tilde stands for. -/
  home : String
  /-- The directories that a tilde with an account's name stands for. -/
  homes : List (String × String)

namespace Path

/-! ## Components -/

/-- The components of a path that name something: empty ones and single dots do not. -/
def components (path : List Char) : List (List Char) :=
  (splitOn '/' path).filter fun component => !component.isEmpty && component != ['.']

/-- The last component of a path; empty if there is none. -/
def name (path : List Char) : List Char := (components path).getLastD []

/-- The part of a name from its last dot on; empty if that dot is the first or the last character. -/
def nameSuffix (name : List Char) : List Char :=
  let ending := name.reverse.takeWhile (· != '.')
  if ending.isEmpty || name.length ≤ ending.length + 1 then [] else '.' :: ending.reverse

/-- The suffix of the last component of a path. -/
def suffix (path : List Char) : List Char := nameSuffix (name path)

/-- A path with slashes in place of backslashes. -/
def forwardSlashes (path : List Char) : List Char := path.map fun c => if c = '\\' then '/' else c

/-- Whether a path is a directory or lies below it, by its text. -/
def isWithin (path directory : List Char) : Bool :=
  let directory := dropEndWhile (fun c => c == '/' || c == '\\') directory
  path == directory || startsWith (directory ++ ['/']) path

/-! ## The normal form of a directory -/

/-- Follows the components of an absolute path; `visited` holds the ones above, the nearest first. -/
def resolveDots (visited : List (List Char)) : List (List Char) → List (List Char)
  | [] => visited.reverse
  | component :: rest =>
    if component = ['.', '.'] then resolveDots visited.tail rest else resolveDots (component :: visited) rest

/-- The slashes at the front of the normal form: one, or two if the path starts with exactly two. -/
def leadingSlashes : List Char → List Char
  | ['/', '/'] => ['/', '/']
  | '/' :: '/' :: c :: _ => if c = '/' then ['/'] else ['/', '/']
  | _ => ['/']

/-- The normal form of an absolute path. -/
def normalize (path : List Char) : List Char :=
  leadingSlashes path ++ joinWith ['/'] (resolveDots [] (components path))

/-- Puts a home directory in place of a leading tilde, with or without an account's name. -/
def expandHome (around : Surroundings) (path : List Char) : List Char :=
  match path with
  | '~' :: rest =>
    let account := rest.takeWhile (· != '/')
    let home? :=
      if account.isEmpty then some around.home
      else (around.homes.find? fun entry => entry.1.toList == account).map Prod.snd
    match home? with
    | none => path
    | some home =>
      let expanded := dropEndWhile (· == '/') home.toList ++ rest.dropWhile (· != '/')
      if expanded.isEmpty then ['/'] else expanded
  | path => path

/-- Puts the working directory in front of a relative path. -/
def makeAbsolute (around : Surroundings) (path : List Char) : List Char :=
  match path with
  | '/' :: _ => path
  | path =>
    let directory := around.workingDirectory.toList
    if directory.getLast? == some '/' then directory ++ path else directory ++ '/' :: path

end Path

/-- The normal form of the root directory of a project. -/
def normalizeRoot (around : Surroundings) (path : String) : String :=
  String.ofList (Path.normalize (Path.makeAbsolute around (Path.expandHome around path.toList)))

end LanguageSessions
