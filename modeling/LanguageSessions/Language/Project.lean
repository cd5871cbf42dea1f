import LanguageSessions.Language

/-!
# Roots of projects

The root of a project is the nearest directory above a file that holds one of the files its language's server looks for.
Directories are those of a `FileTree`, in which symbolic links are followed.
-/

namespace LanguageSessions

open Text

/-- What stands at a place in a file tree. -/
inductive FileNode where
  | directory
  | file
  /-- A symbolic link to an absolute path. -/
  | link (target : List (List Char))

/-- A file tree: what stands at the paths from its root, each path as a list of components. -/
abbrev FileTree := List (List (List Char) × FileNode)

/-- The places above a place, the nearest first. -/
def placesAbove : List (List Char) → List (List (List Char))
  | [] => []
  | component :: rest => (placesAbove rest).map (component :: ·) ++ [[]]

namespace FileTree

/-- The tree with some files, directories and symbolic links, and the directories that they stand in. -/
def ofPaths (files directories : List (List (List Char))) (links : List (List (List Char) × List (List Char))) :
    FileTree :=
  let above := (files ++ directories ++ links.map Prod.fst).flatMap placesAbove
  links.map (fun entry => (entry.1, .link entry.2)) ++ files.map (·, .file)
    ++ (directories ++ above).map (·, .directory)

/-- What stands at a place. -/
def node? (tree : FileTree) (place : List (List Char)) : Option FileNode :=
  if place.isEmpty then some .directory else (tree.find? fun entry => entry.1 == place).map Prod.snd

/-- Whether a directory stands at a place. -/
def isDirectory (tree : FileTree) (place : List (List Char)) : Bool :=
  match tree.node? place with
  | some .directory => true
  | _ => false

/-- Follows components from a place, taking `links` symbolic links at most; the flag tells whether everything passed
on the way was there. -/
def follow (tree : FileTree) (links : Nat) (place : List (List Char)) (found : Bool) :
    List (List Char) → List (List Char) × Bool
  | [] => (place, found)
  | component :: rest =>
    if component = ['.', '.'] then follow tree links place.dropLast (found && tree.isDirectory place) rest
    else
      match tree.node? (place ++ [component]) with
      | none => follow tree links (place ++ [component]) false rest
      | some (.link target) =>
        match links with
        | 0 => (place ++ component :: rest, false)
        | links + 1 => follow tree links [] found (target ++ rest)
      | some _ => follow tree links (place ++ [component]) found rest
  termination_by components => (links, components.length)

/-- The greatest number of symbolic links taken on the way to a file. -/
def maxLinks : Nat := 40

/-- The place that a path leads to, whether or not anything is there. -/
def resolve (tree : FileTree) (path : List (List Char)) : List (List Char) :=
  (tree.follow maxLinks [] true path).1

/-- Whether a path leads to something. -/
def contains (tree : FileTree) (path : List (List Char)) : Bool :=
  (tree.follow maxLinks [] true path).2

end FileTree

/-- The nearest directory above a file that holds a root file of the language. -/
def Servers.projectRoot (servers : Servers) (tree : FileTree) (path language : String) : Option String :=
  match servers.get? language with
  | none => none
  | some server =>
    let holdsMarker := fun (place : List (List Char)) =>
      server.rootPatterns.any fun pattern => tree.contains (place ++ Path.components pattern.toList)
    let above := placesAbove (tree.resolve (Path.components path.toList))
    (above.find? holdsMarker).map fun place => String.ofList ('/' :: joinWith ['/'] place)

end LanguageSessions
