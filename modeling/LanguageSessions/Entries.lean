/-!
# Ordered tables

Tables that keep the order in which their keys were first put in; a new value takes the place of the old one.
-/

namespace LanguageSessions

/-- A table from keys to values in the order of insertion. -/
abbrev Entries (κ α : Type) := List (κ × α)

namespace Entries

variable {κ α : Type} [DecidableEq κ]

/-- The value at a key. -/
def get? : Entries κ α → κ → Option α
  | [], _ => none
  | (k, value) :: rest, key => if k = key then some value else get? rest key

/-- Whether a table has a key. -/
def has (entries : Entries κ α) (key : κ) : Bool := (entries.get? key).isSome

/-- Puts a value at a key, in its place if there is one and at the end otherwise. -/
def set : Entries κ α → κ → α → Entries κ α
  | [], key, value => [(key, value)]
  | (k, old) :: rest, key, value => if k = key then (k, value) :: rest else (k, old) :: set rest key value

/-- Takes a key out. -/
def erase : Entries κ α → κ → Entries κ α
  | [], _ => []
  | (k, value) :: rest, key => if k = key then erase rest key else (k, value) :: erase rest key

/-- Changes the value at a key, if it is there. -/
def modify (entries : Entries κ α) (key : κ) (f : α → α) : Entries κ α :=
  entries.map fun entry => if entry.1 = key then (entry.1, f entry.2) else entry

/-- The keys of a table. -/
def keys (entries : Entries κ α) : List κ := entries.map Prod.fst

/-- The values of a table. -/
def values (entries : Entries κ α) : List α := entries.map Prod.snd

end Entries

end LanguageSessions
