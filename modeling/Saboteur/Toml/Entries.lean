import Saboteur.Json.Value
import Saboteur.Table

/-!
# Entries of settings files

A settings file defines values and tables at places. A place is a path of keys, with the number of
an item where it leads through a list of tables. Every place is defined once: a value has one
definition, a table one header, and a table that dotted keys made gets no header.
-/

namespace Saboteur.Toml

/-- A step of a path. -/
inductive Step where
  | key (k : String)
  | item (n : Nat)
  deriving DecidableEq

/-- What stands at a place. -/
inductive Entry where
  | value (j : Json)
  /-- A table with a header of its own. -/
  | headed
  /-- A table that the header of a table inside it made. -/
  | implied
  /-- A table that dotted keys made. -/
  | dotted
  /-- A list with so many tables. -/
  | tables (count : Nat)

/-- What a file has defined so far. -/
abbrev Entries := Table (List Step) Entry

/-- The table at a place, or the last one of a list of tables. -/
def inside (place : List Step) : Option Entry → List Step
  | some (.tables n) => place ++ [.item n]
  | _ => place

/-- Goes along a header, and makes the tables on its way. -/
def followHeader (es : Entries) (place : List Step) : List String → Option (Entries × List Step)
  | [] => some (es, place)
  | k :: ks =>
    let next := place ++ [.key k]
    match es.get? next with
    | none => followHeader (es.set next .implied) next ks
    | some (.value _) => none
    | found => followHeader es (inside next found) ks

/-- Opens the table of a header. -/
def openTable (es : Entries) (path : List String) : Option (Entries × List Step) := do
  let k ← path.getLast?
  let (es, place) ← followHeader es [] path.dropLast
  let next := place ++ [.key k]
  match es.get? next with
  | none | some .implied => return (es.set next .headed, next)
  | _ => none

/-- Opens a further table of a list. -/
def openItem (es : Entries) (path : List String) : Option (Entries × List Step) := do
  let k ← path.getLast?
  let (es, place) ← followHeader es [] path.dropLast
  let next := place ++ [.key k]
  match es.get? next with
  | none => return (es.set next (.tables 1), next ++ [.item 1])
  | some (.tables n) => return (es.set next (.tables (n + 1)), next ++ [.item (n + 1)])
  | _ => none

/-- Defines the value at a dotted key of a table. -/
def define (es : Entries) (place : List Step) (v : Json) : List String → Option Entries
  | [] => none
  | [k] =>
    let next := place ++ [.key k]
    if es.contains next then none else some (es.set next (.value v))
  | k :: ks =>
    let next := place ++ [.key k]
    match es.get? next with
    | none => define (es.set next .dotted) next v ks
    | some .dotted => define es next v ks
    | _ => none

/-- The members of the document itself. What further tables hold is left out. -/
def members (es : Entries) : List (Literal × Json) :=
  es.entries.filterMap fun e =>
    match e with
    | ([.key k], .value v) => some (.text k, v)
    | ([.key k], _) => some (.text k, .object [])
    | _ => none

end Saboteur.Toml
