import Saboteur.Json.Fields
import Saboteur.Json.Number

/-!
# Documents kept whole

A field may hold any document. Such a document is kept as it is, except that of members with one key
the last one counts. Its numbers must have values, its texts must consist of characters, and it may
not be too deep.
-/

namespace Saboteur.Json

/-- How deep a document may be that stands in a field of a record. -/
def maxFieldDepth : Nat := 126

/-- Puts a member in front, unless a later one has its key. -/
def keepLast (k : Literal) (v : Json) (later : List (Literal × Json)) : List (Literal × Json) :=
  if later.any fun m => m.1 = k then later else (k, v) :: later

mutual

/-- A document with one member for each key. -/
def settle : Json → Except JsonError Json
  | .number n => if n.isExact || n.toFloat?.isSome then .ok (.number n) else .error .mismatch
  | .string l => (readKey l).map .text
  | .array items => (settleItems items).map .array
  | .object members => (settleMembers members).map .object
  | j => .ok j

/-- Items with one member for each key. -/
def settleItems : List Json → Except JsonError (List Json)
  | [] => .ok []
  | j :: rest => do return (← settle j) :: (← settleItems rest)

/-- Members of which each has a key of its own. -/
def settleMembers : List (Literal × Json) → Except JsonError (List (Literal × Json))
  | [] => .ok []
  | (l, j) :: rest => do
    let k ← readKey l
    let v ← settle j
    return keepLast (.text k) v (← settleMembers rest)

end

/-- Reads a field that holds any document. -/
def readAny (j : Json) : Except JsonError Json :=
  if j.depth ≤ maxFieldDepth then settle j else .error .mismatch

end Saboteur.Json
