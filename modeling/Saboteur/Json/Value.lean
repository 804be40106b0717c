import Saboteur.Word

/-!
# Documents

A document is a tree of objects, arrays, texts, numbers and constants. It keeps what its text said:
numbers as they were written, members in their order, repeated keys included. What a number or a key
means is decided by the reader of the field it stands in.
-/

namespace Saboteur

/-- A number as it is written. -/
structure Numeral where
  negative : Bool
  /-- The digits before the point. -/
  whole : Nat
  /-- The digits after the point; none without a point. -/
  fraction : List Nat
  /-- The power of ten, if one is written. -/
  exponent : Option Int
  deriving DecidableEq, Repr

/-- The content of a quoted text. -/
inductive Literal where
  | text (s : String)
  /-- Escapes name half of a surrogate pair, which is no character. -/
  | unpaired
  deriving DecidableEq, Repr

/-- A document. -/
inductive Json where
  | null
  | bool (b : Bool)
  | number (n : Numeral)
  | string (l : Literal)
  | array (items : List Json)
  | object (members : List (Literal × Json))

namespace Numeral

/-- The numeral of a natural number. -/
def ofNat (n : Nat) : Numeral := ⟨false, n, [], none⟩

/-- The numeral of an integer. -/
def ofInt (i : Int) : Numeral := ⟨i < 0, i.natAbs, [], none⟩

/-- Whether a numeral is written as an integer. A zero with a minus sign is not: it is read as the
double of that name. -/
def isInteger (n : Numeral) : Bool :=
  n.fraction.isEmpty && n.exponent.isNone && !(n.negative && n.whole == 0)

/-- The natural number below `bound` that a numeral stands for. -/
def natural? (bound : Nat) (n : Numeral) : Option Nat :=
  if n.isInteger && !n.negative && n.whole < bound then some n.whole else none

/-- The signed integer of 64 bits that a numeral stands for. -/
def integer? (n : Numeral) : Option Int :=
  if !n.isInteger then none
  else if n.negative then (if n.whole ≤ Word.negativeCount then some (-(n.whole : Int)) else none)
  else if n.whole < Word.negativeCount then some (n.whole : Int) else none

theorem natural?_ofNat {bound n : Nat} (h : n < bound) : (ofNat n).natural? bound = some n := by
  simp [ofNat, natural?, isInteger, h]

end Numeral

namespace Json

/-- The document of a text. -/
def text (s : String) : Json := .string (.text s)

/-- The document of a natural number. -/
def nat (n : Nat) : Json := .number (.ofNat n)

/-- The document of an integer. -/
def int (i : Int) : Json := .number (.ofInt i)

/-- The document of a word. -/
def word (w : UInt64) : Json := .nat w.toNat

/-- The document of an object with these members. -/
def obj (members : List (String × Json)) : Json :=
  .object (members.map fun m => (.text m.1, m.2))

/-- The document of a value that may be absent. -/
def option {α : Type} (f : α → Json) : Option α → Json
  | none => .null
  | some a => f a

mutual

/-- How many arrays and objects lie inside one another. -/
def depth : Json → Nat
  | .array items => depthItems items + 1
  | .object members => depthMembers members + 1
  | _ => 0

/-- The greatest depth of some documents. -/
def depthItems : List Json → Nat
  | [] => 0
  | j :: rest => Nat.max (depth j) (depthItems rest)

/-- The greatest depth of some members. -/
def depthMembers : List (Literal × Json) → Nat
  | [] => 0
  | (_, j) :: rest => Nat.max (depth j) (depthMembers rest)

end

end Json

end Saboteur
