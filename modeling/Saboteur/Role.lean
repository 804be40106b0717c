import Saboteur.Json.Fields
import Saboteur.Slot
import Saboteur.Table

/-!
# Roles

A validator is an attacker or not. A strategy may declare windows in which a validator attacks; such
a validator is an attacker inside its windows and at no other slot.
-/

namespace Saboteur

/-- How a validator behaves. -/
inductive Role where
  | normal
  | attacker
  deriving DecidableEq

/-- A run of slots, both ends included. -/
structure Window where
  start : Slot
  stop : Slot
  deriving DecidableEq

/-- The windows of each validator that has any, by index. -/
abbrev Windows := Table UInt64 (List Window)

namespace Role

/-- The name of a role. -/
def name : Role → String
  | normal => "Normal"
  | attacker => "Attacker"

/-- All roles. -/
def all : List Role := [normal, attacker]

/-- The role with a name. -/
def ofName? (s : String) : Option Role := all.find? fun r => r.name = s

/-- Attacker or not. -/
def ofBool (attacks : Bool) : Role := if attacks then attacker else normal

end Role

namespace Window

/-- Whether a slot lies in a window. -/
def contains (w : Window) (s : Slot) : Bool := w.start ≤ s && s ≤ w.stop

end Window

namespace Windows

/-- The windows of a list of declarations, in their order for each validator. -/
def ofDeclarations (ds : List (UInt64 × Window)) : Windows :=
  ds.foldl (fun ws d => ws.alter d.1 [] (· ++ [d.2])) Table.empty

/-- The role that windows give a validator, if they declare any for it. -/
def role? (ws : Windows) (s : Slot) (index : UInt64) : Option Role :=
  (ws.get? index).map fun own => Role.ofBool (own.any (·.contains s))

end Windows

instance : WriteJson Role := ⟨fun r => .text r.name⟩

instance : ReadJson Role where
  read j := do
    match Role.ofName? (← Json.readName j) with
    | some r => return r
    | none => throw .mismatch

end Saboteur
