import Saboteur.Json.Fields

/-!
# Commands

The instruction that a client gets with every answer, as a small number.
-/

namespace Saboteur

/-- What a client is told to do. -/
inductive Command where
  /-- Carry on. -/
  | null
  | continue
  | return
  | abort
  | skip
  | exit
  deriving DecidableEq

namespace Command

/-- All commands. -/
def all : List Command := [null, .continue, .return, abort, skip, exit]

/-- The number of a command. -/
def code : Command → Nat
  | null => 0
  | .continue => 1
  | .return => 2
  | abort => 3
  | skip => 4
  | exit => 7

/-- The command with a number. -/
def ofCode? (n : Nat) : Option Command := all.find? fun c => c.code = n

theorem ofCode?_code (c : Command) : ofCode? c.code = some c := by
  cases c <;> rfl

/-- The name of a command inside a diagnostic. -/
def debug : Command → String
  | null => "Null"
  | .continue => "Continue"
  | .return => "Return"
  | abort => "Abort"
  | skip => "Skip"
  | exit => "Exit"

end Command

instance : WriteJson Command := ⟨fun c => .nat c.code⟩

instance : ReadJson Command where
  read j := do
    let n ← Json.readNatural 256 j
    match Command.ofCode? n with
    | some c => return c
    | none => throw .mismatch

end Saboteur
