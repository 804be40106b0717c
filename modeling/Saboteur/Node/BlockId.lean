import Saboteur.Bytes.Root
import Saboteur.Slot
import Saboteur.Text.Integer

/-!
# Block ids

How a request names a block: by a word for its place in the chain, by its slot, or by its root.
-/

namespace Saboteur

/-- A name of a block. -/
inductive BlockId where
  | head
  | genesis
  | finalized
  | justified
  | slot (s : Slot)
  | root (r : Root)
  deriving DecidableEq

namespace BlockId

/-- Reads a block id. The error says what is wrong. -/
def parse (s : String) : Except String BlockId :=
  if s = "head" then .ok head
  else if s = "genesis" then .ok genesis
  else if s = "finalized" then .ok finalized
  else if s = "justified" then .ok justified
  else match s.toList with
    | '0' :: 'x' :: digits =>
      match Root.ofPath digits with
      | .ok r => .ok (root r)
      | .error e => .error (e.message ++ " cannot be parsed as a root")
    | _ =>
      match Text.readWord s with
      | .ok n => .ok (slot ⟨n⟩)
      | .error _ => .error (s ++ " cannot be parsed as a block id")

/-- The text of a block id in a request. -/
def display : BlockId → String
  | head => "head"
  | genesis => "genesis"
  | finalized => "finalized"
  | justified => "justified"
  | slot s => s.display
  | root r => r.display

/-- The text of a block id inside a diagnostic. -/
def debug : BlockId → String
  | head => "Head"
  | genesis => "Genesis"
  | finalized => "Finalized"
  | justified => "Justified"
  | slot s => "Slot(" ++ s.debug ++ ")"
  | root r => "Root(" ++ r.display ++ ")"

end BlockId

end Saboteur
