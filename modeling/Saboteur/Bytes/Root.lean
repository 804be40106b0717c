import Saboteur.Bytes.Hex

/-!
# Roots

A root is the 32-byte digest of a tree or a block. Two readers exist because two kinds of text carry
roots: documents, and block ids in the paths of requests.
-/

namespace Saboteur

/-- A digest of 32 bytes. -/
abbrev Root := Octets 32

namespace Root

/-- The root of zeros. -/
def zero : Root := Octets.zero 32

/-- The text of a root. -/
def display (r : Root) : String := Hex.render r.toList

/-- Whether one root comes before another, byte by byte. -/
def lt (a b : Root) : Bool := bytesLt a.toList b.toList

/-- Whether a character may stand between the digits of a root and is skipped. -/
def isSeparator (c : Char) : Bool := c = ' ' || c = '\r' || c = '\n' || c = '\t'

/-- Reads whole pairs of digits and drops a single digit at the end. -/
def readPairs? : List Char → Option (List UInt8)
  | [] => some []
  | [a] => (Hex.value? a).map fun _ => []
  | a :: b :: rest => do
    let high ← Hex.value? a
    let low ← Hex.value? b
    let bytes ← readPairs? rest
    return UInt8.ofNat (high * 16 + low) :: bytes

/-- Reads the text of a root in a document: 64 bytes of text behind an optional `0x`, in which
separators are skipped and missing bytes are zero. -/
def read? (s : String) : Option Root :=
  let body := match s.toList with
    | '0' :: 'x' :: rest => rest
    | rest => rest
  if (String.ofList body).utf8ByteSize = 64 then
    (readPairs? (body.filter fun c => !isSeparator c)).map (Octets.padded 32)
  else none

/-- Why a text is no root of a block id. -/
inductive PathError where
  | invalidCharacter (c : Char) (position : Nat)
  | invalidLength
  deriving DecidableEq

/-- The wording of an error in the root of a block id. -/
def PathError.message : PathError → String
  | .invalidCharacter c i =>
    "Invalid character '" ++ c.toString ++ "' at position " ++ toString i
  | .invalidLength => "Invalid input length"

/-- Reads the digits of `missing` further bytes, the next of them at `position`. The digit `high`
waits for its partner. -/
def readPath (missing position : Nat) (high : Option Nat) :
    List Char → Except PathError (List UInt8)
  | [] => if missing = 0 ∧ high.isNone then .ok [] else .error .invalidLength
  | c :: rest =>
    if missing = 0 then
      -- a byte too many: blanks alone are none, and a bad digit is still a byte
      if isSeparator c then readPath missing (position + 1) high rest else .error .invalidLength
    else if isSeparator c then readPath missing (position + 1) high rest
    else match Hex.value? c with
      | none => .error (.invalidCharacter c position)
      | some v =>
        match high with
        | none => readPath missing (position + 1) (some v) rest
        | some h => (readPath (missing - 1) (position + 1) none rest).map
            (UInt8.ofNat (h * 16 + v) :: ·)

/-- Reads the root of a block id, behind an optional `0x`. -/
def ofPath (s : List Char) : Except PathError Root :=
  let body := match s with
    | '0' :: 'x' :: rest => rest
    | rest => rest
  (readPath 32 0 none body).map (Octets.padded 32)

end Root

end Saboteur
