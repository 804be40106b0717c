import Saboteur.Word

/-!
# Reading integers

Texts of integers have an optional sign and at least one digit, and nothing else: no blanks, no
separators. The digits are read from the left, and the first fault found decides the error: a
character that is no digit, or a value that has left the range.
-/

namespace Saboteur.Text

/-- Why a text is no integer of the wanted range. -/
inductive IntegerError where
  | empty
  | invalidDigit
  | tooLarge
  | tooSmall
  deriving DecidableEq, Repr

/-- The wording of an integer error. -/
def IntegerError.message : IntegerError → String
  | .empty => "cannot parse integer from empty string"
  | .invalidDigit => "invalid digit found in string"
  | .tooLarge => "number too large to fit in target type"
  | .tooSmall => "number too small to fit in target type"

/-- The value of a digit in a base up to sixteen. -/
def digitValue? (base : Nat) (c : Char) : Option Nat :=
  let n := c.toNat
  let value :=
    if 0x30 ≤ n ∧ n ≤ 0x39 then some (n - 0x30)
    else if 0x41 ≤ n ∧ n ≤ 0x46 then some (n - 0x41 + 10)
    else if 0x61 ≤ n ∧ n ≤ 0x66 then some (n - 0x61 + 10)
    else none
  value.filter (· < base)

/-- Reads digits after the value `acc`, which may grow up to `bound`. -/
def readDigits (base bound : Nat) (beyond : IntegerError) (acc : Nat) :
    List Char → Except IntegerError Nat
  | [] => .ok acc
  | c :: rest =>
    match digitValue? base c with
    | none => .error .invalidDigit
    | some d =>
      if acc * base + d ≤ bound then readDigits base bound beyond (acc * base + d) rest
      else .error beyond

/-- Reads a magnitude, which has at least one digit. -/
def readMagnitude (base bound : Nat) (beyond : IntegerError) :
    List Char → Except IntegerError Nat
  | [] => .error .invalidDigit
  | s => readDigits base bound beyond 0 s

/-- Reads a natural number up to `bound`. -/
def readNatural (base bound : Nat) : List Char → Except IntegerError Nat
  | [] => .error .empty
  | '+' :: rest => readMagnitude base bound .tooLarge rest
  | s => readMagnitude base bound .tooLarge s

/-- Reads an integer from `-(bound + 1)` to `bound`. -/
def readInteger (base bound : Nat) : List Char → Except IntegerError Int
  | [] => .error .empty
  | '+' :: rest => (readMagnitude base bound .tooLarge rest).map Int.ofNat
  | '-' :: rest => (readMagnitude base (bound + 1) .tooSmall rest).map (-Int.ofNat ·)
  | s => (readMagnitude base bound .tooLarge s).map Int.ofNat

/-- Reads a decimal word. -/
def readWord (s : String) : Except IntegerError UInt64 :=
  (readNatural 10 Word.max.toNat s.toList).map UInt64.ofNat

/-- Reads a signed decimal integer of 64 bits. -/
def readSigned (s : String) : Except IntegerError Int :=
  readInteger 10 (Word.negativeCount - 1) s.toList

end Saboteur.Text
