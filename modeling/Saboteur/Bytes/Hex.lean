import Saboteur.Bytes.Octets
import Saboteur.Text.Integer

/-!
# Hexadecimal texts

Byte strings are written as lowercase hexadecimal digits behind `0x`. Reading takes digits of
either case.
-/

namespace Saboteur.Hex

/-- The digit of a value below sixteen. -/
def digit (n : Nat) : Char :=
  if n < 10 then Char.ofNat (0x30 + n) else Char.ofNat (0x61 + n - 10)

/-- The value of a digit, in either case. -/
def value? (c : Char) : Option Nat := Text.digitValue? 16 c

theorem value?_digit {n : Nat} (h : n < 16) : value? (digit n) = some n := by
  have hall : ∀ m ∈ List.range 16, value? (digit m) = some m := by decide
  exact hall n (List.mem_range.mpr h)

/-- The two digits of a byte. -/
def encodeByte (b : UInt8) : List Char := [digit (b.toNat / 16), digit (b.toNat % 16)]

/-- The digits of a byte string. -/
def encode (bytes : List UInt8) : List Char := bytes.flatMap encodeByte

/-- Reads digits in pairs. -/
def decode? : List Char → Option (List UInt8)
  | [] => some []
  | [_] => none
  | a :: b :: rest => do
    let high ← value? a
    let low ← value? b
    let bytes ← decode? rest
    return UInt8.ofNat (high * 16 + low) :: bytes

theorem decode?_encode (bytes : List UInt8) : decode? (encode bytes) = some bytes := by
  induction bytes with
  | nil => rfl
  | cons b rest ih =>
    have hb := b.toNat_lt
    have hhigh : value? (digit (b.toNat / 16)) = some (b.toNat / 16) :=
      value?_digit (by omega)
    have hlow : value? (digit (b.toNat % 16)) = some (b.toNat % 16) := value?_digit (by omega)
    have hsum : UInt8.ofNat (b.toNat / 16 * 16 + b.toNat % 16) = b := by
      rw [show b.toNat / 16 * 16 + b.toNat % 16 = b.toNat by omega, UInt8.ofNat_toNat]
    show decode? (digit (b.toNat / 16) :: digit (b.toNat % 16) :: encode rest) = _
    rw [decode?, hhigh, hlow, ih]
    exact congrArg some (congrArg (· :: rest) hsum)

/-- The text of a byte string. -/
def render (bytes : List UInt8) : String := String.ofList ('0' :: 'x' :: encode bytes)

/-- Reads the text of a byte string, which has to begin with `0x`. -/
def read? (s : String) : Option (List UInt8) :=
  match s.toList with
  | '0' :: 'x' :: digits => decode? digits
  | _ => none

theorem read?_render (bytes : List UInt8) : read? (render bytes) = some bytes := by
  simp [read?, render, decode?_encode]

/-- Reads digits, with or without `0x` before them. -/
def readLoose? (s : String) : Option (List UInt8) :=
  match s.toList with
  | '0' :: 'x' :: digits => decode? digits
  | digits => decode? digits

end Saboteur.Hex
