import Saboteur.Bytes.Hex

/-!
# Percent encoding

A byte that may not stand in a part of an address is written as a percent sign and two uppercase
hexadecimal digits. Each part has its own set of such characters; every character beyond ASCII
belongs to all of them.
-/

namespace Saboteur.Url

/-! ## Sets -/

/-- Control characters. -/
def isControl (c : Char) : Bool := c.toNat < 0x20 || 0x7F ≤ c.toNat

/-- What is encoded in a fragment. -/
def fragmentSet (c : Char) : Bool := isControl c || " \"<>`".toList.contains c

/-- What is encoded in a path. -/
def pathSet (c : Char) : Bool := fragmentSet c || "#?\x7b\x7d".toList.contains c

/-- What is encoded in a name or a password. -/
def userinfoSet (c : Char) : Bool := pathSet c || "/:;=@[\\]^|".toList.contains c

/-- What is encoded in a query; more where the scheme is a well-known one. -/
def querySet (special : Bool) (c : Char) : Bool :=
  isControl c || " \"#<>".toList.contains c || (special && c == '\'')

/-! ## Encoding and decoding -/

/-- An uppercase hexadecimal digit. -/
def upperDigit (n : Nat) : Char :=
  if n < 10 then Char.ofNat (0x30 + n) else Char.ofNat (0x41 + n - 10)

/-- A byte behind a percent sign. -/
def encodeByte (b : UInt8) : List Char :=
  ['%', upperDigit (b.toNat / 16), upperDigit (b.toNat % 16)]

/-- A character as it stands in a part of an address. -/
def encodeChar (encoded : Char → Bool) (c : Char) : List Char :=
  if encoded c then c.toString.toUTF8.toList.flatMap encodeByte else [c]

/-- A text as it stands in a part of an address. -/
def encodePart (encoded : Char → Bool) (s : List Char) : String :=
  String.ofList (s.flatMap (encodeChar encoded))

/-- The bytes that a text with percent signs stands for. A sign without two digits stands for
itself. -/
def decodePercent : List UInt8 → List UInt8
  | 0x25 :: a :: b :: rest =>
    match Hex.value? (Char.ofNat a.toNat), Hex.value? (Char.ofNat b.toNat) with
    | some high, some low => UInt8.ofNat (high * 16 + low) :: decodePercent rest
    | _, _ => 0x25 :: decodePercent (a :: b :: rest)
  | b :: rest => b :: decodePercent rest
  | [] => []

end Saboteur.Url
