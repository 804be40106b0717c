import Saboteur.Bytes.Octets

/-!
# Base64

The standard alphabet with padding. Each group of three bytes is four symbols of six bits; a last
group of one or two bytes is two or three symbols and is filled up with `=`.

Reading takes canonical texts only: padding fills the last group exactly, stands nowhere else, and
the bits that no byte uses are zero. So a byte string has one text.

## Which fault is named

The length is looked at first, then the symbols before the padding, then the padding, and last the
unused bits.
-/

namespace Saboteur.Base64

/-- The byte that fills the last group. -/
def pad : UInt8 := 61

/-- The symbol of a value below 64. -/
def symbol (v : Nat) : UInt8 :=
  if v < 26 then UInt8.ofNat (65 + v)
  else if v < 52 then UInt8.ofNat (97 + v - 26)
  else if v < 62 then UInt8.ofNat (48 + v - 52)
  else if v = 62 then 43
  else 47

/-- The value of a symbol. -/
def value? (b : UInt8) : Option Nat :=
  let n := b.toNat
  if 65 ≤ n ∧ n ≤ 90 then some (n - 65)
  else if 97 ≤ n ∧ n ≤ 122 then some (n - 97 + 26)
  else if 48 ≤ n ∧ n ≤ 57 then some (n - 48 + 52)
  else if n = 43 then some 62
  else if n = 47 then some 63
  else none

theorem value?_symbol {v : Nat} (h : v < 64) : value? (symbol v) = some v := by
  have hall : ∀ w ∈ List.range 64, value? (symbol w) = some w := by decide
  exact hall v (List.mem_range.mpr h)

/-! ## Writing -/

/-- The symbols and the padding of a byte string. -/
def encodeBytes : List UInt8 → List UInt8
  | [] => []
  | [a] =>
    let n := a.toNat * 16
    [symbol (n / 64), symbol (n % 64), pad, pad]
  | [a, b] =>
    let n := (a.toNat * 256 + b.toNat) * 4
    [symbol (n / 4096), symbol (n / 64 % 64), symbol (n % 64), pad]
  | a :: b :: c :: rest =>
    let n := (a.toNat * 256 + b.toNat) * 256 + c.toNat
    symbol (n / 262144) :: symbol (n / 4096 % 64) :: symbol (n / 64 % 64) :: symbol (n % 64) ::
      encodeBytes rest

/-- The text of a byte string. -/
def encode (bytes : List UInt8) : String :=
  String.ofList ((encodeBytes bytes).map fun b => Char.ofNat b.toNat)

/-! ## Reading -/

/-- Why a text is not canonical. Positions count bytes of the text. -/
inductive DecodeError where
  | invalidByte (position : Nat) (byte : UInt8)
  | invalidLength
  | invalidLastSymbol (position : Nat) (byte : UInt8)
  | invalidPadding
  deriving DecidableEq

/-- The wording of a decoding error. -/
def DecodeError.message : DecodeError → String
  | .invalidByte i b => "InvalidByte(" ++ toString i ++ ", " ++ toString b.toNat ++ ")"
  | .invalidLength => "InvalidLength"
  | .invalidLastSymbol i b => "InvalidLastSymbol(" ++ toString i ++ ", " ++ toString b.toNat ++ ")"
  | .invalidPadding => "InvalidPadding"

/-- The values of the symbols from `position` on. -/
def readSymbols (position : Nat) : List UInt8 → Except DecodeError (List Nat)
  | [] => .ok []
  | b :: rest =>
    match value? b with
    | none => .error (.invalidByte position b)
    | some v => (readSymbols (position + 1) rest).map (v :: ·)

/-- The bytes that groups of symbols stand for. -/
def decodeValues : List Nat → List UInt8
  | a :: b :: c :: d :: rest =>
    let n := ((a * 64 + b) * 64 + c) * 64 + d
    UInt8.ofNat (n / 65536) :: UInt8.ofNat (n / 256 % 256) :: UInt8.ofNat (n % 256) ::
      decodeValues rest
  | [a, b, c] =>
    let n := (a * 64 + b) * 64 + c
    [UInt8.ofNat (n / 1024), UInt8.ofNat (n / 4 % 256)]
  | [a, b] => [UInt8.ofNat ((a * 64 + b) / 16)]
  | _ => []

/-- How many low bits of the last of `count` symbols no byte uses. -/
def spareBits (count : Nat) : Nat :=
  if count % 4 = 2 then 4 else if count % 4 = 3 then 2 else 0

/-- Whether the bits of the last symbol that no byte uses are zero. -/
def spareBitsClear (values : List Nat) : Bool :=
  values.getLast?.all fun v => v % Nat.pow 2 (spareBits values.length) == 0

/-- Whether what follows `count` symbols is a run of padding that stays in their last group. -/
def padsLastGroup (count : Nat) (rest : List UInt8) : Bool :=
  rest.isEmpty || (rest.all (· == pad) && 2 ≤ count % 4 && count % 4 + rest.length ≤ 4)

/-- Reads symbols and padding. -/
def decodeBytes (text : List UInt8) : Except DecodeError (List UInt8) :=
  if text.length % 4 = 1 then
    match text.getLast? with
    | some b =>
      if b ≠ pad ∧ value? b = none then .error (.invalidByte (text.length - 1) b)
      else .error .invalidLength
    | none => .error .invalidLength
  else
    let body := text.takeWhile (· ≠ pad)
    let padding := text.dropWhile (· ≠ pad)
    match readSymbols 0 body with
    | .error e => .error e
    | .ok values =>
      if !padsLastGroup body.length padding then .error (.invalidByte body.length pad)
      else if text.length % 4 ≠ 0 then .error .invalidPadding
      else if !spareBitsClear values then
        .error (.invalidLastSymbol (body.length - 1) (body.getLast?.getD 0))
      else .ok (decodeValues values)

/-- Reads the text of a byte string. -/
def decode (s : String) : Except DecodeError (List UInt8) := decodeBytes s.toUTF8.toList

end Saboteur.Base64
