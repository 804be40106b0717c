import Saboteur.Json.Value
import Saboteur.Decimal.Text

/-!
# Numbers of documents as doubles

A number that is no integer of 64 bits is read as a double: its digits as far as they fit a word,
times a power of ten from a table, in double arithmetic. A number too large for a double has no
value.
-/

namespace Saboteur.Numeral

/-- The word that digits make up, and how many digits did not fit. -/
def takeDigits (acc : Nat) : List Nat → Nat × Nat
  | [] => (acc, 0)
  | d :: rest =>
    if acc * 10 + d < Word.count then takeDigits (acc * 10 + d) rest else (acc, (d :: rest).length)

/-- A power of ten up to the 308th. -/
def powerOfTen (n : Nat) : Float := Float.ofScientific 1 false n

/-- Scales by a power of ten, in steps of 308 where it is a division. -/
def scale (f : Float) (e : Int) : Option Float :=
  if 0 ≤ e then
    if 308 < e then (if f == 0 then some f else none)
    else
      let g := f * powerOfTen e.toNat
      if g.isInf then none else some g
  else if (-e).toNat ≤ 308 then some (f / powerOfTen (-e).toNat)
  else if f == 0 then some f
  else scale (f / powerOfTen 308) (e + 308)
termination_by (-e).toNat
decreasing_by omega

/-- The digits of a natural number, most significant first. -/
def digitsOf (n : Nat) : List Nat := (Nat.toDigits 10 n).map fun c => c.toNat - 0x30

/-- The magnitude of a numeral as a double. -/
def magnitude? (n : Numeral) : Option Float :=
  let (word, dropped) := takeDigits 0 (digitsOf n.whole)
  let (word, taken) :=
    if dropped ≠ 0 then (word, 0)
    else
      let r := takeDigits word n.fraction
      (r.1, n.fraction.length - r.2)
  let e := n.exponent.getD 0
  let limit : Int := 2147483647
  if limit < e then (if word = 0 then some 0 else none)
  else if e < -limit then some 0
  else scale (UInt64.ofNat word).toFloat ((dropped : Int) - taken + e)

/-- The double that a numeral stands for. -/
def toFloat? (n : Numeral) : Option Float :=
  n.magnitude?.map fun f => if n.negative then -f else f

/-- Whether a numeral is an integer of 64 bits, with or without a sign. -/
def isExact (n : Numeral) : Bool :=
  n.isInteger && (if n.negative then n.whole ≤ Word.negativeCount else n.whole < Word.count)

/-- The text of a number in a document. -/
def render (n : Numeral) : String :=
  if n.isExact then (if n.negative then "-" else "") ++ Nat.repr n.whole
  else match n.toFloat? with
    | some f => Decimal.document f
    | none => "null"

end Saboteur.Numeral
