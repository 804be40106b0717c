import Saboteur.Decimal.Shortest
import Saboteur.Word

/-!
# Texts of doubles

Two ways to write the shortest decimal of a double. Plain text is positional whatever the size of
the number. Document text always shows a point or an exponent, and takes an exponent from
`10 ^ 16` upward and below `10 ^ -5`.
-/

namespace Saboteur.Decimal

/-- A run of zeros. -/
def zeros (n : Nat) : String := String.ofList (List.replicate n '0')

/-- The digits of a decimal with a point before the last `places` of them. -/
def withPoint (digits : String) (places : Nat) : String :=
  let padded := zeros (places + 1 - digits.length) ++ digits
  let cs := padded.toList
  String.ofList (cs.take (cs.length - places)) ++ "." ++
    String.ofList (cs.drop (cs.length - places))

/-- A positive decimal in positional notation. -/
def positional (d : Digits) : String :=
  let text := Nat.repr d.digits
  if 0 ≤ d.exponent then text ++ zeros d.exponent.toNat
  else withPoint text (-d.exponent).toNat

/-- A positive decimal as documents show it. -/
def documentary (d : Digits) : String :=
  let text := Nat.repr d.digits
  let point := (text.length : Int) + d.exponent
  if 0 ≤ d.exponent ∧ point ≤ 16 then positional d ++ ".0"
  else if -5 < point ∧ point ≤ 16 then positional d
  else
    let cs := text.toList
    let mantissa :=
      if cs.length ≤ 1 then text
      else String.ofList (cs.take 1) ++ "." ++ String.ofList (cs.drop 1)
    mantissa ++ "e" ++ toString (point - 1)

/-- The text of a double, given the text of zero and of positive decimals. -/
def render (zeroText : String) (positive : Digits → String) (x : Float) : String :=
  let bits := x.toBits.toNat
  let magnitude := bits % Word.negativeCount
  let sign := if Word.negativeCount ≤ bits then "-" else ""
  if x.isNaN then "NaN"
  else if x.isInf then sign ++ "inf"
  else if magnitude = 0 then sign ++ zeroText
  else sign ++ positive (trimZeros (shortest (Binary.ofBits magnitude)))

/-- The plain text of a double. -/
def plain (x : Float) : String := render "0" positional x

/-- The text of a double in a document. -/
def document (x : Float) : String := render "0.0" documentary x

end Saboteur.Decimal
