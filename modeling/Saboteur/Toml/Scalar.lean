import Saboteur.Json.Value
import Saboteur.Text.Cutting
import Saboteur.Text.Integer

/-!
# Unquoted values of settings files

A value without quotes is a truth value, an integer, a number with a point or an exponent, or a
moment in time. Digits may be grouped by single underscores. Integers have 64 bits.

No setting is a moment, so a moment becomes an object without members.
-/

namespace Saboteur.Toml

/-! ## Numbers -/

/-- Digits without the underscores between them. -/
def digits? (base : Nat) (s : List Char) : Option (List Nat) :=
  let groups := Text.splitList '_' s
  if groups.any List.isEmpty then none else groups.flatten.mapM (Text.digitValue? base)

/-- Decimal digits that do not begin with a zero, unless the zero stands alone. -/
def wholeDigits? (s : List Char) : Option (List Nat) :=
  match digits? 10 s with
  | some (0 :: _ :: _) => none
  | r => r

/-- The number that digits stand for. -/
def valueOf (base : Nat) (ds : List Nat) : Nat := ds.foldl (fun acc d => acc * base + d) 0

/-- A sign and what follows it. -/
def sign : List Char → Bool × List Char
  | '-' :: rest => (true, rest)
  | '+' :: rest => (false, rest)
  | s => (false, s)

/-- An integer in the range of 64 bits. -/
def bounded? (negative : Bool) (n : Nat) : Option Int :=
  if negative then (if n ≤ Word.negativeCount then some (-(n : Int)) else none)
  else if n < Word.negativeCount then some (n : Int) else none

/-- Reads an integer. Only decimal ones have a sign. -/
def integer? : List Char → Option Int
  | '0' :: 'x' :: s => (digits? 16 s).bind fun ds => bounded? false (valueOf 16 ds)
  | '0' :: 'o' :: s => (digits? 8 s).bind fun ds => bounded? false (valueOf 8 ds)
  | '0' :: 'b' :: s => (digits? 2 s).bind fun ds => bounded? false (valueOf 2 ds)
  | s => (wholeDigits? (sign s).2).bind fun ds => bounded? (sign s).1 (valueOf 10 ds)

/-- The digits behind a mark, if the mark is there. -/
def behind? (mark : Char → Bool) (s : List Char) : Option (List Char) :=
  match s.dropWhile fun c => !mark c with
  | [] => none
  | _ :: rest => some rest

/-- Whether a character begins an exponent. -/
def isExponentMark (c : Char) : Bool := c = 'e' || c = 'E'

/-- Reads a number with a point, an exponent or both. -/
def decimal? (s : List Char) : Option Numeral := do
  let (negative, s) := sign s
  let mantissa := s.takeWhile fun c => !isExponentMark c
  let point := behind? (· = '.') mantissa
  let power := behind? isExponentMark s
  if point.isNone ∧ power.isNone then none
  let whole ← wholeDigits? (mantissa.takeWhile (· ≠ '.'))
  let fraction ← (point.map (digits? 10)).getD (some [])
  let exponent ← (power.map fun p => (digits? 10 (sign p).2).map some).getD (some none)
  return { negative, whole := valueOf 10 whole, fraction,
           exponent := exponent.map fun ds =>
             if (sign (power.getD [])).1 then -(valueOf 10 ds : Int) else valueOf 10 ds }

/-- Whether a text is a number that has no digits. -/
def isUnbounded (s : List Char) : Bool :=
  (sign s).2 = "inf".toList || (sign s).2 = "nan".toList

/-! ## Moments -/

/-- A number of exactly `n` digits between bounds. -/
def part? (n low high : Nat) (s : List Char) : Option Nat := do
  if s.length ≠ n then none
  let ds ← s.mapM (Text.digitValue? 10)
  let v := valueOf 10 ds
  if low ≤ v ∧ v ≤ high then some v else none

/-- Whether a year has a leap day. -/
def isLeap (y : Nat) : Bool := y % 4 = 0 && (y % 100 ≠ 0 || y % 400 = 0)

/-- How many days a month has. -/
def daysIn (y m : Nat) : Nat :=
  if m = 2 then (if isLeap y then 29 else 28)
  else if m = 4 ∨ m = 6 ∨ m = 9 ∨ m = 11 then 30 else 31

/-- Whether a text is a day. -/
def isDate (s : List Char) : Bool :=
  match Text.splitList '-' s with
  | [y, m, d] =>
    match part? 4 0 9999 y, part? 2 1 12 m with
    | some y, some m => (part? 2 1 (daysIn y m) d).isSome
    | _, _ => false
  | _ => false

/-- Whether a text is a time of the day. -/
def isTime (s : List Char) : Bool :=
  match Text.splitList ':' s with
  | [h, m, r] =>
    let fraction := r.drop 2
    (part? 2 0 23 h).isSome && (part? 2 0 59 m).isSome && (part? 2 0 60 (r.take 2)).isSome &&
      (fraction.isEmpty || (fraction.head? = some '.' && 2 ≤ fraction.length &&
        (fraction.drop 1).all Char.isDigit))
  | _ => false

/-- Whether a text is the distance of a time zone. -/
def isOffset : List Char → Bool
  | [] => true
  | ['Z'] | ['z'] => true
  | c :: rest =>
    (c = '+' || c = '-') &&
      match Text.splitList ':' rest with
      | [h, m] => (part? 2 0 23 h).isSome && (part? 2 0 59 m).isSome
      | _ => false

/-- Whether a character begins the distance of a time zone. -/
def beginsOffset (c : Char) : Bool := c = 'Z' || c = 'z' || c = '+' || c = '-'

/-- Whether a text is a moment: a day, a time, or both with or without a time zone. -/
def isMoment (s : List Char) : Bool :=
  isDate s || isTime s ||
    (isDate (s.take 10) && ((s.drop 10).take 1).all (fun c => c = 'T' || c = 't' || c = ' ') &&
      let t := s.drop 11
      isTime (t.takeWhile fun c => !beginsOffset c) &&
        isOffset (t.dropWhile fun c => !beginsOffset c))

/-! ## Values -/

/-- Reads a value without quotes. -/
def scalar? (s : List Char) : Option Json :=
  if s = "true".toList then some (.bool true)
  else if s = "false".toList then some (.bool false)
  else if isMoment s || isUnbounded s then some (.object [])
  else match integer? s with
    | some i => some (.int i)
    | none => (decimal? s).map .number

/-- Whether a character may stand in a value without quotes. -/
def isScalarChar (c : Char) : Bool :=
  c.isAlphanum || c = '_' || c = '+' || c = '-' || c = '.' || c = ':'

/-- The value without quotes at the front of a text. A day and a time may have a blank between
them. -/
def readScalar (s : List Char) : Option (Json × List Char) :=
  let word := s.takeWhile isScalarChar
  let rest := s.dropWhile isScalarChar
  match rest with
  | ' ' :: c :: _ =>
    if isDate word && c.isDigit then
      let time := (rest.drop 1).takeWhile isScalarChar
      (scalar? (word ++ ' ' :: time)).map fun v => (v, (rest.drop 1).dropWhile isScalarChar)
    else (scalar? word).map fun v => (v, rest)
  | _ => (scalar? word).map fun v => (v, rest)

end Saboteur.Toml
