import Saboteur.Json.Value
import Saboteur.Text.Integer

/-!
# Tokens of documents

A text is cut into brackets, separators, constants, numbers and quoted texts. Blanks between tokens
are the four that documents allow. Quoted texts are read in two steps: first the characters and the
escaped code units, then the units are paired to characters.
-/

namespace Saboteur.Json

/-- A token of a document. -/
inductive Token where
  | openArray
  | closeArray
  | openObject
  | closeObject
  | comma
  | colon
  | null
  | bool (b : Bool)
  | number (n : Numeral)
  | string (l : Literal)

/-- Whether a character separates tokens. -/
def isSpace (c : Char) : Bool := c = ' ' || c = '\n' || c = '\t' || c = '\r'

/-! ## Quoted texts -/

/-- A character, or a code unit that an escape names. -/
inductive CodeUnit where
  | char (c : Char)
  | unit (n : Nat)

/-- The character of a short escape. -/
def shortEscape? : Char → Option Char
  | '"' => some '"'
  | '\\' => some '\\'
  | '/' => some '/'
  | 'b' => some '\x08'
  | 'f' => some '\x0c'
  | 'n' => some '\n'
  | 'r' => some '\r'
  | 't' => some '\t'
  | _ => none

/-- The number that four hexadecimal digits stand for. -/
def fourDigits? (a b c d : Char) : Option Nat := do
  let a ← Text.digitValue? 16 a
  let b ← Text.digitValue? 16 b
  let c ← Text.digitValue? 16 c
  let d ← Text.digitValue? 16 d
  return ((a * 16 + b) * 16 + c) * 16 + d

/-- The units up to the closing quote, and what follows it. -/
def readUnits : List Char → Option (List CodeUnit × List Char)
  | [] => none
  | '"' :: rest => some ([], rest)
  | '\\' :: 'u' :: a :: b :: c :: d :: rest =>
    match fourDigits? a b c d, readUnits rest with
    | some n, some (units, after) => some (.unit n :: units, after)
    | _, _ => none
  | '\\' :: e :: rest =>
    match shortEscape? e, readUnits rest with
    | some c, some (units, after) => some (.char c :: units, after)
    | _, _ => none
  | c :: rest =>
    if c.toNat < 0x20 ∨ c = '\\' then none
    else (readUnits rest).map fun r => (.char c :: r.1, r.2)

/-- Whether a unit is the first half of a pair. -/
def isHighHalf (n : Nat) : Bool := 0xD800 ≤ n && n < 0xDC00

/-- Whether a unit is the second half of a pair. -/
def isLowHalf (n : Nat) : Bool := 0xDC00 ≤ n && n < 0xE000

/-- The characters of units, unless half of a pair is left alone. -/
def pairUnits : List CodeUnit → Option (List Char)
  | [] => some []
  | .char c :: rest => (pairUnits rest).map (c :: ·)
  | .unit n :: .unit m :: rest =>
    if isHighHalf n then
      if isLowHalf m then
        (pairUnits rest).map (Char.ofNat (0x10000 + (n - 0xD800) * 0x400 + (m - 0xDC00)) :: ·)
      else none
    else if isLowHalf n then none
    else (pairUnits (.unit m :: rest)).map (Char.ofNat n :: ·)
  | .unit n :: rest =>
    if isHighHalf n || isLowHalf n then none else (pairUnits rest).map (Char.ofNat n :: ·)

/-- The content of a quoted text with these units. -/
def literalOf (units : List CodeUnit) : Literal :=
  match pairUnits units with
  | some cs => .text (String.ofList cs)
  | none => .unpaired

/-! ## Numbers -/

/-- Whether a character is a decimal digit. -/
def isDigit (c : Char) : Bool := '0' ≤ c && c ≤ '9'

/-- The value of a decimal digit. -/
def digitOf (c : Char) : Nat := c.toNat - 0x30

/-- The number that digits stand for. -/
def ofDigits (ds : List Char) : Nat := ds.foldl (fun acc d => acc * 10 + digitOf d) 0

/-- The digits after a point, if there is a point. -/
def readFraction : List Char → Option (List Nat × List Char)
  | '.' :: rest =>
    let ds := rest.takeWhile isDigit
    if ds.isEmpty then none else some (ds.map digitOf, rest.dropWhile isDigit)
  | s => some ([], s)

/-- The digits of an exponent. -/
def readExponentDigits (negative : Bool) (s : List Char) : Option (Option Int × List Char) :=
  let ds := s.takeWhile isDigit
  if ds.isEmpty then none
  else
    let n : Int := ofDigits ds
    some (some (if negative then -n else n), s.dropWhile isDigit)

/-- An exponent, if there is one. -/
def readExponent : List Char → Option (Option Int × List Char)
  | 'e' :: '+' :: rest | 'E' :: '+' :: rest => readExponentDigits false rest
  | 'e' :: '-' :: rest | 'E' :: '-' :: rest => readExponentDigits true rest
  | 'e' :: rest | 'E' :: rest => readExponentDigits false rest
  | s => some (none, s)

/-- The digits before the point: a zero alone, or digits that do not begin with zero. -/
def readWhole : List Char → Option (Nat × List Char)
  | '0' :: rest => some (0, rest)
  | s =>
    let ds := s.takeWhile isDigit
    if ds.isEmpty then none else some (ofDigits ds, s.dropWhile isDigit)

/-- A number without its sign. -/
def readMagnitude (negative : Bool) (s : List Char) : Option (Numeral × List Char) := do
  let (whole, s) ← readWhole s
  let (fraction, s) ← readFraction s
  let (exponent, s) ← readExponent s
  return (⟨negative, whole, fraction, exponent⟩, s)

/-! ## Tokens -/

/-- The token at the front of a text that does not begin with a blank. -/
def readToken : List Char → Option (Token × List Char)
  | '[' :: rest => some (.openArray, rest)
  | ']' :: rest => some (.closeArray, rest)
  | '\x7b' :: rest => some (.openObject, rest)
  | '\x7d' :: rest => some (.closeObject, rest)
  | ',' :: rest => some (.comma, rest)
  | ':' :: rest => some (.colon, rest)
  | 'n' :: 'u' :: 'l' :: 'l' :: rest => some (.null, rest)
  | 't' :: 'r' :: 'u' :: 'e' :: rest => some (.bool true, rest)
  | 'f' :: 'a' :: 'l' :: 's' :: 'e' :: rest => some (.bool false, rest)
  | '"' :: rest => (readUnits rest).map fun r => (.string (literalOf r.1), r.2)
  | '-' :: rest => (readMagnitude true rest).map fun r => (.number r.1, r.2)
  | s => (readMagnitude false s).map fun r => (.number r.1, r.2)

/-- The tokens of a text. -/
def tokens (s : List Char) : Option (List Token) :=
  match s with
  | [] => some []
  | c :: rest =>
    if isSpace c then tokens rest
    else match readToken (c :: rest) with
      | none => none
      | some (t, after) =>
        if after.length < (c :: rest).length then (tokens after).map (t :: ·) else none
termination_by s.length
decreasing_by
  all_goals
    simp only [List.length_cons] at *
    omega

end Saboteur.Json
