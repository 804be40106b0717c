import Saboteur.Text.Integer

/-!
# Quoted texts of settings files

A settings file has four kinds of quoted text. Double quotes allow escapes and single quotes do not;
three quotes allow line breaks and one does not. A line break directly behind three quotes does not
count, and up to two quotes may stand directly before the closing three.

Line breaks are single characters here: a carriage return before a line feed is dropped before
anything is read.
-/

namespace Saboteur.Toml

/-- Whether a character may stand in no text. -/
def isControl (c : Char) : Bool := (c.toNat < 0x20 && c ≠ '\t') || c.toNat = 0x7F

/-- Whether a character separates words of a line. -/
def isBlank (c : Char) : Bool := c = ' ' || c = '\t'

/-- The character of a short escape. -/
def shortEscape? : Char → Option Char
  | '"' => some '"'
  | '\\' => some '\\'
  | 'b' => some '\x08'
  | 'f' => some '\x0c'
  | 'n' => some '\n'
  | 'r' => some '\r'
  | 't' => some '\t'
  | _ => none

/-- The character with a number in hexadecimal digits. Halves of pairs are no characters. -/
def escaped? (digits : List Char) : Option Char := do
  let ds ← digits.mapM (Text.digitValue? 16)
  let n := ds.foldl (fun acc d => acc * 16 + d) 0
  if n.isValidChar then some (Char.ofNat n) else none

/-- Puts a character before what is read. -/
def cons (c : Char) (r : List Char × List Char) : List Char × List Char := (c :: r.1, r.2)

/-- Reads up to the closing double quote. -/
def readBasic : List Char → Option (List Char × List Char)
  | [] => none
  | '"' :: rest => some ([], rest)
  | '\\' :: 'u' :: a :: b :: c :: d :: rest => do
    return cons (← escaped? [a, b, c, d]) (← readBasic rest)
  | '\\' :: 'U' :: a :: b :: c :: d :: e :: f :: g :: h :: rest => do
    return cons (← escaped? [a, b, c, d, e, f, g, h]) (← readBasic rest)
  | '\\' :: e :: rest => do return cons (← shortEscape? e) (← readBasic rest)
  | c :: rest => if isControl c || c = '\\' then none else (readBasic rest).map (cons c)

/-- Reads up to the closing single quote. -/
def readLiteral : List Char → Option (List Char × List Char)
  | [] => none
  | '\'' :: rest => some ([], rest)
  | c :: rest => if isControl c then none else (readLiteral rest).map (cons c)

/-- Whether only blanks follow on a line. -/
def endsLine (s : List Char) : Bool :=
  match s.dropWhile isBlank with
  | '\n' :: _ => true
  | _ => false

/-- Reads up to three double quotes. Behind an escape at the end of a line, blanks and line breaks
are left out. -/
def readLongBasic (skipping : Bool) : List Char → Option (List Char × List Char)
  | [] => none
  | '"' :: '"' :: '"' :: '"' :: '"' :: rest => some (['"', '"'], rest)
  | '"' :: '"' :: '"' :: '"' :: rest => some (['"'], rest)
  | '"' :: '"' :: '"' :: rest => some ([], rest)
  | '\\' :: 'u' :: a :: b :: c :: d :: rest => do
    return cons (← escaped? [a, b, c, d]) (← readLongBasic false rest)
  | '\\' :: 'U' :: a :: b :: c :: d :: e :: f :: g :: h :: rest => do
    return cons (← escaped? [a, b, c, d, e, f, g, h]) (← readLongBasic false rest)
  | '\\' :: e :: rest =>
    if endsLine (e :: rest) then readLongBasic true (e :: rest)
    else do return cons (← shortEscape? e) (← readLongBasic false rest)
  | c :: rest =>
    if skipping && (isBlank c || c = '\n') then readLongBasic true rest
    else if (isControl c && c ≠ '\n') || c = '\\' then none
    else (readLongBasic false rest).map (cons c)

/-- Reads up to three single quotes. -/
def readLongLiteral : List Char → Option (List Char × List Char)
  | [] => none
  | '\'' :: '\'' :: '\'' :: '\'' :: '\'' :: rest => some (['\'', '\''], rest)
  | '\'' :: '\'' :: '\'' :: '\'' :: rest => some (['\''], rest)
  | '\'' :: '\'' :: '\'' :: rest => some ([], rest)
  | c :: rest =>
    if isControl c && c ≠ '\n' then none else (readLongLiteral rest).map (cons c)

/-- Leaves out a line break at the front. -/
def dropBreak : List Char → List Char
  | '\n' :: rest => rest
  | s => s

/-- Reads a quoted text of any kind, if there is one at the front. -/
def readQuoted : List Char → Option (List Char × List Char)
  | '"' :: '"' :: '"' :: rest => readLongBasic false (dropBreak rest)
  | '\'' :: '\'' :: '\'' :: rest => readLongLiteral (dropBreak rest)
  | '"' :: rest => readBasic rest
  | '\'' :: rest => readLiteral rest
  | _ => none

end Saboteur.Toml
