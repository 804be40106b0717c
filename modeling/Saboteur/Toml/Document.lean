import Saboteur.Toml.Entries
import Saboteur.Toml.Quoted
import Saboteur.Toml.Scalar

/-!
# Settings files

A settings file consists of lines: headers of tables, keys with values, comments. Reading one gives
the document of its members. A file with a fault anywhere has no document.
-/

namespace Saboteur.Toml

/-! ## Blanks, comments, keys -/

/-- Drops blanks. -/
def skipBlanks (s : List Char) : List Char := s.dropWhile isBlank

/-- Drops blanks, line breaks and comments. -/
def skipGap (comment : Bool) : List Char → List Char
  | [] => []
  | c :: rest =>
    if comment && !isControl c then skipGap true rest
    else if isBlank c || c = '\n' then skipGap false rest
    else if c = '#' then skipGap true rest
    else c :: rest

/-- Goes to the next line. Nothing but blanks and a comment may stand before it. -/
def endLine? (s : List Char) : Option (List Char) :=
  let s := match skipBlanks s with
    | '#' :: rest => rest.dropWhile fun c => !isControl c
    | s => s
  match s with
  | [] => some []
  | '\n' :: rest => some rest
  | _ => none

/-- Whether a character may stand in a key without quotes. -/
def isKeyChar (c : Char) : Bool := c.isAlphanum || c = '_' || c = '-'

/-- Reads a key. -/
def readKey (s : List Char) : Option (String × List Char) :=
  match s with
  | '"' :: rest => (readBasic rest).map fun r => (String.ofList r.1, r.2)
  | '\'' :: rest => (readLiteral rest).map fun r => (String.ofList r.1, r.2)
  | s =>
    let word := s.takeWhile isKeyChar
    if word.isEmpty then none else some (String.ofList word, s.dropWhile isKeyChar)

/-- Reads keys with points between them, and the blanks behind them. -/
def readPath : Nat → List Char → Option (List String × List Char)
  | 0, _ => none
  | fuel + 1, s => do
    let (k, s) ← readKey (skipBlanks s)
    match skipBlanks s with
    | '.' :: rest =>
      let (ks, s) ← readPath fuel rest
      return (k :: ks, s)
    | s => return ([k], s)

/-- Takes a character off the front. -/
def expect (c : Char) : List Char → Option (List Char)
  | d :: rest => if d = c then some rest else none
  | [] => none

/-! ## Values -/

mutual

/-- Reads a value. -/
def readValue : Nat → List Char → Option (Json × List Char)
  | 0, _ => none
  | fuel + 1, s =>
    match s with
    | '[' :: rest => (readItems fuel (skipGap false rest)).map fun r => (.array r.1, r.2)
    | '\x7b' :: rest =>
      match skipBlanks rest with
      | '\x7d' :: rest => some (.object [], rest)
      | rest => (readPairs fuel Table.empty rest).map fun r => (.object (members r.1), r.2)
    | '"' :: _ | '\'' :: _ => (readQuoted s).map fun r => (.text (String.ofList r.1), r.2)
    | s => readScalar s

/-- Reads the items of a list up to its end. -/
def readItems : Nat → List Char → Option (List Json × List Char)
  | 0, _ => none
  | fuel + 1, s =>
    match s with
    | ']' :: rest => some ([], rest)
    | s => do
      let (v, s) ← readValue fuel s
      match skipGap false s with
      | ',' :: rest =>
        let (vs, s) ← readItems fuel (skipGap false rest)
        return (v :: vs, s)
      | ']' :: rest => return ([v], rest)
      | _ => none

/-- Reads the members of a table in braces up to its end. -/
def readPairs : Nat → Entries → List Char → Option (Entries × List Char)
  | 0, _, _ => none
  | fuel + 1, es, s => do
    let (path, s) ← readPath fuel s
    let (v, s) ← readValue fuel (skipBlanks (← expect '=' s))
    let es ← define es [] v path
    match skipBlanks s with
    | ',' :: rest => readPairs fuel es rest
    | '\x7d' :: rest => return (es, rest)
    | _ => none

end

/-! ## Lines -/

/-- Reads a header behind its first bracket, and opens its table. -/
def readHeader (fuel : Nat) (es : Entries) (s : List Char) :
    Option ((Entries × List Step) × List Char) :=
  match s with
  | '[' :: rest => do
    let (path, s) ← readPath fuel rest
    let s ← expect ']' (← expect ']' s)
    return (← openItem es path, ← endLine? s)
  | s => do
    let (path, s) ← readPath fuel s
    return (← openTable es path, ← endLine? (← expect ']' s))

/-- Reads lines inside the table at a place. -/
def readLines : Nat → Entries → List Step → List Char → Option Entries
  | 0, _, _, _ => none
  | fuel + 1, es, place, s =>
    match skipGap false s with
    | [] => some es
    | '[' :: rest => do
      let ((es, place), s) ← readHeader fuel es rest
      readLines fuel es place s
    | s => do
      let (path, s) ← readPath fuel s
      let (v, s) ← readValue fuel (skipBlanks (← expect '=' s))
      let es ← define es place v path
      readLines fuel es place (← endLine? s)

/-- Drops carriage returns before line feeds. -/
def joinBreaks : List Char → List Char
  | '\r' :: '\n' :: rest => '\n' :: joinBreaks rest
  | c :: rest => c :: joinBreaks rest
  | [] => []

/-- Drops a mark of the byte order. -/
def dropMark : List Char → List Char
  | '\uFEFF' :: rest => rest
  | s => s

/-- Reads a settings file. -/
def parse? (s : String) : Option Json :=
  let cs := joinBreaks (dropMark s.toList)
  (readLines (cs.length + 2) Table.empty [] cs).map fun es => .object (members es)

end Saboteur.Toml
