import Saboteur.Url

/-!
# Reading addresses

An address is read from left to right: scheme, authority, path, query, fragment. Control characters
and blanks around it, and line breaks and tabs anywhere in it, do not count. Only addresses with a
scheme are read; there is no other address that one could be relative to.
-/

namespace Saboteur.Url

/-! ## Cleaning -/

/-- Whether a character is cut off at the ends. -/
def isMargin (c : Char) : Bool := c.toNat ≤ 0x20

/-- Whether a character is ignored everywhere. -/
def isIgnored (c : Char) : Bool := c = '\t' || c = '\n' || c = '\r'

/-- The characters of an address that count. -/
def clean (s : List Char) : List Char :=
  ((s.dropWhile isMargin).reverse.dropWhile isMargin).reverse.filter fun c => !isIgnored c

/-! ## Scheme -/

/-- Whether a character may stand in a scheme behind its first letter. -/
def isSchemeChar (c : Char) : Bool := c.isAlphanum || c = '+' || c = '-' || c = '.'

/-- The scheme of an address and what follows its colon. -/
def scheme? (s : List Char) : Option (String × List Char) :=
  match s with
  | c :: _ =>
    if !c.isAlpha then none
    else match s.dropWhile isSchemeChar with
      | ':' :: rest => some (String.ofList ((s.takeWhile isSchemeChar).map lowerAscii), rest)
      | _ => none
  | [] => none

/-! ## Authority -/

/-- Whether a character ends the authority. -/
def endsAuthority (special : Bool) (c : Char) : Bool :=
  c = '/' || c = '?' || c = '#' || (special && c = '\\')

/-- Cuts a list at its last occurrence of a character. -/
def cutAtLast? (c : Char) (s : List Char) : Option (List Char × List Char) :=
  if s.contains c then
    some (((s.reverse.dropWhile (· ≠ c)).drop 1).reverse, (s.reverse.takeWhile (· ≠ c)).reverse)
  else none

/-- The name and the password of what stands before the last `@`. -/
def userinfoOf (s : List Char) : String × String :=
  (encodePart userinfoSet (s.takeWhile (· ≠ ':')),
    encodePart userinfoSet ((s.dropWhile (· ≠ ':')).drop 1))

/-- Cuts the host off its port. A colon between brackets belongs to the host. -/
def cutHost (bracketed : Bool) : List Char → List Char × List Char
  | [] => ([], [])
  | c :: rest =>
    if c = ':' && !bracketed then ([], c :: rest)
    else
      let bracketed := if c = '[' then true else if c = ']' then false else bracketed
      let (host, port) := cutHost bracketed rest
      (c :: host, port)

/-- Reads the digits of a port and gives back what follows them. -/
def readPort (value : Nat) (any : Bool) :
    List Char → Except ParseError (Option Nat × List Char)
  | [] => .ok (if any then some value else none, [])
  | c :: rest =>
    if c.isDigit then
      let value := value * 10 + (c.toNat - 0x30)
      if value < 65536 then readPort value true rest else .error .port
    else if c = '/' || c = '\\' || c = '?' || c = '#' then
      .ok (if any then some value else none, c :: rest)
    else .error .port

/-- Reads what stands behind a host, and gives back what follows it. A port that goes without saying
is not kept. -/
def readPortText (scheme : String) (portText rest : List Char) :
    Except ParseError (Option Nat × List Char) :=
  match portText with
  | ':' :: digits => (readPort 0 false (digits ++ rest)).map fun r =>
    (r.1.filter fun p => defaultPort? scheme ≠ some p, r.2)
  | _ => .ok (none, rest)

/-- Reads a host and its port, and gives back what follows them. -/
def readHostport [Idna] (scheme : String) (hostport rest : List Char) :
    Except ParseError (Host × Option Nat × List Char) := do
  let special := isSpecial scheme
  let (hostText, portText) := cutHost false hostport
  if hostText = [] ∧ (special ∨ portText ≠ []) then .error .emptyHost
  else
    let host ← Host.read special hostText
    let (port, rest) ← readPortText scheme portText rest
    return (host, port, rest)

/-- The names in the text of an authority, if there are any, and what stands behind them. -/
def cutNames (text : List Char) : Option (List Char) × List Char :=
  match cutAtLast? '@' text with
  | some (names, hostport) => (some names, hostport)
  | none => (none, text)

/-- Reads an authority, and gives back what follows it. Who is named has to have a host. -/
def readAuthority [Idna] (scheme : String) (s : List Char) :
    Except ParseError (Authority × List Char) := do
  let text := s.takeWhile fun c => !endsAuthority (isSpecial scheme) c
  let rest := s.dropWhile fun c => !endsAuthority (isSpecial scheme) c
  let (names, hostport) := cutNames text
  let (username, password) := userinfoOf (names.getD [])
  if names = some [] ∧ hostport = [] ∧ rest ≠ [] then .error .emptyHost
  else
    let (host, port, rest) ← readHostport scheme hostport rest
    if host = .domain "" ∧ (username ≠ "" ∨ password ≠ "") then .error .emptyHost
    else .ok ({ username, password, host, port }, rest)

/-! ## Path -/

/-- The ways to write the segment that stands for the one above. -/
def isDoubleDot (s : List Char) : Bool :=
  let t := String.ofList (s.map lowerAscii)
  t = ".." || t = ".%2e" || t = "%2e." || t = "%2e%2e"

/-- The ways to write the segment that stands for itself. -/
def isSingleDot (s : List Char) : Bool :=
  let t := String.ofList (s.map lowerAscii)
  t = "." || t = "%2e"

/-- Whether a character ends a segment. -/
def endsSegment (special : Bool) (c : Char) : Bool := c = '/' || (special && c = '\\')

/-- The pieces of a path between its slashes. -/
def pathPieces (special : Bool) (s : List Char) : List (List Char) :=
  Text.splitList '/' (s.map fun c => if endsSegment special c then '/' else c)

/-- Takes the pieces of a path in turn: some stand for other segments, and the last one is kept as
an empty segment then. -/
def resolvePieces (path : List String) : List (List Char) → List String
  | [] => path
  | piece :: rest =>
    let closing := if rest.isEmpty then [""] else []
    let path :=
      if isDoubleDot piece then path.dropLast ++ closing
      else if isSingleDot piece then path ++ closing
      else path ++ [encodePart pathSet piece]
    resolvePieces path rest

/-- The segments of a path behind its first slash. -/
def segmentsOf (special : Bool) (s : List Char) : List String :=
  resolvePieces [] (pathPieces special s)

/-- The segments of a path behind an authority. A well-known scheme always has one. -/
def pathAfterAuthority (special : Bool) : List Char → List String
  | [] => if special then segmentsOf special [] else []
  | c :: rest =>
    if endsSegment special c then segmentsOf special rest else segmentsOf special (c :: rest)

/-! ## The whole -/

/-- Cuts a list before the first character of a kind. -/
def cutBefore (stop : Char → Bool) (s : List Char) : List Char × List Char :=
  (s.takeWhile fun c => !stop c, s.dropWhile fun c => !stop c)

/-- A part behind its mark, encoded. -/
def readMarked (encoded : Char → Bool) : List Char → Option String
  | _ :: s => some (encodePart encoded s)
  | [] => none

/-- Puts an address together from its scheme, its authority, and what follows. -/
def assemble (scheme : String) (authority : Option Authority) (rest : List Char)
    (path : List Char → Path) : Url :=
  let special := isSpecial scheme
  let (pathText, rest) := cutBefore (fun c => c = '?' || c = '#') rest
  let (queryText, fragmentText) := cutBefore (· = '#') rest
  { scheme, authority, path := path pathText,
    query := readMarked (querySet special) queryText
    fragment := readMarked fragmentSet fragmentText }

/-- Whether a list of characters is a drive of a file system. -/
def isDrive : List Char → Bool
  | [c, sep] => c.isAlpha && (sep = ':' || sep = '|')
  | _ => false

/-- The authority of a file, whose host may be missing. -/
def fileAuthority [Idna] (host : List Char) : Except ParseError Authority :=
  if host = [] ∨ isDrive host then .ok ⟨"", "", .domain "", none⟩
  else (Host.parse host).map fun h => ⟨"", "", h, none⟩

/-- Reads the address of a file. -/
def readFile [Idna] (s : List Char) : Except ParseError Url :=
  let finish (authority : Authority) (rest : List Char) : Url :=
    assemble "file" (some authority) rest fun p => .segments (pathAfterAuthority true p)
  match s with
  | a :: b :: rest =>
    if endsSegment true a && endsSegment true b then
      let (host, rest) := cutBefore (endsAuthority true) rest
      (fileAuthority host).map (finish · rest)
    else .ok (finish ⟨"", "", .domain "", none⟩ s)
  | s => .ok (finish ⟨"", "", .domain "", none⟩ s)

/-- Reads an address behind its scheme. -/
def readAfterScheme [Idna] (scheme : String) (s : List Char) : Except ParseError Url := do
  let special := isSpecial scheme
  let withAuthority (s : List Char) : Except ParseError Url := do
    let (authority, rest) ← readAuthority scheme s
    return assemble scheme (some authority) rest fun p => .segments (pathAfterAuthority special p)
  if scheme = "file" then readFile s
  else if special then withAuthority (s.dropWhile (endsSegment true))
  else match s with
    | '/' :: '/' :: rest => withAuthority rest
    | '/' :: rest => return assemble scheme none rest fun p => .segments (segmentsOf special p)
    | s => return assemble scheme none s fun p => .opaqueText (encodePart isControl p)

/-- Reads an address. -/
def parse [Idna] (s : String) : Except ParseError Url :=
  match scheme? (clean s.toList) with
  | none => .error .noScheme
  | some (scheme, rest) => readAfterScheme scheme rest

end Saboteur.Url
