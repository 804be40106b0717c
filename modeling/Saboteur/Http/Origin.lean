import Saboteur.Net.Address
import Saboteur.Text.Quoted
import Saboteur.Url.Parser

/-!
# Origins

A browser sends the origin of the page that a request comes from, and the service serves only those
that are allowed. Allowed origins are given as a list with commas between them, each a scheme and an
authority.

The check of a piece admits more than an origin can be made of: a star, schemes with any characters,
and pieces of any length. A list with such a piece is unusable, and the service cannot start with it.
-/

namespace Saboteur.Http

/-- Why a text is no authority. -/
inductive AuthorityError where
  | empty
  | character
  | shape
  deriving DecidableEq

/-- The wording of an authority error. -/
def AuthorityError.message : AuthorityError → String
  | .empty => "empty string"
  | .character => "invalid uri character"
  | .shape => "invalid authority"

/-- Why an origin is refused. -/
inductive OriginError where
  | noAuthority (piece : String)
  | authority (piece : String) (e : AuthorityError)
  | emptyScheme (piece : String)
  deriving DecidableEq

/-- The wording of an origin error. -/
def OriginError.message : OriginError → String
  | .noAuthority piece => piece ++ " is missing the part following the scheme"
  | .authority piece e => piece ++ " does not have a valid authority: " ++ e.message
  | .emptyScheme piece => piece ++ " has an empty scheme"

/-! ## Authorities -/

namespace Authority

/-- Whether a character may stand in an address as it is. -/
def isPlain (c : Char) : Bool :=
  c.isAlphanum || "!#$&'()*+,-./:;=?@[]_~".toList.contains c

/-- What is known of an authority that is read so far. -/
structure Scan where
  colons : Nat
  opened : Bool
  closed : Bool
  percent : Bool
  /-- Whether the last character was an `@`. -/
  atSign : Bool

/-- Nothing is read yet. -/
def Scan.start : Scan := ⟨0, false, false, false, false⟩

/-- Takes the next character. Colons and percent signs before an `@` or in brackets do not count. -/
def Scan.take (s : Scan) (c : Char) : Except AuthorityError Scan :=
  let s := { s with atSign := c = '@' }
  if c = ':' then
    if 8 ≤ s.colons then .error .shape else .ok { s with colons := s.colons + 1 }
  else if c = '[' then
    if s.percent || s.opened then .error .shape else .ok { s with opened := true }
  else if c = ']' then
    if !s.opened || s.closed then .error .shape
    else .ok { s with closed := true, colons := 0, percent := false }
  else if c = '@' then .ok { s with colons := 0, percent := false }
  else if c = '%' then .ok { s with percent := true }
  else if isPlain c then .ok s
  else .error .character

/-- Whether a character ends an authority. -/
def isEnd (c : Char) : Bool := c = '/' || c = '?' || c = '#'

/-- Checks that a text is an authority: at most one colon counts, brackets are closed, something
follows an `@`. -/
def verify (text : String) : Except AuthorityError Unit := do
  let cs := text.toList
  if cs = [] then throw .empty
  let s ← (cs.takeWhile fun c => !isEnd c).foldlM Scan.take .start
  if s.opened ≠ s.closed ∨ 1 < s.colons ∨ s.atSign ∨ s.percent then throw .shape
  if cs.any isEnd then throw .character

end Authority

/-! ## Origins -/

/-- Cuts a text at the first mark between scheme and authority. -/
def cutScheme? : List Char → Option (List Char × List Char)
  | ':' :: '/' :: '/' :: rest => some ([], rest)
  | c :: rest => (cutScheme? rest).map fun p => (c :: p.1, p.2)
  | [] => none

/-- Checks a piece of a list of origins. -/
def verifyOrigin (piece : String) : Except OriginError Unit :=
  if piece = "*" then .ok ()
  else match cutScheme? piece.toList with
    | none => .error (.noAuthority piece)
    | some (scheme, rest) => do
      (Authority.verify (String.ofList rest)).mapError (.authority piece)
      if scheme = [] then throw (.emptyScheme piece)

/-- How long a scheme may be. -/
def maxSchemeLength : Nat := 64

/-- How long an address may be, in bytes. -/
def maxAddressLength : Nat := 65534

/-- Whether a character may stand in the scheme of an origin. -/
def isSchemeChar (c : Char) : Bool := Url.isSchemeChar c || c = '~'

/-- A scheme as it is sent: the two of the web in lowercase, any other as it is written. -/
def sentScheme (scheme : List Char) : List Char :=
  let lowered := scheme.map Url.lowerAscii
  if lowered = "http".toList ∨ lowered = "https".toList then lowered else scheme

/-- The text of the origin that a piece which passed the check names, if it names one. -/
def originText? (piece : String) : Option String :=
  match cutScheme? piece.toList with
  | none => none
  | some (scheme, rest) =>
    if scheme.all isSchemeChar ∧ scheme.length ≤ maxSchemeLength ∧
        piece.utf8ByteSize ≤ maxAddressLength then
      some (String.ofList (sentScheme scheme ++ "://".toList ++ rest))
    else none

/-- Why a list of origins cannot be served. -/
inductive CorsError where
  | refused (e : OriginError)
  /-- The check admits a piece that names no origin. -/
  | unusable (piece : String)
  deriving DecidableEq

/-- The origin of the service itself. -/
def ownOrigin (address : IpAddress) (port : Nat) : String :=
  let host := match address with
    | .v4 _ => address.display
    | .v6 _ => "[" ++ address.display ++ "]"
  "http://" ++ host ++ ":" ++ Nat.repr port

/-- The origin of a piece that passed the check. -/
def originOf (piece : String) : Except CorsError String :=
  match originText? piece with
  | some s => .ok s
  | none => .error (.unusable piece)

/-- The origins that are served: those of a list, or else the service's own. All pieces are checked
before any is used. -/
def servedOrigins (allowed : Option String) (address : IpAddress) (port : Nat) :
    Except CorsError (List String) := do
  let pieces := match allowed with
    | some s => (Text.splitList ',' s.toList).map String.ofList
    | none => [ownOrigin address port]
  for piece in pieces do
    (verifyOrigin piece).mapError .refused
  pieces.mapM originOf

end Saboteur.Http
