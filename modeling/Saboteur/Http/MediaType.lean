import Saboteur.Text.Case

/-!
# Media types

The type of a body as its header names it: a type, a subtype, and parameters that play no role here
but have to be well formed. Letters count in either case, and a suffix behind a plus sign is not
part of the subtype.
-/

namespace Saboteur.Http

/-- The type of a body. -/
structure MediaType where
  type : String
  subtype : String
  deriving DecidableEq

namespace MediaType

/-- The type of documents. -/
def json : MediaType := ⟨"application", "json"⟩

/-- Whether a character may stand in a name. -/
def isToken (c : Char) : Bool :=
  c.isAlphanum || "!#$&-^_.+%'*`|~".toList.contains c

/-- Whether a character may stand in a quoted value. -/
def isQuoted (c : Char) : Bool := c.toNat == 9 || (0x20 ≤ c.toNat && c.toNat ≠ 0x7F)

/-- Whether what follows a quoted value is blank up to the next parameter, and that parameter. -/
def afterQuoted? : List Char → Option (List Char)
  | [] => some []
  | ';' :: rest => some rest
  | ' ' :: rest => afterQuoted? rest
  | _ => none

/-- Skips a quoted value up to its closing quote, which may not come at once. -/
def skipQuoted? (atStart : Bool) : List Char → Option (List Char)
  | [] => none
  | c :: rest =>
    if c = '"' && !atStart then some rest
    else if isQuoted c then skipQuoted? false rest
    else none

/-- Skips a value that is not quoted. -/
def skipPlain? (atStart : Bool) : List Char → Option (List Char)
  | [] => some []
  | c :: rest =>
    if c = ';' && !atStart then some rest
    else if isToken c then skipPlain? false rest
    else none

/-- Skips a value and what ends it. -/
def skipValue? : List Char → Option (List Char)
  | '"' :: rest => skipQuoted? true rest >>= afterQuoted?
  | rest => skipPlain? true rest

/-- Skips the name of a parameter and the sign behind it. -/
def skipName? (atStart : Bool) : List Char → Option (List Char)
  | [] => none
  | c :: rest =>
    if c = '=' && !atStart then some rest
    else if isToken c then skipName? false rest
    else none

/-- Whether a list of parameters is well formed. A step takes one parameter or one blank. -/
def parametersOk : (steps : Nat) → List Char → Bool
  | 0, s => s.isEmpty
  | _, [] => true
  | steps + 1, ' ' :: rest => parametersOk steps rest
  | steps + 1, s =>
    match skipName? true s >>= skipValue? with
    | some rest => parametersOk steps rest
    | none => false

/-- A subtype without its suffix. -/
def withoutSuffix (s : List Char) : List Char :=
  match s.reverse.dropWhile (· ≠ '+') with
  | _ :: kept => if kept.isEmpty then s else kept.reverse
  | [] => s

/-- Reads a media type. -/
def parse? (s : String) : Option MediaType :=
  let type := s.toList.takeWhile isToken
  match s.toList.dropWhile isToken with
  | '/' :: rest =>
    let subtype := rest.takeWhile isToken
    let parameters := rest.dropWhile isToken
    let wellFormed := match parameters with
      | [] => true
      | ';' :: rest => !subtype.isEmpty && parametersOk rest.length rest
      | _ => false
    if type.isEmpty || !wellFormed then none
    else some ⟨Text.lower (String.ofList type), Text.lower (String.ofList (withoutSuffix subtype))⟩
  | _ => none

end MediaType

end Saboteur.Http
