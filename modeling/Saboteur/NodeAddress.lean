import Saboteur.Json.Fields
import Saboteur.Text.Cutting
import Saboteur.Text.Quoted
import Saboteur.Url.Parser

/-!
# Addresses of nodes

The address of a node may hold a password, or a key in its path. Requests use the full address;
everything that is shown uses the redacted one, which has no more than scheme, host and port.

Paths of requests are appended, so an empty segment at the end is dropped.
-/

namespace Saboteur

/-- The address of a node. -/
structure NodeAddress where
  full : Url
  redacted : String
  deriving DecidableEq

namespace NodeAddress

/-- Why a text is no address of a node. -/
inductive ParseError where
  | empty
  /-- Nothing can be appended to the path. -/
  | noBase
  | malformed (e : Url.ParseError)
  /-- There is no host, so there is nothing left to show. -/
  | noHost
  deriving DecidableEq

/-- The kind of an address error. -/
def ParseError.kind : ParseError → String
  | .empty | .noBase => "InvalidUrl"
  | .malformed _ => "ParseError"
  | .noHost => "RedactError"

/-- The wording of an address error. -/
def ParseError.message : ParseError → String
  | .empty => "invalid url: empty url"
  | .noBase => "invalid url: URL cannot be a base."
  | .malformed e => "unable to parse url: " ++ e.message
  | .noHost => "unable to redact url: Unable to redact username."

/-- Whether a text names a scheme. -/
def namesScheme : List Char → Bool
  | ':' :: '/' :: '/' :: _ => true
  | _ :: rest => namesScheme rest
  | [] => false

/-- A text with a scheme. -/
def withScheme (s : List Char) : List Char :=
  if namesScheme s then s else "http://".toList ++ s

/-- Whether who is named can be left out: there is an authority with a host. -/
def redactable (u : Url) : Bool :=
  match u.authority with
  | some a => a.host ≠ .domain "" && u.scheme ≠ "file"
  | none => true

/-- An address without anything that is not to be shown. -/
def redact (u : Url) (segments : List String) : Url :=
  { u with
    authority := u.authority.map fun a => { a with username := "", password := "" }
    path := .segments (if segments.isEmpty then [] else [""])
    query := none
    fragment := none }

/-- The address of a node at a URL. -/
def ofUrl (u : Url) : Except ParseError NodeAddress :=
  match u.path with
  | .opaqueText _ => .error .noBase
  | .segments ss =>
    let full := { u with path := .segments (Url.dropEmptyEnd ss) }
    if redactable u then .ok ⟨full, (redact full ss).render⟩ else .error .noHost

/-- Reads the address of a node. A text without a scheme is taken for host and port. -/
def parse [Url.Idna] (s : String) : Except ParseError NodeAddress :=
  let trimmed := Text.trimList s.toList
  if trimmed.isEmpty then .error .empty
  else (Url.parse (String.ofList (withScheme trimmed))).mapError .malformed >>= ofUrl

/-- An address is shown as the redacted one. -/
instance : ToString NodeAddress := ⟨redacted⟩

/-- The text of an address inside a diagnostic. -/
def debug (a : NodeAddress) : String := Text.quoted a.redacted

/-- The address of a resource of a node. -/
def resource (a : NodeAddress) (segments : List String) : Url :=
  match a.full.path with
  | .opaqueText _ => a.full
  | .segments ss =>
    { a.full with path := .segments (Url.appendSegments (Url.dropEmptyEnd ss) segments) }

end NodeAddress

instance : WriteJson NodeAddress := ⟨fun a => .text a.full.render⟩

instance [Url.Idna] : ReadJson NodeAddress where
  read j := do
    match NodeAddress.parse (← Json.readText j) with
    | .ok a => return a
    | .error _ => throw .mismatch

end Saboteur
