import Saboteur.Url.Host

/-!
# Addresses

An address of a resource, in the parts of the URL standard. Parts are kept as they are written, that
is encoded. An address whose scheme is not followed by a slash has no host and no segments, and
nothing can be appended to its path.
-/

namespace Saboteur

/-- Where a resource is served. -/
structure Url.Authority where
  username : String
  /-- Empty if there is no password. -/
  password : String
  host : Url.Host
  port : Option Nat
  deriving DecidableEq

/-- The place of a resource on its host. -/
inductive Url.Path where
  | opaqueText (s : String)
  | segments (ss : List String)
  deriving DecidableEq

/-- An address. -/
structure Url where
  scheme : String
  authority : Option Url.Authority
  path : Url.Path
  query : Option String
  fragment : Option String
  deriving DecidableEq

namespace Url

/-- The schemes with rules of their own. -/
def isSpecial (scheme : String) : Bool :=
  ["http", "https", "ws", "wss", "ftp", "file"].contains scheme

/-- The port that goes without saying. -/
def defaultPort? (scheme : String) : Option Nat :=
  match scheme with
  | "http" | "ws" => some 80
  | "https" | "wss" => some 443
  | "ftp" => some 21
  | _ => none

/-! ## Writing -/

namespace Authority

/-- The name and the password before the host. -/
def userinfo (a : Authority) : String :=
  let password := if a.password = "" then "" else ":" ++ a.password
  if a.username = "" ∧ a.password = "" then "" else a.username ++ password ++ "@"

/-- The port behind the host. -/
def portText (a : Authority) : String :=
  match a.port with
  | some p => ":" ++ Nat.repr p
  | none => ""

/-- The text of an authority. -/
def render (a : Authority) : String := "//" ++ a.userinfo ++ a.host.render ++ a.portText

end Authority

namespace Path

/-- The text of a path. -/
def render : Path → String
  | opaqueText s => s
  | segments ss => String.join (ss.map ("/" ++ ·))

/-- Whether a path would be taken for an authority. -/
def looksLikeAuthority : Path → Bool
  | segments ("" :: _ :: _) => true
  | _ => false

end Path

/-- The authority, or what keeps the path from being taken for one. -/
def authorityText (u : Url) : String :=
  match u.authority with
  | some a => a.render
  | none => if u.path.looksLikeAuthority then "/." else ""

/-- A part behind its mark, if there is one. -/
def marked (mark : String) : Option String → String
  | some s => mark ++ s
  | none => ""

/-- The text of an address. -/
def render (u : Url) : String :=
  u.scheme ++ ":" ++ u.authorityText ++ u.path.render ++ marked "?" u.query ++
    marked "#" u.fragment

/-! ## Paths -/

/-- Segments without an empty one behind others. -/
def dropEmptyEnd (ss : List String) : List String :=
  if 2 ≤ ss.length ∧ ss.getLast? = some "" then ss.dropLast else ss

/-- Segments followed by further ones. A lone empty segment makes room for them. -/
def appendSegments (ss more : List String) : List String :=
  if ss = [""] ∧ more ≠ [] then more else ss ++ more

end Url

end Saboteur
