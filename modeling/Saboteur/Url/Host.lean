import Saboteur.Net.Address
import Saboteur.Url.Domain

/-!
# Hosts

The host of an address is a domain name or a numeric address. With the well-known schemes a name
that ends in a number is a numeric address, which may be written in fewer than four parts and in
other bases; with any other scheme a name is taken as it is.
-/

namespace Saboteur.Url

/-- Why a text is no address. -/
inductive ParseError where
  | noScheme
  | emptyHost
  | domainName
  | domainCharacter
  | port
  | ipv4
  | ipv6
  deriving DecidableEq

/-- The wording of an address error. -/
def ParseError.message : ParseError → String
  | .noScheme => "relative URL without a base"
  | .emptyHost => "empty host"
  | .domainName => "invalid international domain name"
  | .domainCharacter => "invalid domain character"
  | .port => "invalid port number"
  | .ipv4 => "invalid IPv4 address"
  | .ipv6 => "invalid IPv6 address"

/-- A host. A name may be empty where the scheme does not need one. -/
inductive Host where
  | domain (name : String)
  | ipv4 (bytes : Octets 4)
  | ipv6 (bytes : Octets 16)
  deriving DecidableEq

namespace Host

/-- The text of a host. -/
def render : Host → String
  | domain name => name
  | ipv4 b => IpAddress.dotted b.toList
  | ipv6 b => "[" ++ IpAddress.compressed (IpAddress.groups b.toList) ++ "]"

/-! ## Numbers -/

/-- Digits in a base, if there are only such. -/
def digits? (base : Nat) (s : List Char) : Option Nat :=
  (s.mapM (Text.digitValue? base)).map fun ds => ds.foldl (fun acc d => acc * base + d) 0

/-- A part of a numeric address: hexadecimal behind `0x`, octal behind `0`, else decimal. -/
def number? : List Char → Option Nat
  | [] => none
  | '0' :: 'x' :: ds | '0' :: 'X' :: ds => digits? 16 ds
  | ['0'] => some 0
  | '0' :: ds => digits? 8 ds
  | ds => digits? 10 ds

/-- The parts of a name, without an empty one at the end. -/
def parts (s : List Char) : List (List Char) :=
  let all := Text.splitList '.' s
  if 2 ≤ all.length && all.getLast? = some [] then all.dropLast else all

/-- Whether the last part of a name is a number. -/
def endsInNumber (s : List Char) : Bool :=
  match (parts s).getLast? with
  | some last => !last.isEmpty && (last.all Char.isDigit || (number? last).isSome)
  | none => false

/-- The four bytes of a numeric address. The last part fills what the parts before it leave. -/
def ofNumbers? (ns : List Nat) : Option (Octets 4) :=
  match ns.reverse with
  | [] => none
  | last :: before =>
    if 3 < before.length || before.any (255 < ·) || Nat.pow 256 (4 - before.length) ≤ last then none
    else Octets.ofList? 4
      (before.reverse.map UInt8.ofNat ++ bigEndian (4 - before.length) last)

/-- Reads a numeric address of the old version. -/
def parseIpv4 (s : List Char) : Except ParseError Host :=
  match (parts s).mapM number? >>= ofNumbers? with
  | some b => .ok (ipv4 b)
  | none => .error .ipv4

/-! ## Reading -/

/-- Reads a host in brackets, the first of which is already taken. -/
def parseBracketed (s : List Char) : Except ParseError Host :=
  if s.getLast? = some ']' then
    match IpAddress.readV6? s.dropLast with
    | some b => .ok (ipv6 b)
    | none => .error .ipv6
  else .error .ipv6

/-- Reads a host of a well-known scheme. -/
def parse [Idna] : List Char → Except ParseError Host
  | '[' :: rest => parseBracketed rest
  | s =>
    match normalDomain? (decodePercent (String.ofList s).toUTF8.toList) with
    | none => .error .domainName
    | some name =>
      if name = "" then .error .emptyHost
      else if endsInNumber name.toList then parseIpv4 name.toList
      else .ok (domain name)

/-- Whether a character may not stand in a host of any other scheme. -/
def forbidden (c : Char) : Bool := "\x00\t\n\r #/:<>?@[\\]^|".toList.contains c

/-- Reads a host of any other scheme. -/
def parseOpaque : List Char → Except ParseError Host
  | '[' :: rest => parseBracketed rest
  | s =>
    if s.any forbidden then .error .domainCharacter
    else .ok (domain (encodePart isControl s))

/-- Reads a host as its scheme wants it. -/
def read [Idna] (special : Bool) (s : List Char) : Except ParseError Host :=
  if special then parse s else parseOpaque s

end Host

end Saboteur.Url
