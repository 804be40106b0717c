import Saboteur.Bytes.Hex
import Saboteur.Bytes.Octets
import Saboteur.Json.Fields
import Saboteur.Text.Cutting

/-!
# Network addresses

Addresses of both versions of the internet protocol. The first run of at least two zero groups of
the longest such length is written as two colons. An address of the old version that is wrapped in
one of the new is written with its four numbers, except inside an address of a node.
-/

namespace Saboteur

/-- An address of a host. -/
inductive IpAddress where
  | v4 (bytes : Octets 4)
  | v6 (bytes : Octets 16)
  deriving DecidableEq

namespace IpAddress

/-- The address of the host itself. -/
def localhost : IpAddress := v4 ⟨[127, 0, 0, 1], rfl⟩

/-! ## Writing -/

/-- Four numbers with points between them. -/
def dotted (bytes : List UInt8) : String :=
  ".".intercalate (bytes.map fun b => Nat.repr b.toNat)

/-- Pairs of bytes as numbers. -/
def groups : List UInt8 → List Nat
  | a :: b :: rest => (a.toNat * 256 + b.toNat) :: groups rest
  | _ => []

/-- The hexadecimal digits of a group. -/
def groupText (n : Nat) : String := String.ofList (Nat.toDigits 16 n)

/-- Groups with colons between them. -/
def groupsText (gs : List Nat) : String := ":".intercalate (gs.map groupText)

/-- How many zeros a list begins with. -/
def leadingZeros (gs : List Nat) : Nat := (gs.takeWhile (· == 0)).length

/-- Start and length of the first of the longest runs of zeros, from a place on. -/
def longestZeros (place : Nat) : List Nat → Nat × Nat
  | [] => (place, 0)
  | g :: rest =>
    let here := leadingZeros (g :: rest)
    let later := longestZeros (place + 1) rest
    if later.2 ≤ here then (place, here) else later

/-- Eight groups with the longest run of zeros left out. -/
def compressed (gs : List Nat) : String :=
  let (start, length) := longestZeros 0 gs
  if length < 2 then groupsText gs
  else groupsText (gs.take start) ++ "::" ++ groupsText (gs.drop (start + length))

/-- The text of an address. -/
def display : IpAddress → String
  | v4 b => dotted b.toList
  | v6 b =>
    if (groups b.toList).take 6 = [0, 0, 0, 0, 0, 0xFFFF] then
      "::ffff:" ++ dotted (b.toList.drop 12)
    else compressed (groups b.toList)

/-! ## Reading -/

/-- Reads a number below 256 without leading zeros. -/
def readOctet? (s : List Char) : Option UInt8 :=
  if s.length = 0 ∨ 3 < s.length ∨ (s.head? = some '0' ∧ s.length ≠ 1) ∨
      !s.all Char.isDigit then none
  else
    let n := s.foldl (fun acc c => acc * 10 + (c.toNat - 0x30)) 0
    if n < 256 then some (UInt8.ofNat n) else none

/-- Reads four numbers with points between them. -/
def readDotted? (s : List Char) : Option (List UInt8) :=
  let parts := Text.splitList '.' s
  if parts.length = 4 then parts.mapM readOctet? else none

/-- Reads a group of up to four hexadecimal digits. -/
def readGroup? (s : List Char) : Option (List UInt8) :=
  if s.length = 0 ∨ 4 < s.length then none
  else (s.mapM Hex.value?).map fun ds =>
    let n := ds.foldl (fun acc d => acc * 16 + d) 0
    [UInt8.ofNat (n / 256), UInt8.ofNat (n % 256)]

/-- Reads groups with colons between them, the last of which may be four numbers with points. -/
def readGroupList? (dottedEnd : Bool) : List (List Char) → Option (List UInt8)
  | [] => some []
  | [s] => if dottedEnd && s.contains '.' then readDotted? s else readGroup? s
  | s :: rest => do
    let g ← readGroup? s
    let gs ← readGroupList? dottedEnd rest
    return g ++ gs

/-- Reads the groups of a text, which may be empty. -/
def readGroups? (dottedEnd : Bool) (s : List Char) : Option (List UInt8) :=
  if s.isEmpty then some [] else readGroupList? dottedEnd (Text.splitList ':' s)

/-- Cuts a text at its first two colons. -/
def cutAtGap? : List Char → Option (List Char × List Char)
  | ':' :: ':' :: rest => some ([], rest)
  | c :: rest => (cutAtGap? rest).map fun p => (c :: p.1, p.2)
  | [] => none

/-- Reads an address of the new version. A gap stands for at least one group. -/
def readV6? (s : List Char) : Option (Octets 16) :=
  match cutAtGap? s with
  | none => (readGroups? true s).bind (Octets.ofList? 16)
  | some (head, tail) =>
    match readGroups? false head, readGroups? true tail with
    | some before, some after =>
      if 14 < before.length + after.length then none
      else
        let gap := List.replicate (16 - before.length - after.length) 0
        Octets.ofList? 16 (before ++ gap ++ after)
    | _, _ => none

/-- Reads an address of either version. -/
def parse? (s : String) : Option IpAddress :=
  match (readDotted? s.toList).bind (Octets.ofList? 4) with
  | some b => some (v4 b)
  | none => (readV6? s.toList).map v6

end IpAddress

instance : WriteJson IpAddress := ⟨fun a => .text a.display⟩

instance : ReadJson IpAddress where
  read j := do
    match IpAddress.parse? (← Json.readText j) with
    | some a => return a
    | none => throw .mismatch

end Saboteur
