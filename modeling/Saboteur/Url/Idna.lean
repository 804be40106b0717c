import Saboteur.Text.Case
import Saboteur.Text.PrintTable
import Saboteur.Url.Domain
import Saboteur.Url.Punycode

/-!
# A part of the tables of international domain names

The program runs with a part of the tables. Letters become lowercase, the wide forms of ASCII become
plain, and what neither prints nor is written is left out or refused; a label that is not of ASCII
then is written in Punycode behind `xn--`, and a label that comes with that mark has to be what would
be written here. This is what the tables say of names that are given composed, from left to right
and in letters without further forms. Of other names they say more.
-/

namespace Saboteur.Url

/-- Whether a character may not stand in a label. -/
def forbiddenInLabel (c : Char) : Bool :=
  forbiddenInDomain c || Text.inRanges Text.unprintableRanges c.toNat || c.toNat == 0xFFFD

/-- The characters that do not count in a domain name. -/
def uncounted : List (Nat × Nat) :=
  [(0xAD, 0xAD), (0x34F, 0x34F), (0x200B, 0x200B), (0x2060, 0x2060), (0xFE00, 0xFE0F),
    (0xFEFF, 0xFEFF)]

/-- The full stops of other scripts. -/
def fullStops : List (Nat × Nat) := [(0x3002, 0x3002), (0xFF0E, 0xFF0E), (0xFF61, 0xFF61)]

/-- The wide forms of the characters of ASCII. -/
def wideForms : List (Nat × Nat) := [(0xFF01, 0xFF5E)]

/-- What a character of a domain name counts as. -/
def domainChar (c : Char) : List Char :=
  let n := c.toNat
  if Text.inRanges uncounted n then []
  else if Text.inRanges fullStops n then ['.']
  else if Text.inRanges wideForms n then [Text.lowerChar (Char.ofNat (n - 0xFEE0))]
  else if n = 0x130 then ['i', Char.ofNat 0x307]
  else if n = 0x3A3 then [Char.ofNat 0x3C3]
  else [Text.lowerChar c]

/-- Whether a text that is not of ASCII is a label as it is. -/
def isWideLabel (s : List Char) : Bool :=
  !s.all isAscii && s.all (fun c => !forbiddenInLabel c && c ≠ '.' && domainChar c == [c]) &&
    !(s.head?.any fun c => Text.inRanges Text.extendingRanges c.toNat)

/-- The form of ASCII of a label whose characters are replaced already, if it has one. -/
def asciiLabel? (s : List Char) : Option (List Char) :=
  if s.any forbiddenInLabel then none
  else if s.take 4 = punycodeMark then
    if s.all isAscii && (Punycode.decode? (s.drop 4)).any isWideLabel then some s else none
  else if s.all isAscii then some s
  else if isWideLabel s then (Punycode.encode? s).map (punycodeMark ++ ·)
  else none

/-- The tables that the program runs with. -/
instance Idna.common : Idna where
  toAscii? s :=
    ((Text.splitList '.' (s.toList.flatMap domainChar)).mapM asciiLabel?).map fun labels =>
      ".".intercalate (labels.map String.ofList)

end Saboteur.Url
