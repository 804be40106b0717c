import Saboteur.Text.Cutting
import Saboteur.Url.PercentEncoding

/-!
# Domain names

A domain name is normalised before it is used. A plain name is of ASCII and has no label in Punycode;
its letters become lowercase, and that is all. What becomes of any other name is a matter of tables:
which characters count as others, how they are composed, which may stand beside which. These tables
are no part of this development. They come from outside as an `Idna`, and whatever is said of
addresses holds for all that have the two properties of a `LawfulIdna`.
-/

namespace Saboteur.Url

/-! ## Characters -/

/-- Whether a character is of ASCII. -/
def isAscii (c : Char) : Bool := c.toNat < 0x80

/-- Whether a character is a capital letter of ASCII. -/
def IsCapital (c : Char) : Prop := 0x41 ≤ c.toNat ∧ c.toNat ≤ 0x5A

instance (c : Char) : Decidable (IsCapital c) := inferInstanceAs (Decidable (_ ∧ _))

/-- A letter of ASCII in lowercase. -/
def lowerAscii (c : Char) : Char := if IsCapital c then Char.ofNat (c.toNat + 0x20) else c

/-- Whether a character of ASCII may not stand in a domain name. -/
def forbiddenInDomain (c : Char) : Bool :=
  c.toNat ≤ 0x20 || c.toNat == 0x7F || "%#/:<>?@[\\]^|".toList.contains c

/-! ## Names -/

/-- The mark of a label in Punycode. -/
def punycodeMark : List Char := "xn--".toList

/-- Whether a name is plain. -/
def isPlainName (s : List Char) : Bool :=
  s.all isAscii &&
    (Text.splitList '.' (s.map lowerAscii)).all fun label => label.take 4 ≠ punycodeMark

/-- The tables of international domain names. -/
class Idna where
  /-- The form of ASCII of a name that is not plain, if it has one. -/
  toAscii? : String → Option String

/-- What is relied on of the tables. -/
class LawfulIdna [Idna] : Prop where
  /-- A form of ASCII is of ASCII, and lowercase. -/
  ascii_of_toAscii? {s name : String} : Idna.toAscii? s = some name →
    ∀ c ∈ name.toList, isAscii c = true ∧ ¬ IsCapital c
  /-- A form of ASCII that is not plain is its own form of ASCII. -/
  toAscii?_toAscii? {s name : String} : Idna.toAscii? s = some name →
    isPlainName name.toList = false → Idna.toAscii? name = some name

section Normalising

variable [Idna]

/-- The form of ASCII of a name, if it has one. -/
def asciiForm? (s : String) : Option String :=
  if isPlainName s.toList then some (String.ofList (s.toList.map lowerAscii)) else Idna.toAscii? s

/-- The normal form of a domain name, if it has one. -/
def normalDomain? (bytes : List UInt8) : Option String := do
  let name ← asciiForm? (← String.fromUTF8? ⟨bytes.toArray⟩)
  if name.toList.any forbiddenInDomain then none else some name

end Normalising

end Saboteur.Url
