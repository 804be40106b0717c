import Saboteur.Bytes.Hex
import Saboteur.Json.Fields
import Saboteur.Text.Case
import Saboteur.Text.Cutting

/-!
# Public keys

Clients differ in how they write the key of a validator: with or without `0x`, in either case, with
blanks around it. A key is normalised once, when it comes in, and is compared as a text from then
on. Its bytes are never looked at.
-/

namespace Saboteur

/-- A validator's key in normal form. -/
structure Pubkey where
  text : String
  deriving DecidableEq, Inhabited

namespace Pubkey

/-- Removes one `0x` or `0X`. -/
def stripMark : List Char → List Char
  | '0' :: 'x' :: rest => rest
  | '0' :: 'X' :: rest => rest
  | s => s

/-- The characters of the normal form: no blanks around, lowercase, behind one `0x`. -/
def normalise (raw : List Char) : List Char :=
  '0' :: 'x' :: Text.lowerList (stripMark (Text.trimList raw))

/-- The key that a text names. -/
def ofText (raw : String) : Pubkey := ⟨String.ofList (normalise raw.toList)⟩

/-- The key with these bytes. -/
def ofBytes (bytes : Octets 48) : Pubkey := ⟨Hex.render bytes.toList⟩

/-- The text of a key inside a diagnostic. -/
def debug (p : Pubkey) : String := "Pubkey(" ++ p.text ++ ")"

/-- Keys are ordered as texts. -/
def compare (p q : Pubkey) : Ordering :=
  if p.text < q.text then .lt else if p.text = q.text then .eq else .gt

end Pubkey

instance : ReadJson Pubkey := ⟨fun j => (Json.readText j).map Pubkey.ofText⟩

instance : WriteJson Pubkey := ⟨fun p => .text p.text⟩

end Saboteur
