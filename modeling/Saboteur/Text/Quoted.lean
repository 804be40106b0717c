import Saboteur.Text.Case
import Saboteur.Text.PrintTable

/-!
# Quoted texts in diagnostics

Diagnostics show a text between double quotes. Characters that would not be seen, or would end the
quotation, are written as escapes.
-/

namespace Saboteur.Text

/-- Whether a character is written as its code point. -/
def needsCodePoint (c : Char) : Bool :=
  let n := c.toNat
  if n < 0x80 then n < 0x20 || n == 0x7F
  else inRanges extendingRanges n || inRanges unprintableRanges n

/-- The hexadecimal digits of a number, without leading zeros. -/
def hexDigits (n : Nat) : List Char := Nat.toDigits 16 n

/-- A character as it is written inside the quotes. -/
def quoteChar (c : Char) : List Char :=
  if c = '"' then ['\\', '"']
  else if c = '\\' then ['\\', '\\']
  else if c = '\n' then ['\\', 'n']
  else if c = '\r' then ['\\', 'r']
  else if c = '\t' then ['\\', 't']
  else if c.toNat = 0 then ['\\', '0']
  else if needsCodePoint c then ['\\', 'u', '\x7b'] ++ hexDigits c.toNat ++ ['\x7d']
  else [c]

/-- A text between double quotes. -/
def quoted (s : String) : String := String.ofList (['"'] ++ s.toList.flatMap quoteChar ++ ['"'])

/-- A list of texts between brackets, each quoted. -/
def quotedList (ss : List String) : String := "[" ++ ", ".intercalate (ss.map quoted) ++ "]"

end Saboteur.Text
