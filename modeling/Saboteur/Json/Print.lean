import Saboteur.Json.Number

/-!
# Writing documents

The text of a document has no blanks. Only the characters that a quoted text may not hold are
escaped.
-/

namespace Saboteur.Json

/-- A character as it is written inside quotes. -/
def escapeChar (c : Char) : List Char :=
  if c = '"' then ['\\', '"']
  else if c = '\\' then ['\\', '\\']
  else if c = '\n' then ['\\', 'n']
  else if c = '\r' then ['\\', 'r']
  else if c = '\t' then ['\\', 't']
  else if c = '\x08' then ['\\', 'b']
  else if c = '\x0c' then ['\\', 'f']
  else if c.toNat < 0x20 then
    ['\\', 'u', '0', '0'] ++ (Nat.toDigits 16 (c.toNat + 0x100)).drop 1
  else [c]

/-- A text between quotes. -/
def renderText (s : String) : String :=
  String.ofList ('"' :: s.toList.flatMap escapeChar ++ ['"'])

/-- A literal between quotes. One without a text is written as the replacement character. -/
def renderLiteral : Literal → String
  | .text s => renderText s
  | .unpaired => renderText "\uFFFD"

mutual

/-- The text of a document. -/
def render : Json → String
  | .null => "null"
  | .bool b => if b then "true" else "false"
  | .number n => n.render
  | .string l => renderLiteral l
  | .array items => "[" ++ ",".intercalate (renderItems items) ++ "]"
  | .object members => "\x7b" ++ ",".intercalate (renderMembers members) ++ "\x7d"

/-- The texts of items. -/
def renderItems : List Json → List String
  | [] => []
  | j :: rest => render j :: renderItems rest

/-- The texts of members. -/
def renderMembers : List (Literal × Json) → List String
  | [] => []
  | (k, j) :: rest => (renderLiteral k ++ ":" ++ render j) :: renderMembers rest

end

end Saboteur.Json
