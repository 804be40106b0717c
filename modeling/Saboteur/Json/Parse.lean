import Saboteur.Json.Token

/-!
# Reading documents

Tokens are put together by a machine that keeps the arrays and objects which are still open. Its
state says what may come next; a token that may not come ends the reading. So a text of any depth is
read without recursion on its structure.
-/

namespace Saboteur.Json

/-- An array or object that is not closed yet. What it holds so far is in reverse order. -/
inductive Open where
  | array (items : List Json)
  | object (members : List (Literal × Json))
  /-- An object whose last key still waits for its value. -/
  | member (members : List (Literal × Json)) (key : Literal)

/-- What may come next. -/
inductive State where
  | value (stack : List Open)
  /-- A value, or the end of an array that was just opened. -/
  | firstItem (stack : List Open)
  /-- A key, or the end of an object that was just opened. -/
  | firstKey (stack : List Open)
  | key (members : List (Literal × Json)) (stack : List Open)
  | colon (members : List (Literal × Json)) (key : Literal) (stack : List Open)
  /-- A comma, or the end of what is open. -/
  | separator (top : Open) (stack : List Open)
  | complete (document : Json)

/-- Puts a value where it belongs. -/
def State.place (v : Json) : List Open → Option State
  | [] => some (.complete v)
  | .array items :: stack => some (.separator (.array (v :: items)) stack)
  | .member members k :: stack => some (.separator (.object ((k, v) :: members)) stack)
  | .object _ :: _ => none

/-- Takes a token where a value may come. -/
def State.takeValue (stack : List Open) : Token → Option State
  | .openArray => some (.firstItem stack)
  | .openObject => some (.firstKey stack)
  | .null => place .null stack
  | .bool b => place (.bool b) stack
  | .number n => place (.number n) stack
  | .string l => place (.string l) stack
  | _ => none

/-- Takes the next token. -/
def State.step : State → Token → Option State
  | .value stack, t => takeValue stack t
  | .firstItem stack, .closeArray => place (.array []) stack
  | .firstItem stack, t => takeValue (.array [] :: stack) t
  | .firstKey stack, .closeObject => place (.object []) stack
  | .firstKey stack, .string l => some (.colon [] l stack)
  | .key members stack, .string l => some (.colon members l stack)
  | .colon members k stack, .colon => some (.value (.member members k :: stack))
  | .separator (.array items) stack, .comma => some (.value (.array items :: stack))
  | .separator (.array items) stack, .closeArray => place (.array items.reverse) stack
  | .separator (.object members) stack, .comma => some (.key members stack)
  | .separator (.object members) stack, .closeObject => place (.object members.reverse) stack
  | _, _ => none

/-- The document that tokens make up. -/
def ofTokens? (ts : List Token) : Option Json :=
  match ts.foldlM State.step (.value []) with
  | some (.complete document) => some document
  | _ => none

/-- Reads a document. -/
def parse? (s : String) : Option Json := tokens s.toList >>= ofTokens?

end Saboteur.Json
