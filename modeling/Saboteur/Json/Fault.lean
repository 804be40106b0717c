import Saboteur.Json.Fields
import Saboteur.Text.Quoted

/-!
# Faults of documents

Where and why a text stops being a document. A place is given by its line and by how many bytes of
that line were looked at; a text that ends too early is at fault at its end.

A well-formed text may still be no value of the wanted type. What is known of the place then is
where the document ends.
-/

namespace Saboteur.Json

/-- Why a text is no document. -/
inductive FaultReason where
  | endInValue
  | endInText
  | endInArray
  | endInObject
  | noValue
  | noConstant
  | noColon
  | noItemEnd
  | noMemberEnd
  | keyNoText
  | commaAtEnd
  | textBehind
  | badNumber
  | badEscape
  | controlCharacter

/-- The wording of a reason. -/
def FaultReason.message : FaultReason → String
  | .endInValue => "EOF while parsing a value"
  | .endInText => "EOF while parsing a string"
  | .endInArray => "EOF while parsing a list"
  | .endInObject => "EOF while parsing an object"
  | .noValue => "expected value"
  | .noConstant => "expected ident"
  | .noColon => "expected `:`"
  | .noItemEnd => "expected `,` or `]`"
  | .noMemberEnd => "expected `,` or `\x7d`"
  | .keyNoText => "key must be a string"
  | .commaAtEnd => "trailing comma"
  | .textBehind => "trailing characters"
  | .badNumber => "invalid number"
  | .badEscape => "invalid escape"
  | .controlCharacter => "control character (\\u0000-\\u001F) found while parsing a string"

/-- A reason together with the text that was not looked at. -/
abbrev Stop := FaultReason × List Char

/-! ## Faults inside a token -/

/-- The fault in a constant with these letters. -/
def constantFault : List Char → List Char → Stop
  | _ :: _, [] => (.endInValue, [])
  | expected :: more, c :: rest =>
    if c = expected then constantFault more rest else (.noConstant, rest)
  | [], rest => (.noConstant, rest)

/-- The fault in a quoted text. -/
def textFault : List Char → Stop
  | [] => (.endInText, [])
  | '\\' :: 'u' :: a :: b :: c :: d :: rest =>
    if (fourDigits? a b c d).isSome then textFault rest else (.badEscape, rest)
  | '\\' :: 'u' :: _ => (.endInText, [])
  | '\\' :: e :: rest => if (shortEscape? e).isSome then textFault rest else (.badEscape, rest)
  | c :: rest =>
    if c.toNat < 0x20 then (.controlCharacter, rest) else textFault rest

/-- The fault where a digit has to come. -/
def digitFault : List Char → Stop
  | [] => (.endInValue, [])
  | _ :: rest => (.badNumber, rest)

/-- The fault behind the digits of a number: an exponent needs digits, and nothing else may come. -/
def exponentFault : List Char → Stop
  | 'e' :: '+' :: rest | 'e' :: '-' :: rest | 'E' :: '+' :: rest | 'E' :: '-' :: rest
  | 'e' :: rest | 'E' :: rest => digitFault rest
  | rest => digitFault rest

/-- The fault in a number, behind its sign. -/
def numberFault (s : List Char) : Stop :=
  match s.dropWhile isDigit with
  | '.' :: rest => exponentFault (rest.dropWhile isDigit)
  | rest => exponentFault rest

/-- The fault where a value has to come. -/
def valueFault : List Char → Stop
  | [] => (.endInValue, [])
  | 'n' :: rest => constantFault "ull".toList rest
  | 't' :: rest => constantFault "rue".toList rest
  | 'f' :: rest => constantFault "alse".toList rest
  | '"' :: rest => textFault rest
  | '-' :: rest => numberFault rest
  | c :: rest => if isDigit c then numberFault (c :: rest) else (.noValue, rest)

/-! ## Faults between tokens -/

/-- Why a text may not end yet. -/
def State.endReason? : State → Option FaultReason
  | .value _ | .key .. => some .endInValue
  | .firstItem _ | .separator (.array _) _ => some .endInArray
  | .firstKey _ | .colon .. | .separator _ _ => some .endInObject
  | .complete _ => none

/-- The fault at a text whose next token may not come. -/
def State.fault : State → List Char → Stop
  | .value (.array (_ :: _) :: _), ']' :: rest => (.commaAtEnd, rest)
  | .value _, s | .firstItem _, s => valueFault s
  | .key .., '\x7d' :: rest => (.commaAtEnd, rest)
  | .key .., '"' :: rest | .firstKey _, '"' :: rest => textFault rest
  | .key .., s | .firstKey _, s => (.keyNoText, s.drop 1)
  | .colon .., s => (.noColon, s.drop 1)
  | .separator (.array _) _, s => (.noItemEnd, s.drop 1)
  | .separator _ _, s => (.noMemberEnd, s.drop 1)
  | .complete _, s => (.textBehind, s.drop 1)

/-- The first fault of a text that is read from a state on. -/
def faultFrom? (state : State) (s : List Char) : Option Stop :=
  match s with
  | [] => state.endReason?.map fun r => (r, [])
  | c :: rest =>
    if isSpace c then faultFrom? state rest
    else
      match (readToken (c :: rest)).bind fun r => (state.step r.1).map fun next => (next, r.2) with
      | none => some (state.fault (c :: rest))
      | some (next, after) =>
        if after.length < (c :: rest).length then faultFrom? next after
        else some (state.fault (c :: rest))
termination_by s.length
decreasing_by
  all_goals
    simp only [List.length_cons] at *
    omega

/-! ## Places -/

/-- The line of a place and the bytes of it before the place, given the text before. -/
def place (before : List Char) : Nat × Nat :=
  before.foldl (fun p c => if c = '\n' then (p.1 + 1, 0) else (p.1, p.2 + c.utf8Size)) (1, 0)

/-- The wording of a fault at a place. -/
def faultText (message : String) (before : List Char) : String :=
  let (line, column) := place before
  "Error(" ++ Text.quoted message ++ ", line: " ++ Nat.repr line ++ ", column: " ++
    Nat.repr column ++ ")"

/-- The wording of what is wrong with a well-formed text. -/
def contentMessage : JsonError → String
  | .missing field => "missing field `" ++ field ++ "`"
  | .repeated field => "duplicate field `" ++ field ++ "`"
  | .malformed | .mismatch | .overfull => "invalid type"

/-- What is wrong with a text that could not be read. -/
def explain (s : String) (e : JsonError) : String :=
  let cs := s.toList
  match faultFrom? (.value []) cs with
  | some (reason, rest) => faultText reason.message (cs.take (cs.length - rest.length))
  | none => faultText (contentMessage e) (cs.reverse.dropWhile isSpace).reverse

end Saboteur.Json
