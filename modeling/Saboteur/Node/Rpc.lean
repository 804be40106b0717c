import Saboteur.Json.Whole
import Saboteur.Node.Error

/-!
# Remote procedure calls

An execution node is asked by remote procedure call. The question and the answer are documents; an
answer holds a result, or says why there is none. Numbers in results are written in hexadecimal
digits behind `0x`.
-/

namespace Saboteur.Rpc

/-- Why a called procedure failed. -/
structure Fault where
  code : Int
  message : String
  deriving DecidableEq

/-- What a node answers to a call. Without a result the result is `null`. -/
structure Answer where
  fault : Option Fault
  result : Json

/-- The question for a procedure without parameters. -/
def call (method : String) : Json :=
  .obj [("jsonrpc", .text "2.0"), ("method", .text method), ("params", .array []), ("id", .nat 1)]

/-- The text that an answer gives as its result. A fault goes before any result. -/
def Answer.text (a : Answer) : Except NodeError String :=
  match a.fault with
  | some f => .error (.jsonRpc f.code f.message)
  | none => (Json.readText a.result).mapError fun _ => .invalidJson

end Saboteur.Rpc

namespace Saboteur

instance : ReadJson Rpc.Fault where
  read j := do
    let f ← Json.fields ["code", "message"] j
    let code ← f.required "code" Json.readSigned
    let message ← f.required "message" Json.readText
    return { code, message }

instance : ReadJson Rpc.Answer where
  read j := do
    let f ← Json.fields ["error", "result"] j
    let fault ← f.defaulted "error" none (Json.readOption read)
    let result ← f.defaulted "result" .null Json.readAny
    return { fault, result }

/-- Reads a quantity that fits a word. -/
def Quantity.parse (s : String) : Except NodeError UInt64 :=
  match s.toList with
  | '0' :: 'x' :: digits =>
    match Text.readNatural 16 Word.max.toNat digits with
    | .ok n => .ok (UInt64.ofNat n)
    | .error e => .error (.invalidResult (s ++ ": " ++ e.message))
  | _ => .error (.invalidResult ("missing 0x prefix: " ++ s))

end Saboteur
