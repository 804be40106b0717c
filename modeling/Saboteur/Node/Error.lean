import Saboteur.Node.Answer
import Saboteur.Text.Quoted

/-!
# Errors of a node's clients

How a request to a node may fail: no answer comes, the answer is no document, the node refuses, or
what it says makes no sense.
-/

namespace Saboteur

/-- Why no answer could be read. -/
inductive TransportError where
  | unreachable
  | timeout
  /-- The body is no document of the wanted type. -/
  | undecodable (fault : String)
  deriving DecidableEq

/-- Why a request to a node failed. -/
inductive NodeError where
  | transport (e : TransportError)
  /-- The node refused with a message. -/
  | serverMessage (m : ErrorMessage)
  /-- The node refused without one. -/
  | statusCode (code : Nat)
  /-- The address of the node can have no path. It is shown redacted. -/
  | invalidUrl (redacted : String)
  | invalidJson
  /-- The called procedure failed. -/
  | jsonRpc (code : Int) (message : String)
  /-- The called procedure gave a result that makes no sense. -/
  | invalidResult (text : String)
  deriving DecidableEq

/-- The text of a transport error. -/
def TransportError.debug : TransportError → String
  | unreachable => "Connect"
  | timeout => "Timeout"
  | undecodable fault => "Decode(" ++ fault ++ ")"

namespace NodeError

/-- The kind of an error. -/
def kind : NodeError → String
  | transport _ => "HttpClient"
  | serverMessage _ => "ServerMessage"
  | statusCode _ => "StatusCode"
  | invalidUrl _ => "InvalidUrl"
  | invalidJson => "InvalidJson"
  | jsonRpc .. => "JsonRpc"
  | invalidResult _ => "InvalidJsonRpcResult"

/-- Whether a number is a status code. -/
def isStatus (code : Nat) : Bool := 100 ≤ code && code < 1000

/-- The status that an error carries. A message carries the code that is written in it. -/
def status? : NodeError → Option Nat
  | serverMessage m => if isStatus m.code then some m.code else none
  | statusCode code => some code
  | _ => none

/-- The text of a message inside a diagnostic. -/
def messageText (m : ErrorMessage) : String :=
  "ErrorMessage \x7b code: " ++ Nat.repr m.code ++ ", message: " ++ Text.quoted m.message ++
    ", stacktraces: " ++ Text.quotedList m.stacktraces ++ " \x7d"

/-- The text of an error. -/
def debug : NodeError → String
  | transport e => "HttpClient(" ++ e.debug ++ ")"
  | serverMessage m => "ServerMessage(" ++ messageText m ++ ")"
  | statusCode code => "StatusCode(" ++ Nat.repr code ++ ")"
  | invalidUrl redacted => "InvalidUrl(" ++ Text.quoted redacted ++ ")"
  | invalidJson => "InvalidJson"
  | jsonRpc code message =>
    "JsonRpc \x7b code: " ++ toString code ++ ", message: " ++ Text.quoted message ++ " \x7d"
  | invalidResult text => "InvalidJsonRpcResult(" ++ Text.quoted text ++ ")"

end NodeError

end Saboteur
