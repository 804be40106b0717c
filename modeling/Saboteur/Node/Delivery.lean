import Saboteur.Json.Fault
import Saboteur.Node.Error

/-!
# Deliveries

What comes back for a request to a node. Only a reply of status 200 holds an answer. Any other reply
is a refusal, and its body may be a message that says more; the message then speaks for the refusal,
with the code that is written in it.
-/

namespace Saboteur

/-- What comes back for a request. -/
inductive Delivery where
  | reply (status : Nat) (body : String)
  /-- The node takes the request and never answers. -/
  | silent
  | unreachable
  deriving DecidableEq

namespace Delivery

/-- How many milliseconds a delivery takes, when so many are waited at most. -/
def millis (patience : Nat) : Delivery → Nat
  | silent => patience
  | reply .. | unreachable => 0

/-- Why a reply is a refusal. -/
def refusal (status : Nat) (body : String) : NodeError :=
  match Json.parse ErrorMessage body with
  | .ok m => .serverMessage m
  | .error _ => .statusCode status

/-- The body of an answer. -/
def answer : Delivery → Except NodeError String
  | reply status body => if status = 200 then .ok body else .error (refusal status body)
  | silent => .error (.transport .timeout)
  | unreachable => .error (.transport .unreachable)

/-- The document that a body is. -/
def documentOf (α : Type) [ReadJson α] (body : String) : Except NodeError α :=
  (Json.parse α body).mapError fun e => .transport (.undecodable (Json.explain body e))

/-- The document in an answer. -/
def document (α : Type) [ReadJson α] (d : Delivery) : Except NodeError α := do
  documentOf α (← d.answer)

/-- The document in an answer, or nothing if the refusal is that there is none. -/
def documentIfFound (α : Type) [ReadJson α] (d : Delivery) : Except NodeError (Option α) :=
  match d.answer with
  | .ok body => (documentOf α body).map some
  | .error e => if e.status? = some 404 then .ok none else .error e

end Delivery

end Saboteur
