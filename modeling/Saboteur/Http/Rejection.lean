import Saboteur.Node.Answer

/-!
# Rejections

Why a request gets no regular answer, and what is said instead: a status and a message, the message
as a document that repeats the status.
-/

namespace Saboteur.Http

/-- Why a request is refused. -/
inductive Rejection where
  | notFound
  | methodNotAllowed
  /-- The body is no document of the wanted type. -/
  | unreadableBody (fault : String)
  /-- What the path names does not exist. -/
  | unknownResource (text : String)
  /-- The content of the body is refused. -/
  | badRequest (text : String)
  | nodeFailure (text : String)
  | serverError (text : String)
  /-- A refusal that nothing is known about. -/
  | unhandled
  deriving DecidableEq

/-- The content of a reply. -/
inductive Content where
  | document (j : Json)
  | plain (s : String)

/-- What is sent back for a request. -/
structure Reply where
  status : Nat
  content : Content

namespace Content

/-- The type of a content. -/
def type : Content → String
  | document _ => "application/json"
  | plain _ => "text/plain"

end Content

namespace Rejection

/-- The status of a refusal. -/
def status : Rejection → Nat
  | notFound => 404
  | methodNotAllowed => 405
  | unreadableBody _ => 400
  | unknownResource _ => 404
  | badRequest _ => 400
  | nodeFailure _ => 502
  | serverError _ => 500
  | unhandled => 500

/-- The message of a refusal. -/
def message : Rejection → String
  | notFound => "NOT_FOUND"
  | methodNotAllowed => "METHOD_NOT_ALLOWED"
  | unreadableBody fault => "BAD_REQUEST: body deserialize error: " ++ fault
  | unknownResource text => "NOT_FOUND: " ++ text
  | badRequest text => "BAD_REQUEST: " ++ text
  | nodeFailure text => "BAD_GATEWAY: beacon node request failed: " ++ text
  | serverError text => "INTERNAL_SERVER_ERROR: " ++ text
  | unhandled => "UNHANDLED_REJECTION"

/-- The reply to a request that is refused. -/
def reply (r : Rejection) : Reply :=
  ⟨r.status, .document (write (⟨r.status, r.message, []⟩ : ErrorMessage))⟩

end Rejection

namespace Reply

/-- The reply with a document. -/
def ok {α : Type} [WriteJson α] (a : α) : Reply := ⟨200, .document (write a)⟩

/-- The refusal of a task that broke down. -/
def brokenTask (fault : String) : Rejection := .serverError ("blocking task failed: " ++ fault)

end Reply

end Saboteur.Http
