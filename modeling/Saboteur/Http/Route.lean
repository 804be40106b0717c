import Saboteur.Http.MediaType
import Saboteur.Http.Rejection
import Saboteur.Service.Broadcast

/-!
# Routes

The endpoints of the service. A path is cut at its slashes; one slash at the end does not count, and
a query is not looked at. Segments are taken as they are written.
-/

namespace Saboteur.Http

/-- How a resource is asked for. -/
inductive Method where
  | get
  | post
  | other
  deriving DecidableEq

/-- The method of a name. -/
def Method.ofName : String → Method
  | "GET" => .get
  | "POST" => .post
  | _ => .other

/-- A request. -/
structure Request where
  method : Method
  path : String
  /-- The type of the body, if a header names one. -/
  contentType : Option String
  body : String
  deriving DecidableEq

/-- An endpoint. -/
inductive Route where
  | strategy
  | updateStrategy
  | duties (epoch : Epoch)
  | feedback (uid : String)
  | metrics
  | hook (h : Hook)
  | blockBroadcastDelay
  | attestBroadcastDelay
  | attestModify
  deriving DecidableEq

/-- The segments of a path. -/
def segments (path : String) : List String :=
  let bare := path.toList.takeWhile fun c => c ≠ '?' && c ≠ '#'
  let body := match bare with
    | '/' :: rest => rest
    | rest => rest
  let pieces := Text.splitList '/' body
  let pieces := if pieces.getLast? = some [] then pieces.dropLast else pieces
  pieces.map String.ofList

namespace Route

/-- The epoch of a path segment. -/
def epochOf? (s : String) : Option Epoch := (Text.readWord s).toOption.map Epoch.mk

/-- The endpoints that are read, each with the paths that lead there. -/
def gets : List (List String → Option Route) :=
  [fun
    | ["v1", "strategy"] => some strategy
    | _ => none,
  fun
    | ["v1", "duties", epoch] => (epochOf? epoch).map duties
    | _ => none,
  fun
    | ["v1", "feedback", uid] => if uid = "" then none else some (feedback uid)
    | _ => none,
  fun
    | ["metrics"] => some metrics
    | _ => none]

/-- The endpoints that are written to, each with the paths that lead there. -/
def posts : List (List String → Option Route) :=
  [fun
    | ["v1", "update-strategy"] => some updateStrategy
    | _ => none,
  fun
    | ["v1", "hook", name] => (Hook.ofName? name).map hook
    | _ => none,
  fun
    | ["v1", "block", "broadcast-delay"] => some blockBroadcastDelay
    | _ => none,
  fun
    | ["v1", "attest", "broadcast-delay"] => some attestBroadcastDelay
    | _ => none,
  fun
    | ["v1", "attest", "modify"] => some attestModify
    | _ => none]

/-- The endpoint that is read at a path. -/
def ofGet? (path : List String) : Option Route := gets.findSome? fun leads => leads path

/-- The endpoint that is written to at a path. -/
def ofPost? (path : List String) : Option Route := posts.findSome? fun leads => leads path

/-- The endpoint of a method and a path. -/
def of? (m : Method) (path : List String) : Option Route :=
  match m with
  | .get => ofGet? path
  | .post => ofPost? path
  | .other => none

end Route

namespace Request

/-- Whether the body may be a document: its type, if it is named, is that of documents. -/
def admitsDocument (r : Request) : Bool :=
  match r.contentType with
  | none => true
  | some t => MediaType.parse? t = some MediaType.json

/-- The document in the body. -/
def document (α : Type) [ReadJson α] (r : Request) : Except Rejection α :=
  if !r.admitsDocument then .error .unhandled
  else (Json.parse α r.body).mapError fun _ => .unreadableBody ""

end Request

end Saboteur.Http
