import Saboteur.Action.Execution
import Saboteur.Service
import Saboteur.Strategy.Selection

/-!
# Dispatching hook calls

A call is answered by the action that the selected rule binds to its hook. There is always an
answer: without a rule, without an action, or with a payload that cannot be read, the client is told
to carry on and gets its text back as it was sent.
-/

namespace Saboteur

/-- The answer to a call. -/
structure HookResponse where
  command : Command
  result : String
  deriving DecidableEq

/-- A call of a hook, or of the endpoint that modifies attestations. -/
structure HookRequest where
  slot : Slot
  pubkey : Pubkey
  payload : Option String
  deriving DecidableEq

/-- An answer that is held back for some time. -/
structure Held (α : Type) where
  answer : α
  wait : Duration
  deriving DecidableEq

namespace HookResponse

/-- Carry on with a text. -/
def carryOn (result : String) : HookResponse := ⟨.null, result⟩

end HookResponse

namespace Held

/-- An answer that comes at once. -/
def atOnce {α : Type} (answer : α) : Held α := ⟨answer, Duration.zero⟩

end Held

instance : WriteJson HookResponse where
  write r := .obj [("cmd", write r.command), ("result", .text r.result)]

instance : ReadJson HookResponse where
  read j := do
    let f ← Json.fields ["cmd", "result"] j
    let command ← f.required "cmd" read
    let result ← f.required "result" Json.readText
    return { command, result }

instance : WriteJson HookRequest where
  write r := .obj ([("slot", write r.slot), ("pubkey", write r.pubkey)] ++
    match r.payload with
    | some text => [("payload", .text text)]
    | none => [])

instance : ReadJson HookRequest where
  read j := do
    let f ← Json.fields ["slot", "pubkey", "payload"] j
    let slot ← f.required "slot" read
    let pubkey ← f.required "pubkey" read
    let payload ← f.defaulted "payload" none (Json.readOption Json.readText)
    return { slot, pubkey, payload }

namespace Service

variable {β : Type} [Backend β]

/-- The rule that is selected at a slot, with its place. -/
def select (s : Service β) (slot : Slot) : Option (Nat × Rule) × Service β :=
  let (rule, backend) := (s.rules.select s.context s.validators slot).run s.backend
  (rule, { s with backend })

/-- The action for a hook at a slot. -/
def actionFor (s : Service β) (h : Hook) (slot : Slot) : Option Action × Service β :=
  let (rule, s) := s.select slot
  (rule.bind fun r => r.2.action? h, s)

/-- What an action works on: the payload of a call. A payload that the hook does not carry is
ignored. -/
def payloadFor (h : Hook) (text : String) : Except Payload.DecodeError (Option Payload) :=
  match Payload.decode h text with
  | .error (.unexpected _) => .ok none
  | other => other

/-- The text of an answer: that of the payload, or the text of the call. -/
def resultText (payload : Option Payload) (given : String) : String :=
  (payload.map Payload.encode).getD given

/-- Executes an action for a call. -/
def execute (s : Service β) (a : Action) (slot : Slot) (pubkey : Pubkey)
    (payload : Option Payload) : Outcome × Service β :=
  let ((outcome, validators), backend) :=
    (a.execute s.context slot pubkey payload s.validators).run s.backend
  (outcome, { s with validators, backend }.count (.actionExecuted a.name))

/-- Answers a call whose action is known. -/
def perform (s : Service β) (a : Action) (h : Hook) (slot : Slot) (pubkey : Pubkey)
    (given : String) : Held HookResponse × Service β :=
  match payloadFor h given with
  | .error _ => (Held.atOnce (HookResponse.carryOn given), s.count (.payloadUnreadable h))
  | .ok payload =>
    let (outcome, s) := s.execute a slot pubkey payload
    (⟨⟨outcome.command, resultText outcome.payload given⟩, outcome.wait⟩, s)

/-- Answers a call of a hook. An absent payload is an empty text. -/
def dispatch (s : Service β) (h : Hook) (call : HookRequest) : Held HookResponse × Service β :=
  let given := call.payload.getD ""
  let s := (s.count (.hookCall h)).count (.hookDispatch h)
  match s.actionFor h call.slot with
  | (none, s) => (Held.atOnce (HookResponse.carryOn given), s)
  | (some a, s) => s.perform a h call.slot call.pubkey given

end Service

end Saboteur
