import Saboteur.Http.Endpoint

/-!
# Which endpoint replies

The paths of the endpoints exclude one another, so a request is served by the one endpoint that its
method and path lead to. What that endpoint refuses is reported for its cause, except that a body of
another type has no reply of its own: the endpoints of the other method refuse the request for its
method, and that is what it is reported as.

For the same reason nothing is ever reported as not found. A request that no path is meant for, and
one with a method that is not served, is refused for its method.
-/

namespace Saboteur

namespace Http

/-- What is made of a cause when other endpoints refuse the request for its method. -/
def Rejection.besideMethod : Rejection → Rejection
  | .notFound | .unhandled => .methodNotAllowed
  | cause => cause

/-! ## Filters side by side -/

namespace Filter

variable {σ α : Type} {f : Filter σ α} {s s' : σ}

/-- What the first filter accepts never gets to the second. -/
theorem or_of_ok {a : α} (h : f s = (.ok a, s')) (g : Filter σ α) : f.or g s = (.ok a, s') := by
  rw [or, h]

/-- What the first filter refuses is up to the second; if that refuses too, both reasons count. -/
theorem or_of_error {e : Refusal} (h : f s = (.error e, s')) (g : Filter σ α) :
    f.or g s = ((g s').1.mapError e.combine, (g s').2) := by
  rw [or, h]

/-- A filter that knows no path adds nothing before another. -/
theorem refuse_notFound_or (g : Filter σ α) : (refuse .notFound).or g = g := by
  funext s
  rw [or_of_error (f := refuse .notFound) rfl]
  rcases g s with ⟨e | a, s'⟩ <;> rfl

/-- A filter that knows no path adds nothing behind another. -/
theorem or_refuse_notFound (f : Filter σ α) : f.or (refuse .notFound) = f := by
  funext s
  rcases h : f s with ⟨e | a, s'⟩
  · rw [or_of_error h]
    show (Except.error (e.combine ⟨[]⟩), s') = _
    rw [Refusal.combine, List.append_nil]
  · rw [or_of_ok h]

/-- What is replied for a task beside filters that refuse the request for its method. -/
def settle (reply : Rejection → α) : Except Rejection α → α
  | .ok a => a
  | .error e => reply e.besideMethod

theorem ofTask_eq (task : σ → Except Rejection α × σ) (s : σ) :
    ofTask task s = ((task s).1.mapError .of, (task s).2) := rfl

/-- Where a task has the path, its answer or its own rejection is given, also if the method is
refused behind it. -/
theorem recover_ofTask_or_refuse (task : σ → Except Rejection α × σ) (reply : Rejection → α)
    (s : σ) :
    ((ofTask task).or (refuse .methodNotAllowed)).recover reply s =
      (settle reply (task s).1, (task s).2) := by
  unfold recover or
  rw [ofTask_eq]
  rcases (task s).1 with e | a
  · cases e <;> rfl
  · rfl

/-- It makes no difference if the method is refused before it. -/
theorem recover_refuse_or_ofTask (task : σ → Except Rejection α × σ) (reply : Rejection → α)
    (s : σ) :
    ((refuse .methodNotAllowed).or (ofTask task)).recover reply s =
      (settle reply (task s).1, (task s).2) := by
  rw [recover, or_of_error (f := refuse .methodNotAllowed) rfl, ofTask_eq]
  rcases (task s).1 with e | a
  · cases e <;> rfl
  · rfl

end Filter

/-! ## Paths -/

namespace Route

/-- No path leads to both endpoints. -/
def Apart (f g : List String → Option Route) : Prop := ∀ path, f path = none ∨ g path = none

/-- No path is that of two endpoints that are read from. -/
theorem pairwise_gets : gets.Pairwise Apart := by
  simp only [gets, List.pairwise_cons, List.forall_mem_cons, List.not_mem_nil, false_imp_iff,
    implies_true, List.Pairwise.nil, and_true]
  refine ⟨⟨?_, ?_, ?_⟩, ⟨?_, ?_⟩, ?_⟩ <;> intro path <;> dsimp only <;> split
  all_goals first | exact .inl rfl | exact .inr rfl

/-- No path is that of two endpoints that are written to. -/
theorem pairwise_posts : posts.Pairwise Apart := by
  simp only [posts, List.pairwise_cons, List.forall_mem_cons, List.not_mem_nil, false_imp_iff,
    implies_true, List.Pairwise.nil, and_true]
  refine ⟨⟨?_, ?_, ?_, ?_⟩, ⟨?_, ?_, ?_⟩, ⟨?_, ?_⟩, ?_⟩ <;> intro path <;> dsimp only <;> split
  all_goals first | exact .inl rfl | exact .inr rfl

/-- The endpoint reads the body of a request. -/
def ReadsDocument : Route → Prop
  | updateStrategy | hook _ | attestModify => True
  | _ => False

end Route

/-! ## Requests -/

namespace Request

/-- A request goes to an endpoint. -/
def IsFor (r : Request) (route : Route) : Prop := Route.of? r.method (segments r.path) = some route

/-- A body that is admitted and can be parsed is the document. -/
theorem document_eq_of_admits {α : Type} [ReadJson α] {r : Request}
    (hadmits : r.admitsDocument = true) {a : α} (h : Json.parse α r.body = .ok a) :
    r.document α = .ok a := by
  rw [document, hadmits, h]
  rfl

end Request

/-! ## Replies -/

namespace Rejection

/-- A reply tells the message of its rejection. -/
theorem message_eq_of_reply_eq {e f : Rejection} (h : e.reply = f.reply) :
    e.message = f.message := by
  have hcontent := congrArg Reply.content h
  have hfields : Json.nat e.status = Json.nat f.status ∧ e.message = f.message := by
    simpa [reply, write, WriteJson.write, Json.obj, Json.text] using hcontent
  exact hfields.2

/-- No other rejection looks like a refused method. -/
theorem eq_methodNotAllowed_of_reply_eq {e : Rejection} (h : e.reply = methodNotAllowed.reply) :
    e = methodNotAllowed := by
  have hstatus : e.status = 405 := congrArg Reply.status h
  cases e with
  | methodNotAllowed => rfl
  | _ => cases hstatus

/-- What is not there is named, so it is not mistaken for a path that leads nowhere. -/
theorem eq_notFound_of_reply_eq {e : Rejection} (h : e.reply = notFound.reply) : e = notFound := by
  have hstatus : e.status = 404 := congrArg Reply.status h
  cases e with
  | notFound => rfl
  | unknownResource text =>
    have hmessage : "NOT_FOUND: " ++ text = "NOT_FOUND" := message_eq_of_reply_eq h
    have hlength : "NOT_FOUND: ".length + text.length = "NOT_FOUND".length := by
      rw [← String.length_append, hmessage]
    have hlong : "NOT_FOUND: ".length = 11 := by decide
    have hshort : "NOT_FOUND".length = 9 := by decide
    omega
  | _ => cases hstatus

end Rejection

end Http

namespace Service

variable {β : Type} [Backend β] (s : Service β) (a : Arrival) (r : Http.Request)

/-- What the endpoint of a route does, if there is one. -/
def serveAt (s : Service β) :
    Option Http.Route → Except Http.Rejection (Held Http.Reply) × Service β
  | none => (.error .notFound, s)
  | some route => s.serve a r route

theorem endpoint_eq (leads : List String → Option Http.Route) :
    endpoint (β := β) a r leads =
      .ofTask fun s => serveAt a r s (leads (Http.segments r.path)) := by
  rw [endpoint]
  cases leads (Http.segments r.path) <;> rfl

/-- Endpoints that exclude one another are as good as the one that the path leads to. -/
theorem oneOf_endpoint {paths : List (List String → Option Http.Route)}
    (hpaths : paths.Pairwise Http.Route.Apart) :
    Http.Filter.oneOf (paths.map (endpoint (β := β) a r)) =
      .ofTask fun s =>
        serveAt a r s (paths.findSome? fun leads => leads (Http.segments r.path)) := by
  induction paths with
  | nil => rfl
  | cons leads paths ih =>
    obtain ⟨hapart, hrest⟩ := List.pairwise_cons.1 hpaths
    show (endpoint a r leads).or (Http.Filter.oneOf (paths.map (endpoint a r))) = _
    rw [ih hrest, endpoint_eq]
    cases hroute : leads (Http.segments r.path) with
    | none =>
      rw [List.findSome?_cons_of_isNone]
      · exact Http.Filter.refuse_notFound_or _
      · simp [hroute]
    | some route =>
      -- the path leads to none of the others
      have hnone : (paths.findSome? fun leads => leads (Http.segments r.path)) = none := by
        refine List.findSome?_eq_none_iff.2 fun other hother => ?_
        have := hapart other hother (Http.segments r.path)
        rw [hroute] at this
        exact this.resolve_left (Option.some_ne_none route)
      rw [hnone, List.findSome?_cons_of_isSome]
      · rw [hroute]
        exact Http.Filter.or_refuse_notFound _
      · simp [hroute]

/-- **A request is served by the endpoint that its method and path lead to.** -/
theorem handle_eq :
    s.handle a r =
      let served := serveAt a r s (Http.Route.of? r.method (Http.segments r.path))
      (Http.Filter.settle (fun e => Held.atOnce e.reply) served.1, served.2) := by
  rw [handle, endpoints, endpoints, oneOf_endpoint a r Http.Route.pairwise_gets,
    oneOf_endpoint a r Http.Route.pairwise_posts]
  cases hmethod : r.method with
  | get =>
    rw [if_pos rfl, if_neg (by decide)]
    exact Http.Filter.recover_ofTask_or_refuse _ _ s
  | post =>
    rw [if_neg (by decide), if_pos rfl]
    exact Http.Filter.recover_refuse_or_ofTask _ _ s
  | other =>
    rw [if_neg (by decide), if_neg (by decide)]
    rfl

/-! ## What an endpoint refuses -/

/-- What comes of a task at an endpoint: a regular reply, or a refusal of the body's type, or a
refusal for a cause that has a reply of its own. -/
inductive Settles (r : Http.Request) (route : Http.Route) :
    Except Http.Rejection (Held Http.Reply) → Prop
  | answer (held : Held Http.Reply) : held.answer.status = 200 → Settles r route (.ok held)
  | bodyType : route.ReadsDocument → r.admitsDocument = false → Settles r route (.error .unhandled)
  | cause (e : Http.Rejection) :
    e.besideMethod = e → e ≠ .methodNotAllowed → Settles r route (.error e)

variable {s a r} {route : Http.Route}

theorem settles_replyOf {α : Type} [WriteJson α] {result : Except Http.Rejection α}
    (h : ∀ e, result = .error e → e.besideMethod = e ∧ e ≠ .methodNotAllowed) :
    Settles r route (replyOf result) := by
  cases result with
  | ok x => exact .answer _ rfl
  | error e => exact .cause e (h e rfl).1 (h e rfl).2

/-- A document that cannot be read is refused, for its type or for a fault. -/
theorem settles_of_document {α : Type} [ReadJson α] (hroute : route.ReadsDocument)
    {e : Http.Rejection} (h : r.document α = .error e) : Settles r route (.error e) := by
  unfold Http.Request.document at h
  cases hadmits : r.admitsDocument with
  | false =>
    rw [hadmits] at h
    cases h
    exact .bodyType hroute hadmits
  | true =>
    rw [hadmits, if_neg (by decide)] at h
    cases hparse : Json.parse α r.body with
    | ok x => rw [hparse] at h; cases h
    | error fault =>
      rw [hparse] at h
      cases h
      exact .cause _ rfl (by simp)

omit [Backend β] in
theorem settles_replyTo {α γ : Type} [ReadJson α] [WriteJson γ] (hroute : route.ReadsDocument)
    (work : α → Held γ × Service β) : Settles r route (s.replyTo r work).1 := by
  unfold replyTo
  cases hdocument : r.document α with
  | ok x => exact .answer _ rfl
  | error e => exact settles_of_document hroute hdocument

/-- Duties that are not given are the fault of a node. -/
theorem error_of_duties {epoch : Epoch} {e : Http.Rejection} (h : (s.duties epoch).1 = .error e) :
    ∃ fault, e = .nodeFailure fault := by
  unfold duties at h
  rcases hanswer : StateT.run (proposerDuties epoch : StateM β _) s.backend with ⟨fault | list, b⟩
  · rw [hanswer] at h
    cases h
    exact ⟨_, rfl⟩
  · rw [hanswer] at h
    cases h

theorem settles_serve (route : Http.Route) : Settles r route (s.serve a r route).1 := by
  cases route with
  | strategy | metrics | blockBroadcastDelay | attestBroadcastDelay => exact .answer _ rfl
  | updateStrategy =>
    have hreads : Http.Route.updateStrategy.ReadsDocument := trivial
    unfold serve
    cases hdocument : r.document Strategy with
    | error e => exact settles_of_document hreads hdocument
    | ok strategy =>
      refine settles_replyOf fun e he => ?_
      rw [updateStrategy] at he
      split at he <;> cases he
      exact ⟨rfl, by simp⟩
  | duties epoch =>
    refine settles_replyOf fun e he => ?_
    obtain ⟨fault, rfl⟩ := error_of_duties he
    exact ⟨rfl, by simp⟩
  | feedback uid =>
    refine settles_replyOf fun e he => ?_
    rw [endedStrategy] at he
    split at he <;> cases he
    exact ⟨rfl, by simp⟩
  | hook h =>
    have hreads : (Http.Route.hook h).ReadsDocument := trivial
    exact settles_replyTo hreads _
  | attestModify =>
    have hreads : Http.Route.attestModify.ReadsDocument := trivial
    exact settles_replyTo hreads _

/-- Without an admitted document an endpoint that reads one does nothing. -/
theorem serve_of_not_admits (hroute : route.ReadsDocument) (h : r.admitsDocument = false) :
    s.serve a r route = (.error .unhandled, s) := by
  have hdocument : ∀ (α : Type) [ReadJson α], r.document α = .error .unhandled := by
    intro α _
    rw [Http.Request.document, h]
    rfl
  cases route with
  | updateStrategy => rw [serve, hdocument]
  | hook _ => rw [serve, replyTo, hdocument]
  | attestModify => rw [serve, replyTo, hdocument]
  | _ => exact hroute.elim

/-! ## What is replied -/

/-- The reply that is made of a result. -/
def settled (result : Except Http.Rejection (Held Http.Reply)) : Held Http.Reply :=
  Http.Filter.settle (fun e => Held.atOnce e.reply) result

variable {result : Except Http.Rejection (Held Http.Reply)}

/-- A known path answers with a refused method only if its document is not admitted. -/
theorem Settles.of_settled_eq_methodNotAllowed (h : Settles r route result)
    (hreply : settled result = Held.atOnce Http.Rejection.methodNotAllowed.reply) :
    route.ReadsDocument ∧ r.admitsDocument = false := by
  have hanswer := congrArg Held.answer hreply
  cases h with
  | answer held hstatus =>
    have : held.answer.status = 405 := congrArg Http.Reply.status hanswer
    omega
  | bodyType hreads hadmits => exact ⟨hreads, hadmits⟩
  | cause e hbeside hne =>
    rw [settled, Http.Filter.settle, hbeside] at hanswer
    exact absurd (Http.Rejection.eq_methodNotAllowed_of_reply_eq hanswer) hne

/-- A known path is always found. -/
theorem Settles.settled_ne_notFound (h : Settles r route result) :
    (settled result).answer ≠ Http.Rejection.notFound.reply := by
  intro hanswer
  cases h with
  | answer held hstatus =>
    have : held.answer.status = 404 := congrArg Http.Reply.status hanswer
    omega
  | bodyType => cases congrArg Http.Reply.status hanswer
  | cause e hbeside hne =>
    rw [settled, Http.Filter.settle, hbeside] at hanswer
    cases Http.Rejection.eq_notFound_of_reply_eq hanswer
    cases hbeside

/-- A request with a known path is answered by its endpoint. -/
theorem handle_of_route (h : Http.Route.of? r.method (Http.segments r.path) = some route) :
    s.handle a r = (settled (s.serve a r route).1, (s.serve a r route).2) := by
  rw [handle_eq, h]
  rfl

/-- A request without a known path is answered as if its method were wrong. -/
theorem handle_of_no_route (h : Http.Route.of? r.method (Http.segments r.path) = none) :
    s.handle a r = (Held.atOnce Http.Rejection.methodNotAllowed.reply, s) := by
  rw [handle_eq, h]
  rfl

/-- **A request is refused for its method exactly if that leads to no endpoint at its path, or if it
brings a body of another type to an endpoint that reads one. Nothing is ever reported as not
found.** -/
theorem handle_eq_methodNotAllowed_iff (s : Service β) (a : Arrival) (r : Http.Request) :
    (s.handle a r =
        (Held.atOnce ⟨405, .document (write (⟨405, "METHOD_NOT_ALLOWED", []⟩ : ErrorMessage))⟩, s) ↔
      ∀ route, Http.Route.of? r.method (Http.segments r.path) = some route →
        route.ReadsDocument ∧ r.admitsDocument = false) ∧
    (s.handle a r).1.answer ≠
      ⟨404, .document (write (⟨404, "NOT_FOUND", []⟩ : ErrorMessage))⟩ := by
  have hrefused : (⟨405, .document (write (⟨405, "METHOD_NOT_ALLOWED", []⟩ : ErrorMessage))⟩ :
      Http.Reply) = Http.Rejection.methodNotAllowed.reply := rfl
  have hmissing : (⟨404, .document (write (⟨404, "NOT_FOUND", []⟩ : ErrorMessage))⟩ :
      Http.Reply) = Http.Rejection.notFound.reply := rfl
  rw [hrefused, hmissing]
  cases hroute : Http.Route.of? r.method (Http.segments r.path) with
  | none =>
    rw [handle_of_no_route hroute]
    refine ⟨iff_of_true rfl (by simp), fun h => ?_⟩
    cases congrArg Http.Reply.status h
  | some route =>
    rw [handle_of_route hroute]
    refine ⟨⟨fun h other hother => ?_, fun h => ?_⟩, (settles_serve route).settled_ne_notFound⟩
    · -- of what an endpoint refuses only the body's type is reported as the method
      cases hother
      exact (settles_serve route).of_settled_eq_methodNotAllowed (congrArg Prod.fst h)
    · obtain ⟨hreads, hadmits⟩ := h route rfl
      rw [serve_of_not_admits hreads hadmits]
      rfl

/-- There is no hook of this name, so neither method leads anywhere. -/
theorem handle_unknown_hook :
    let r : Http.Request := ⟨.post, "/v1/hook/BlockBeforeTeleport", none, "\x7b\x7d"⟩
    Http.Route.ofGet? (Http.segments r.path) = none ∧
      Http.Route.ofPost? (Http.segments r.path) = none ∧
      ((Service.start ChainSpec.mainnet (ChainSpec.mainnet.clock .zero) (Rehearsal.empty 32)
          ValidatorStore.empty).handle ⟨0, .progression 0 0⟩ r).1.answer =
        ⟨405, .document (write (⟨405, "METHOD_NOT_ALLOWED", []⟩ : ErrorMessage))⟩ :=
  ⟨by decide, by decide, rfl⟩

end Service

end Saboteur
