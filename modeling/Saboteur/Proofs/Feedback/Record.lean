import Mathlib.Data.List.Induction
import Saboteur.Proofs.Feedback.Run
import Saboteur.Proofs.Http.Routing
import Saboteur.Proofs.Tables

/-!
# Ends on record

A name is answered with the end of a strategy. Names may be used again, so there may be several ends
under a name, and strategies pending under it at the same time. The answer is the last end that was
announced under the name, as long as no pruning has reached its last epoch. What is pending does not
matter for it: a strategy that is installed under a name with an end on record is reported as ended
at once.
-/

namespace Saboteur.Feedback

/-! ## The last end under a name -/

/-- The last of some ends that has a name. -/
def lastOf? (uid : String) (ends : List StrategyEnd) : Option StrategyEnd :=
  ends.reverse.find? fun e => e.uid = uid

theorem lastOf?_cons (uid : String) (e : StrategyEnd) (rest : List StrategyEnd) :
    lastOf? uid (e :: rest) = (lastOf? uid rest).or (if e.uid = uid then some e else none) := by
  rw [lastOf?, List.reverse_cons, List.find?_append]
  by_cases h : e.uid = uid <;> simp [h, lastOf?]

theorem uid_of_lastOf? {uid : String} {ends : List StrategyEnd} {e : StrategyEnd}
    (h : lastOf? uid ends = some e) : e.uid = uid := by
  simpa using List.find?_some h

theorem lastOf?_eq_none_iff {uid : String} {ends : List StrategyEnd} :
    lastOf? uid ends = none ↔ ∀ e ∈ ends, e.uid ≠ uid := by
  simp [lastOf?]

theorem get?_foldl_set (t : Table String StrategyEnd) (ends : List StrategyEnd) (uid : String) :
    (ends.foldl (fun t e => t.set e.uid e) t).get? uid = (lastOf? uid ends).or (t.get? uid) := by
  induction ends generalizing t with
  | nil => rfl
  | cons e rest ih =>
    rw [List.foldl_cons, ih, lastOf?_cons, Option.or_assoc, Table.get?_set]
    split <;> rfl

/-! ## What an operation does to the record -/

/-- The end that an operation announces last under a name. -/
def announces? (f : Feedback) (op : Op) (uid : String) : Option StrategyEnd :=
  match op with
  | .poll slot => lastOf? uid (f.due slot)
  | _ => none

/-- An operation does not drop an end: it is no pruning that has reached its last epoch. -/
def Op.keeps (op : Op) (e : StrategyEnd) : Bool :=
  match op with
  | .prune oldest => oldest ≤ e.maxEpoch
  | _ => true

theorem uid_of_announces? {f : Feedback} {op : Op} {uid : String} {e : StrategyEnd}
    (h : f.announces? op uid = some e) : e.uid = uid := by
  cases op with
  | poll slot => exact uid_of_lastOf? h
  | add | prune | subscribe | read => cases h

theorem distinct_foldl_set {t : Table String StrategyEnd} (h : t.Distinct)
    (ends : List StrategyEnd) : (ends.foldl (fun t e => t.set e.uid e) t).Distinct := by
  induction ends generalizing t with
  | nil => exact h
  | cons e rest ih => exact ih (h.set e.uid e)

theorem distinct_completed_step {f : Feedback} (h : f.completed.Distinct) (op : Op) :
    (f.step op).completed.Distinct := by
  cases op with
  | poll slot => exact distinct_foldl_set h _
  | prune oldest => exact h.filter _
  | add time r => exact h
  | subscribe => exact h
  | read subscriber => exact h

theorem distinct_completed_run {f : Feedback} (h : f.completed.Distinct) (ops : List Op) :
    (f.run ops).completed.Distinct := by
  induction ops generalizing f with
  | nil => exact h
  | cons op rest ih => exact ih (distinct_completed_step h op)

/-- **An operation puts on record what it announces last, and leaves what it keeps.** -/
theorem completed?_step {f : Feedback} (h : f.completed.Distinct) (op : Op) (uid : String) :
    (f.step op).completed? uid =
      (f.announces? op uid).or ((f.completed? uid).filter op.keeps) := by
  have hall : ∀ o : Option StrategyEnd, o.filter (fun _ => true) = o := by
    intro o
    cases o <;> rfl
  cases op with
  | poll slot => exact (get?_foldl_set _ _ _).trans (congrArg _ (hall _).symm)
  | prune oldest => exact Table.get?_filter h _ uid
  | add time r => exact (hall _).symm
  | subscribe => exact (hall _).symm
  | read subscriber => exact (hall _).symm

/-! ## Runs -/

/-- No look of a run announces an end under a name. -/
def Silent (f : Feedback) (ops : List Op) (uid : String) : Prop :=
  ∀ look ∈ f.announced ops, ∀ e ∈ look.2, e.uid ≠ uid

instance (f : Feedback) (ops : List Op) (uid : String) : Decidable (f.Silent ops uid) :=
  inferInstanceAs (Decidable (∀ look ∈ f.announced ops, ∀ e ∈ look.2, e.uid ≠ uid))

theorem silent_append {f : Feedback} {ops ops' : List Op} {uid : String} :
    f.Silent (ops ++ ops') uid ↔ f.Silent ops uid ∧ (f.run ops).Silent ops' uid := by
  rw [Silent, announced_append, List.forall_mem_append]
  rfl

theorem silent_singleton {f : Feedback} {op : Op} {uid : String} :
    f.Silent [op] uid ↔ f.announces? op uid = none := by
  cases op with
  | poll slot => exact List.forall_mem_singleton.trans lastOf?_eq_none_iff.symm
  | add | prune | subscribe | read => simp [Silent, announced, announces?]

theorem silent_cons {f : Feedback} {op : Op} {rest : List Op} {uid : String} :
    f.Silent (op :: rest) uid ↔ f.announces? op uid = none ∧ (f.step op).Silent rest uid :=
  (@silent_append f [op] rest uid).trans (and_congr_left' silent_singleton)

/-- **While nothing is announced under a name, an end stays on record until a pruning drops it.** -/
theorem completed?_run_of_silent {f : Feedback} (hf : f.completed.Distinct) {ops : List Op}
    {uid : String} (h : f.Silent ops uid) (e : StrategyEnd) :
    (f.run ops).completed? uid = some e ↔
      f.completed? uid = some e ∧ ∀ op ∈ ops, op.keeps e = true := by
  induction ops generalizing f with
  | nil => simp [run]
  | cons op rest ih =>
    obtain ⟨hop, hrest⟩ := silent_cons.1 h
    have hstep := ih (distinct_completed_step hf op) hrest
    rw [completed?_step hf, hop, Option.none_or, Option.filter_eq_some_iff, and_assoc] at hstep
    rw [List.forall_mem_cons]
    exact hstep

/-- An end is on record after a run: an operation announced it, last under its name, and no later
one announced an end under that name or dropped this one. -/
def OnRecord (f : Feedback) (ops : List Op) (e : StrategyEnd) : Prop :=
  ∃ before op after, ops = before ++ op :: after ∧
    (f.run before).announces? op e.uid = some e ∧
    (f.run (before ++ [op])).Silent after e.uid ∧ ∀ op' ∈ after, op'.keeps e = true

theorem OnRecord.concat {f : Feedback} {ops : List Op} {e : StrategyEnd} (h : f.OnRecord ops e)
    {op : Op} (hsilent : (f.run ops).announces? op e.uid = none) (hkeeps : op.keeps e = true) :
    f.OnRecord (ops ++ [op]) e := by
  obtain ⟨before, first, after, rfl, hfirst, hafter, hkept⟩ := h
  refine ⟨before, first, after ++ [op], by simp, hfirst, ?_, ?_⟩
  · rw [silent_append, ← run_append, silent_singleton, List.append_assoc]
    exact ⟨hafter, hsilent⟩
  · rw [List.forall_mem_append, List.forall_mem_singleton]
    exact ⟨hkept, hkeeps⟩

/-- **A name is answered with the end that is on record under it.** -/
theorem completed?_run_eq_some_iff (k : UInt64) (ops : List Op) (uid : String) (e : StrategyEnd) :
    ((empty k).run ops).completed? uid = some e ↔ e.uid = uid ∧ (empty k).OnRecord ops e := by
  have hdistinct : ∀ ops, ((empty k).run ops).completed.Distinct :=
    distinct_completed_run Table.distinct_empty
  constructor
  · intro h
    induction ops using List.reverseRecOn with
    | nil => cases h
    | append_singleton ops op ih =>
      rw [run_concat, completed?_step (hdistinct ops), Option.or_eq_some_iff,
        Option.filter_eq_some_iff] at h
      rcases h with hop | ⟨hop, hold, hkeeps⟩
      · obtain rfl := uid_of_announces? hop
        refine ⟨rfl, ops, op, [], rfl, hop, ?_, List.forall_mem_nil _⟩
        exact List.forall_mem_nil _
      · obtain ⟨rfl, hrecord⟩ := ih hold
        exact ⟨rfl, hrecord.concat hop hkeeps⟩
  · rintro ⟨rfl, before, op, after, rfl, hop, hafter, hkept⟩
    rw [List.append_cons, run_append, completed?_run_of_silent (hdistinct _) hafter, run_concat,
      completed?_step (hdistinct before), hop, Option.some_or]
    exact ⟨rfl, hkept⟩

/-! ## Names that are used once -/

/-- The names of the ends that are announced are those of the strategies that end. -/
theorem uids_announced (f : Feedback) (ops : List Op) :
    ((f.announced ops).flatMap fun look => look.2.map (·.uid)) =
      (f.endings ops).flatten.map (·.uid) := by
  induction ops generalizing f with
  | nil => rfl
  | cons op rest ih =>
    cases op with
    | poll slot =>
      rw [announced, endings, List.flatMap_cons, List.flatten_cons, List.map_append, ih, due_eq,
        List.map_map]
      rfl
    | add time r => exact ih (f.add time r)
    | prune oldest => exact ih (f.pruneCompleted oldest)
    | subscribe => exact ih f.subscribe
    | read subscriber => exact ih (f.clearMailbox subscriber)

/-- How many of some rule sets have a name. -/
def countNamed (uid : String) (rs : List RuleSet) : Nat := rs.countP fun r => r.uid = uid

/-- Nothing is announced under a name as long as all that was added under it is pending. -/
theorem silent_of_countNamed_le {k : UInt64} {ops : List Op} {uid : String}
    (h : countNamed uid (added ops) ≤
      countNamed uid (((empty k).run ops).pending.map Prod.snd)) :
    (empty k).Silent ops uid := by
  have hall := (run_pending_append_endings (empty k) ops).countP_eq fun r => decide (r.uid = uid)
  rw [List.countP_append, List.countP_append] at hall
  simp only [countNamed] at h
  have hnone : ((empty k).endings ops).flatten.countP (fun r => decide (r.uid = uid)) = 0 := by
    have hempty : ((empty k).pending.map Prod.snd).countP (fun r => decide (r.uid = uid)) = 0 := rfl
    omega
  intro look hlook e he huid
  have hmem : uid ∈ ((empty k).endings ops).flatten.map (·.uid) := by
    rw [← uids_announced]
    exact List.mem_flatMap.2 ⟨look, hlook, List.mem_map.2 ⟨e, he, huid⟩⟩
  obtain ⟨r, hr, hruid⟩ := List.mem_map.1 hmem
  exact List.countP_eq_zero.1 hnone r hr (decide_eq_true hruid)

/-! ## The answer for a name -/

section Answer

variable {β : Type} [Backend β] {s : Service β} {a : Service.Arrival} {r : Http.Request}
  {uid : String}

theorem handle_of_feedback (hroute : Http.Route.of? r.method (Http.segments r.path) =
    some (.feedback uid)) :
    (s.handle a r).1 = Http.Filter.settle (fun e => Held.atOnce e.reply)
      (Service.replyOf (s.endedStrategy uid)) := by
  rw [Service.handle_eq, hroute]
  rfl

theorem handle_of_completed?_eq_some
    (hroute : Http.Route.of? r.method (Http.segments r.path) = some (.feedback uid))
    {e : StrategyEnd} (h : s.feedback.completed? uid = some e) :
    (s.handle a r).1 = Held.atOnce (Http.Reply.ok e) := by
  rw [handle_of_feedback hroute, Service.endedStrategy, h]
  rfl

theorem status_handle_eq_iff
    (hroute : Http.Route.of? r.method (Http.segments r.path) = some (.feedback uid)) :
    (s.handle a r).1.answer.status = 404 ↔ s.feedback.completed? uid = none := by
  rw [handle_of_feedback hroute, Service.endedStrategy]
  cases s.feedback.completed? uid with
  | none => exact iff_of_true rfl rfl
  | some e =>
    have hok : (Http.Reply.ok e).status ≠ 404 := by
      show 200 ≠ 404
      decide
    exact iff_of_false hok (by simp)

end Answer

/-- **What is told of a name is the end on record under it, whatever is pending, and that it is not
found exactly if there is none. There is none as long as all that was added under the name is
pending.** -/
theorem reported_run_iff_onRecord (β : Type) [Backend β] (k : UInt64) (ops : List Op)
    (uid : String) :
    let f := (empty k).run ops
    (∀ e, f.completed? uid = some e ↔ e.uid = uid ∧ (empty k).OnRecord ops e) ∧
    (∀ (s : Service β) (a : Service.Arrival) (r : Http.Request), s.feedback = f →
      Http.Route.of? r.method (Http.segments r.path) = some (.feedback uid) →
      ((s.handle a r).1.answer.status = 404 ↔ ∀ e, (empty k).OnRecord ops e → e.uid ≠ uid) ∧
      ∀ e, e.uid = uid → (empty k).OnRecord ops e →
        (s.handle a r).1 = Held.atOnce (Http.Reply.ok e)) ∧
    (countNamed uid (added ops) ≤ countNamed uid (f.pending.map Prod.snd) →
      f.completed? uid = none) := by
  intro f
  have hrecord : ∀ e, f.completed? uid = some e ↔ e.uid = uid ∧ (empty k).OnRecord ops e :=
    completed?_run_eq_some_iff k ops uid
  refine ⟨hrecord, ?_, ?_⟩
  · intro s a r hs hroute
    refine ⟨?_, ?_⟩
    · rw [status_handle_eq_iff hroute, hs, Option.eq_none_iff_forall_ne_some]
      refine forall_congr' fun e => ?_
      rw [Ne, hrecord, not_and']
    · intro e huid he
      refine handle_of_completed?_eq_some hroute ?_
      rw [hs, hrecord]
      exact ⟨huid, he⟩
  · intro hcount
    refine Option.eq_none_iff_forall_ne_some.2 fun e he => ?_
    have hold := (completed?_run_of_silent Table.distinct_empty (silent_of_countNamed_le hcount) e).1 he
    cases hold.1

/-- A strategy with one rule, for a slot. -/
def single (uid : String) (slot : Slot) : RuleSet := ⟨uid, Strategy.empty, [⟨.literal slot, 0, []⟩]⟩

/-- A strategy ends, and then another one is installed under its name. -/
def reinstalled : List Op :=
  [.add 1 (single "again" ⟨50⟩), .poll ⟨96⟩, .add 2 (single "again" ⟨50⟩)]

/-- The end of the first of them. -/
def firstEnd : StrategyEnd := ⟨"again", ⟨1⟩, ⟨1⟩⟩

/-- **A strategy that has just been installed again is reported as ended.** -/
theorem pending_reported_as_ended :
    let f := (empty 32).run reinstalled
    f.pending.map (·.2.uid) = ["again"] ∧ f.completed? "again" = some firstEnd := by
  decide

/-- A request for what is known of this name. -/
def askAgain : Http.Request := ⟨.get, "/v1/feedback/again", none, ""⟩

/-- A service that tracks these strategies. -/
def reinstalledService : Service Rehearsal :=
  { Service.start ChainSpec.mainnet (ChainSpec.mainnet.clock .zero) (Rehearsal.empty 32)
      ValidatorStore.empty with feedback := (empty 32).run reinstalled }

theorem reported_run_iff_onRecord_again :
    Http.Route.of? askAgain.method (Http.segments askAgain.path) = some (.feedback "again") ∧
      (reinstalledService.handle ⟨0, RandomStream.progression 0 0⟩ askAgain).1 =
        Held.atOnce (Http.Reply.ok firstEnd) ∧
      ((empty 32).run reinstalled).completed? "never" = none := by
  have hroute : Http.Route.of? askAgain.method (Http.segments askAgain.path) =
      some (.feedback "again") := by
    decide
  have hagain := reported_run_iff_onRecord Rehearsal 32 reinstalled "again"
  have hnever := reported_run_iff_onRecord Rehearsal 32 reinstalled "never"
  have hend := (hagain.1 firstEnd).1 (by decide)
  exact ⟨hroute, (hagain.2.1 reinstalledService _ askAgain rfl hroute).2 firstEnd hend.1 hend.2,
    hnever.2.2 (by decide)⟩

end Saboteur.Feedback
