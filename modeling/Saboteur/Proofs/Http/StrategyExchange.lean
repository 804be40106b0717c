import Saboteur.Proofs.Http.Routing
import Saboteur.Proofs.Service.Installation
import Saboteur.Proofs.Strategy.Codec
import Saboteur.Proofs.Strategy.NormalForm

/-!
# Fetching and posting a strategy

The strategy that a service hands out is the one that was posted to it, under the name that it was
installed under. Posting it again, to any service, installs the same rules and windows under the
same name. Only delays for which the strategy gives no seconds may come out with others.
-/

namespace Saboteur

/-! ## Slots in documents -/

namespace Json

/-- A document is an object with a member. -/
def Has (j : Json) (key : String) (value : Json) : Prop :=
  ∃ members, j = .object members ∧ (Literal.text key, value) ∈ members

/-- The rules of a document give their slots as these texts. -/
def ShowsSlots (j : Json) (slots : List String) : Prop :=
  ∃ items, j.Has "slots" (.array items) ∧
    List.Forall₂ (fun item slot => item.Has "slot" (.text slot)) items slots

theorem showsSlots_write (s : Strategy) : ShowsSlots (write s) (s.slots.map (·.slot)) := by
  refine ⟨s.slots.map write, ⟨_, rfl, by cases s.uid <;> simp⟩, ?_⟩
  rw [List.forall₂_map_left_iff, List.forall₂_map_right_iff, List.forall₂_same]
  exact fun e _ => ⟨_, rfl, List.mem_cons_self⟩

end Json

/-! ## Requests -/

namespace Http.Request

theorem exists_read_of_document {α : Type} [ReadJson α] {r : Request} {a : α}
    (h : r.document α = .ok a) : ∃ j, read j = .ok a := by
  rw [document] at h
  split at h
  · cases h
  · rw [mapError_eq_ok_iff, Json.parse] at h
    split at h
    · cases h
    · exact ⟨_, h⟩

end Http.Request

/-! ## Documents of rule sets -/

theorem Word.decimal_ne_empty (w : UInt64) : Word.decimal w ≠ "" := by
  intro h
  have htext : (Nat.repr w.toNat).toList = [] := congrArg String.toList h
  rw [Nat.toList_repr] at htext
  exact Nat.toDigits_ne_nil htext

/-- **What is handed out is the document under the name of the rule set, even if that is empty.** -/
theorem RuleSet.document_eq {rules : RuleSet} {strategy : Strategy} {time : UInt64}
    (huid : rules.uid = Service.uidFor strategy time) (hstrategy : rules.strategy = strategy) :
    rules.document = { strategy with uid := some rules.uid } := by
  rw [document, hstrategy]
  split
  · rename_i hempty
    rw [Service.uidFor] at huid
    cases hgiven : strategy.uid with
    | none =>
      rw [hgiven, Option.getD_none, hempty] at huid
      exact absurd huid.symm (Word.decimal_ne_empty time)
    | some uid =>
      rw [hgiven, Option.getD_some] at huid
      rw [huid, ← hgiven]
  · rfl

/-! ## The exchange -/

namespace Service

open RuleSet (fives)

variable {β : Type}

theorem updateStrategy_of_ok (s : Service β) (a : Arrival) {strategy : Strategy} {rules : RuleSet}
    {r : RandomStream}
    (h : RuleSet.compile strategy (uidFor strategy a.time) a.random = .ok (rules, r)) :
    (s.updateStrategy a strategy).1 = .ok ⟨rules.uid⟩ ∧
      (s.updateStrategy a strategy).2.rules = rules := by
  rw [updateStrategy, install_of_compile_ok h]
  exact ⟨rfl, rfl⟩

variable [Backend β]

theorem handle_strategy (s : Service β) (a : Arrival) {r : Http.Request} (h : r.IsFor .strategy) :
    s.handle a r = (Held.atOnce (Http.Reply.ok s.rules.document), s) := by
  rw [handle_eq, h]
  rfl

theorem handle_updateStrategy (s : Service β) (a : Arrival) {r : Http.Request}
    (h : r.IsFor .updateStrategy) {strategy : Strategy}
    (hdocument : r.document Strategy = .ok strategy) :
    s.handle a r = (Http.Filter.settle (fun e => Held.atOnce e.reply)
      (replyOf (s.updateStrategy a strategy).1), (s.updateStrategy a strategy).2) := by
  rw [handle_eq, h, serveAt, serve]
  simp only [hdocument]

/-- What is known once the reply says that a strategy is installed. -/
theorem installed_of_reply {s : Service β} {a : Arrival} {r : Http.Request}
    (hpost : r.IsFor .updateStrategy) {strategy : Strategy}
    (hdocument : r.document Strategy = .ok strategy) {u : String}
    (hreply : (s.handle a r).1 = Held.atOnce (Http.Reply.ok (⟨u⟩ : InstalledStrategy))) :
    ∃ rules random,
      RuleSet.compile strategy (uidFor strategy a.time) a.random = .ok (rules, random) ∧
        rules.uid = u ∧ (s.handle a r).2.rules = rules := by
  rw [handle_updateStrategy s a hpost hdocument] at hreply ⊢
  cases hcompile : RuleSet.compile strategy (uidFor strategy a.time) a.random with
  | error fault =>
    rw [updateStrategy, install_of_compile_error hcompile] at hreply
    have hstatus := congrArg (fun held => held.answer.status) hreply
    cases hstatus
  | ok result =>
    obtain ⟨rules, random⟩ := result
    obtain ⟨hanswer, hrules⟩ := updateStrategy_of_ok s a hcompile
    rw [hanswer] at hreply
    refine ⟨rules, random, rfl, ?_, hrules⟩
    cases hreply
    rfl

/-- A rule set that is posted again under its name is installed again. -/
theorem handle_post_again {strategy : Strategy} (hwell : strategy.WellFormed) {uid : String}
    {rules : RuleSet} {r r' : RandomStream}
    (hcompile : RuleSet.compile strategy uid r = .ok (rules, r')) (s : Service β) (a : Arrival)
    {back : Http.Request} (hback : back.IsFor .updateStrategy)
    (hadmits : back.admitsDocument = true)
    (hbody : back.body = (write { strategy with uid := some uid }).render) :
    (s.handle a back).1 = Held.atOnce (Http.Reply.ok (⟨uid⟩ : InstalledStrategy)) ∧
      (s.handle a back).2.rules.uid = uid ∧
      (s.handle a back).2.rules.windows = rules.windows ∧
      Rule.AllRedrawn strategy.slots rules.rules (s.handle a back).2.rules.rules := by
  let named : Strategy := { strategy with uid := some uid }
  have hnamed : named.WellFormed := ⟨hwell.ordered, hwell.levels⟩
  have hparse : Json.parse Strategy back.body = .ok named := by
    rw [hbody, parse_render_strategy hnamed]
  -- the name plays no part in compiling, so it succeeds again, whatever the stream is
  obtain ⟨hcheck, -, rfl, hall⟩ := RuleSet.compile_eq_ok_iff.1 hcompile
  obtain ⟨rules₂, r₂, hall₂, hredrawn⟩ := Rule.exists_compileAll_redrawn hall a.random
  have hcompile₂ : RuleSet.compile named (uidFor named a.time) a.random =
      .ok (⟨uid, named, rules₂⟩, r₂) := RuleSet.compile_eq_ok_iff.2 ⟨hcheck, rfl, rfl, hall₂⟩
  obtain ⟨hanswer, hrules⟩ := updateStrategy_of_ok s a hcompile₂
  rw [handle_updateStrategy s a hback (Http.Request.document_eq_of_admits hadmits hparse), hanswer,
    hrules]
  exact ⟨rfl, rfl, rfl, hredrawn⟩

/-- **Fetching a strategy gives what was posted, under the name that it was installed under, and
posting what was fetched installs it again.** -/
theorem strategy_exchange (s : Service β) (a : Arrival) {post : Http.Request}
    (hpost : post.IsFor .updateStrategy) {strategy : Strategy}
    (hdocument : post.document Strategy = .ok strategy) {u : String}
    (hreply : (s.handle a post).1 = Held.atOnce (Http.Reply.ok (⟨u⟩ : InstalledStrategy))) :
    let installed := (s.handle a post).2.rules
    installed.uid = u ∧ u = uidFor strategy a.time ∧
      ∀ (now : Service β) (b : Arrival) (get : Http.Request),
        now.rules = installed → get.IsFor .strategy →
        ∃ j, (now.handle b get).1 = Held.atOnce ⟨200, .document j⟩ ∧
          read j = .ok { strategy with uid := some u } ∧
          j.ShowsSlots (strategy.slots.map (·.slot)) ∧
          ∀ (later : Service β) (c : Arrival) (back : Http.Request),
            back.IsFor .updateStrategy → back.admitsDocument = true → back.body = j.render →
            (later.handle c back).1 = Held.atOnce (Http.Reply.ok (⟨u⟩ : InstalledStrategy)) ∧
              (later.handle c back).2.rules.uid = u ∧
              (later.handle c back).2.rules.windows = installed.windows ∧
              Rule.AllRedrawn strategy.slots installed.rules
                (later.handle c back).2.rules.rules := by
  obtain ⟨rules, random, hcompile, huid, hinstalled⟩ := installed_of_reply hpost hdocument hreply
  obtain ⟨_, hread⟩ := Http.Request.exists_read_of_document hdocument
  have hwell := wellFormed_of_read_strategy hread
  obtain ⟨-, hname, hstrategy, -⟩ := RuleSet.compile_eq_ok_iff.1 hcompile
  have hu : uidFor strategy a.time = u := hname.symm.trans huid
  rw [hu] at hcompile
  intro installed
  have hrules : installed = rules := hinstalled
  rw [hrules]
  refine ⟨huid, hu.symm, ?_⟩
  intro now b get hnow hget
  have hserved : now.rules.document = { strategy with uid := some u } := by
    rw [hnow, RuleSet.document_eq hname hstrategy, huid]
  refine ⟨write { strategy with uid := some u }, ?_, ?_, Json.showsSlots_write _, ?_⟩
  · rw [handle_strategy now b hget, hserved]
    rfl
  · exact read_write_strategy ⟨hwell.ordered, hwell.levels⟩
  · intro later c back hback hadmits hbody
    exact handle_post_again hwell hcompile later c hback hadmits hbody

/-- A document without a name whose slot is a number and whose delay has no seconds. -/
def numberedSlot : Json :=
  .obj [("slots", .array [.obj [("slot", .nat 7),
    ("actions", .obj [("BlockBeforeSign", .text "delayWithSecond")])]])]

/-- What it is read as. -/
def sevenDelayed : Strategy :=
  { Strategy.empty with slots := [⟨"7", 0, [("BlockBeforeSign", "delayWithSecond")]⟩] }

theorem strategy_exchange_sevenDelayed :
    let post : Http.Request := ⟨.post, "/v1/update-strategy", none, numberedSlot.render⟩
    let get : Http.Request := ⟨.get, "/v1/strategy/", none, ""⟩
    let first := watchedService.handle ⟨5, fives⟩ post
    post.document Strategy = .ok sevenDelayed ∧
      first.1 = Held.atOnce (Http.Reply.ok (⟨"5"⟩ : InstalledStrategy)) ∧
      ∃ j, (first.2.handle ⟨6, fives⟩ get).1 = Held.atOnce ⟨200, .document j⟩ ∧
        read j = .ok { sevenDelayed with uid := some "5" } ∧ j.ShowsSlots ["7"] ∧
        let back : Http.Request :=
          ⟨.post, "/v1/update-strategy?again", some "application/json", j.render⟩
        (watchedService.handle ⟨7, RandomStream.progression 0 0⟩ back).1 =
          Held.atOnce (Http.Reply.ok (⟨"5"⟩ : InstalledStrategy)) := by
  intro post get first
  have hpost : post.IsFor .updateStrategy := by
    change Http.Route.of? .post (Http.segments "/v1/update-strategy") = some .updateStrategy
    decide
  have hget : get.IsFor .strategy := by
    change Http.Route.of? .get (Http.segments "/v1/strategy/") = some .strategy
    decide
  have hback : Http.Route.of? .post (Http.segments "/v1/update-strategy?again") =
      some .updateStrategy := by decide
  have hplain : numberedSlot.Plain := by
    simp [numberedSlot, Json.obj, Json.Plain, Json.PlainItems, Json.PlainMembers, Json.IsText,
      Json.nat, Json.text]
    decide
  have hdocument : post.document Strategy = .ok sevenDelayed := by
    refine Http.Request.document_eq_of_admits rfl ?_
    rw [Json.parse_render hplain]
    rfl
  have hreply : first.1 = Held.atOnce (Http.Reply.ok (⟨"5"⟩ : InstalledStrategy)) := by
    have hcompile : RuleSet.compile sevenDelayed "5" fives = .ok (⟨"5", sevenDelayed,
        [⟨.literal ⟨7⟩, 0, [(.blockBeforeSign, .delayWithSecond 5)]⟩]⟩,
        { fives with used := 1 }) := rfl
    have hinstalled := updateStrategy_of_ok watchedService ⟨5, fives⟩ hcompile
    have hhandle := handle_updateStrategy watchedService ⟨5, fives⟩ hpost hdocument
    rw [hinstalled.1] at hhandle
    exact congrArg Prod.fst hhandle
  obtain ⟨-, -, hfetch⟩ := strategy_exchange watchedService ⟨5, fives⟩ hpost hdocument hreply
  obtain ⟨j, hserved, hread, hslots, hagain⟩ := hfetch first.2 ⟨6, fives⟩ get rfl hget
  exact ⟨hdocument, hreply, j, hserved, hread, hslots,
    (hagain watchedService _ ⟨.post, _, some "application/json", j.render⟩ hback rfl rfl).1⟩

end Service

end Saboteur
