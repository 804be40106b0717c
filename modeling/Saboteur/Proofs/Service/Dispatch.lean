import Saboteur.Proofs.Payload.Codec
import Saboteur.Proofs.Strategy.Selection
import Saboteur.Service.Dispatch

/-!
# The answer to a hook call

What a call is answered with, in terms of the rule that decides, the action that it binds to the
hook, and the text of the call. The answer says to carry on and hands the text back as it came,
unless an action is bound and the text can be read. Then the command is that of the action, and the
text comes back up to the blanks around it: reading, acting and writing change nothing that the
action did not replace.

Only two kinds of action replace anything. One packs the attestations of a block anew, the other
hands out the root of a block if there is one.
-/

namespace Saboteur

/-- The text of a call, which is empty if the call carries none. -/
def HookRequest.text (call : HookRequest) : String := call.payload.getD ""

/-- A hook carries a payload, and a text cannot be read as one. -/
def Hook.Unreadable (h : Hook) (text : String) : Prop :=
  h.payloadKind ≠ .none ∧ ∃ fault, Payload.decode h text = .error fault

namespace Action

/-- The command of an action: that of a control action, and to carry on for any other. -/
def command : Action → Command
  | control c => c
  | _ => .null

/-- Whether an action packs the attestations of a block anew. -/
def packs : Action → Bool
  | packPooledAttest | rePackAttestation => true
  | _ => false

/-- The root that an action hands out, if it asks for one and there is one. -/
def root? {β : Type} [Backend β] (a : Action) (b : β) : Option Root :=
  match a with
  | modifyParentRoot target => ((blockRoot target : StateM β _).run b).1.toOption
  | _ => none

/-! ## Executing an action -/

section Execution

variable {β : Type} [Backend β] (ctx : Context) (slot : Slot) (pubkey : Pubkey)
  (payload : Option Payload) (store : ValidatorStore) (b : β)

theorem command_execute (a : Action) :
    ((a.execute ctx slot pubkey payload store).run b).1.1.command = a.command := by
  cases a with
  | packPooledAttest =>
    cases payload with
    | none => rfl
    | some p =>
      simp only [execute]
      split <;> rfl
  | rePackAttestation =>
    cases payload with
    | none => rfl
    | some p =>
      simp only [execute]
      split <;> rfl
  | modifyParentRoot target =>
    simp only [execute]
    rw [StateT.run_bind]
    obtain ⟨answer, _⟩ := (blockRoot target : StateM β _).run b
    cases answer <;> rfl
  | _ => rfl

/-- An action that packs a block anew puts the packed block in its place. -/
theorem exists_payload_execute_of_packs {a : Action} {p : Payload} (ha : a.packs = true)
    (hp : p.isBlock = true) :
    ∃ extra, ((a.execute ctx slot pubkey (some p) store).run b).1.1.payload =
      some (p.repack ctx.spec.maxAttestationsPerBlock extra) := by
  cases a with
  | packPooledAttest =>
    simp only [execute, if_pos hp]
    exact ⟨_, rfl⟩
  | rePackAttestation =>
    simp only [execute, if_pos hp]
    exact ⟨_, rfl⟩
  | _ => cases ha

/-- An action that asks for a root hands it out, or nothing where there is none. -/
theorem payload_execute_modifyParentRoot (target : Slot) :
    (((modifyParentRoot target).execute ctx slot pubkey payload store).run b).1.1.payload =
      ((modifyParentRoot target).root? b).map .root := by
  simp only [execute, root?]
  rw [StateT.run_bind]
  obtain ⟨answer, _⟩ := (blockRoot target : StateM β _).run b
  cases answer <;> rfl

theorem exists_target_of_root? {a : Action} {b : β} {root : Root} (h : a.root? b = some root) :
    ∃ target, a = modifyParentRoot target := by
  cases a with
  | modifyParentRoot target => exact ⟨target, rfl⟩
  | _ => cases h

/-- Any other action leaves the payload alone, and so does packing where there is no block. -/
theorem payload_execute_of_kept {a : Action} (hroot : ∀ target, a ≠ modifyParentRoot target)
    (hblock : ¬ (a.packs = true ∧ ∃ p, payload = some p ∧ p.isBlock = true)) :
    ((a.execute ctx slot pubkey payload store).run b).1.1.payload = payload := by
  cases a with
  | packPooledAttest =>
    cases payload with
    | none => rfl
    | some p =>
      have hp : ¬ p.isBlock = true := fun hp => hblock ⟨rfl, p, rfl, hp⟩
      simp only [execute, if_neg hp]
      rfl
  | rePackAttestation =>
    cases payload with
    | none => rfl
    | some p =>
      have hp : ¬ p.isBlock = true := fun hp => hblock ⟨rfl, p, rfl, hp⟩
      simp only [execute, if_neg hp]
      rfl
  | modifyParentRoot target => exact absurd rfl (hroot target)
  | _ => rfl

/-- **What comes of an action does not depend on who calls.** -/
theorem outcome_execute_pubkey (a : Action) (pubkey' : Pubkey) :
    ((a.execute ctx slot pubkey' payload store).run b).1.1 =
      ((a.execute ctx slot pubkey payload store).run b).1.1 := by
  cases a <;> rfl

end Execution

end Action

namespace Service

variable {β : Type} [Backend β]

/-! ## Reading the text of a call -/

/-- A text is an unexpected one only for a hook that carries nothing. -/
theorem payloadKind_of_unexpected {h h' : Hook} {text : String}
    (hd : Payload.decode h text = .error (.unexpected h')) : h.payloadKind = .none := by
  simp only [Payload.decode] at hd
  split at hd
  · cases hd
  · split at hd
    · assumption
    · split at hd
      · cases hd
      · rename_i bytes _
        cases hb : Payload.ofBytes h.payloadKind bytes with
        | error e => rw [hb] at hd; cases hd
        | ok p => rw [hb] at hd; cases hd

theorem payloadFor_of_payloadKind_none {h : Hook} (hkind : h.payloadKind = .none) (text : String) :
    payloadFor h text = .ok none := by
  simp only [payloadFor, Payload.decode, hkind, if_true]
  split
  · rfl
  · rename_i x hx
    split
    · rfl
    · rename_i hblank
      rw [if_neg hblank] at hx
      exact absurd rfl (hx h)

theorem payloadFor_of_payloadKind_ne_none {h : Hook} (hkind : h.payloadKind ≠ .none)
    (text : String) : payloadFor h text = Payload.decode h text := by
  unfold payloadFor
  split
  · rename_i heq
    exact absurd (payloadKind_of_unexpected heq) hkind
  · rfl

/-- What is read for an action is a payload that the text is read as. -/
theorem payloadFor_eq_ok_some_iff {h : Hook} {text : String} {p : Payload} :
    payloadFor h text = .ok (some p) ↔ Payload.decode h text = .ok (some p) := by
  by_cases hkind : h.payloadKind = .none
  · rw [payloadFor_of_payloadKind_none hkind]
    refine iff_of_false (fun h => by cases h) ?_
    rw [Payload.decode_eq_ok_some_iff, hkind]
    rintro ⟨hp, bytes, hwire, -⟩
    cases p with
    | root r => cases hwire
    | _ => cases hp
  · rw [payloadFor_of_payloadKind_ne_none hkind]

/-- Nothing can be read for an action exactly where the hook carries a payload and the text is
none. -/
theorem exists_payloadFor_eq_error_iff {h : Hook} {text : String} :
    (∃ fault, payloadFor h text = .error fault) ↔ h.Unreadable text := by
  by_cases hkind : h.payloadKind = .none
  · rw [payloadFor_of_payloadKind_none hkind]
    exact iff_of_false (fun ⟨_, h⟩ => by cases h) (fun h => h.1 hkind)
  · rw [payloadFor_of_payloadKind_ne_none hkind]
    exact ⟨fun h => ⟨hkind, h⟩, fun h => h.2⟩

/-- The text of a payload is the text that it was read from, but for blanks. -/
theorem trim_resultText {h : Hook} {given : String} {payload : Option Payload}
    (hread : payloadFor h given = .ok payload) :
    Text.trim (resultText payload given) = Text.trim given := by
  cases payload with
  | none => rfl
  | some p =>
    obtain ⟨-, bytes, hwire, htext⟩ :=
      Payload.decode_eq_ok_some_iff.1 (payloadFor_eq_ok_some_iff.1 hread)
    rw [resultText, Option.map_some, Option.getD_some, Payload.encode_of_wire? hwire,
      Base64.trim_encode, htext]

/-! ## The action of a call -/

/-- The backend after the matchers of the rules in force have been looked at for a slot. -/
def lookedAt (s : Service β) (slot : Slot) : β :=
  RuleSet.lookedAt s.context s.validators slot s.backend s.rules.rules

/-- The rule that decides at a slot binds an action to a hook. -/
def Binds (s : Service β) (h : Hook) (slot : Slot) (a : Action) : Prop :=
  ∃ place rule,
    RuleSet.Decides s.context s.validators s.rules.rules slot s.backend place rule ∧
      rule.action? h = some a

theorem actionFor_eq_some_iff {s : Service β} {h : Hook} {slot : Slot} {a : Action} :
    (s.actionFor h slot).1 = some a ↔ s.Binds h slot a := by
  have hselect : (s.actionFor h slot).1 =
      (((s.rules.select s.context s.validators slot).run s.backend).1).bind
        fun r => r.2.action? h := rfl
  rw [hselect, Option.bind_eq_some_iff]
  constructor
  · rintro ⟨⟨place, rule⟩, hrule, ha⟩
    exact ⟨place, rule, RuleSet.select_eq_some_iff.1 hrule, ha⟩
  · rintro ⟨place, rule, hrule, ha⟩
    exact ⟨(place, rule), RuleSet.select_eq_some_iff.2 hrule, ha⟩

/-- The service once a call is counted and the rules have been looked at. -/
def called (s : Service β) (h : Hook) (slot : Slot) : Service β :=
  { (s.count (.hookCall h)).count (.hookDispatch h) with backend := s.lookedAt slot }

theorem actionFor_counted (s : Service β) (h : Hook) (slot : Slot) :
    ((s.count (.hookCall h)).count (.hookDispatch h)).actionFor h slot =
      ((s.actionFor h slot).1, s.called h slot) := by
  refine Prod.ext rfl ?_
  rw [called, lookedAt, ← RuleSet.snd_select]
  rfl

theorem dispatch_of_binds {s : Service β} {h : Hook} {a : Action} (call : HookRequest)
    (ha : s.Binds h call.slot a) :
    s.dispatch h call = (s.called h call.slot).perform a h call.slot call.pubkey call.text := by
  rw [dispatch, actionFor_counted, actionFor_eq_some_iff.2 ha]
  rfl

theorem dispatch_of_not_binds {s : Service β} {h : Hook} (call : HookRequest)
    (hnone : ∀ a, ¬ s.Binds h call.slot a) :
    s.dispatch h call =
      (Held.atOnce (HookResponse.carryOn call.text), s.called h call.slot) := by
  have hactionFor : (s.actionFor h call.slot).1 = none :=
    Option.eq_none_iff_forall_ne_some.2 fun a ha => hnone a (actionFor_eq_some_iff.1 ha)
  rw [dispatch, actionFor_counted, hactionFor]
  rfl

/-! ## Performing it -/

/-- The outcome of an action for a call. -/
def outcome (s : Service β) (a : Action) (slot : Slot) (pubkey : Pubkey)
    (payload : Option Payload) : Outcome := (s.execute a slot pubkey payload).1

theorem perform_of_unreadable (s : Service β) (a : Action) {h : Hook} (slot : Slot)
    (pubkey : Pubkey) {given : String} (hread : h.Unreadable given) :
    (s.perform a h slot pubkey given).1 = Held.atOnce (HookResponse.carryOn given) := by
  obtain ⟨fault, hfault⟩ := exists_payloadFor_eq_error_iff.2 hread
  rw [perform, hfault]

theorem perform_of_payloadFor (s : Service β) (a : Action) {h : Hook} (slot : Slot)
    (pubkey : Pubkey) {given : String} {payload : Option Payload}
    (hread : payloadFor h given = .ok payload) :
    s.perform a h slot pubkey given =
      let outcome := s.outcome a slot pubkey payload
      (⟨⟨outcome.command, resultText outcome.payload given⟩, outcome.wait⟩,
        (s.execute a slot pubkey payload).2) := by
  rw [perform, hread]
  rfl

theorem perform_pubkey (s : Service β) (a : Action) (h : Hook) (slot : Slot)
    (pubkey pubkey' : Pubkey) (given : String) :
    (s.perform a h slot pubkey' given).1 = (s.perform a h slot pubkey given).1 := by
  cases hread : payloadFor h given with
  | error fault => rw [perform, perform, hread]
  | ok payload =>
    have houtcome : s.outcome a slot pubkey' payload = s.outcome a slot pubkey payload :=
      Action.outcome_execute_pubkey _ _ _ _ _ _ a pubkey'
    rw [perform_of_payloadFor _ _ _ _ hread, perform_of_payloadFor _ _ _ _ hread, houtcome]

/-! ## The answer -/

/-- An answer carries out an action for a call. It has the command of the action. Its text is that
of a root if the action hands one out, that of a block packed anew if the action packs one, and
otherwise the text of the call, but for the blanks around it. -/
structure CarriesOut (s : Service β) (h : Hook) (call : HookRequest) (a : Action)
    (answer : HookResponse) : Prop where
  command : answer.command = a.command
  handed : ∀ root, a.root? (s.lookedAt call.slot) = some root → answer.result = root.display
  packed : ∀ p, a.packs = true → Payload.decode h call.text = .ok (some p) → p.isBlock = true →
    ∃ extra, answer.result = (p.repack s.spec.maxAttestationsPerBlock extra).encode
  echoed : a.root? (s.lookedAt call.slot) = none →
    ¬ (a.packs = true ∧ ∃ p, Payload.decode h call.text = .ok (some p) ∧ p.isBlock = true) →
    Text.trim answer.result = Text.trim call.text

theorem carriesOut_of_payloadFor {s : Service β} {h : Hook} {call : HookRequest} {a : Action}
    {payload : Option Payload} (hread : payloadFor h call.text = .ok payload) :
    let outcome := (s.called h call.slot).outcome a call.slot call.pubkey payload
    s.CarriesOut h call a ⟨outcome.command, resultText outcome.payload call.text⟩ := by
  intro outcome
  have hasked : ∀ target, a = .modifyParentRoot target →
      outcome.payload = (a.root? (s.lookedAt call.slot)).map .root := by
    rintro target rfl
    exact Action.payload_execute_modifyParentRoot s.context call.slot call.pubkey payload
      s.validators (s.lookedAt call.slot) target
  constructor
  case command => exact Action.command_execute _ _ _ _ _ _ _
  case handed =>
    intro root hroot
    obtain ⟨target, rfl⟩ := Action.exists_target_of_root? hroot
    have hleft := hasked target rfl
    rw [hroot] at hleft
    simp only [hleft]
    rfl
  case packed =>
    intro p ha hp hblock
    obtain rfl : payload = some p :=
      Except.ok.inj (hread.symm.trans (payloadFor_eq_ok_some_iff.2 hp))
    obtain ⟨extra, hleft⟩ : ∃ extra,
        outcome.payload = some (p.repack s.spec.maxAttestationsPerBlock extra) :=
      Action.exists_payload_execute_of_packs s.context call.slot call.pubkey s.validators
        (s.lookedAt call.slot) ha hblock
    refine ⟨extra, ?_⟩
    simp only [hleft]
    rfl
  case echoed =>
    intro hroot hblock
    by_cases hasks : ∃ target, a = .modifyParentRoot target
    · obtain ⟨target, ha⟩ := hasks
      have hleft := hasked target ha
      rw [hroot] at hleft
      simp only [hleft]
      rfl
    · have hleft : outcome.payload = payload := by
        refine Action.payload_execute_of_kept _ _ _ _ _ _ (fun target ha => hasks ⟨target, ha⟩) ?_
        rintro ⟨ha, p, rfl, hp⟩
        exact hblock ⟨ha, p, payloadFor_eq_ok_some_iff.1 hread, hp⟩
      simp only [hleft]
      exact trim_resultText hread

/-- **A call is answered with the action that the deciding rule binds to its hook, and otherwise
with its own text. What a hook does not carry is ignored, and who calls makes no difference.** -/
theorem dispatch_answer (s : Service β) (h : Hook) (call : HookRequest) :
    ((∀ a, ¬ s.Binds h call.slot a) ∨ h.Unreadable call.text →
        (s.dispatch h call).1.answer = ⟨.null, call.text⟩) ∧
      (∀ a, s.Binds h call.slot a → ¬ h.Unreadable call.text →
        s.CarriesOut h call a (s.dispatch h call).1.answer) ∧
      (h.payloadKind = .none → ∀ payload,
        (s.dispatch h { call with payload }).1.answer.command =
            (s.dispatch h call).1.answer.command ∧
          (s.dispatch h { call with payload }).2 = (s.dispatch h call).2) ∧
      ∀ pubkey, (s.dispatch h { call with pubkey }).1 = (s.dispatch h call).1 := by
  refine ⟨?_, ?_, ?_, ?_⟩
  · rintro (hnone | hread)
    · rw [dispatch_of_not_binds call hnone]
      rfl
    · by_cases hbinds : ∃ a, s.Binds h call.slot a
      · obtain ⟨a, ha⟩ := hbinds
        rw [dispatch_of_binds call ha, perform_of_unreadable _ _ _ _ hread]
        rfl
      · rw [dispatch_of_not_binds call fun a ha => hbinds ⟨a, ha⟩]
        rfl
  · intro a ha hread
    rw [dispatch_of_binds call ha]
    cases hpayload : payloadFor h call.text with
    | error fault => exact absurd (exists_payloadFor_eq_error_iff.1 ⟨fault, hpayload⟩) hread
    | ok payload =>
      rw [perform_of_payloadFor _ _ _ _ hpayload]
      exact carriesOut_of_payloadFor hpayload
  · intro hkind payload
    by_cases hbinds : ∃ a, s.Binds h call.slot a
    · obtain ⟨a, ha⟩ := hbinds
      rw [dispatch_of_binds call ha, dispatch_of_binds { call with payload } ha,
        perform_of_payloadFor _ _ _ _ (payloadFor_of_payloadKind_none hkind _),
        perform_of_payloadFor _ _ _ _ (payloadFor_of_payloadKind_none hkind _)]
      exact ⟨rfl, rfl⟩
    · have hnone : ∀ a, ¬ s.Binds h call.slot a := fun a ha => hbinds ⟨a, ha⟩
      rw [dispatch_of_not_binds call hnone, dispatch_of_not_binds { call with payload } hnone]
      exact ⟨rfl, rfl⟩
  · intro pubkey
    by_cases hbinds : ∃ a, s.Binds h call.slot a
    · obtain ⟨a, ha⟩ := hbinds
      rw [dispatch_of_binds call ha, dispatch_of_binds { call with pubkey } ha]
      exact perform_pubkey _ _ _ _ _ _ _
    · have hnone : ∀ a, ¬ s.Binds h call.slot a := fun a ha => hbinds ⟨a, ha⟩
      rw [dispatch_of_not_binds call hnone, dispatch_of_not_binds { call with pubkey } hnone]
      rfl

/-- Two rules on one level and one on a lower level, for the same slot and hook. -/
def tiedRules : RuleSet :=
  { RuleSet.empty with rules := [
      ⟨.literal ⟨8⟩, 1, [(.blockDelayForBroadCast, .control .abort)]⟩,
      ⟨.literal ⟨8⟩, 1, [(.blockDelayForBroadCast, .control .return)]⟩,
      ⟨.literal ⟨8⟩, 0, [(.blockDelayForBroadCast, .control .exit)]⟩] }

/-- A service in which these rules are in force. -/
def tiedService : Service Rehearsal :=
  { start ChainSpec.mainnet (ChainSpec.mainnet.clock .zero) (Rehearsal.empty 32)
      ValidatorStore.empty with rules := tiedRules }

/-- A call of a hook that carries nothing, with a text all the same. -/
def strayCall : HookRequest := ⟨⟨8⟩, Rehearsal.pubkey 1, some "AAAA"⟩

theorem dispatch_answer_tiedRules :
    (tiedService.dispatch .blockDelayForBroadCast strayCall).1.answer.command = .return ∧
      Text.trim (tiedService.dispatch .blockDelayForBroadCast strayCall).1.answer.result =
        Text.trim "AAAA" := by
  have hbinds : tiedService.Binds .blockDelayForBroadCast strayCall.slot (.control .return) :=
    actionFor_eq_some_iff.1 (by decide)
  have hread : ¬ Hook.blockDelayForBroadCast.Unreadable strayCall.text := fun h => h.1 rfl
  have hanswer := (dispatch_answer tiedService .blockDelayForBroadCast strayCall).2.1 _ hbinds hread
  refine ⟨hanswer.command, hanswer.echoed rfl ?_⟩
  rintro ⟨hpacks, -⟩
  cases hpacks

end Service

end Saboteur
