import Saboteur.Node.Backend
import Saboteur.Proofs.Http.Routing
import Saboteur.Proofs.Json.RoundTrip
import Saboteur.Proofs.Service.Dispatch
import Saboteur.Proofs.Text.Integer

/-!
# Moving an attestation one slot forward

The endpoint that modifies attestations answers with the data of a vote one slot later, where the
settings allow it, the text can be read and the height of the execution chain is odd. The slot is the
first eight bytes of the data, so all other bytes are handed back as they came. In any other case the
text itself is, with the blanks around it.

Nothing is written. At most the height is asked for, which a rehearsal does not notice, and which
changes no more about nodes than what went over the network. Who calls, and at which slot, makes no
difference.
-/

namespace Saboteur

/-! ## The slot on the wire -/

namespace AttestationData

/-- The slot comes first, and nothing behind it depends on it. -/
theorem exists_encode_eq (d : AttestationData) : ∃ rest : List UInt8, ∀ slot : Slot,
    Ssz.encode { d with slot } = littleEndian 8 slot.toNat ++ rest :=
  ⟨(Ssz.encode d.index ++ (Ssz.encode d.beaconBlockRoot ++ (Ssz.encode d.source ++
      (Ssz.encode d.target ++ [])))) ++ [],
    fun slot => List.append_assoc (littleEndian 8 slot.toNat) _ _⟩

theorem take_encode (d : AttestationData) :
    (Ssz.encode d).take 8 = littleEndian 8 d.slot.toNat := by
  obtain ⟨rest, hrest⟩ := d.exists_encode_eq
  have hd : Ssz.encode d = littleEndian 8 d.slot.toNat ++ rest := hrest d.slot
  rw [hd, List.take_left' (length_littleEndian 8 _)]

theorem drop_encode_slot (d : AttestationData) (slot : Slot) :
    (Ssz.encode { d with slot }).drop 8 = (Ssz.encode d).drop 8 := by
  obtain ⟨rest, hrest⟩ := d.exists_encode_eq
  have hd : Ssz.encode d = littleEndian 8 d.slot.toNat ++ rest := hrest d.slot
  rw [hrest slot, hd, List.drop_left' (length_littleEndian 8 _),
    List.drop_left' (length_littleEndian 8 _)]

theorem length_encode (d : AttestationData) : (Ssz.encode d).length = 128 := Ssz.fits_encode d

/-- The number in the first eight bytes is the slot. -/
theorem ofLittleEndian_take_encode (d : AttestationData) :
    ofLittleEndian ((Ssz.encode d).take 8) = d.slot.toNat := by
  rw [take_encode]
  exact ofLittleEndian_littleEndian 8 _ d.slot.val.toNat_lt

end AttestationData

/-- Bytes are those of others with one added to the number in the first eight, as far as there are
numbers. -/
structure OneSlotLater (moved bytes : List UInt8) : Prop where
  length_bytes : bytes.length = 128
  length_moved : moved.length = 128
  rest : moved.drop 8 = bytes.drop 8
  slot : ofLittleEndian (moved.take 8) = min (ofLittleEndian (bytes.take 8) + 1) Word.max.toNat

theorem AttestationData.oneSlotLater_next (d : AttestationData) :
    OneSlotLater (Ssz.encode { d with slot := d.slot.next }) (Ssz.encode d) where
  length_bytes := d.length_encode
  length_moved := length_encode _
  rest := d.drop_encode_slot _
  slot := by
    rw [ofLittleEndian_take_encode, ofLittleEndian_take_encode]
    exact Slot.toNat_addSat d.slot 1

namespace Service

/-! ## Which texts are moved -/

section Modification

variable {β : Type} [Backend β] {s : Service β} {text : String} {d : AttestationData}

theorem attestationData?_eq_some_iff :
    attestationData? text = some d ↔
      Payload.decode .attestBeforeSign text = .ok (some (.attestationData d)) := by
  unfold attestationData?
  split <;> simp_all

/-- The answer of the backend to a question for the height, and the backend after it. -/
def askedHeight (s : Service β) : Except BackendError UInt64 × β :=
  (blockNumber : StateM β _).run s.backend

/-- The data in a text are moved: the settings allow it, and the height is odd. -/
structure Moves (s : Service β) (text : String) (d : AttestationData) : Prop where
  allowed : s.rules.strategy.attest.modifyEnable = true
  read : Payload.decode .attestBeforeSign text = .ok (some (.attestationData d))
  odd : ∃ height, s.askedHeight.1 = .ok height ∧ height.toNat % 2 = 1

/-- The height is asked for only where it decides. -/
theorem modifyAttestation_of_unasked (call : HookRequest)
    (h : s.rules.strategy.attest.modifyEnable = false ∨ attestationData? call.text = none) :
    s.modifyAttestation call.payload = (HookResponse.carryOn call.text, s) := by
  unfold modifyAttestation
  rcases h with h | h
  · rw [h]
    rfl
  · cases s.rules.strategy.attest.modifyEnable with
    | false => rfl
    | true =>
      change attestationData? (call.payload.getD "") = none at h
      simp only [h]
      rfl

theorem modifyAttestation_of_asked {call : HookRequest}
    (hallowed : s.rules.strategy.attest.modifyEnable = true)
    (hread : attestationData? call.text = some d) :
    s.modifyAttestation call.payload =
      (HookResponse.carryOn (match s.askedHeight.1 with
        | .ok n => if n % 2 = 1 then movedForward d else call.text
        | .error _ => call.text), { s with backend := s.askedHeight.2 }) := by
  unfold modifyAttestation askedHeight
  change attestationData? (call.payload.getD "") = some d at hread
  simp only [hallowed, hread]
  rcases (blockNumber : StateM β _).run s.backend with ⟨fault | n, b⟩
  · rfl
  · by_cases hodd : n % 2 = 1
    · simp only [hodd]
      rfl
    · simp only [hodd]
      rfl

theorem modifyAttestation_of_moves {call : HookRequest} (h : s.Moves call.text d) :
    s.modifyAttestation call.payload =
      (HookResponse.carryOn (movedForward d), { s with backend := s.askedHeight.2 }) := by
  obtain ⟨n, hheight, hodd⟩ := h.odd
  have hn : n % 2 = 1 := UInt64.toNat_inj.1 hodd
  rw [modifyAttestation_of_asked h.allowed (attestationData?_eq_some_iff.2 h.read), hheight]
  simp only [hn, if_true]

/-- Where nothing is moved the text is handed back, whether or not the height was asked for. -/
theorem modifyAttestation_of_not_moves {call : HookRequest} (h : ∀ d, ¬ s.Moves call.text d) :
    s.modifyAttestation call.payload = (HookResponse.carryOn call.text, s) ∨
      s.modifyAttestation call.payload =
        (HookResponse.carryOn call.text, { s with backend := s.askedHeight.2 }) := by
  cases hallowed : s.rules.strategy.attest.modifyEnable with
  | false => exact .inl (modifyAttestation_of_unasked call (.inl hallowed))
  | true =>
    cases hread : attestationData? call.text with
    | none => exact .inl (modifyAttestation_of_unasked call (.inr hread))
    | some d =>
      refine .inr ?_
      rw [modifyAttestation_of_asked hallowed hread]
      cases hheight : s.askedHeight.1 with
      | error fault => rfl
      | ok n =>
        have hn : ¬ n % 2 = 1 := fun hn =>
          h d ⟨hallowed, attestationData?_eq_some_iff.1 hread, n, hheight, congrArg UInt64.toNat hn⟩
        simp only [hn, if_false]

/-- What is answered where an attestation may be modified, and the service after it. -/
structure Modifies (s : Service β) (text : String) (outcome : HookResponse × Service β) :
    Prop where
  command : outcome.1.command = .null
  /-- The bytes of moved data are those in the text, one slot later. -/
  moved : ∀ d, s.Moves text d → ∃ bytes, Base64.decode (Text.trim text) = .ok bytes ∧
    outcome.1.result = Base64.encode (Ssz.encode { d with slot := d.slot.next }) ∧
    OneSlotLater (Ssz.encode { d with slot := d.slot.next }) bytes
  kept : (∀ d, ¬ s.Moves text d) → outcome.1.result = text
  state : outcome.2 = s ∨ outcome.2 = { s with backend := s.askedHeight.2 }

theorem modifies_modifyAttestation (s : Service β) (call : HookRequest) :
    s.Modifies call.text (s.modifyAttestation call.payload) := by
  by_cases hmoves : ∃ d, s.Moves call.text d
  · obtain ⟨d, hd⟩ := hmoves
    rw [modifyAttestation_of_moves hd]
    refine ⟨rfl, fun e he => ?_, fun hnone => absurd hd (hnone d), .inr rfl⟩
    -- a text is read as one value at most
    cases hd.read.symm.trans he.read
    obtain ⟨-, bytes, hbytes, htext⟩ := Payload.decode_eq_ok_some_iff.1 hd.read
    cases hbytes
    exact ⟨_, Base64.decode_eq_ok_iff.2 htext, rfl, d.oneSlotLater_next⟩
  · have hnone : ∀ d, ¬ s.Moves call.text d := fun d hd => hmoves ⟨d, hd⟩
    have hmoved : ∀ d, s.Moves call.text d → ∃ bytes,
        Base64.decode (Text.trim call.text) = .ok bytes ∧
        call.text = Base64.encode (Ssz.encode { d with slot := d.slot.next }) ∧
        OneSlotLater (Ssz.encode { d with slot := d.slot.next }) bytes :=
      fun d hd => absurd hd (hnone d)
    rcases modifyAttestation_of_not_moves hnone with h | h <;> rw [h]
    · exact ⟨rfl, hmoved, fun _ => rfl, .inl rfl⟩
    · exact ⟨rfl, hmoved, fun _ => rfl, .inr rfl⟩

end Modification

/-! ## What the question for the height leaves behind -/

theorem askedHeight_rehearsal (s : Service Rehearsal) : s.askedHeight.2 = s.backend := rfl

/-- Of nodes only what went over the network changes. -/
theorem exists_askedHeight_nodes {ν : Type} [Network ν] (s : Service (NodeBackend ν)) :
    ∃ network, s.askedHeight.2 = { s.backend with network } := by
  obtain ⟨spec, clock, ⟨beacon, execution, network, duties, stopping⟩, rest⟩ := s
  cases execution with
  | none => exact ⟨network, rfl⟩
  | some node =>
    cases stopping with
    | true => exact ⟨network, rfl⟩
    | false => exact ⟨_, rfl⟩

/-! ## The endpoint -/

theorem plain_write_hookRequest (call : HookRequest) : Json.Plain (write call) := by
  refine Json.plain_obj fun m hm => ?_
  obtain ⟨slot, pubkey, payload⟩ := call
  cases payload with
  | none =>
    simp only [List.append_nil, List.mem_cons, List.not_mem_nil, or_false] at hm
    rcases hm with rfl | rfl <;> exact Json.plain_text _
  | some text =>
    simp only [List.cons_append, List.nil_append, List.mem_cons, List.not_mem_nil, or_false] at hm
    rcases hm with rfl | rfl | rfl <;> exact Json.plain_text _

theorem read_write_slot (slot : Slot) : read (write slot) = .ok slot := by
  change ((Text.readWord (Word.decimal slot.val)).mapError fun _ => JsonError.mismatch).map
    Slot.mk = .ok slot
  rw [Text.readWord_decimal]
  rfl

/-- A call is read back from its document, with the key in normal form. -/
theorem read_write_hookRequest (call : HookRequest) :
    read (write call) = .ok { call with pubkey := .ofText call.pubkey.text } := by
  obtain ⟨slot, pubkey, payload⟩ := call
  have hread : (read (write (⟨slot, pubkey, payload⟩ : HookRequest)) :
      Except JsonError HookRequest) = (do
        let slot ← read (write slot)
        return { slot, pubkey := .ofText pubkey.text, payload }) := by
    cases payload <;> rfl
  rw [hread, read_write_slot]
  rfl

/-- The request for a call, with nothing said about its body. -/
def modifyRequest (call : HookRequest) : Http.Request :=
  ⟨.post, "/v1/attest/modify", none, Json.render (write call)⟩

theorem isFor_modifyRequest (call : HookRequest) : (modifyRequest call).IsFor .attestModify := by
  change Http.Route.of? .post (Http.segments "/v1/attest/modify") = some .attestModify
  decide

theorem document_modifyRequest (call : HookRequest) :
    (modifyRequest call).document HookRequest =
      .ok { call with pubkey := .ofText call.pubkey.text } := by
  refine Http.Request.document_eq_of_admits rfl ?_
  change Json.parse HookRequest (Json.render (write call)) = _
  rw [Json.parse_render (plain_write_hookRequest call), read_write_hookRequest]

theorem handle_attestModify {β : Type} [Backend β] (s : Service β) (a : Arrival)
    {r : Http.Request} {call : HookRequest} (h : r.IsFor .attestModify)
    (hdocument : r.document HookRequest = .ok call) :
    s.handle a r = (Held.atOnce (Http.Reply.ok (s.modifyAttestation call.payload).1),
      (s.modifyAttestation call.payload).2) := by
  rw [handle_of_route h, serve, replyTo, hdocument]
  rfl

/-- **The endpoint that modifies attestations moves the slot of a vote and changes nothing else.**
Where nothing is moved the text is handed back as it came. The service stays as it is, of nodes only
what went over the network changes, and the slot and the key of a call make no difference. -/
theorem modifyAttestation_moves_slot_only :
    (∀ {β : Type} [Backend β] (s : Service β) (call : HookRequest),
      s.Modifies call.text (s.modifyAttestation call.payload)) ∧
    (∀ (s : Service Rehearsal) (payload : Option String), (s.modifyAttestation payload).2 = s) ∧
    (∀ {ν : Type} [Network ν] (s : Service (NodeBackend ν)) (payload : Option String),
      ∃ network, (s.modifyAttestation payload).2 =
        { s with backend := { s.backend with network } }) ∧
    ∀ {β : Type} [Backend β] (s : Service β) (a a' : Arrival) (r r' : Http.Request)
      (call call' : HookRequest), r.IsFor .attestModify → r.document HookRequest = .ok call →
      r'.IsFor .attestModify → r'.document HookRequest = .ok call' → call.text = call'.text →
        s.handle a r = (Held.atOnce (Http.Reply.ok (s.modifyAttestation call.payload).1),
          (s.modifyAttestation call.payload).2) ∧
        s.handle a' r' = s.handle a r := by
  have hstate : ∀ {β : Type} [Backend β] (s : Service β) (payload : Option String),
      (s.modifyAttestation payload).2 = s ∨
        (s.modifyAttestation payload).2 = { s with backend := s.askedHeight.2 } :=
    fun s payload => (s.modifies_modifyAttestation ⟨⟨0⟩, default, payload⟩).state
  refine ⟨modifies_modifyAttestation, fun s payload => ?_, fun s payload => ?_, ?_⟩
  · rcases hstate s payload with h | h
    · exact h
    · rw [h, askedHeight_rehearsal]
  · rcases hstate s payload with h | h
    · exact ⟨s.backend.network, h⟩
    · obtain ⟨network, hnetwork⟩ := s.exists_askedHeight_nodes
      exact ⟨network, by rw [h, hnetwork]⟩
  · intro β _ s a a' r r' call call' hr hcall hr' hcall' htext
    have hpayload : s.modifyAttestation call'.payload = s.modifyAttestation call.payload := by
      unfold modifyAttestation
      change call.payload.getD "" = call'.payload.getD "" at htext
      rw [htext]
    refine ⟨s.handle_attestModify a hr hcall, ?_⟩
    rw [s.handle_attestModify a hr hcall, s.handle_attestModify a' hr' hcall', hpayload]

/-- A service that may modify attestations, at a height. -/
def modifyingService (height : UInt64) : Service Rehearsal :=
  { start ChainSpec.mainnet (ChainSpec.mainnet.clock .zero) (Rehearsal.empty 32)
      ValidatorStore.empty with
    backend := { Rehearsal.empty 32 with blockNumber := some height }
    rules := { RuleSet.empty with
      strategy := { Strategy.empty with attest := ⟨false, 0, true⟩ } } }

/-- Two callers send the same vote, each with a slot of its own, while the height is odd. At the next
height the vote stays as it is. -/
theorem modifyAttestation_moves_slot_only_twoCallers :
    let vote := AttestationData.vote ⟨20⟩ 1 Root.zero
    let text := (Payload.attestationData vote).encode
    let call : HookRequest := ⟨⟨20⟩, .ofText "0x01", some text⟩
    let call' : HookRequest := ⟨⟨3⟩, .ofText "0x02", some text⟩
    (modifyingService 7).Moves text vote ∧
      ((modifyingService 7).modifyAttestation call.payload).1.result =
        (Payload.attestationData { vote with slot := ⟨21⟩ }).encode ∧
      (modifyingService 7).handle ⟨0, .progression 0 0⟩ (modifyRequest call') =
        (modifyingService 7).handle ⟨5, .progression 0 0⟩ (modifyRequest call) ∧
      ((modifyingService 8).modifyAttestation call.payload).1.result = text := by
  intro vote text call call'
  have hmoves : (modifyingService 7).Moves text vote :=
    ⟨rfl, Payload.decode_eq_ok_some_iff.2 ⟨rfl, _, rfl, Base64.trim_encode _⟩, 7, rfl, rfl⟩
  have heven : ∀ d, ¬ (modifyingService 8).Moves text d := by
    rintro d ⟨-, -, height, hheight, hodd⟩
    obtain rfl : 8 = height := Except.ok.inj hheight
    cases hodd
  have hcall : (modifyRequest call).document HookRequest = .ok call := document_modifyRequest call
  have hcall' : (modifyRequest call').document HookRequest = .ok call' :=
    document_modifyRequest call'
  obtain ⟨hmodifies, -, -, hhandle⟩ := modifyAttestation_moves_slot_only
  obtain ⟨-, -, hresult, -⟩ := (hmodifies (modifyingService 7) call).moved vote hmoves
  refine ⟨hmoves, hresult, ?_, (hmodifies (modifyingService 8) call).kept heven⟩
  exact (hhandle _ _ _ _ _ call call' (isFor_modifyRequest call) hcall
    (isFor_modifyRequest call') hcall' rfl).2

end Service

end Saboteur
