import Saboteur.Proofs.Json.Fields
import Saboteur.Proofs.Json.RoundTrip
import Saboteur.Proofs.Strategy.Faults
import Saboteur.Strategy.Document

/-!
# Strategy documents as JSON

A strategy that was read has its hooks in order and its levels within 64 bits. Such a strategy is
read back from what is written for it, with its slots as texts, and also from the text of that.
-/

namespace Saboteur

/-! ## Elementary values -/

namespace Json

theorem readWord_word (w : UInt64) : readWord (word w) = .ok w := by
  rw [readWord, word, nat, readNatural, Numeral.natural?_ofNat (Word.toNat_lt_count w)]
  exact congrArg Except.ok UInt64.ofNat_toNat

/-- A signed integer of 64 bits. -/
def Signed (i : Int) : Prop := -(Word.negativeCount : Int) ≤ i ∧ i < Word.negativeCount

theorem isInteger_ofInt (i : Int) : (Numeral.ofInt i).isInteger = true := by
  by_cases hi : i < 0
  · have habs : i.natAbs ≠ 0 := by omega
    simp [Numeral.ofInt, Numeral.isInteger, hi, habs]
  · simp [Numeral.ofInt, Numeral.isInteger, hi]

theorem isExact_ofInt {i : Int} (h : Signed i) : (Numeral.ofInt i).isExact = true := by
  obtain ⟨hlow, hhigh⟩ := h
  have hcount : Word.negativeCount ≤ Word.count := by decide
  rw [Numeral.isExact, isInteger_ofInt, Bool.true_and]
  by_cases hi : i < 0
  · simp only [Numeral.ofInt, hi, decide_true, if_true, decide_eq_true_eq]
    omega
  · simp only [Numeral.ofInt, hi, decide_false, Bool.false_eq_true, if_false, decide_eq_true_eq]
    omega

theorem integer?_ofInt {i : Int} (h : Signed i) : (Numeral.ofInt i).integer? = some i := by
  obtain ⟨hlow, hhigh⟩ := h
  rw [Numeral.integer?, isInteger_ofInt, Bool.not_true]
  by_cases hi : i < 0
  · have habs : i.natAbs ≤ Word.negativeCount := by omega
    have hvalue : -(i.natAbs : Int) = i := by omega
    simp only [Numeral.ofInt, hi, decide_true, Bool.false_eq_true, if_false, habs, if_true, hvalue]
  · have habs : i.natAbs < Word.negativeCount := by omega
    have hvalue : (i.natAbs : Int) = i := by omega
    simp only [Numeral.ofInt, hi, decide_false, Bool.false_eq_true, if_false, habs, if_true, hvalue]

theorem readSigned_int {i : Int} (h : Signed i) : readSigned (int i) = .ok i := by
  simp only [readSigned, int, integer?_ofInt h]

theorem signed_of_readSigned {j : Json} {i : Int} (h : readSigned j = .ok i) : Signed i := by
  have hcount : 0 < Word.negativeCount := by decide
  cases j with
  | number n =>
    rw [readSigned] at h
    cases hread : n.integer? with
    | none =>
      rw [hread] at h
      cases h
    | some k =>
      rw [hread] at h
      cases h
      simp only [Numeral.integer?] at hread
      unfold Signed
      split at hread
      · cases hread
      · split at hread <;> split at hread <;> cases hread <;> omega
  | _ => cases h

theorem readArray_array_map {α : Type} [ReadJson α] [WriteJson α] {as : List α}
    (h : ∀ a ∈ as, read (write a) = .ok a) :
    readArray read (.array (as.map write)) = .ok as := by
  rw [readArray]
  induction as with
  | nil => rfl
  | cons a rest ih =>
    obtain ⟨ha, hrest⟩ := List.forall_mem_cons.1 h
    rw [List.map_cons, List.mapM_cons, ha, ih hrest]
    rfl

/-- What is in an array was read from one of its items. -/
theorem exists_read_of_mem_readArray {α : Type} {item : Json → Except JsonError α} {j : Json}
    {as : List α} (h : readArray item j = .ok as) {a : α} (ha : a ∈ as) : ∃ i, item i = .ok a := by
  cases j with
  | array items =>
    rw [readArray] at h
    induction items generalizing as with
    | nil =>
      cases h
      cases ha
    | cons first rest ih =>
      rw [List.mapM_cons, bind_eq_ok_iff] at h
      obtain ⟨b, hb, h⟩ := h
      rw [bind_eq_ok_iff] at h
      obtain ⟨others, hothers, h⟩ := h
      cases h
      rcases List.mem_cons.1 ha with rfl | ha
      · exact ⟨first, hb⟩
      · exact ih ha hothers
  | _ => cases h

end Json

/-! ## Tables of actions -/

namespace Strategy

/-- A key beyond all keys comes last. -/
theorem insertSorted_of_lt {k v : String} {entries : List (String × String)}
    (h : ∀ e ∈ entries, e.1 < k) : insertSorted k v entries = entries ++ [(k, v)] := by
  induction entries with
  | nil => rfl
  | cons e rest ih =>
    obtain ⟨he, hrest⟩ := List.forall_mem_cons.1 h
    have hnot : ¬ k < e.1 := fun h => Std.lt_irrefl (Std.lt_trans he h)
    rw [insertSorted, if_neg (Std.ne_of_lt he).symm, if_neg hnot, ih hrest, List.cons_append]

theorem mem_insertSorted {k v : String} {entries : List (String × String)}
    {e : String × String} (h : e ∈ insertSorted k v entries) : e = (k, v) ∨ e ∈ entries := by
  induction entries with
  | nil => exact .inl (List.mem_singleton.1 h)
  | cons first rest ih =>
    rw [insertSorted] at h
    split at h
    · rcases List.mem_cons.1 h with rfl | h
      · exact .inl rfl
      · exact .inr (List.mem_cons_of_mem _ h)
    · split at h
      · rcases List.mem_cons.1 h with rfl | h
        · exact .inl rfl
        · exact .inr h
      · rcases List.mem_cons.1 h with rfl | h
        · exact .inr List.mem_cons_self
        · exact (ih h).imp_right (List.mem_cons_of_mem _)

/-- **An insertion keeps the order of the keys.** -/
theorem pairwise_insertSorted {k v : String} {entries : List (String × String)}
    (h : entries.Pairwise fun a b => a.1 < b.1) :
    (insertSorted k v entries).Pairwise fun a b => a.1 < b.1 := by
  induction entries with
  | nil => exact List.pairwise_singleton _ _
  | cons first rest ih =>
    obtain ⟨hfirst, hrest⟩ := List.pairwise_cons.1 h
    rw [insertSorted]
    split
    · rename_i heq
      subst heq
      exact List.pairwise_cons.2 ⟨hfirst, hrest⟩
    · split
      · rename_i hlt
        refine List.pairwise_cons.2 ⟨?_, h⟩
        exact List.forall_mem_cons.2 ⟨hlt, fun e he => Std.lt_trans hlt (hfirst e he)⟩
      · rename_i hne hnlt
        refine List.pairwise_cons.2 ⟨fun e he => ?_, ih hrest⟩
        rcases mem_insertSorted he with rfl | he
        · exact Std.lt_of_le_of_ne (Std.not_lt.1 hnlt) (Ne.symm hne)
        · exact hfirst e he

theorem foldlM_insertSorted {entries : List (String × String)} (acc : List (String × String))
    (h : (acc ++ entries).Pairwise fun a b => a.1 < b.1) :
    (entries.map fun a => (Literal.text a.1, Json.text a.2)).foldlM (fun acc m => do
      let k ← Json.readKey m.1
      let v ← Json.readText m.2
      return insertSorted k v acc) acc = .ok (acc ++ entries) := by
  induction entries generalizing acc with
  | nil => simp [pure, Except.pure]
  | cons e rest ih =>
    have hbefore : ∀ a ∈ acc, a.1 < e.1 := fun a ha =>
      (List.pairwise_append.1 h).2.2 a ha e List.mem_cons_self
    have hinsert : insertSorted e.1 e.2 acc = acc ++ [e] := insertSorted_of_lt hbefore
    rw [List.append_cons] at h ⊢
    rw [← ih (acc ++ [e]) h, ← hinsert]
    rfl

/-- A table of texts is read back if its keys are in order. -/
theorem readTable_texts {entries : List (String × String)}
    (h : entries.Pairwise fun a b => a.1 < b.1) :
    Json.readTable Json.readText insertSorted
      (.obj (entries.map fun a => (a.1, Json.text a.2))) = .ok entries := by
  rw [Json.obj, Json.readTable, List.map_map]
  exact foldlM_insertSorted [] h

/-- **A table that was read has its keys in order.** -/
theorem pairwise_of_readTable {j : Json} {entries : List (String × String)}
    (h : Json.readTable Json.readText insertSorted j = .ok entries) :
    entries.Pairwise fun a b => a.1 < b.1 := by
  cases j with
  | object members =>
    rw [Json.readTable] at h
    -- every table on the way is in order
    suffices hfold : ∀ acc : List (String × String), acc.Pairwise (fun a b => a.1 < b.1) →
        members.foldlM (fun acc m => do
          let k ← Json.readKey m.1
          let v ← Json.readText m.2
          return insertSorted k v acc) acc = .ok entries →
        entries.Pairwise fun a b => a.1 < b.1 from
      hfold [] .nil h
    clear h
    induction members with
    | nil =>
      intro acc hacc h
      cases h
      exact hacc
    | cons m rest ih =>
      intro acc hacc h
      simp only [List.foldlM_cons, bind_eq_ok_iff] at h
      obtain ⟨next, ⟨k, -, v, -, hnext⟩, hrest⟩ := h
      cases hnext
      exact ih _ (pairwise_insertSorted hacc) hrest
  | _ => cases h

end Strategy

/-! ## Documents -/

section

open Json

/-- A strategy as it is read: its hooks are in order and its levels fit 64 bits. -/
structure Strategy.WellFormed (s : Strategy) : Prop where
  ordered : s.Ordered
  levels : ∀ e ∈ s.slots, Json.Signed e.level

theorem read_write_windowEntry (w : WindowEntry) : read (write w) = .ok w := by
  change (do
    let validatorIndex ← readWord (word w.validatorIndex)
    let startSlot ← readWord (word w.startSlot)
    let endSlot ← readWord (word w.endSlot)
    return { validatorIndex, startSlot, endSlot : WindowEntry }) = .ok w
  rw [readWord_word, readWord_word, readWord_word]
  rfl

theorem read_write_broadcastSettings (b : BroadcastSettings) : read (write b) = .ok b := by
  change (do
    let broadCastDelay ← readWord (word b.broadCastDelay)
    return { delayEnable := b.delayEnable, broadCastDelay, modifyEnable := b.modifyEnable :
      BroadcastSettings }) = .ok b
  rw [readWord_word]
  rfl

theorem read_write_slotEntry {e : SlotEntry} (he : e.Ordered) (hlevel : Json.Signed e.level) :
    read (write e) = .ok e := by
  change (do
    let level ← readSigned (int e.level)
    let actions ← readTable readText Strategy.insertSorted
      (obj (e.actions.map fun a : String × String => (a.1, text a.2)))
    return { slot := e.slot, level, actions : SlotEntry }) = .ok e
  rw [readSigned_int hlevel, Strategy.readTable_texts he]
  rfl

/-- **A strategy is read back from what is written for it.** -/
theorem read_write_strategy {s : Strategy} (h : s.WellFormed) : read (write s) = .ok s := by
  have hslots := readArray_array_map fun e he =>
    read_write_slotEntry (h.ordered e he) (h.levels e he)
  have hvalidators := readArray_array_map fun w (_ : w ∈ s.validators) => read_write_windowEntry w
  have hblock := read_write_broadcastSettings s.block
  have hattest := read_write_broadcastSettings s.attest
  obtain ⟨uid, slots, validators, block, attest⟩ := s
  have hread : (read (write (⟨uid, slots, validators, block, attest⟩ : Strategy)) :
      Except JsonError Strategy) = (do
        let slots ← readArray read (.array (slots.map write))
        let validators ← readArray read (.array (validators.map write))
        let block ← read (write block)
        let attest ← read (write attest)
        return { uid, slots, validators, block, attest }) := by
    cases uid <;> rfl
  rw [hread, hslots, hvalidators, hblock, hattest]
  rfl

theorem ordered_of_read_slotEntry {j : Json} {e : SlotEntry} (h : read j = .ok e) :
    e.Ordered ∧ Signed e.level := by
  simp only [read, bind_eq_ok_iff] at h
  obtain ⟨f, -, slot, -, level, hlevel, actions, hactions, h⟩ := h
  cases h
  have hzero : Signed 0 := ⟨by decide, by decide⟩
  constructor
  · rcases Json.Fields.defaulted_eq_ok_iff.1 hactions with ⟨_, -, htable⟩ | ⟨-, rfl⟩
    · exact Strategy.pairwise_of_readTable htable
    · exact .nil
  · rcases Json.Fields.defaulted_eq_ok_iff.1 hlevel with ⟨_, -, hsigned⟩ | ⟨-, rfl⟩
    · exact signed_of_readSigned hsigned
    · exact hzero

/-- **A strategy that was read is well formed.** -/
theorem wellFormed_of_read_strategy {j : Json} {s : Strategy} (h : read j = .ok s) :
    s.WellFormed := by
  simp only [read, bind_eq_ok_iff] at h
  obtain ⟨f, -, uid, -, slots, hslots, validators, -, block, -, attest, -, h⟩ := h
  cases h
  have hread : ∀ e ∈ slots, e.Ordered ∧ Signed e.level := by
    intro e he
    rcases Json.Fields.defaulted_eq_ok_iff.1 hslots with ⟨_, -, harray⟩ | ⟨-, rfl⟩
    · obtain ⟨_, hentry⟩ := exists_read_of_mem_readArray harray he
      exact ordered_of_read_slotEntry hentry
    · cases he
  exact ⟨fun e he => (hread e he).1, fun e he => (hread e he).2⟩

/-! ## Texts of documents -/

theorem plain_word (w : UInt64) : Plain (word w) := by
  have hlt := Word.toNat_lt_count w
  change (Numeral.ofNat w.toNat).isExact = true
  simp [Numeral.ofNat, Numeral.isExact, Numeral.isInteger, hlt]

theorem plain_write_slotEntry {e : SlotEntry} (h : Signed e.level) : Plain (write e) := by
  refine plain_obj ?_
  simp only [List.forall_mem_cons]
  refine ⟨plain_text _, isExact_ofInt h, plain_obj ?_, List.forall_mem_nil _⟩
  intro m hm
  obtain ⟨a, -, rfl⟩ := List.mem_map.1 hm
  exact plain_text _

theorem plain_write_windowEntry (w : WindowEntry) : Plain (write w) := by
  refine plain_obj ?_
  simp only [List.forall_mem_cons]
  exact ⟨plain_word _, plain_word _, plain_word _, List.forall_mem_nil _⟩

theorem plain_write_broadcastSettings (b : BroadcastSettings) : Plain (write b) := by
  refine plain_obj ?_
  simp only [List.forall_mem_cons]
  exact ⟨trivial, plain_word _, trivial, List.forall_mem_nil _⟩

theorem plain_write_strategy {s : Strategy} (h : s.WellFormed) : Plain (write s) := by
  refine plain_obj ?_
  simp only [List.forall_mem_append, List.forall_mem_cons]
  refine ⟨?_, plain_array ?_, plain_array ?_, plain_write_broadcastSettings _,
    plain_write_broadcastSettings _, List.forall_mem_nil _⟩
  · cases s.uid with
    | none => exact List.forall_mem_nil _
    | some uid => exact List.forall_mem_singleton.2 (plain_text uid)
  · intro j hj
    obtain ⟨e, he, rfl⟩ := List.mem_map.1 hj
    exact plain_write_slotEntry (h.levels e he)
  · intro j hj
    obtain ⟨w, -, rfl⟩ := List.mem_map.1 hj
    exact plain_write_windowEntry w

/-- **A strategy is read back from the text that is written for it.** -/
theorem parse_render_strategy {s : Strategy} (h : s.WellFormed) :
    Json.parse Strategy (render (write s)) = .ok s := by
  rw [parse_render (plain_write_strategy h), read_write_strategy h]

end

end Saboteur
