import Mathlib.Algebra.GroupWithZero.Nat
import Saboteur.Proofs.Feedback.Record

/-!
# What reaches a subscriber

Announcements go into the mailbox of every subscriber. A mailbox has room for a limited number, so a
subscriber has to read, and one that reads after every look finds in its mailbox what that look has
announced and nothing else. But a look may announce any number of ends at once: of more than there is
room for, the first ones are dropped before anybody can read them, and the subscriber is told how
many it has missed.

So what reaches such a subscriber is, look by look, the latest announcements that there is room for,
in order. That is all of them exactly if no look makes more announcements than there is room for.
-/

namespace Saboteur

namespace Mailbox

variable {α : Type}

/-- What two readings give together. -/
def append (a b : Mailbox α) : Mailbox α := ⟨a.unread ++ b.unread, a.missed + b.missed⟩

/-- All that some readings give. -/
def join : List (Mailbox α) → Mailbox α
  | [] => empty
  | m :: rest => m.append (join rest)

theorem empty_append (m : Mailbox α) : empty.append m = m := by
  rw [append, empty, List.nil_append, Nat.zero_add]

/-- An empty mailbox keeps the last announcements, as many as it has room for. -/
theorem deliverAll_empty (capacity : Nat) (as : List α) :
    empty.deliverAll capacity as =
      ⟨as.drop (as.length - capacity), as.length - capacity⟩ := by
  have hroom : (empty : Mailbox α).unread.length ≤ capacity := Nat.zero_le _
  rw [deliverAll_eq hroom]
  simp [empty]

theorem unread_join_deliverAll (capacity : Nat) (ass : List (List α)) :
    (join (ass.map (empty.deliverAll capacity))).unread =
      ass.flatMap fun as => as.drop (as.length - capacity) := by
  induction ass with
  | nil => rfl
  | cons as rest ih => rw [List.map_cons, join, append, ih, deliverAll_empty, List.flatMap_cons]

theorem missed_join_deliverAll (capacity : Nat) (ass : List (List α)) :
    (join (ass.map (empty.deliverAll capacity))).missed =
      (ass.map fun as => as.length - capacity).sum := by
  induction ass with
  | nil => rfl
  | cons as rest ih =>
    rw [List.map_cons, join, append, ih, deliverAll_empty, List.map_cons, List.sum_cons]

theorem length_flatMap_drop_le (capacity : Nat) (ass : List (List α)) :
    (ass.flatMap fun as => as.drop (as.length - capacity)).length ≤ ass.flatten.length := by
  induction ass with
  | nil => exact Nat.le_refl _
  | cons as rest ih =>
    rw [List.flatMap_cons, List.flatten_cons, List.length_append, List.length_append,
      List.length_drop]
    omega

/-- Lists cut to the room that there is make up the whole exactly if none of them is cut. -/
theorem flatMap_drop_eq_flatten_iff (capacity : Nat) (ass : List (List α)) :
    (ass.flatMap fun as => as.drop (as.length - capacity)) = ass.flatten ↔
      ∀ as ∈ ass, as.length ≤ capacity := by
  induction ass with
  | nil => simp
  | cons as rest ih =>
    rw [List.flatMap_cons, List.flatten_cons, List.forall_mem_cons]
    constructor
    · intro h
      have hlength := congrArg List.length h
      rw [List.length_append, List.length_append, List.length_drop] at hlength
      have hrest := length_flatMap_drop_le capacity rest
      have hroom : as.length - capacity = 0 := by omega
      rw [hroom, List.drop_zero] at h
      exact ⟨Nat.sub_eq_zero_iff_le.1 hroom, ih.1 (List.append_cancel_left h)⟩
    · rintro ⟨hroom, h⟩
      rw [Nat.sub_eq_zero_of_le hroom, List.drop_zero, ih.2 h]

end Mailbox

namespace Feedback

/-! ## A mailbox over a run -/

variable {f : Feedback} {n : Nat}

/-- A look delivers its announcements to everyone who has subscribed. -/
theorem mailbox_poll (h : n < f.subscribers.length) (slot : Slot) :
    (f.poll slot).mailbox n = (f.mailbox n).deliverAll mailboxCapacity (f.due slot) := by
  simp [mailbox, poll, h]

theorem mailbox_subscribe (h : n < f.subscribers.length) : f.subscribe.mailbox n = f.mailbox n := by
  rw [mailbox, subscribe, List.getElem?_append_left h, mailbox]

/-- A new subscriber has missed nothing yet. -/
theorem mailbox_subscribe_self (f : Feedback) :
    f.subscribe.mailbox f.subscribers.length = Mailbox.empty := by
  simp [mailbox, subscribe]

theorem mailbox_clearMailbox (h : n < f.subscribers.length) (m : Nat) :
    (f.clearMailbox m).mailbox n = if m = n then Mailbox.empty else f.mailbox n := by
  rw [mailbox, clearMailbox, List.getElem?_set]
  by_cases hm : m = n
  · subst hm
    simp [h]
  · simp [hm, mailbox]

theorem lt_length_subscribers_step (h : n < f.subscribers.length) (op : Op) :
    n < (f.step op).subscribers.length := by
  cases op with
  | add time r => exact h
  | poll slot => simpa [step, poll] using h
  | prune oldest => exact h
  | subscribe => simpa [step, subscribe] using Nat.lt_succ_of_lt h
  | read m => simpa [step, clearMailbox] using h

/-! ## Reading after every look -/

/-- What a subscriber finds in its mailbox at each of its readings. -/
def readings (f : Feedback) (n : Nat) : List Op → List (Mailbox StrategyEnd)
  | [] => []
  | .read m :: rest =>
    let later := readings (f.clearMailbox m) n rest
    if m = n then f.mailbox n :: later else later
  | op :: rest => readings (f.step op) n rest

/-- A subscriber reads its mailbox after every look, before the next one is taken. The flag says
whether a look has been taken since its last reading. -/
def ReadsEach (n : Nat) : Bool → List Op → Prop
  | behind, [] => behind = false
  | behind, .poll _ :: rest => behind = false ∧ ReadsEach n true rest
  | behind, .read m :: rest => ReadsEach n (behind && decide (m ≠ n)) rest
  | behind, _ :: rest => ReadsEach n behind rest

/-- **What a subscriber reads that reads after every look is what is in its mailbox at first, and
then what each look would leave in an empty mailbox.** -/
theorem join_readings {behind : Bool} {ops : List Op} (hn : n < f.subscribers.length)
    (h : ReadsEach n behind ops) (hempty : behind = false → f.mailbox n = Mailbox.empty) :
    Mailbox.join (f.readings n ops) =
      (f.mailbox n).append (Mailbox.join (((f.announced ops).map Prod.snd).map
        (Mailbox.empty.deliverAll mailboxCapacity))) := by
  induction ops generalizing f behind with
  | nil =>
    rw [hempty h]
    rfl
  | cons op rest ih =>
    have hlater := lt_length_subscribers_step hn op
    cases op with
    | add time r => exact ih hlater h hempty
    | poll slot =>
      obtain ⟨hbehind, hrest⟩ := h
      have hmailbox : (f.step (.poll slot)).mailbox n =
          Mailbox.empty.deliverAll mailboxCapacity (f.due slot) := by
        rw [← hempty hbehind]
        exact mailbox_poll hn slot
      rw [hempty hbehind, Mailbox.empty_append]
      refine (ih hlater hrest nofun).trans ?_
      rw [hmailbox]
      rfl
    | prune oldest => exact ih hlater h hempty
    | subscribe =>
      have hmailbox := mailbox_subscribe hn
      rw [← hmailbox]
      exact ih hlater h fun hbehind => hmailbox.trans (hempty hbehind)
    | read m =>
      have hmailbox : (f.step (.read m)).mailbox n =
          if m = n then Mailbox.empty else f.mailbox n := mailbox_clearMailbox hn m
      by_cases hm : m = n
      · rw [if_pos hm] at hmailbox
        have hrest : ReadsEach n (behind && decide (m ≠ n)) rest := h
        have hread := ih hlater hrest fun _ => hmailbox
        rw [hmailbox, Mailbox.empty_append] at hread
        rw [readings, if_pos hm]
        exact congrArg (f.mailbox n).append hread
      · rw [if_neg hm] at hmailbox
        have hrest : ReadsEach n behind rest := by simpa [ReadsEach, hm] using h
        rw [readings, if_neg hm, ← hmailbox]
        exact ih hlater hrest fun hbehind => hmailbox.trans (hempty hbehind)

/-! ## A subscriber from the start -/

/-- Without a look nothing is announced. -/
theorem announced_eq_nil {f : Feedback} {ops : List Op} (h : ∀ slot, .poll slot ∉ ops) :
    f.announced ops = [] := by
  induction ops generalizing f with
  | nil => rfl
  | cons op rest ih =>
    have hrest : ∀ slot, .poll slot ∉ rest := fun slot hmem => h slot (List.mem_cons_of_mem _ hmem)
    cases op with
    | poll slot => exact absurd List.mem_cons_self (h slot)
    | add | prune | subscribe | read => exact ih hrest

/-- **A subscriber that is there before the first look and reads after every look gets of each look
the latest announcements that there is room for, in order, and learns how many it has missed. That is
everything exactly if no look makes more announcements than there is room for.** -/
theorem join_readings_run (k : UInt64) (before after : List Op)
    (hbefore : ∀ slot, .poll slot ∉ before)
    (hafter : ReadsEach ((empty k).run before).subscribers.length false after) :
    let f := (empty k).run before
    let received := Mailbox.join (f.subscribe.readings f.subscribers.length after)
    let looks := ((empty k).announced (before ++ .subscribe :: after)).map Prod.snd
    received.unread = (looks.flatMap fun ends => ends.drop (ends.length - mailboxCapacity)) ∧
      received.missed = (looks.map fun ends => ends.length - mailboxCapacity).sum ∧
      (received.unread = looks.flatten ↔ ∀ ends ∈ looks, ends.length ≤ mailboxCapacity) := by
  intro f received looks
  have hlooks : looks = (f.subscribe.announced after).map Prod.snd := by
    show ((empty k).announced (before ++ .subscribe :: after)).map Prod.snd = _
    rw [announced_append, announced_eq_nil hbefore]
    rfl
  have hreceived : received = Mailbox.join
      (looks.map (Mailbox.empty.deliverAll mailboxCapacity)) := by
    have hnew : f.subscribers.length < f.subscribe.subscribers.length := by simp [subscribe]
    rw [hlooks]
    refine (join_readings hnew hafter fun _ => mailbox_subscribe_self f).trans ?_
    rw [mailbox_subscribe_self, Mailbox.empty_append]
  have hunread := congrArg Mailbox.unread hreceived
  rw [Mailbox.unread_join_deliverAll] at hunread
  refine ⟨hunread, ?_, ?_⟩
  · rw [hreceived, Mailbox.missed_join_deliverAll]
  · rw [hunread]
    exact Mailbox.flatMap_drop_eq_flatten_iff _ _

/-- Strategies that are installed one after the other, all for slot 50. -/
def manyInstalled (count : Nat) : List Op :=
  (List.range count).map fun time => .add time (single "one of many" ⟨50⟩)

/-- Two looks that are taken while a subscriber keeps up, and a strategy that is installed before it
has read after the first of them. -/
def twoLooks : List Op :=
  [.poll ⟨96⟩, .add 9 (single "later" ⟨100⟩), .read 0, .poll ⟨200⟩, .read 0]

theorem join_readings_run_twoLooks :
    (∀ slot, .poll slot ∉ manyInstalled 2) ∧
      ReadsEach ((empty 32).run (manyInstalled 2)).subscribers.length false twoLooks ∧
      (Mailbox.join (((empty 32).run (manyInstalled 2)).subscribe.readings 0 twoLooks)).unread =
        [⟨"one of many", ⟨1⟩, ⟨1⟩⟩, ⟨"one of many", ⟨1⟩, ⟨1⟩⟩, ⟨"later", ⟨3⟩, ⟨3⟩⟩] := by
  have hbefore : ∀ slot, .poll slot ∉ manyInstalled 2 := by simp [manyInstalled]
  have hafter : ReadsEach ((empty 32).run (manyInstalled 2)).subscribers.length false twoLooks :=
    ⟨rfl, rfl, rfl⟩
  have hreceived := (join_readings_run 32 (manyInstalled 2) twoLooks hbefore hafter).2.2
  exact ⟨hbefore, hafter, (hreceived.2 (by decide)).trans (by decide)⟩

/-- **Of sixty-five strategies that end at one look a subscriber misses one.** -/
theorem one_of_many_missed :
    let f := (empty 32).run (manyInstalled 65)
    let after := [.poll ⟨96⟩, .read 0]
    let received := Mailbox.join (f.subscribe.readings 0 after)
    let looks := ((empty 32).announced (manyInstalled 65 ++ .subscribe :: after)).map Prod.snd
    f.subscribers.length = 0 ∧ ReadsEach 0 false after ∧
      received.missed = 1 ∧ received.unread ≠ looks.flatten := by
  refine ⟨?_, ⟨rfl, rfl⟩, ?_⟩
  · decide +kernel
  · decide +kernel

end Feedback

end Saboteur
