/-!
# Mailboxes

A subscriber reads messages from a mailbox with limited room. When a message comes and there is no
room, the oldest unread one is dropped. The reader learns how many it missed, and then gets what is
left in the order of sending.
-/

namespace Saboteur

/-- Messages that a subscriber has not read yet. -/
structure Mailbox (α : Type) where
  /-- The latest unread messages, the oldest first. -/
  unread : List α
  /-- How many unread messages were dropped. -/
  missed : Nat
  deriving DecidableEq

namespace Mailbox

variable {α : Type}

/-- The mailbox of a new subscriber. -/
def empty : Mailbox α := ⟨[], 0⟩

/-- Takes in a message where there is room for `capacity` messages. -/
def deliver (capacity : Nat) (m : Mailbox α) (a : α) : Mailbox α :=
  let all := m.unread ++ [a]
  ⟨all.drop (all.length - capacity), m.missed + (all.length - capacity)⟩

/-- Takes in messages in order. -/
def deliverAll (capacity : Nat) (m : Mailbox α) (as : List α) : Mailbox α :=
  as.foldl (deliver capacity) m

/-- A mailbox never holds more than it has room for. -/
theorem length_unread_deliver (capacity : Nat) (m : Mailbox α) (a : α) :
    (m.deliver capacity a).unread.length ≤ capacity := by
  simp only [deliver, List.length_drop]
  omega

/-- **Messages that come in together leave the latest of them, as many as there is room for.** -/
theorem deliverAll_eq {capacity : Nat} {m : Mailbox α} (h : m.unread.length ≤ capacity)
    (as : List α) :
    m.deliverAll capacity as =
      ⟨(m.unread ++ as).drop (m.unread.length + as.length - capacity),
        m.missed + (m.unread.length + as.length - capacity)⟩ := by
  induction as generalizing m with
  | nil =>
    have hroom : m.unread.length - capacity = 0 := by omega
    simp [deliverAll, hroom]
  | cons a rest ih =>
    have hdeliver : m.deliverAll capacity (a :: rest) =
        (m.deliver capacity a).deliverAll capacity rest := rfl
    have hlength : (m.deliver capacity a).unread.length =
        m.unread.length + 1 - (m.unread.length + 1 - capacity) := by
      simp [deliver]
    rw [hdeliver, ih (length_unread_deliver capacity m a), hlength]
    simp only [deliver, List.length_append, List.length_cons, List.length_nil]
    rw [← List.drop_append_of_le_length (by simp), List.drop_drop, List.append_assoc,
      Mailbox.mk.injEq]
    exact ⟨congrArg (fun n => List.drop n _) (by omega), by omega⟩

end Mailbox

end Saboteur
