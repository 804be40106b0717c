import Saboteur.Word

/-!
# Random numbers

Random choices are drawn from a given stream of words, so a run is determined by its stream. A word
is mapped into a range by multiplication; words that would favour some values of the range are
passed over.
-/

namespace Saboteur

/-- A stream of words and how many of them are used up. -/
structure RandomStream where
  word : Nat → UInt64
  used : Nat

namespace RandomStream

/-- The stream of an arithmetic progression. -/
def progression (first step : UInt64) : RandomStream := ⟨fun k => first + UInt64.ofNat k * step, 0⟩

/-- How many unsuitable words in a row are passed over. -/
def patience : Nat := 4096

/-- The largest low half of a product with which a word suits a range of this size. -/
def acceptance (size : Nat) : Nat := size * Nat.pow 2 (63 - Nat.log2 size) - 1

/-- Draws a number below `size`, and passes over at most `tries` words. -/
def drawWithin (size : Nat) : (tries : Nat) → RandomStream → Nat × RandomStream
  | 0, r => ((r.word r.used).toNat * size / Word.count, { r with used := r.used + 1 })
  | tries + 1, r =>
    let product := (r.word r.used).toNat * size
    let after : RandomStream := { r with used := r.used + 1 }
    if product % Word.count ≤ acceptance size then (product / Word.count, after)
    else drawWithin size tries after

/-- Draws a number below `size`. -/
def draw (size : Nat) (r : RandomStream) : Nat × RandomStream := drawWithin size patience r

end RandomStream

end Saboteur
