/-!
# Saturating words

Slots, epochs, counters and parameters are 64-bit words whose arithmetic stops at the ends of the
range. Every operation here is given by one equation on `toNat`, so that a proof about words is a
proof about natural numbers with `min` and truncated subtraction.
-/

namespace Saboteur.Word

/-- The largest word. -/
def max : UInt64 := 18446744073709551615

/-- How many words there are. -/
def count : Nat := 18446744073709551616

/-- How many words, read as signed numbers, are negative. -/
def negativeCount : Nat := 9223372036854775808

theorem toNat_lt_count (w : UInt64) : w.toNat < count := w.toNat_lt

theorem toNat_le_max (w : UInt64) : w.toNat ≤ max.toNat := Nat.le_of_lt_succ (toNat_lt_count w)

/-- The word nearest to a natural number: the number itself, or the largest word. -/
def clamp (n : Nat) : UInt64 := UInt64.ofNat (min n max.toNat)

/-- What is nearest is the number itself up to the largest word. -/
theorem toNat_clamp (n : Nat) : (clamp n).toNat = min n max.toNat := by
  have h : min n max.toNat < count := Nat.lt_succ_of_le (Nat.min_le_right _ _)
  exact UInt64.toNat_ofNat'.trans (Nat.mod_eq_of_lt h)

/-- The word equal to a natural number, if there is one. -/
def ofNat? (n : Nat) : Option UInt64 := if n < count then some (UInt64.ofNat n) else none

/-- Sum, or the largest word. -/
def addSat (a b : UInt64) : UInt64 := clamp (a.toNat + b.toNat)

theorem toNat_addSat (a b : UInt64) :
    (addSat a b).toNat = min (a.toNat + b.toNat) max.toNat := toNat_clamp _

/-- Difference, or zero. -/
def subSat (a b : UInt64) : UInt64 := clamp (a.toNat - b.toNat)

/-- A difference never needs the upper end of the range. -/
theorem toNat_subSat (a b : UInt64) : (subSat a b).toNat = a.toNat - b.toNat := by
  rw [subSat, toNat_clamp]
  exact Nat.min_eq_left (Nat.le_trans (Nat.sub_le _ _) (toNat_le_max a))

/-- Product, or the largest word. -/
def mulSat (a b : UInt64) : UInt64 := clamp (a.toNat * b.toNat)

theorem toNat_mulSat (a b : UInt64) :
    (mulSat a b).toNat = min (a.toNat * b.toNat) max.toNat := toNat_clamp _

/-- The decimal text of a word. -/
def decimal (w : UInt64) : String := Nat.repr w.toNat

/-- How a word compares with another. -/
def compare (a b : UInt64) : Ordering :=
  if a.toNat < b.toNat then .lt else if a.toNat = b.toNat then .eq else .gt

end Saboteur.Word
