import Saboteur.Word

/-!
# Durations

A length of time in nanoseconds. Its whole seconds fit a word, so sums and products may not exist;
they are partial operations, and only clock readings saturate.
-/

namespace Saboteur

/-- How many nanoseconds make a second. -/
def nanosPerSecond : Nat := 1000000000

/-- How many nanoseconds make a millisecond. -/
def nanosPerMilli : Nat := 1000000

/-- A length of time whose whole seconds fit a word. -/
structure Duration where
  nanos : Nat
  nanos_lt : nanos < Word.count * nanosPerSecond := by decide
  deriving DecidableEq

namespace Duration

@[ext] theorem ext_nanos {a b : Duration} (h : a.nanos = b.nanos) : a = b := by
  cases a
  cases b
  simpa using h

instance : LT Duration := ⟨fun a b => a.nanos < b.nanos⟩
instance : LE Duration := ⟨fun a b => a.nanos ≤ b.nanos⟩
instance (a b : Duration) : Decidable (a < b) := inferInstanceAs (Decidable (a.nanos < b.nanos))
instance (a b : Duration) : Decidable (a ≤ b) := inferInstanceAs (Decidable (a.nanos ≤ b.nanos))

/-- No time at all. -/
def zero : Duration := ⟨0, by decide⟩

instance : Inhabited Duration := ⟨zero⟩

/-- The longest duration. -/
def longest : Duration := ⟨Word.count * nanosPerSecond - 1, by decide⟩

/-- The duration of so many nanoseconds, if it is not too long. -/
def ofNanos? (n : Nat) : Option Duration :=
  if h : n < Word.count * nanosPerSecond then some ⟨n, h⟩ else none

theorem nanos_of_ofNanos? {n : Nat} {d : Duration} (h : ofNanos? n = some d) : d.nanos = n := by
  unfold ofNanos? at h
  split at h
  · cases h
    rfl
  · cases h

theorem ofNanos?_eq_some_iff {n : Nat} {d : Duration} : ofNanos? n = some d ↔ d.nanos = n := by
  refine ⟨nanos_of_ofNanos?, fun h => ?_⟩
  subst h
  rw [ofNanos?, dif_pos d.nanos_lt]

/-- The duration of so many seconds. -/
def ofSeconds (s : UInt64) : Duration :=
  ⟨s.toNat * nanosPerSecond,
    Nat.mul_lt_mul_of_pos_right (Word.toNat_lt_count s) (by decide)⟩

theorem nanos_ofSeconds (s : UInt64) : (ofSeconds s).nanos = s.toNat * nanosPerSecond := rfl

/-- The duration of so many milliseconds. -/
def ofMillis (m : UInt64) : Duration :=
  ⟨m.toNat * nanosPerMilli,
    Nat.lt_of_lt_of_le (Nat.mul_lt_mul_of_pos_right (Word.toNat_lt_count m) (by decide))
      (Nat.mul_le_mul_left Word.count (by decide))⟩

/-- The whole seconds. -/
def seconds (d : Duration) : Nat := d.nanos / nanosPerSecond

/-- The nanoseconds beyond the whole seconds. -/
def subsecNanos (d : Duration) : Nat := d.nanos % nanosPerSecond

/-- The whole milliseconds. -/
def millis (d : Duration) : Nat := d.nanos / nanosPerMilli

/-- The sum, if it is not too long. -/
def add? (a b : Duration) : Option Duration := ofNanos? (a.nanos + b.nanos)

/-- A sum is given exactly if a duration can hold it. -/
theorem add?_eq_some_iff {a b d : Duration} : a.add? b = some d ↔ d.nanos = a.nanos + b.nanos :=
  ofNanos?_eq_some_iff

/-- The difference, if it is not negative. -/
def sub? (a b : Duration) : Option Duration :=
  if b.nanos ≤ a.nanos then some ⟨a.nanos - b.nanos, by have := a.nanos_lt; omega⟩ else none

/-- A difference is given exactly if it is not negative. -/
theorem sub?_eq_some_iff {a b d : Duration} : a.sub? b = some d ↔ d.nanos + b.nanos = a.nanos := by
  unfold sub?
  split
  case isTrue hle =>
    rw [Option.some.injEq]
    constructor
    · rintro rfl
      exact Nat.sub_add_cancel hle
    · intro h
      exact ext_nanos (Nat.sub_eq_of_eq_add h.symm)
  case isFalse hlt => exact iff_of_false nofun fun h => hlt (h ▸ Nat.le_add_left _ _)

/-- The multiple, if the factor fits 32 bits and the product is not too long. -/
def mul? (a : Duration) (n : Nat) : Option Duration :=
  if n < 4294967296 then ofNanos? (a.nanos * n) else none

/-- A product is given exactly if the factor is below `2 ^ 32` and a duration can hold the product.
-/
theorem mul?_eq_some_iff {a d : Duration} {n : Nat} :
    a.mul? n = some d ↔ n < 4294967296 ∧ d.nanos = a.nanos * n := by
  unfold mul?
  split
  case isTrue hn => exact ofNanos?_eq_some_iff.trans (and_iff_right hn).symm
  case isFalse hn => exact iff_of_false nofun fun h => hn h.1

/-- The sum, or the longest duration. -/
def addSat (a b : Duration) : Duration := (a.add? b).getD longest

end Duration

end Saboteur
