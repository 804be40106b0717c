import Saboteur.Text.Cutting

/-!
# Punycode

A way to write any text with letters, digits and hyphens of ASCII. The characters of ASCII come
first and as they are; behind a hyphen the places of all others follow, each as the distance from
the place before it in an enumeration of all pairs of a code point and a position. A distance is
written in base 36 with digits of low value first, and thresholds that adapt to the distances so
far tell which digit is the last one.

## Termination

* `settle`: the distance is divided by 35;
* `digitsOf`: what is left is less than before, as every threshold is at least one;
* all other loops go over a list.
-/

namespace Saboteur.Punycode

/-- The largest number that is counted up to. -/
def limit : Nat := 0xFFFFFFFF

/-! ## Digits -/

/-- The character of a digit. -/
def symbol (d : Nat) : Char := Char.ofNat (if d < 26 then 0x61 + d else 0x16 + d)

/-- The digit of a character. -/
def value? (c : Char) : Option Nat :=
  if 'a' ≤ c ∧ c ≤ 'z' then some (c.toNat - 0x61)
  else if 'A' ≤ c ∧ c ≤ 'Z' then some (c.toNat - 0x41)
  else if c.isDigit then some (c.toNat - 0x16)
  else none

/-- A digit is read as it was written. -/
theorem value?_symbol {d : Nat} (h : d < 36) : value? (symbol d) = some d := by
  have hall : ∀ e ∈ List.range 36, value? (symbol e) = some e := by decide
  exact hall d (List.mem_range.mpr h)

/-- The least value of a digit that is not the last one. -/
def threshold (position bias : Nat) : Nat := max 1 (min 26 (position - bias))

theorem one_le_threshold (position bias : Nat) : 1 ≤ threshold position bias :=
  Nat.le_max_left _ _

/-- The bias for a distance that is settled, and the number of divisions. -/
def settle (delta divisions : Nat) : Nat :=
  if 455 < delta then settle (delta / 35) (divisions + 36)
  else divisions + 36 * delta / (delta + 38)
termination_by delta
decreasing_by exact Nat.div_lt_self (by omega) (by omega)

/-- The bias after a distance, with so many characters placed. -/
def adapt (delta placed : Nat) (first : Bool) : Nat :=
  let delta := if first then delta / 700 else delta / 2
  settle (delta + delta / placed) 0

/-- The digits of a distance. -/
def digitsOf (position bias q : Nat) : List Char :=
  let t := threshold position bias
  if q < t then [symbol q]
  else symbol (t + (q - t) % (36 - t)) :: digitsOf (position + 36) bias ((q - t) / (36 - t))
termination_by q
decreasing_by
  have h := one_le_threshold position bias
  exact Nat.lt_of_le_of_lt (Nat.div_le_self _ _) (by omega)

/-! ## Writing -/

/-- How far a text is written. -/
structure Writer where
  out : List Char
  /-- The distance from the last place. -/
  delta : Nat
  bias : Nat
  placed : Nat
  /-- How many characters were of ASCII. -/
  basic : Nat

/-- Goes past a character in search of a code point. The distance to one that is found is written,
unless it is too large. -/
def Writer.pass (n : Nat) (w : Writer) (c : Char) : Option Writer :=
  if c.toNat < n then some { w with delta := w.delta + 1 }
  else if c.toNat = n then
    if limit < w.delta then none
    else some { w with
      out := w.out ++ digitsOf 36 w.bias w.delta
      delta := 0
      bias := adapt w.delta (w.placed + 1) (w.placed = w.basic)
      placed := w.placed + 1 }
  else some w

/-- Writes all characters of a code point, with all code points below `from'` done. -/
def Writer.place (text : List Char) (state : Writer × Nat) (n : Nat) : Option (Writer × Nat) := do
  let (w, from') := state
  let w ← text.foldlM (pass n) { w with delta := w.delta + (n - from') * (w.placed + 1) }
  return ({ w with delta := w.delta + 1 }, n + 1)

/-- The code points of a text beyond ASCII, in order. -/
def points (text : List Char) : List Nat :=
  (((text.map Char.toNat).filter (0x80 ≤ ·)).mergeSort fun a b => a ≤ b).eraseDups

/-- The characters of ASCII in a text. -/
def basicPart (text : List Char) : List Char := text.filter fun c => c.toNat < 0x80

/-- The writer before the first distance. -/
def Writer.start (text : List Char) : Writer :=
  let basic := basicPart text
  { out := if basic.isEmpty then [] else basic ++ ['-']
    delta := 0, bias := 72, placed := basic.length, basic := basic.length }

/-- A text in letters, digits and hyphens, unless a distance is too large. -/
def encode? (text : List Char) : Option (List Char) := do
  let (w, _) ← (points text).foldlM (Writer.place text) (Writer.start text, 0x80)
  return w.out

/-! ## Reading -/

/-- How far a text is read. -/
structure Reader where
  out : List Char
  /-- The place in the enumeration. -/
  point : Nat
  index : Nat
  bias : Nat
  /-- The distance so far, the weight of its next digit and the position of that. -/
  delta : Nat
  weight : Nat
  position : Nat

/-- The reader before the first distance. -/
def Reader.start (basic : List Char) : Reader :=
  { out := basic, point := 0x80, index := 0, bias := 72, delta := 0, weight := 1, position := 36 }

/-- Places the character at a distance. -/
def Reader.place (r : Reader) (delta : Nat) : Option Reader :=
  let count := r.out.length + 1
  let index := r.index + delta
  let point := r.point + index / count
  if h : point.isValidChar then
    let out := r.out.insertIdx (index % count) (Char.ofNatAux point h)
    some ⟨out, point, index % count + 1, adapt delta count (r.index = 0), 0, 1, 36⟩
  else none

/-- Takes a digit. The last digit of a distance places a character. -/
def Reader.take (r : Reader) (c : Char) : Option Reader := do
  let d ← value? c
  let delta := r.delta + d * r.weight
  if limit < delta then none
  else
    let t := threshold r.position r.bias
    if t ≤ d then
      return { r with delta, weight := r.weight * (36 - t), position := r.position + 36 }
    else r.place delta

/-- The text of letters, digits and hyphens. -/
def decode? (s : List Char) : Option (List Char) := do
  let digits := (s.reverse.takeWhile (· ≠ '-')).reverse
  let basic := s.take (s.length - digits.length - 1)
  let r ← digits.foldlM Reader.take (Reader.start basic)
  if r.position = 36 then return r.out else none

end Saboteur.Punycode
