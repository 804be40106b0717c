import Saboteur.Text.CaseTable

/-!
# Lowercase texts

The lowercase form of a text. Every character goes to its own lowercase form, with two exceptions:
a capital I with a dot becomes two characters, and a capital sigma that ends a word becomes the
final sigma.
-/

namespace Saboteur.Text

/-- Whether a code point lies in one of a list of ranges. -/
def inRanges (ranges : List (Nat × Nat)) (n : Nat) : Bool :=
  ranges.any fun r => r.1 ≤ n && n ≤ r.2

/-- The lowercase form of a code point within a run, if the run has it. -/
def CaseRun.lower? (r : CaseRun) (n : Nat) : Option Nat :=
  if r.first ≤ n ∧ n ≤ r.last ∧ (n - r.first) % r.step = 0 then some (r.lower + (n - r.first))
  else none

/-- The lowercase form of a character that has one of its own. -/
def lowerChar (c : Char) : Char :=
  let n := c.toNat
  if n < 0x80 then (if 0x41 ≤ n ∧ n ≤ 0x5A then Char.ofNat (n + 0x20) else c)
  else match caseRuns.findSome? (·.lower? n) with
    | some m => Char.ofNat m
    | none => c

/-- Whether a letter stands next on this side of a word, marks aside. -/
def meetsLetter (s : List Char) : Bool :=
  match s.dropWhile fun c => inRanges caseIgnorableRanges c.toNat with
  | c :: _ => inRanges casedRanges c.toNat
  | [] => false

/-- The lowercase form of what follows the characters `before`, which are in reverse order. -/
def lowerAfter (before : List Char) : List Char → List Char
  | [] => []
  | c :: rest =>
    let lowered :=
      if c.toNat = 0x130 then [Char.ofNat 0x69, Char.ofNat 0x307]
      else if c.toNat = 0x3A3 then
        [Char.ofNat (if meetsLetter before && !meetsLetter rest then 0x3C2 else 0x3C3)]
      else [lowerChar c]
    lowered ++ lowerAfter (c :: before) rest

/-- The lowercase form of a list of characters. -/
def lowerList (s : List Char) : List Char := lowerAfter [] s

/-- The lowercase form of a text. -/
def lower (s : String) : String := String.ofList (lowerList s.toList)

end Saboteur.Text
