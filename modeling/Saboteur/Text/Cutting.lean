/-!
# Cutting texts

A text is cut at every occurrence of a character, or blanks are cut off its ends. There is always one
piece more than there are cuts, so the empty text is one empty piece.
-/

namespace Saboteur.Text

/-! ## Pieces -/

/-- The pieces of a list of characters between the occurrences of `sep`. -/
def splitList (sep : Char) : List Char → List (List Char)
  | [] => [[]]
  | c :: rest =>
    if c = sep then [] :: splitList sep rest
    else match splitList sep rest with
      | piece :: pieces => (c :: piece) :: pieces
      | [] => [[c]]

theorem splitList_ne_nil (sep : Char) (s : List Char) : splitList sep s ≠ [] := by
  induction s with
  | nil => simp [splitList]
  | cons c rest ih =>
    simp only [splitList]
    split
    · simp
    · split <;> simp

/-! ## Blanks -/

/-- White space of the Unicode standard. -/
def isBlank (c : Char) : Bool :=
  let n := c.toNat
  (0x9 ≤ n && n ≤ 0xD) || n == 0x20 || n == 0x85 || n == 0xA0 || n == 0x1680 ||
  (0x2000 ≤ n && n ≤ 0x200A) || n == 0x2028 || n == 0x2029 || n == 0x202F || n == 0x205F ||
  n == 0x3000

/-- A list of characters without the blanks at its end. -/
def trimRight (s : List Char) : List Char := (s.reverse.dropWhile isBlank).reverse

/-- A list of characters without the blanks at either end. -/
def trimList (s : List Char) : List Char := trimRight (s.dropWhile isBlank)

/-- A text without the blanks at either end. -/
def trim (s : String) : String := String.ofList (trimList s.toList)

end Saboteur.Text
