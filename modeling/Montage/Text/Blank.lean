import Montage.Text.Ranges

/-!
# Blank characters

`isBlank` is the Unicode property White_Space.  On it rest the trimming functions `trimStart`,
`trimEnd` and `trim`, and `words`, which cuts a text at its blanks.  `splitAll` is the general cut:
it keeps empty pieces, so that joining the pieces gives the text back.
-/

namespace Montage.Text

/-- The ranges of the Unicode property White_Space. -/
def blankRanges : Ranges :=
  [(0x9, 0xD), (0x20, 0x20), (0x85, 0x85), (0xA0, 0xA0), (0x1680, 0x1680), (0x2000, 0x200A),
   (0x2028, 0x2029), (0x202F, 0x202F), (0x205F, 0x205F), (0x3000, 0x3000)]

/-- A blank is a character with the Unicode property White_Space. -/
def isBlank (c : Char) : Bool := inRanges blankRanges c

/-! ### Trimming -/

/-- The text without its leading blanks. -/
def trimStart (cs : List Char) : List Char := cs.dropWhile isBlank

/-- The text without its trailing blanks. -/
def trimEnd (cs : List Char) : List Char := (cs.reverse.dropWhile isBlank).reverse

/-- The text without its leading and trailing blanks. -/
def trim (cs : List Char) : List Char := trimEnd (trimStart cs)

/-- The string without its leading and trailing blanks. -/
def trimmed (s : String) : String := String.ofList (trim s.toList)

/-! ### Cutting -/

/-- The pieces of a list between the elements that satisfy `p`, empty pieces included. -/
def splitAll {α : Type} (p : α → Bool) : List α → List (List α)
  | [] => [[]]
  | a :: as =>
    if p a then [] :: splitAll p as
    else match splitAll p as with
      | [] => [[a]]
      | piece :: pieces => (a :: piece) :: pieces

/-- There is always at least one piece. -/
theorem splitAll_ne_nil {α : Type} (p : α → Bool) (as : List α) : splitAll p as ≠ [] := by
  cases as with
  | nil => simp [splitAll]
  | cons a as =>
    by_cases h : p a
    · simp [splitAll, h]
    · cases hs : splitAll p as <;> simp [splitAll, h, hs]

/-- The words of a text: its maximal runs of characters that are not blank. -/
def words (cs : List Char) : List (List Char) :=
  (splitAll isBlank cs).filter fun w => !w.isEmpty

end Montage.Text
