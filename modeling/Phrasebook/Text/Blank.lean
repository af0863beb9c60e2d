/-
  Blank characters: the white space that may stand between the tokens of a
  pattern.

  The class is Unicode white space together with the four ASCII information
  separators U+001C to U+001F.  Zero-width characters, such as U+200B and
  U+FEFF, are not blank.
-/
import Phrasebook.Text.Ranges

set_option autoImplicit false

namespace Phrasebook.Text

/-- The ranges of blank characters. -/
def blankRanges : List (Nat × Nat) :=
  [(0x9, 0xD), (0x1C, 0x20), (0x85, 0x85), (0xA0, 0xA0), (0x1680, 0x1680),
   (0x2000, 0x200A), (0x2028, 0x2029), (0x202F, 0x202F), (0x205F, 0x205F), (0x3000, 0x3000)]

/-- A character that may be skipped between tokens. -/
def isBlank (c : Char) : Bool := covers blankRanges c

/-- Drops blank characters from the front. -/
def skipBlank (s : List Char) : List Char := s.dropWhile isBlank

/-- Drops blank characters from both ends. -/
def trimBlank (s : List Char) : List Char := (skipBlank (skipBlank s).reverse).reverse

/-- ASCII white space is blank. -/
theorem isBlank_of_isWhitespace {c : Char} (h : c.isWhitespace = true) : isBlank c = true := by
  simp only [Char.isWhitespace, Bool.or_eq_true, decide_eq_true_eq] at h
  rcases h with ((h | h) | h) | h <;> subst h <;> decide

end Phrasebook.Text
