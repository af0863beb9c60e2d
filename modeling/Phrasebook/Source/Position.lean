/-
  Positions in a text: whole numbers, lines and columns.

  A position counts characters from the front.  A negative one counts from the
  end, as far as the text goes.  Lines and columns count from 1, and a line ends
  with a line feed and nothing else.
-/
set_option autoImplicit false

namespace Phrasebook.Source

/-- The number of characters in front of a position. -/
def charsBefore (length : Nat) (position : Int) : Nat :=
  if position < 0 then (position + length).toNat else min position.toNat length

/-- The part of a text between two positions. -/
def slice (s : List Char) (start stop : Int) : List Char :=
  (s.take (charsBefore s.length stop)).drop (charsBefore s.length start)

/-- The number of line feeds in front of a position. -/
def newlinesBefore (s : List Char) (position : Int) : Nat :=
  (s.take (charsBefore s.length position)).count '\n'

/-- The number of characters that follow the last line feed of a text. -/
def tailLength (s : List Char) : Nat := (s.reverse.takeWhile (· ≠ '\n')).length

/-- The place of the last line feed in front of a position, or -1 if there is none. -/
def lastNewline (s : List Char) (position : Int) : Int :=
  let before := s.take (charsBefore s.length position)
  (before.length : Int) - tailLength before - 1

/-- What is left of a text behind its first lines. -/
def dropLines : Nat → List Char → List Char
  | 0, s => s
  | n + 1, s => dropLines n ((s.dropWhile (· ≠ '\n')).drop 1)

/-- A line of a text without its line feed, the first one being line 0; empty behind the last. -/
def lineText (s : List Char) (n : Nat) : List Char := (dropLines n s).takeWhile (· ≠ '\n')

theorem charsBefore_natCast {length k : Nat} (h : k ≤ length) : charsBefore length k = k := by
  unfold charsBefore
  split <;> omega

end Phrasebook.Source
