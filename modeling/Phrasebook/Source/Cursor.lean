/-
  Cursors: a text and a position in it.

  A cursor looks at the text from its position on and moves through it.  Its
  position may lie behind the end, where nothing is left to read, or be
  negative; then single characters are counted from the end of the text.
-/
import Phrasebook.Source.Position
import Phrasebook.Source.Span
import Phrasebook.Text.Blank

set_option autoImplicit false

namespace Phrasebook.Source

/-- A text and a position in it. -/
structure Cursor where
  source : List Char
  pos : Int
  deriving DecidableEq, Repr, Inhabited

/-- Why a cursor has no character to give. -/
inductive CursorFault where
  /-- the position is at the end of the text or behind it -/
  | endOfText (pos : Int)
  /-- the position is further in front of the end than the text is long -/
  | outsideText
  deriving DecidableEq, Repr, Inhabited

/-- The message of a cursor at the end of its text. -/
def endOfTextMessage (pos : Int) : String := "Unexpected EOF at position " ++ toString pos

namespace Cursor

/-- Whether no character is left. -/
def atEnd (c : Cursor) : Bool := (c.source.length : Int) ≤ c.pos

/-- The character at a position that is not behind the end. -/
def charAt (c : Cursor) (position : Int) : Except CursorFault Char :=
  let index := if position < 0 then position + c.source.length else position
  if index < 0 then .error .outsideText
  else match c.source[index.toNat]? with
    | some ch => .ok ch
    | none => .error .outsideText

/-- The character at the cursor. -/
def current (c : Cursor) : Except CursorFault Char :=
  if c.atEnd then .error (.endOfText c.pos) else c.charAt c.pos

/-- The character some places further on, or nothing behind the end. -/
def peek (c : Cursor) (offset : Int) : Except CursorFault (Option Char) :=
  if (c.source.length : Int) ≤ c.pos + offset then .ok none
  else (c.charAt (c.pos + offset)).map some

/-- The cursor some places further on, at most at the end. -/
def advance (c : Cursor) (count : Int) : Cursor :=
  { c with pos := min (c.pos + count) c.source.length }

/-- Whether the character at the cursor is one of those given. -/
def isAt (c : Cursor) (chars : List Char) : Except CursorFault Bool :=
  if c.atEnd then .ok false else (c.charAt c.pos).map chars.contains

/-- The text from the cursor to a position. -/
def sliceTo (c : Cursor) (stop : Int) : List Char := slice c.source c.pos stop

/-- Whether the text from the cursor on begins with another text. -/
def startsWith (c : Cursor) (text : List Char) : Bool :=
  decide (c.pos ≤ c.source.length) &&
    text.isPrefixOf (c.source.drop (charsBefore c.source.length c.pos))

/-- The cursor behind the blanks at the cursor, with a bound on their number. -/
def skipBlanks (c : Cursor) : Nat → Except CursorFault Cursor
  | 0 => .ok c
  | n + 1 =>
    if c.atEnd then .ok c
    else do
      if Text.isBlank (← c.charAt c.pos) then (c.advance 1).skipBlanks n else return c

/-- The cursor behind the blanks that stand at it. -/
def skipBlank (c : Cursor) : Except CursorFault Cursor :=
  c.skipBlanks (c.source.length - c.pos).toNat

/-- The cursor behind a text of one character, if that text stands at it. -/
def expect (c : Cursor) (text : List Char) : Except CursorFault (Option Cursor) :=
  if c.atEnd then .ok none
  else (c.charAt c.pos).map fun ch => if text = [ch] then some (c.advance 1) else none

/-- The line and the column of the cursor. -/
def lineColumn (c : Cursor) : Int × Int :=
  let last := lastNewline c.source c.pos
  (newlinesBefore c.source c.pos + 1, if 0 ≤ last then c.pos - last else c.pos + 1)

/-- The span of the given length that begins at the cursor, cut off at the end of the text. -/
def span (c : Cursor) (length : Int) : Except SpanFault Span :=
  let stop := min (c.pos + length) c.source.length
  Span.make? c.pos (max stop c.pos) c.lineColumn.1 c.lineColumn.2

end Cursor

/-! ## Spans inside a text -/

theorem tailLength_le (s : List Char) : tailLength s ≤ s.length := by
  have h := (List.takeWhile_prefix (l := s.reverse) (· ≠ '\n')).length_le
  simpa [tailLength] using h

/-- The column of a position that is not negative is at least 1. -/
theorem one_le_column (s : List Char) (position : Nat) :
    1 ≤ (Cursor.mk s position).lineColumn.2 := by
  have ht := tailLength_le (s.take (charsBefore s.length position))
  have hb : charsBefore s.length (position : Int) ≤ position := by
    unfold charsBefore
    split <;> omega
  simp only [List.length_take] at ht
  simp only [Cursor.lineColumn, lastNewline, List.length_take]
  split <;> omega

/-- The span of the given length that begins at a position, cut off at the end of the text. -/
def spanFrom (s : List Char) (position length : Nat) : Span where
  start := position
  stop := max (min (position + length) s.length) position
  line := newlinesBefore s position + 1
  column := (Cursor.mk s position).lineColumn.2.toNat
  start_le_stop := Nat.le_max_right _ _
  line_pos := Nat.le_add_left _ _
  column_pos := by have := one_le_column s position; omega

/-- A cursor at a position that is not negative always has a span. -/
theorem span_natCast (s : List Char) (position length : Nat) :
    (Cursor.mk s position).span length = .ok (spanFrom s position length) := by
  have hc := one_le_column s position
  have hl : (Cursor.mk s position).lineColumn.1 = newlinesBefore s position + 1 := rfl
  simp only [Cursor.span, Span.make?, hl]
  rw [dif_neg (by omega), dif_neg (by omega), dif_neg (by omega), dif_neg (by omega)]
  simp only [spanFrom, Except.ok.injEq, Span.mk.injEq]
  refine ⟨?_, ?_, ?_, trivial⟩ <;> omega

end Phrasebook.Source
