/-
  The characters of a YAML text, each with its line and column.

  The meaning of a character depends on its column and on what shares its line
  with it, so both are noted once, for the whole text, before it is read.
-/
import Phrasebook.Document.Fault

set_option autoImplicit false

namespace Phrasebook.Yaml

/-- A character and where it stands; lines and columns count from zero. -/
structure Mark where
  char : Char
  line : Nat
  column : Nat
  deriving DecidableEq, Repr, Inhabited

/-! ## Lines -/

/-- A character that ends a line. -/
def isBreak (c : Char) : Bool := c = '\n' || c = '\u2028' || c = '\u2029'

/-- A character that separates tokens. -/
def isGap (c : Char) : Bool := c = ' ' || c = '\t' || isBreak c

/-- A character that may stand in a text at all. -/
def isAllowed (c : Char) : Bool :=
  c = '\t' || c = '\n' || c = '\r' || c = '\x85' || (' ' ≤ c && c ≤ '~') ||
    ('\xa0' ≤ c && c ≤ '\ufffd') || '\uffff' < c

/-- Writes every usual end of a line as a line feed. -/
def unifyBreaks : List Char → List Char
  | '\r' :: '\n' :: rest => '\n' :: unifyBreaks rest
  | c :: rest => (if c = '\r' || c = '\x85' then '\n' else c) :: unifyBreaks rest
  | [] => []

/-- The marks of characters of which the first stands at a line and column. -/
def marksFrom (line column : Nat) : List Char → List Mark
  | [] => []
  | c :: rest =>
    ⟨c, line, column⟩ ::
      if isBreak c then marksFrom (line + 1) 0 rest else marksFrom line (column + 1) rest

/-- The marks of a text.  A byte order mark at its front does not count. -/
def marks (source : String) : List Mark :=
  match unifyBreaks source.toList with
  | '\ufeff' :: rest => marksFrom 0 0 rest
  | s => marksFrom 0 0 s

/-- Marks hold the characters that they are made of. -/
theorem map_char_marksFrom (line column : Nat) (s : List Char) :
    (marksFrom line column s).map Mark.char = s := by
  induction s generalizing line column with
  | nil => rfl
  | cons c rest ih =>
    simp only [marksFrom, List.map_cons]
    split <;> simp [ih]

/-! ## Reading -/

/-- Reads something at the front of a text and leaves what follows. -/
abbrev Reader (α : Type) : Type := List Mark → Except DocumentFault (α × List Mark)

/-- The text has not the form of a document. -/
def malformed {α : Type} : Except DocumentFault α := .error (.malformed .yaml)

/-- The character at the front. -/
def peek (s : List Mark) : Option Char := s.head?.map Mark.char

/-- Whether a token ends here: at a gap or at the end of the text. -/
def atGap (s : List Mark) : Bool :=
  match peek s with
  | some c => isGap c
  | none => true

/-- Whether an indicator stands at the front, with a gap behind it. -/
def atIndicator (c : Char) : List Mark → Bool
  | m :: rest => m.char = c && atGap rest
  | [] => false

/-- Whether three hyphens or three points begin a line and stand alone. -/
def atDocumentMark (s : List Mark) : Bool :=
  match s with
  | a :: b :: c :: rest =>
    a.column = 0 && (a.char = '-' || a.char = '.') && b.char = a.char && c.char = a.char &&
      atGap rest
  | _ => false

/-- Passes over spaces, breaks and comments.  The flag is set inside a comment. -/
def skipFrom (comment : Bool) : List Mark → List Mark
  | [] => []
  | m :: rest =>
    if isBreak m.char then skipFrom false rest
    else if comment || m.char = '#' then skipFrom true rest
    else if m.char = ' ' then skipFrom false rest
    else m :: rest

/-- Passes over all that may stand in front of a token. -/
def skip (s : List Mark) : List Mark := skipFrom false s

/-- Passes over spaces alone. -/
def skipSpaces (s : List Mark) : List Mark := s.dropWhile (·.char = ' ')

/-- Whether nothing but a comment follows on the line. -/
def atLineEnd (s : List Mark) : Bool :=
  match peek (skipSpaces s) with
  | some c => isBreak c || c = '#'
  | none => true

end Phrasebook.Yaml
