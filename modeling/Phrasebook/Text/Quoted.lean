/-
  Texts in quotation marks.

  Two forms are written.  `quoted` is the form that shows a text inside a list
  or an error message: single quotation marks unless the text holds a single
  mark and no double one, and every character that cannot be printed as an
  escape.  `jsonQuoted` is the form of a JSON document: double quotation marks,
  and escapes for the mark, the backslash and control characters alone.
-/
import Phrasebook.Text.Hex
import Phrasebook.Text.Printable

set_option autoImplicit false

namespace Phrasebook.Text

/-! ## Display form -/

/-- The quotation mark that spares escapes: double only if the text holds a single mark and no
double one. -/
def quoteMark (s : List Char) : Char :=
  if s.contains '\'' && !s.contains '"' then '"' else '\''

/-- One character between the given quotation marks. -/
def escapeShown (mark c : Char) : String :=
  if c = mark ∨ c = '\\' then String.ofList ['\\', c]
  else if c = '\n' then "\\n"
  else if c = '\t' then "\\t"
  else if c = '\r' then "\\r"
  else if isPrintable c then String.singleton c
  else if c.toNat < 0x100 then "\\x" ++ hex 2 c.toNat
  else if c.toNat < 0x10000 then "\\u" ++ hex 4 c.toNat
  else "\\U" ++ hex 8 c.toNat

/-- A text as it is shown inside a list or a message. -/
def quoted (s : String) : String :=
  let mark := quoteMark s.toList
  String.singleton mark ++ String.join (s.toList.map (escapeShown mark)) ++ String.singleton mark

/-! ## JSON form -/

/-- One character of a JSON string. -/
def escapeJson (c : Char) : String :=
  if c = '"' then "\\\""
  else if c = '\\' then "\\\\"
  else if c = '\n' then "\\n"
  else if c = '\r' then "\\r"
  else if c = '\t' then "\\t"
  else if c.toNat = 8 then "\\b"
  else if c.toNat = 12 then "\\f"
  else if c.toNat < 0x20 then "\\u" ++ hex 4 c.toNat
  else String.singleton c

/-- A text as a JSON string. -/
def jsonQuoted (s : String) : String :=
  "\"" ++ String.join (s.toList.map escapeJson) ++ "\""

end Phrasebook.Text
