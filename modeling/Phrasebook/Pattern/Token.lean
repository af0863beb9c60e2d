/-
  The tokens of a pattern: blanks, identifiers, whole numbers and single
  characters.

  Each reader takes the longest run of its characters from the front.  Where a
  token is needed and none stands, the fault lies at the character found
  instead.  Inside an argument, a text that ends among blanks is a fault of the
  argument, which was never closed, and lies at its opening brace.
-/
import Phrasebook.Number.Fault
import Phrasebook.Pattern.Fault
import Phrasebook.Text.Blank
import Phrasebook.Text.DecimalDigit

set_option autoImplicit false

namespace Phrasebook.Pattern

open Phrasebook.Text

/-! ## Character classes -/

/-- A character of an identifier: an ASCII letter or digit, or an underscore. -/
def isIdentifierChar (c : Char) : Bool :=
  ('a' ≤ c && c ≤ 'z') || ('A' ≤ c && c ≤ 'Z') || isAsciiDigit c || c == '_'

/-- A character that ends a run of literal text. -/
def isSpecial (c : Char) : Bool := c == '{' || c == '}' || c == '\''

/-- A character that an apostrophe in front of it quotes. -/
def isQuotable (c : Char) : Bool := c == '{' || c == '}'

/-! ## Tokens -/

/-- An identifier: the longest run of identifier characters, at least one. -/
def identifier : Step String := fun s =>
  let name := s.takeWhile isIdentifierChar
  if name.isEmpty then .error (.malformed .expectedIdentifier s)
  else .ok (String.ofList name, s.dropWhile isIdentifierChar)

/-- The number that a sign and digits denote. -/
def signedValue (negative : Bool) (digits : List Char) : Int :=
  if negative then -(natOfDigits digits : Int) else natOfDigits digits

/-- Splits a minus sign from the front; the flag says whether there was one. -/
def splitMinus : List Char → Bool × List Char
  | [] => (false, [])
  | c :: rest => if c = '-' then (true, rest) else (false, c :: rest)

/-- A whole number: an optional minus sign and the longest run of ASCII digits, at least one. -/
def integer : Step Int := fun s =>
  let (negative, body) := splitMinus s
  let digits := body.takeWhile isAsciiDigit
  if digits.isEmpty then .error (.malformed .expectedInteger s)
  else if Number.maxIntegerDigits < digits.length then .error .integerTooLong
  else .ok (signedValue negative digits, body.dropWhile isAsciiDigit)

/-- Skips blanks inside the argument that was opened at `opened`. -/
def skipBlanks (opened s : List Char) : Except Fault (List Char) :=
  match skipBlank s with
  | [] => .error (.malformed .unterminatedArgument opened)
  | c :: rest => .ok (c :: rest)

/-- Passes over one character. -/
def expect (expected : Char) : List Char → Except Fault (List Char)
  | [] => .error (.malformed (.expectedCharacter (String.singleton expected)) [])
  | c :: rest =>
    if c = expected then .ok rest
    else .error (.malformed (.expectedCharacter (String.singleton expected)) (c :: rest))

/-- Passes over a text of one character.  A text of any other length stands nowhere. -/
def expectText (expected : List Char) (s : List Char) : Except Fault (List Char) :=
  match expected with
  | [c] => expect c s
  | _ => .error (.malformed (.expectedCharacter (String.ofList expected)) s)

/-- Passes over the closing brace of the argument that was opened at `opened`. -/
def closeArgument (opened s : List Char) : Except Fault (List Char) :=
  if s.isEmpty then .error (.malformed .unterminatedArgument opened) else expect '}' s

/-! ## What is left is an end of the text -/

theorem identifier_suffix {s rest : List Char} {name : String}
    (h : identifier s = .ok (name, rest)) : rest <:+ s := by
  simp only [identifier] at h
  split at h
  · cases h
  · cases h; exact List.dropWhile_suffix _

theorem splitMinus_suffix (s : List Char) : (splitMinus s).2 <:+ s := by
  unfold splitMinus
  split
  · exact List.suffix_refl _
  · split
    · exact List.suffix_cons _ _
    · exact List.suffix_refl _

theorem integer_suffix {s rest : List Char} {n : Int} (h : integer s = .ok (n, rest)) :
    rest <:+ s := by
  simp only [integer] at h
  split at h
  · cases h
  · split at h
    · cases h
    · cases h
      exact (List.dropWhile_suffix _).trans (splitMinus_suffix s)

theorem skipBlanks_suffix {opened s rest : List Char} (h : skipBlanks opened s = .ok rest) :
    rest <:+ s := by
  simp only [skipBlanks] at h
  split at h
  · cases h
  · rename_i c r hs
    cases h
    exact hs ▸ List.dropWhile_suffix _

theorem expect_eq_ok {expected : Char} {s rest : List Char} (h : expect expected s = .ok rest) :
    s = expected :: rest := by
  cases s with
  | nil => simp [expect] at h
  | cons c r =>
    simp only [expect] at h
    split at h
    · rename_i hc
      cases h
      rw [hc]
    · cases h

theorem closeArgument_eq_ok {opened s rest : List Char}
    (h : closeArgument opened s = .ok rest) : s = '}' :: rest := by
  simp only [closeArgument] at h
  split at h
  · cases h
  · exact expect_eq_ok h

end Phrasebook.Pattern
