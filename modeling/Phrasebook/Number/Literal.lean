/-
  Decimal literals: digits, an optional point with further digits, an optional
  exponent.

  A literal denotes the number `coefficient * 10 ^ exponent`.  Both the decimal
  and the binary number types read their text through it.
-/
import Phrasebook.Number.Fault
import Phrasebook.Text.DecimalDigit

set_option autoImplicit false

namespace Phrasebook.Number

open Phrasebook.Text

/-- A number without a sign, as it is written: `coefficient * 10 ^ exponent`. -/
structure Literal where
  coefficient : Nat
  exponent : Int
  deriving DecidableEq, Repr, Inhabited

/-- Splits an optional sign from the front; the flag is set for a minus sign. -/
def splitSign : List Char → Bool × List Char
  | '-' :: rest => (true, rest)
  | '+' :: rest => (false, rest)
  | rest => (false, rest)

/-- The exponent part of a literal: nothing at all, or `e` and a signed run of digits. -/
def readExponent? : List Char → Option Int
  | [] => some 0
  | c :: rest =>
    if c = 'e' ∨ c = 'E' then
      let (negative, digits) := splitSign rest
      (nat? digits).map fun n => if negative then -(n : Int) else n
    else none

/-- Reads a whole text as a literal.  At least one digit stands before or after the point. -/
def Literal.read? (s : List Char) : Option Literal :=
  let whole := s.takeWhile isAsciiDigit
  let rest := s.dropWhile isAsciiDigit
  let (fraction, rest) := match rest with
    | '.' :: t => (t.takeWhile isAsciiDigit, t.dropWhile isAsciiDigit)
    | t => ([], t)
  if whole.isEmpty && fraction.isEmpty then none
  else (readExponent? rest).map fun e =>
    ⟨natOfDigits (whole ++ fraction), e - fraction.length⟩

/-- A run of digits that may hold underscores between two digits, with the underscores
removed; nothing if an underscore stands anywhere else. -/
def dropUnderscores? : List Char → Option (List Char)
  | [] => some []
  | a :: '_' :: b :: rest =>
    if isAsciiDigit a && isAsciiDigit b then (dropUnderscores? (b :: rest)).map (a :: ·) else none
  | c :: rest => if c = '_' then none else (dropUnderscores? rest).map (c :: ·)

/-- The number that a run of ASCII digits denotes, unless there are too many of them. -/
def naturalOf (digits : List Char) : Except Fault Nat :=
  if maxIntegerDigits < digits.length then .error .tooManyDigits else .ok (natOfDigits digits)

end Phrasebook.Number
