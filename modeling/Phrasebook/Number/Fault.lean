/-
  Why a computation on numbers has no result.
-/
import Phrasebook.Number.Rounding

set_option autoImplicit false

namespace Phrasebook.Number

/-- The causes for which arithmetic, comparison and conversion of numbers fail. -/
inductive Fault where
  /-- a decimal operation that has no defined result, such as one on a signaling NaN -/
  | invalidOperation
  /-- a decimal result beyond the largest exponent -/
  | decimalOverflow
  /-- a whole number too large for binary floating point, or an infinity asked for as a whole
  number -/
  | outOfRange
  /-- a NaN asked for as a whole number -/
  | notANumber
  /-- a whole number with more digits than are ever read or written -/
  | tooManyDigits
  deriving DecidableEq, Repr, Inhabited

/-- The most decimal digits of a whole number that are read from or written to text. -/
def maxIntegerDigits : Nat := 4300

/-- The text of a whole number, unless it has too many digits. -/
def integerText (n : Int) : Except Fault String :=
  if digitCountOver n then .error .tooManyDigits else .ok (toString n)
where
  digitCountOver (n : Int) : Bool := 10 ^ maxIntegerDigits ≤ n.natAbs

theorem integerText_eq_ok {n : Int} (h : n.natAbs < 10 ^ maxIntegerDigits) :
    integerText n = .ok (toString n) := by
  simp [integerText, integerText.digitCountOver, Nat.not_le.mpr h]

end Phrasebook.Number
