/-
  Decimal arithmetic to a fixed number of digits.

  Every operation computes its exact result and then rounds it once to at most
  28 significant digits, a tie going to the even digit.  Exponents are bounded:
  a result beyond the largest one is an overflow, and one below the smallest
  keeps fewer digits.  A signaling NaN is refused by every operation and a quiet
  one is passed on.

  Operands have far wider exponents than results.  No operation computes a power
  of ten that its rounding takes away again.
-/
import Phrasebook.Number.Decimal

set_option autoImplicit false

namespace Phrasebook.Number.Decimal

/-! ## The context -/

/-- The most significant digits that a result keeps. -/
def precision : Nat := 28

/-- The exponent of the first digit of a result is at most this. -/
def maxExponent : Int := 999999

/-- The smallest exponent of the last digit of a result. -/
def tinyExponent : Int := -1000026

/-- The largest exponent that a result of full precision may have. -/
def topExponent : Int := maxExponent - precision + 1

/-- Rounds a finite number to the context. -/
def roundFinite (negative : Bool) (coefficient : Nat) (exponent : Int) : Except Fault Decimal :=
  if coefficient = 0 then
    .ok (.finite negative 0 (min (max exponent tinyExponent) maxExponent))
  else
    let least : Int := digitCount coefficient + exponent - precision
    if topExponent < least then .error .decimalOverflow
    else
      let target := max least tinyExponent
      if exponent < target then
        let kept := divNearestTenPow coefficient (target - exponent).toNat
        let (kept, target) :=
          if kept = 10 ^ precision then (10 ^ (precision - 1), target + 1) else (kept, target)
        if topExponent < target then .error .decimalOverflow
        else .ok (.finite negative kept target)
      else .ok (.finite negative coefficient exponent)

/-- What an operation makes of an operand that is a NaN: an error for a signaling one, and the
last digits of the payload that fit for a quiet one. -/
def passNaN (negative signaling : Bool) (payload : Nat) : Except Fault Decimal :=
  if signaling then .error .invalidOperation
  else .ok (.nan negative false (payload % 10 ^ precision))

/-- Rounds a decimal to the context. -/
def round : Decimal → Except Fault Decimal
  | .finite s c e => roundFinite s c e
  | .infinite s => .ok (.infinite s)
  | .nan s signaling payload => passNaN s signaling payload

/-! ## Operations -/

/-- A number with its sign. -/
def signed (negative : Bool) (n : Nat) : Int := if negative then -(n : Int) else n

/-- The second of two operands of a sum, without its sign, or a number that stands for it.

If all its digits lie well below those of the first operand and below those that are kept, the
rounded sum depends only on whether it is zero.  Then it may be moved up to the place below which
that holds, at least two places below the last one that is kept. -/
def standIn (c₁ : Nat) (e₁ : Int) (c₂ : Nat) (e₂ : Int) : Nat × Int :=
  let place : Int := e₁ - 1 + min 0 ((digitCount c₁ : Int) - precision - 1)
  if c₁ ≠ 0 ∧ leadingExponent c₂ e₂ < place then (min c₂ 1, place) else (c₂, e₂)

/-- The exact sum of two finite decimals.  A sum of zero is negative only if both operands are. -/
def exactSum (s₁ : Bool) (c₁ : Nat) (e₁ : Int) (s₂ : Bool) (c₂ : Nat) (e₂ : Int) :
    Bool × Nat × Int :=
  let e := min e₁ e₂
  let sum := signed s₁ (timesTenPow c₁ (e₁ - e).toNat) + signed s₂ (timesTenPow c₂ (e₂ - e).toNat)
  (if sum = 0 then s₁ && s₂ else sum < 0, sum.natAbs, e)

/-- The rounded sum of two finite decimals. -/
def roundedSum (s₁ : Bool) (c₁ : Nat) (e₁ : Int) (s₂ : Bool) (c₂ : Nat) (e₂ : Int) :
    Except Fault Decimal :=
  let (a₁, f₁) := standIn c₂ e₂ c₁ e₁
  let (a₂, f₂) := standIn c₁ e₁ c₂ e₂
  let (s, c, e) := exactSum s₁ a₁ f₁ s₂ a₂ f₂
  roundFinite s c e

/-- The difference between a decimal and a whole number. -/
def subInt (d : Decimal) (n : Int) : Except Fault Decimal :=
  match d with
  | .finite s c e => roundedSum s c e (0 ≤ n) n.natAbs 0
  | .infinite s => .ok (.infinite s)
  | .nan s signaling payload => passNaN s signaling payload

/-- The remainder of division by a positive whole number.  It has the sign of the dividend, and
is refused if the whole quotient has more digits than the context keeps. -/
def remainder (d : Decimal) (m : Nat) : Except Fault Decimal :=
  match d with
  | .finite s c e =>
    let ideal := min e 0
    let gap : Int := (digitCount c + e) - digitCount m
    if c = 0 ∨ gap ≤ -2 then roundFinite s (timesTenPow c (e - ideal).toNat) ideal
    else if gap ≤ precision then
      let dividend := c * 10 ^ (e - ideal).toNat
      let divisor := m * 10 ^ (0 - ideal).toNat
      if dividend / divisor < 10 ^ precision then roundFinite s (dividend % divisor) ideal
      else .error .invalidOperation
    else .error .invalidOperation
  | .infinite _ => .error .invalidOperation
  | .nan s signaling payload => passNaN s signaling payload

/-- The absolute value; a NaN keeps its sign. -/
def abs : Decimal → Except Fault Decimal
  | .finite _ c e => roundFinite false c e
  | .infinite _ => .ok (.infinite false)
  | .nan s signaling payload => passNaN s signaling payload

/-- The digits of a finite decimal without sign, rounded to a number of places after the point:
the result counts units of the last place.  It is refused if it has too many digits. -/
def quantize (places : Nat) (coefficient : Nat) (exponent : Int) : Except Fault Nat :=
  let shift := exponent + places
  if 0 ≤ shift then
    if coefficient = 0 then .ok 0
    else if precision < digitCount coefficient + shift then .error .invalidOperation
    else .ok (coefficient * 10 ^ shift.toNat)
  else
    let units := divNearestTenPow coefficient (-shift).toNat
    if precision < digitCount units then .error .invalidOperation else .ok units

end Phrasebook.Number.Decimal
