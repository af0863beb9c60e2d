/-
  Numbers of three kinds under one roof: whole numbers, binary floating point
  and decimals.

  Arithmetic stays within the kind of its first operand.  Comparison with a
  whole number is exact for every kind: a number equals a whole number if both
  denote the same point of the real line, however they are written.
-/
import Phrasebook.Number.Binary64.Shortest
import Phrasebook.Number.Decimal.Context

set_option autoImplicit false

namespace Phrasebook.Number

/-- A number of any kind. -/
inductive Numeric where
  | int (n : Int)
  | float (x : Binary64)
  | decimal (d : Decimal)
  deriving DecidableEq, Repr, Inhabited

namespace Numeric

/-- The text of a number. -/
def text : Numeric → Except Fault String
  | .int n => integerText n
  | .float x => .ok x.text
  | .decimal d => .ok d.text

/-- The difference between a number and a whole number, in the arithmetic of the number's kind. -/
def subInt : Numeric → Int → Except Fault Numeric
  | .int n, k => .ok (.int (n - k))
  | .float x, k => (x.subInt k).map .float
  | .decimal d, k => (d.subInt k).map .decimal

/-- The whole number that a number is equal to, if it is one. -/
def integral? : Numeric → Option Int
  | .int n => some n
  | .float x => x.integral?
  | .decimal d => d.integral?

/-- Whether a number equals a whole number. -/
def equalsInt : Numeric → Int → Except Fault Bool
  | .decimal d, k => d.equalsInt k
  | n, k => .ok (n.integral? == some k)

/-- The decimal that a number is equal to.  There is one for every number: a half is five tenths,
so a negative power of two is a power of five with a negative power of ten. -/
def toDecimal : Numeric → Decimal
  | .int n => .ofInt n
  | .float (.finite s m e) =>
    if 0 ≤ e then .finite s (m * 2 ^ e.toNat) 0 else .finite s (m * 5 ^ (-e).toNat) e
  | .float (.infinite s) => .infinite s
  | .float .nan => .nan false false 0
  | .decimal d => d

/-- Whether two numbers denote the same point, infinities included.  A NaN denotes none. -/
def equals (m n : Numeric) : Bool := m.toDecimal.equals n.toDecimal

/-- The remainder of division by a positive whole number.  It is never negative for whole and
binary numbers, and has the sign of the dividend for decimals. -/
def remainder : Numeric → Nat → Except Fault Numeric
  | .int n, m => .ok (.int (n.fmod m))
  | .float x, m => .ok (.float (x.modNat m))
  | .decimal d, m => (d.remainder m).map .decimal

/-- Whether the remainder of division by `m` equals `r`. -/
def remainderIs (n : Numeric) (m : Nat) (r : Int) : Except Fault Bool := do
  (← n.remainder m).equalsInt r

end Numeric

end Phrasebook.Number
