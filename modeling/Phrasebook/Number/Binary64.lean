/-
  Binary floating point of 64 bits, as exact numbers.

  A finite value is `± significand * 2 ^ exponent`.  The significand has at most
  53 bits, and all of them unless the exponent is the smallest one, so every
  value has one representation.  Operations compute an exact rational result and
  round it once, to the nearest value and in a tie to the even significand.
-/
import Phrasebook.Number.Fault
import Phrasebook.Number.Literal
import Phrasebook.Number.Rounding
import Phrasebook.Text.Blank

set_option autoImplicit false

namespace Phrasebook.Number

open Phrasebook.Text

/-- A binary floating-point number.  A finite one denotes `± significand * 2 ^ exponent`. -/
inductive Binary64 where
  | finite (negative : Bool) (significand : Nat) (exponent : Int)
  | infinite (negative : Bool)
  | nan
  deriving DecidableEq, Repr, Inhabited

namespace Binary64

/-! ## Rounding -/

/-- The exponent of the smallest values. -/
def minExponent : Int := -1074

/-- The exponent of the largest values. -/
def maxExponent : Int := 971

/-- Zero with a sign. -/
def zero (negative : Bool) : Binary64 := .finite negative 0 minExponent

/-- A fraction divided by a power of two. -/
def scaleDown (num den : Nat) (e : Int) : Nat × Nat :=
  if 0 ≤ e then (num, den * 2 ^ e.toNat) else (num * 2 ^ (-e).toNat, den)

/-- The exponent at which a positive fraction has a whole part of 53 bits. -/
def fullExponent (num den : Nat) : Int :=
  let e : Int := (Nat.log2 num : Int) - Nat.log2 den - 52
  let (n, d) := scaleDown num den e
  if n / d < 2 ^ (52 : Nat) then e - 1 else e

/-- The value nearest to a fraction. -/
def ofRatio (negative : Bool) (num den : Nat) : Binary64 :=
  if num = 0 then zero negative
  else
    let e := max (fullExponent num den) minExponent
    let (n, d) := scaleDown num den e
    let significand := divNearest n d
    let (significand, e) :=
      if significand = 2 ^ (53 : Nat) then (2 ^ (52 : Nat), e + 1) else (significand, e)
    if maxExponent < e then .infinite negative else .finite negative significand e

/-- The value nearest to `± coefficient * 10 ^ exponent`.  Exponents that leave the range of the
type on either side are decided without computing the power. -/
def ofScientific (negative : Bool) (coefficient : Nat) (exponent : Int) : Binary64 :=
  if coefficient = 0 then zero negative
  else
    let first := exponent + digitCount coefficient
    if 400 < first then .infinite negative
    else if first < -400 then zero negative
    else if 0 ≤ exponent then ofRatio negative (coefficient * 10 ^ exponent.toNat) 1
    else ofRatio negative coefficient (10 ^ (-exponent).toNat)

/-- The value nearest to a whole number, if the number is in range. -/
def ofInt (n : Int) : Except Fault Binary64 :=
  match ofRatio (n < 0) n.natAbs 1 with
  | .infinite _ => .error .outOfRange
  | x => .ok x

/-- Reads a number, blanks around it being passed over. -/
def read? (s : String) : Option Binary64 := do
  let (negative, body) := splitSign (trimBlank s.toList)
  let lowered := body.map Char.toLower
  if lowered = ['i', 'n', 'f'] ∨ lowered = ['i', 'n', 'f', 'i', 'n', 'i', 't', 'y'] then
    return .infinite negative
  if lowered = ['n', 'a', 'n'] then return .nan
  let literal ← Literal.read? (← dropUnderscores? body)
  return ofScientific negative literal.coefficient literal.exponent

/-! ## Whole numbers -/

/-- The whole number that a value is equal to, if it is one. -/
def integral? : Binary64 → Option Int
  | .finite s m e =>
    let magnitude :=
      if 0 ≤ e then some (m * 2 ^ e.toNat)
      else
        let scale := 2 ^ (-e).toNat
        if m % scale = 0 then some (m / scale) else none
    magnitude.map fun n => if s then -(n : Int) else n
  | .infinite _ => none
  | .nan => none

/-- The whole part of a value, what follows the point being cut off. -/
def truncate : Binary64 → Except Fault Int
  | .finite s m e =>
    let n := if 0 ≤ e then m * 2 ^ e.toNat else m / 2 ^ (-e).toNat
    .ok (if s then -(n : Int) else n)
  | .infinite _ => .error .outOfRange
  | .nan => .error .notANumber

/-! ## Operations -/

/-- A finite value as a multiple of a smaller power of two. -/
def units (negative : Bool) (significand : Nat) (exponent unit : Int) : Int :=
  let n : Int := (significand * 2 ^ (exponent - unit).toNat : Nat)
  if negative then -n else n

/-- The value nearest to a multiple of a power of two. -/
def ofUnits (negative : Bool) (n : Nat) (unit : Int) : Binary64 :=
  if 0 ≤ unit then ofRatio negative (n * 2 ^ unit.toNat) 1
  else ofRatio negative n (2 ^ (-unit).toNat)

/-- The difference of two values.  A difference of zero is negative only when a negative zero has
a positive one taken from it. -/
def sub (x y : Binary64) : Binary64 :=
  match x, y with
  | .nan, _ => .nan
  | _, .nan => .nan
  | .infinite s, .infinite t => if s = t then .nan else .infinite s
  | .infinite s, .finite _ _ _ => .infinite s
  | .finite _ _ _, .infinite t => .infinite (!t)
  | .finite s m e, .finite t n f =>
    let unit := min e f
    let difference := units s m e unit - units t n f unit
    ofUnits (if difference = 0 then s && !t else difference < 0) difference.natAbs unit

/-- The difference between a value and a whole number, which is first rounded to a value. -/
def subInt (x : Binary64) (n : Int) : Except Fault Binary64 := do
  return x.sub (← ofInt n)

/-- The remainder of division by a positive whole number, at least zero and less than the
divisor before it is rounded. -/
def modNat (x : Binary64) (m : Nat) : Binary64 :=
  match x with
  | .finite s n e =>
    let unit := min e 0
    let divisor : Int := (m * 2 ^ (0 - unit).toNat : Nat)
    ofUnits false ((units s n e unit).fmod divisor).natAbs unit
  | _ => .nan

/-- The product of a value and a natural number. -/
def mulNat (x : Binary64) (k : Nat) : Binary64 :=
  match x with
  | .finite s m e => ofUnits s (m * k) e
  | .infinite s => if k = 0 then .nan else .infinite s
  | .nan => .nan

/-- The value nearest to a value's decimal with a number of places, a tie of which goes to the even
digit. -/
def roundPlaces (places : Nat) (x : Binary64) : Binary64 :=
  match x with
  | .finite s m e =>
    let scale := 10 ^ places
    ofRatio s (divNearest (m * 2 ^ e.toNat * scale) (2 ^ (-e).toNat)) scale
  | x => x

/-- The value with the other sign. -/
def neg : Binary64 → Binary64
  | .finite s m e => .finite (!s) m e
  | .infinite s => .infinite (!s)
  | .nan => .nan

/-- The sum of two values. -/
def add (x y : Binary64) : Binary64 := x.sub y.neg

/-- The absolute value. -/
def abs : Binary64 → Binary64
  | .finite _ m e => .finite false m e
  | .infinite _ => .infinite false
  | .nan => .nan

end Binary64

end Phrasebook.Number
