/-
  Decimal numbers: an exact coefficient and a power of ten, with infinities and
  NaNs.

  The representation keeps trailing zeros, so `1.50` and `1.5` are two decimals
  of one value.  A NaN is quiet or signaling, and may carry a number for
  diagnosis.  This file holds the type, its text in both directions, and exact
  comparison; arithmetic that rounds is in `Phrasebook.Number.Decimal.Context`.

  Exponents have up to nineteen digits, so a comparison looks at the places of
  the first digits before it brings two decimals to one exponent.
-/
import Phrasebook.Number.Fault
import Phrasebook.Number.Literal
import Phrasebook.Number.Rounding
import Phrasebook.Text.Blank

set_option autoImplicit false

namespace Phrasebook.Number

open Phrasebook.Text

/-- A decimal number.  A finite one denotes `± coefficient * 10 ^ exponent`. -/
inductive Decimal where
  | finite (negative : Bool) (coefficient : Nat) (exponent : Int)
  | infinite (negative : Bool)
  /-- `payload` is the number after the word NaN; zero stands for none -/
  | nan (negative signaling : Bool) (payload : Nat)
  deriving DecidableEq, Repr, Inhabited

namespace Decimal

/-- A whole number as a decimal. -/
def ofInt (n : Int) : Decimal := .finite (n < 0) n.natAbs 0

/-- Whether the sign is a minus; zeros and NaNs have a sign too. -/
def isNegative : Decimal → Bool
  | .finite s _ _ => s
  | .infinite s => s
  | .nan s _ _ => s

/-! ## Text -/

/-- The sign in front of a number. -/
def signText (negative : Bool) : String := if negative then "-" else ""

/-- The text of a finite decimal without its sign.

The point stands where the exponent says, unless the exponent is positive or the first digit
comes more than five zeros after the point; then one digit stands before the point and the
exponent is written. -/
def magnitudeText (coefficient : Nat) (exponent : Int) : String :=
  let ds := digits coefficient
  let left : Int := exponent + ds.length
  let point : Int := if exponent ≤ 0 ∧ -6 < left then left else 1
  let (whole, fraction) :=
    if point ≤ 0 then (['0'], List.replicate (-point).toNat '0' ++ ds)
    else if (ds.length : Int) ≤ point then
      (ds ++ List.replicate (point - ds.length).toNat '0', [])
    else (ds.take point.toNat, ds.drop point.toNat)
  let mantissa := if fraction.isEmpty then whole else whole ++ '.' :: fraction
  let shift := left - point
  let power :=
    if shift = 0 then ""
    else if 0 < shift then "E+" ++ toString shift
    else "E" ++ toString shift
  String.ofList mantissa ++ power

/-- The text of a decimal. -/
def text : Decimal → String
  | .finite s c e => signText s ++ magnitudeText c e
  | .infinite s => signText s ++ "Infinity"
  | .nan s signaling payload =>
    signText s ++ (if signaling then "sNaN" else "NaN") ++
      (if payload = 0 then "" else toString payload)

/-- The smallest exponent of the last digit of a decimal. -/
def leastExponent : Int := -1999999999999999997

/-- The largest exponent of the first digit of a decimal. -/
def greatestExponent : Int := 999999999999999999

/-- The exponent of the first digit of a finite decimal without sign. -/
def leadingExponent (coefficient : Nat) (exponent : Int) : Int :=
  exponent + digitCount coefficient - 1

/-- A finite decimal, if its exponents are within the bounds. -/
def finite? (negative : Bool) (coefficient : Nat) (exponent : Int) : Option Decimal :=
  if leastExponent ≤ exponent ∧ leadingExponent coefficient exponent ≤ greatestExponent then
    some (.finite negative coefficient exponent)
  else none

/-- Reads a decimal whose text has ASCII characters only. -/
def readAscii? (s : List Char) : Option Decimal :=
  let (negative, body) := splitSign s
  let lowered := body.map Char.toLower
  if lowered = ['i', 'n', 'f'] ∨ lowered = ['i', 'n', 'f', 'i', 'n', 'i', 't', 'y'] then
    some (.infinite negative)
  else match lowered with
    | 's' :: 'n' :: 'a' :: 'n' :: payload => nanWith negative true payload
    | 'n' :: 'a' :: 'n' :: payload => nanWith negative false payload
    | _ => (Literal.read? body).bind fun l => finite? negative l.coefficient l.exponent
where
  /-- A NaN followed by nothing or by digits. -/
  nanWith (negative signaling : Bool) (payload : List Char) : Option Decimal :=
    if payload.all isAsciiDigit then some (.nan negative signaling (natOfDigits payload)) else none

/-- Reads a decimal.  Blanks around it and underscores anywhere are passed over, and the decimal
digits of every script are digits. -/
def read? (s : String) : Option Decimal := do
  let chars := (trimBlank s.toList).filter (· ≠ '_')
  let ascii ← chars.mapM fun c =>
    if c.toNat < 128 then some c else (decimalDigit? c).map fun d => Char.ofNat (48 + d)
  readAscii? ascii

/-! ## Comparison -/

/-- Whether two finite decimals without sign are equal.  If they are and are not zero, their first
digits stand at the same place, and then the exponents differ by no more than the numbers of
digits. -/
def sameMagnitude (c₁ : Nat) (e₁ : Int) (c₂ : Nat) (e₂ : Int) : Bool :=
  if c₁ = 0 ∨ c₂ = 0 then c₁ == c₂
  else if leadingExponent c₁ e₁ = leadingExponent c₂ e₂ then
    c₁ * 10 ^ (e₁ - e₂).toNat == c₂ * 10 ^ (e₂ - e₁).toNat
  else false

/-- Whether two decimals denote the same point, infinities included.  A NaN denotes none, and
the sign of a zero makes no difference. -/
def equals : Decimal → Decimal → Bool
  | .finite s₁ c₁ e₁, .finite s₂ c₂ e₂ =>
    (s₁ == s₂ || c₁ == 0) && sameMagnitude c₁ e₁ c₂ e₂
  | .infinite s₁, .infinite s₂ => s₁ == s₂
  | _, _ => false

/-- Whether a decimal equals a whole number.  A signaling NaN cannot be compared. -/
def equalsInt (d : Decimal) (n : Int) : Except Fault Bool :=
  match d with
  | .nan _ true _ => .error .invalidOperation
  | d => .ok (d.equals (.ofInt n))

/-! ## Whole numbers -/

/-- The whole number that a finite decimal without sign is equal to, if it is one. -/
def magnitudeIntegral? (coefficient : Nat) (exponent : Int) : Option Nat :=
  if 0 ≤ exponent then some (timesTenPow coefficient exponent.toNat)
  else
    let whole := divTenPow coefficient (-exponent).toNat
    if timesTenPow whole (-exponent).toNat = coefficient then some whole else none

/-- The whole number that a decimal is equal to, if it is one. -/
def integral? : Decimal → Option Int
  | .finite s c e => (magnitudeIntegral? c e).map fun n => if s then -(n : Int) else n
  | .infinite _ => none
  | .nan _ _ _ => none

/-- The whole part of a decimal, what follows the point being cut off. -/
def truncate : Decimal → Except Fault Int
  | .finite s c e =>
    let n := if 0 ≤ e then timesTenPow c e.toNat else divTenPow c (-e).toNat
    .ok (if s then -(n : Int) else n)
  | .infinite _ => .error .outOfRange
  | .nan _ _ _ => .error .notANumber

end Decimal

end Phrasebook.Number
