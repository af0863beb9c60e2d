/-
  The shortest decimal text of a binary floating-point number.

  A finite value stands for every real number that rounds to it: an interval,
  whose ends belong to it exactly if the significand is even.  Its text has the
  fewest digits with which some decimal lies in that interval; among those
  decimals it is the nearest to the value, a tie going to the even digit.  For
  each number of digits only the two decimals next to the value need a test.
-/
import Phrasebook.Number.Binary64

set_option autoImplicit false

namespace Phrasebook.Number.Binary64

/-! ## Digits -/

/-- The interval of reals that round to a positive value, together with the value itself, all
three as multiples of `2 ^ unit`. -/
structure Rounds where
  low : Nat
  value : Nat
  high : Nat
  unit : Int
  closed : Bool
  deriving DecidableEq, Repr, Inhabited

/-- The interval that rounds to `significand * 2 ^ exponent`.  Below a power of two the values
lie twice as close, so there the lower half is smaller. -/
def rounds (significand : Nat) (exponent : Int) : Rounds :=
  let closed := significand % 2 == 0
  if significand = 2 ^ (52 : Nat) ∧ minExponent < exponent then
    ⟨4 * significand - 1, 4 * significand, 4 * significand + 2, exponent - 2, closed⟩
  else ⟨2 * significand - 1, 2 * significand, 2 * significand + 1, exponent - 1, closed⟩

/-- The three numbers of an interval on a decimal grid: numerators over one denominator, counted
in steps of `10 ^ step`. -/
def Rounds.onGrid (r : Rounds) (step : Int) : Nat × Nat × Nat × Nat :=
  let two := 2 ^ r.unit.natAbs
  let ten := 10 ^ step.natAbs
  let num := (if 0 ≤ r.unit then two else 1) * (if 0 ≤ step then 1 else ten)
  let den := (if 0 ≤ r.unit then 1 else two) * (if 0 ≤ step then ten else 1)
  (r.low * num, r.value * num, r.high * num, den)

/-- The decimal on a grid that lies in the interval and is nearest to the value, if there is
one. -/
def Rounds.hit? (r : Rounds) (step : Int) : Option Nat :=
  let (low, value, high, den) := r.onGrid step
  let below := value / den
  let above := below + 1
  let lowHit := if r.closed then low ≤ below * den else low < below * den
  let highHit := if r.closed then above * den ≤ high else above * den < high
  if lowHit ∧ highHit then some (divNearest value den)
  else if lowHit then some below
  else if highHit then some above
  else none

/-- The exponent of the first digit of a positive number: at most the number of steps given are
tried upwards. -/
def Rounds.leadingExponent (r : Rounds) : Nat → Int → Int
  | 0, e => e
  | n + 1, e =>
    let (_, value, _, den) := r.onGrid (e + 1)
    if den ≤ value then r.leadingExponent n (e + 1) else e

/-- Tries grids from the coarsest on, finer by one digit each time. -/
def Rounds.search (r : Rounds) : Nat → Int → Nat × Int
  | 0, step => (0, step)
  | n + 1, step =>
    match r.hit? step with
    | some d => (d, step)
    | none => r.search n (step - 1)

/-- Removes trailing zeros from a number, raising its exponent for each. -/
def dropZeros : Nat → Nat → Int → Nat × Int
  | 0, d, e => (d, e)
  | fuel + 1, d, e => if d ≠ 0 ∧ d % 10 = 0 then dropZeros fuel (d / 10) (e + 1) else (d, e)

/-- The digits of a positive value and the exponent of the last one. -/
def shortest (significand : Nat) (exponent : Int) : Nat × Int :=
  let r := rounds significand exponent
  let guess : Int := ((exponent + Nat.log2 significand) * 30103) / 100000 - 1
  let first := r.leadingExponent 3 guess
  let (d, step) := r.search 18 first
  dropZeros 20 d step

/-! ## Layout -/

/-- Where positional text ends: a number with its point further left than `leftmost` or further
right than `rightmost`, seen from the first digit, is written with an exponent. -/
structure Layout where
  leftmost : Int
  rightmost : Int
  /-- the least number of digits of an exponent -/
  exponentDigits : Nat
  deriving DecidableEq, Repr, Inhabited

/-- Positional from 0.0001 up to sixteen digits before the point; an exponent has two digits at
least. -/
def layout : Layout := ⟨-3, 16, 2⟩

/-- Writes digits with the point after the first `point` of them. -/
def Layout.write (l : Layout) (ds : List Char) (point : Int) : String :=
  if l.leftmost ≤ point ∧ point ≤ l.rightmost then
    if point ≤ 0 then String.ofList ('0' :: '.' :: (List.replicate (-point).toNat '0' ++ ds))
    else if (ds.length : Int) ≤ point then
      String.ofList (ds ++ List.replicate (point - ds.length).toNat '0' ++ ['.', '0'])
    else String.ofList (ds.take point.toNat ++ '.' :: ds.drop point.toNat)
  else
    let mantissa := match ds with
      | [d] => [d]
      | d :: rest => d :: '.' :: rest
      | [] => []
    let power := point - 1
    String.ofList mantissa ++ "e" ++ (if power < 0 then "-" else "+") ++
      padded l.exponentDigits power.natAbs

/-- The text of a value. -/
def text : Binary64 → String
  | .nan => "nan"
  | .infinite s => if s then "-inf" else "inf"
  | .finite s m e =>
    let sign := if s then "-" else ""
    if m = 0 then sign ++ "0.0"
    else
      let (d, step) := shortest m e
      let ds := digits d
      sign ++ layout.write ds (step + ds.length)

end Phrasebook.Number.Binary64
