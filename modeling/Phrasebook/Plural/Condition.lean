/-
  Conditions on the written form of a number.

  Languages choose a category by the value of a number and by the digits that
  are visible when it is written: `1` and `1.0` may differ.  The quantities that
  a condition speaks of are called operands.  A condition is a disjunction of
  conjunctions of relations, and a relation asks whether an operand, or its
  remainder, is a whole number in certain ranges.

  Conditions are tested from the left, and no further than needed.  That can be
  seen where a remainder has no result.
-/
import Phrasebook.Number.Numeric

set_option autoImplicit false

namespace Phrasebook.Plural

open Phrasebook.Number

/-! ## Operands -/

/-- The quantities of a number that conditions speak of. -/
structure Operands where
  /-- the absolute value -/
  n : Numeric
  /-- its whole part -/
  i : Int
  /-- the number of visible digits of its fraction -/
  v : Nat
  /-- the number that these digits form -/
  f : Nat
  deriving DecidableEq, Repr, Inhabited

namespace Operands

/-- The visible digits of a fraction: how many there are, and the number that they form.  Zeros
between the point and the first digit of the coefficient are not counted. -/
def fraction : Decimal → Nat × Nat
  | .finite _ c e =>
    let visible := if e < 0 then min (digitCount c) (-e).toNat else 0
    (visible, c % 10 ^ visible)
  | _ => (0, 0)

/-- The operands of a decimal that is not negative. -/
def ofDecimal (d : Decimal) (whole : Int) : Operands :=
  ⟨.decimal d, whole, (fraction d).1, (fraction d).2⟩

/-- The operands of a number.  Binary numbers have the digits that they are written with, and none
behind the point if they are whole. -/
def of : Numeric → Except Fault Operands
  | .int k => .ok ⟨.int k.natAbs, k.natAbs, 0, 0⟩
  | .float x => do
    let whole ← x.abs.truncate
    if x.abs.integral? = some whole then return ⟨.int whole, whole, 0, 0⟩
    else
      match Decimal.read? x.abs.text with
      | some d => return ofDecimal d whole
      | none => return ⟨.float x.abs, whole, 0, 0⟩
  | .decimal d => do
    let magnitude ← d.abs
    return ofDecimal magnitude (← magnitude.truncate)

end Operands

/-! ## Conditions -/

/-- The names of the operands. -/
inductive Operand where
  | n
  | i
  | v
  | f
  /-- the exponent of compact notation, which is never used here -/
  | e
  deriving DecidableEq, Repr, Inhabited

/-- The value of an operand. -/
def Operands.get (o : Operands) : Operand → Numeric
  | .n => o.n
  | .i => .int o.i
  | .v => .int o.v
  | .f => .int o.f
  | .e => .int 0

/-- A relation: an operand, or its remainder, lies in one of the ranges, or in none of them. -/
structure Relation where
  operand : Operand
  modulus : Option Nat := none
  inside : Bool := true
  ranges : List (Nat × Nat)
  deriving DecidableEq, Repr, Inhabited

namespace Relation

/-- A number is whole and lies in one of the ranges, whose ends belong to them. -/
def covers (ranges : List (Nat × Nat)) (x : Numeric) : Bool :=
  match x.integral? with
  | some k => ranges.any fun r => (r.1 : Int) ≤ k && k ≤ r.2
  | none => false

/-- Whether a relation holds. -/
def holds (r : Relation) (o : Operands) : Except Fault Bool := do
  let x ← match r.modulus with
    | some m => (o.get r.operand).remainder m
    | none => pure (o.get r.operand)
  return covers r.ranges x == r.inside

end Relation

/-- A disjunction of conjunctions of relations. -/
abbrev Condition : Type := List (List Relation)

/-- Whether all of some relations hold. -/
def allHold (o : Operands) : List Relation → Except Fault Bool
  | [] => .ok true
  | r :: rest => do if ← r.holds o then allHold o rest else return false

/-- Whether a condition holds. -/
def Condition.holds (o : Operands) : Condition → Except Fault Bool
  | [] => .ok false
  | conjunction :: rest => do
    if ← allHold o conjunction then return true else Condition.holds o rest

end Phrasebook.Plural
