/-
  The plural rules of languages.

  A language has a condition for each category that it uses, for cardinal and
  for ordinal numbers.  The conditions are tested in the alphabetical order of
  the categories; a number that meets none of them is in the category `other`.
-/
import Phrasebook.Plural.Condition
import Phrasebook.Plural.Rule

set_option autoImplicit false

namespace Phrasebook.Plural

open Phrasebook.Number

/-- The conditions of a language in the order in which they are tested. -/
abbrev Conditions : Type := List (Category × Condition)

/-- The category of the first condition that holds. -/
def categoryIn (o : Operands) : Conditions → Except Fault Category
  | [] => .ok .other
  | (category, condition) :: rest => do
    if ← condition.holds o then return category else categoryIn o rest

/-- The category of a number. -/
def Conditions.category (conditions : Conditions) (n : Numeric) : Except Fault Category := do
  categoryIn (← Operands.of n) conditions

/-! ## Writing conditions -/

/-- The operand is one of the given numbers. -/
def isIn (operand : Operand) (ranges : List (Nat × Nat)) : Relation :=
  { operand, ranges }

/-- The operand is none of the given numbers. -/
def notIn (operand : Operand) (ranges : List (Nat × Nat)) : Relation :=
  { operand, ranges, inside := false }

/-- The remainder of the operand is one of the given numbers. -/
def modIn (operand : Operand) (modulus : Nat) (ranges : List (Nat × Nat)) : Relation :=
  { operand, modulus, ranges }

/-- The remainder of the operand is none of the given numbers. -/
def modNotIn (operand : Operand) (modulus : Nat) (ranges : List (Nat × Nat)) : Relation :=
  { operand, modulus, ranges, inside := false }

/-- The operand is one given number. -/
def isOne (operand : Operand) (k : Nat) : Relation := isIn operand [(k, k)]

/-- No digits of a fraction are visible. -/
def noFraction : Relation := isOne .v 0

/-! ## Conditions that several languages share -/

/-- A single thing, written as a whole number. -/
def wholeOne : Condition := [[isOne .i 1, noFraction]]

/-- A whole million, or a number in compact notation with a large exponent. -/
def million : Condition :=
  [[isOne .e 0, notIn .i [(0, 0)], modIn .i 1000000 [(0, 0)], noFraction], [notIn .e [(0, 5)]]]

/-- The condition on the last digits that Slavic languages have for a few things. -/
def slavicFew : Condition :=
  [[noFraction, modIn .i 10 [(2, 4)], modNotIn .i 100 [(12, 14)]]]

/-- One thing alone has a category, if written as a whole number. -/
def oneAlone : Conditions := [(.one, wholeOne)]

/-! ## Languages -/

/-- Cardinal numbers by language. -/
def cardinals : List (String × Conditions) :=
  [("ar",
    [(.few, [[modIn .n 100 [(3, 10)]]]), (.many, [[modIn .n 100 [(11, 99)]]]),
     (.one, [[isOne .n 1]]), (.two, [[isOne .n 2]]), (.zero, [[isOne .n 0]])]),
   ("cy",
    [(.few, [[isOne .n 3]]), (.many, [[isOne .n 6]]), (.one, [[isOne .n 1]]),
     (.two, [[isOne .n 2]]), (.zero, [[isOne .n 0]])]),
   ("de", oneAlone),
   ("en", oneAlone),
   ("es", [(.many, million), (.one, [[isOne .n 1]])]),
   ("fr", [(.many, million), (.one, [[isIn .i [(0, 1)]]])]),
   ("hi", [(.one, [[isOne .i 0], [isOne .n 1]])]),
   ("ja", []),
   ("lt",
    [(.few, [[modIn .n 10 [(2, 9)], modNotIn .n 100 [(11, 19)]]]),
     (.many, [[notIn .f [(0, 0)]]]),
     (.one, [[modIn .n 10 [(1, 1)], modNotIn .n 100 [(11, 19)]]])]),
   ("pl",
    [(.few, slavicFew),
     (.many, [[noFraction, notIn .i [(1, 1)], modIn .i 10 [(0, 1)]],
       [noFraction, modIn .i 10 [(5, 9)]], [noFraction, modIn .i 100 [(12, 14)]]]),
     (.one, wholeOne)]),
   ("pt", [(.many, million), (.one, [[isIn .i [(0, 1)]]])]),
   ("ru",
    [(.few, slavicFew),
     (.many, [[noFraction, modIn .i 10 [(0, 0)]], [noFraction, modIn .i 10 [(5, 9)]],
       [noFraction, modIn .i 100 [(11, 14)]]]),
     (.one, [[noFraction, modIn .i 10 [(1, 1)], modNotIn .i 100 [(11, 11)]]])]),
   ("sv", oneAlone)]

/-- Ordinal numbers by language; those that are not listed have no conditions. -/
def ordinals : List (String × Conditions) :=
  [("cy",
    [(.few, [[isIn .n [(3, 3), (4, 4)]]]), (.many, [[isIn .n [(5, 5), (6, 6)]]]),
     (.one, [[isOne .n 1]]), (.two, [[isOne .n 2]]),
     (.zero, [[isIn .n [(0, 0), (7, 7), (8, 8), (9, 9)]]])]),
   ("en",
    [(.few, [[modIn .n 10 [(3, 3)], modNotIn .n 100 [(13, 13)]]]),
     (.one, [[modIn .n 10 [(1, 1)], modNotIn .n 100 [(11, 11)]]]),
     (.two, [[modIn .n 10 [(2, 2)], modNotIn .n 100 [(12, 12)]]])]),
   ("fr", [(.one, [[isOne .n 1]])]),
   ("hi",
    [(.few, [[isOne .n 4]]), (.many, [[isOne .n 6]]), (.one, [[isOne .n 1]]),
     (.two, [[isIn .n [(2, 2), (3, 3)]]])]),
   ("sv", [(.one, [[modIn .n 10 [(1, 1), (2, 2)], modNotIn .n 100 [(11, 11), (12, 12)]]])])]

/-- The conditions of a language. -/
def conditionsOf (kind : PluralKind) (language : String) : Conditions :=
  let table := match kind with
    | .cardinal => cardinals
    | .ordinal => ordinals
  (table.lookup language).getD []

/-- The rule of a language by its conditions. -/
def Rule.ofLanguage (kind : PluralKind) (language : String) : Rule where
  name := "cldr"
  category n := do return (← (conditionsOf kind language).category n).name

end Phrasebook.Plural
