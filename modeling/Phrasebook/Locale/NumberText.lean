/-
  Numbers in the languages of the world.

  For each language: how the digits of a whole number are grouped, and the
  symbols between groups, in front of a fraction and for infinity.

  A number is rounded to the digits of decimal arithmetic and then to the places
  of its style, a tie going to the even digit.  Its whole part is grouped,
  zeros at the end of its fraction are left out, and a number with a negative
  sign has a minus in front, also if it rounds to zero.  Other values are
  numbers if their text is one.
-/
import Phrasebook.Number.Decimal.Context
import Phrasebook.Value

set_option autoImplicit false

namespace Phrasebook.Locale

open Phrasebook.Number

/-- How a language writes numbers. -/
structure NumberText where
  grouping : Grouping := .thousands
  point : String
  separator : String
  infinity : String := "\u221e"
  deriving DecidableEq, Repr, Inhabited

namespace NumberText

/-- A point before a fraction and commas between groups. -/
def commas : NumberText := { point := ".", separator := "," }

/-- A comma before a fraction and points between groups. -/
def points : NumberText := { point := ",", separator := "." }

/-- A comma before a fraction and spaces between groups. -/
def spaces : NumberText := { point := ",", separator := "\u00a0" }

/-- A comma before a fraction and narrow spaces between groups. -/
def thinSpaces : NumberText := { point := ",", separator := "\u202f" }

/-- A point before a fraction and raised commas between groups. -/
def apostrophes : NumberText := { point := ".", separator := "\u2019" }

/-- Commas between groups, of two digits each but for the last, which has three. -/
def lakhs : NumberText := { commas with grouping := ⟨3, 2⟩ }

/-- The form of each language, and of territories that have one of their own. -/
def table : List (String × NumberText) :=
  [("ar", commas), ("cy", commas), ("de", points), ("de_CH", apostrophes), ("en", commas),
   ("es", points), ("fr", thinSpaces), ("fr_CA", spaces), ("hi", lakhs), ("ja", commas),
   ("lt", spaces), ("pl", spaces), ("pt", points), ("ru", spaces), ("sv", spaces)]

end NumberText

/-! ## Styles -/

/-- How a number is written: the number of places, and the grouping if it is not that of the
locale. -/
structure NumberStyle where
  places : Nat
  grouping : Option Grouping
  deriving DecidableEq, Repr, Inhabited

/-- The style of a number that names none. -/
def NumberStyle.plain : NumberStyle := ⟨3, none⟩

/-- The style of whole numbers. -/
def NumberStyle.integer : NumberStyle := ⟨0, some .thousands⟩

/-- The style that a pattern stands for; without a pattern it is the plain one. -/
def NumberStyle.ofPattern? : Option String → Option NumberStyle
  | none => some .plain
  | some pattern => if pattern = "#,##0" then some .integer else none

/-! ## Writing -/

/-- The digits of a fraction without the zeros at its end. -/
def dropTrailingZeros (ds : List Char) : List Char := (ds.reverse.dropWhile (· = '0')).reverse

/-- A number of units of the last place, as a whole part and the digits behind the point. -/
def splitPlaces (places units : Nat) : List Char × List Char :=
  (digits (units / 10 ^ places),
    dropTrailingZeros ((padded places (units % 10 ^ places)).toList.take places))

/-- A number that is not negative: its whole part and the digits behind the point. -/
def magnitudeText (text : NumberText) (grouping : Grouping) (whole fraction : List Char) :
    List Char :=
  grouping.separate text.separator.toList whole ++
    (if fraction.isEmpty then [] else text.point.toList ++ fraction)

/-- Writes a decimal.  A NaN is written as its text, which is grouped like digits. -/
def decimalText (text : NumberText) (style : NumberStyle) (d : Decimal) : Except Fault String := do
  let grouping := style.grouping.getD text.grouping
  let d ← d.round
  let magnitude ← match d with
    | .infinite _ => pure text.infinity.toList
    | .nan _ _ _ => pure (magnitudeText text grouping d.text.toList [])
    | .finite _ c e => do
      let units ← Decimal.quantize style.places c e
      let (whole, fraction) := splitPlaces style.places units
      pure (magnitudeText text grouping whole fraction)
  return (if d.isNegative then "-" else "") ++ String.ofList magnitude

/-- The decimal of a value: itself, or the one that its text is.  A value whose text is none
cannot be computed with. -/
def decimalOf (v : Value) : Except Fault Decimal :=
  match v with
  | .number (.decimal d) => .ok d
  | v => do
    match Decimal.read? (← v.toText) with
    | some d => return d
    | none => .error .invalidOperation

end Phrasebook.Locale
