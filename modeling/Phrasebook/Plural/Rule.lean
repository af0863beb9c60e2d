/-
  Rules that sort numbers into categories.

  A rule gives the name of a category, which need not be one of the usual ones.
-/
import Phrasebook.Message
import Phrasebook.Number.Numeric
import Phrasebook.Plural.Category

set_option autoImplicit false

namespace Phrasebook.Plural

open Phrasebook.Number

/-- A rule, and the name by which it is known. -/
structure Rule where
  name : String
  category : Numeric → Except Fault String

namespace Rule

instance : Inhabited Rule := ⟨⟨"", fun _ => .ok Category.other.name⟩⟩

/-- One is a category of its own, whatever digits it is written with. -/
def defaultCardinal : Rule where
  name := "default_cardinal"
  category n := do
    return (if ← n.equalsInt 1 then Category.one else Category.other).name

/-- All numbers are in one category. -/
def defaultOrdinal : Rule where
  name := "default_ordinal"
  category _ := .ok Category.other.name

/-- The English endings: `st`, `nd` and `rd` go by the last digit, except in the teens. -/
def englishOrdinal : Rule where
  name := "english_ordinal"
  category n := do
    let last ← n.remainder 10
    let lastTwo ← n.remainder 100
    let ends (digit teen : Int) : Except Fault Bool := do
      if ← last.equalsInt digit then return !(← lastTwo.equalsInt teen) else return false
    if ← ends 1 11 then return Category.one.name
    if ← ends 2 12 then return Category.two.name
    if ← ends 3 13 then return Category.few.name
    return Category.other.name

/-- The rule where none is registered. -/
def default : PluralKind → Rule
  | .cardinal => defaultCardinal
  | .ordinal => defaultOrdinal

end Rule

end Phrasebook.Plural
