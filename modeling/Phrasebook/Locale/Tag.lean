/-
  The parts of a locale code.
-/
import Phrasebook.Text.Split

set_option autoImplicit false

namespace Phrasebook.Locale

/-- The parts of a code. -/
structure Tag where
  language : String
  script : Option String
  territory : Option String
  variant : Option String
  deriving DecidableEq, Repr, Inhabited

/-- Whether a part consists of letters, and has at least one. -/
def isWord (part : List Char) : Bool := !part.isEmpty && part.all Char.isAlpha

/-- A word with a capital letter at its front and small letters behind it. -/
def capitalized : List Char → List Char
  | [] => []
  | c :: rest => c.toUpper :: rest.map Char.toLower

/-- Splits a script from the front of some parts: four letters. -/
def splitScript : List (List Char) → Option String × List (List Char)
  | [] => (none, [])
  | part :: rest =>
    if part.length = 4 ∧ isWord part then (some (String.ofList (capitalized part)), rest)
    else (none, part :: rest)

/-- Splits a territory from the front of some parts: two letters or three digits. -/
def splitTerritory : List (List Char) → Option String × List (List Char)
  | [] => (none, [])
  | part :: rest =>
    if part.length = 2 ∧ isWord part then (some (String.ofList (part.map Char.toUpper)), rest)
    else if part.length = 3 ∧ part.all Char.isDigit then (some (String.ofList part), rest)
    else (none, part :: rest)

/-- Whether a part is a variant: at least five characters of which the first is a letter, or four
of which the first is a digit. -/
def isVariant (part : List Char) : Bool :=
  match part.head? with
  | some c => (5 ≤ part.length && c.isAlpha) || (part.length = 4 && c.isDigit)
  | none => false

/-- Splits a variant from the front of some parts. -/
def splitVariant : List (List Char) → Option String × List (List Char)
  | [] => (none, [])
  | part :: rest =>
    if isVariant part then (some (String.ofList (part.map Char.toUpper)), rest)
    else (none, part :: rest)

/-- Reads a normalized code: a language of letters, and after it at most a script, a territory and a
variant in this order. -/
def Tag.read? (code : String) : Option Tag :=
  match Text.splitOn '_' code.toList with
  | [] => none
  | first :: parts =>
    if isWord first then
      let (script, parts) := splitScript parts
      let (territory, parts) := splitTerritory parts
      let (variant, parts) := splitVariant parts
      if parts.isEmpty then
        some ⟨String.ofList (first.map Char.toLower), script, territory, variant⟩
      else none
    else none

/-- A code in its usual spelling. -/
def Tag.text (tag : Tag) : String :=
  "_".intercalate
    (tag.language :: (tag.script.toList ++ tag.territory.toList ++ tag.variant.toList))

end Phrasebook.Locale
