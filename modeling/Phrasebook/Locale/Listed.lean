/-
  A directory of listed locales.

  A locale is known if its code is listed here.  A territory writes as its
  language does unless it has a form of its own.
-/
import Phrasebook.Locale.Code
import Phrasebook.Locale.DateText
import Phrasebook.Locale.NumberText
import Phrasebook.Locale.Tag
import Phrasebook.Plural.Language

set_option autoImplicit false

namespace Phrasebook.Locale

open Phrasebook.Calendar

/-- The codes of the listed locales. -/
def listedCodes : List String :=
  ["ar", "cy", "de", "de_CH", "de_DE", "en", "en_GB", "en_US", "es", "fr", "fr_CA", "fr_FR",
   "hi", "ja", "lt", "pl", "pt_BR", "ru", "sv"]

namespace Tag

variable {α : Type}

/-- What a table holds for a locale, or else for its language. -/
def inherited? (tag : Tag) (table : List (String × α)) : Option α :=
  match table.lookup tag.text with
  | some x => some x
  | none => table.lookup tag.language

/-- How a locale writes numbers. -/
def numberText (tag : Tag) : NumberText := (tag.inherited? NumberText.table).getD .commas

/-- How a locale writes dates and times. -/
def dateText (tag : Tag) : DateText := (tag.inherited? DateText.table).getD .neutral

/-- Writes a value as a number.  No patterns are known but those that styles stand for. -/
def writeNumber (tag : Tag) (pattern : Option String) (v : Value) : Except Refusal String :=
  match NumberStyle.ofPattern? pattern with
  | none => .error .unsuitable
  | some style => (decimalOf v >>= decimalText tag.numberText style).mapError .number

/-- What the tables say of a locale. -/
def profile (tag : Tag) : Profile where
  text := tag.text
  rule kind := .ofLanguage kind tag.language
  number := tag.writeNumber
  date length d _ := .ok (write (dateField tag.dateText.names d) (tag.dateText.date.get length))
  time length _ t := .ok (write (timeField tag.dateText.names t) (tag.dateText.time.get length))

end Tag

/-- The directory of the listed locales. -/
def Directory.listed : Directory where
  profile code :=
    match Tag.read? code with
    | none => .error .malformed
    | some tag => if tag.text ∈ listedCodes then .ok tag.profile else .error .unknown

/-- What a directory knows of the locale that a code names, in whichever spelling. -/
def find (code : String) (directory : Directory := .listed) : Except CodeFault Profile :=
  directory.profile (normalize code)

/-- Hyphens and underscores make no difference to what is found. -/
theorem find_congr {code other : String} (h : normalize other = normalize code)
    (directory : Directory) : find other directory = find code directory := by
  rw [find, find, h]

end Phrasebook.Locale
