/-
  What is known of the locales of the world.

  The library has no data about locales of its own.  It asks a directory which
  codes name a locale, how the numbers of a locale are sorted into categories,
  and how numbers, dates and times are written there.  Nothing is assumed of the
  answers, so what holds of the library holds over every directory.
-/
import Phrasebook.Calendar
import Phrasebook.Plural.Rule
import Phrasebook.Value

set_option autoImplicit false

namespace Phrasebook.Locale

open Phrasebook.Calendar

/-! ## Lengths -/

/-- The lengths in which a date or a time is written. -/
inductive Length where
  | short
  | medium
  | long
  | full
  deriving DecidableEq, Repr, Inhabited

namespace Length

/-- The word for a length. -/
def name : Length → String
  | .short => "short"
  | .medium => "medium"
  | .long => "long"
  | .full => "full"

/-- Every length. -/
def all : List Length := [.short, .medium, .long, .full]

/-- The length that a word stands for. -/
def ofName? (s : String) : Option Length := all.find? (·.name == s)

end Length

/-! ## Directories -/

/-- Why a code names no locale. -/
inductive CodeFault where
  /-- its parts are not those of a code -/
  | malformed
  /-- nothing is known of the locale that it names -/
  | unknown
  deriving DecidableEq, Repr, Inhabited

/-- Why a value is not written as a number. -/
inductive Refusal where
  /-- it is of a kind that no number is made of -/
  | unsuitable
  /-- arithmetic on it fails -/
  | number (fault : Number.Fault)
  deriving DecidableEq, Repr, Inhabited

/-- What is known of a locale. -/
structure Profile where
  /-- its code in the usual spelling -/
  text : String
  /-- how its language sorts numbers into categories -/
  rule : PluralKind → Plural.Rule
  /-- a value as a number, in a pattern or else in the form of the locale -/
  number : (pattern : Option String) → Value → Except Refusal String
  /-- a date, which may come with a time -/
  date : Length → Date → Option Time → Except Number.Fault String
  /-- a time, which may come with a date -/
  time : Length → Option Date → Time → Except Number.Fault String

/-- What is known of each locale, by its normalized code. -/
structure Directory where
  profile : String → Except CodeFault Profile

end Phrasebook.Locale
