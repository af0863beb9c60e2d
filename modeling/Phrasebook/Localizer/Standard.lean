/-
  The localizer of the library.

  It writes what a directory knows how to write.  Numbers have a plain style and
  one for whole numbers; dates and times have four lengths, of which the medium
  one is the default.  A date or a time may also be given as a text in ISO 8601
  form.
-/
import Phrasebook.Calendar.Iso
import Phrasebook.Locale.Listed
import Phrasebook.Localizer

set_option autoImplicit false

namespace Phrasebook.Localizer

open Phrasebook.Calendar Phrasebook.Locale

section

variable (directory : Directory)

/-- What is known of the locale of a request. -/
def profileOf (kind : FormatKind) (locale : String) (style : Option String) :
    Except LocalizeFailure Profile :=
  match find locale directory with
  | .ok profile => .ok profile
  | .error _ => .error (.noData kind locale style "unknown locale")

/-! ## Numbers -/

/-- The pattern of a style.  Without a style numbers have the form of the locale. -/
def patternOf? : Option String → Option (Option String)
  | none => some none
  | some name => if name = "integer" then some (some "#,##0") else none

/-- What is made of a refusal: an overflow is passed on, and after any other the value counts as one
that cannot be written.  Showing that value may fail in turn. -/
def cannotFormat (v : Value) (locale : String) (style : Option String) : Refusal → LocalizeFailure
  | .number .decimalOverflow => .number .decimalOverflow
  | .number .outOfRange => .number .outOfRange
  | .unsuitable | .number .invalidOperation | .number .notANumber | .number .tooManyDigits =>
    match v.shown with
    | .ok shown => .noData .number locale style ("cannot format " ++ shown)
    | .error fault => .number fault

/-- Writes a number. -/
def number (v : Value) (locale : String) (style : Option String) :
    Except LocalizeFailure String := do
  match patternOf? style with
  | none => .error (.noData .number locale style "unsupported style")
  | some pattern =>
    let profile ← profileOf directory .number locale style
    (profile.number pattern v).mapError (cannotFormat v locale style)

/-! ## Dates and times -/

/-- The length that a style names; the medium one if it names none. -/
def lengthOf (kind : FormatKind) (locale : String) (style : Option String) :
    Except LocalizeFailure Length :=
  match style with
  | none => .ok .medium
  | some name =>
    match Length.ofName? name with
    | some length => .ok length
    | none => .error (.noData kind locale style "unsupported style")

/-- A value with a text read as a date and a time. -/
def readText (v : Value) : Except LocalizeFailure Value :=
  match v with
  | .text s =>
    match readDateTime? s with
    | some (d, t) => .ok (.dateTime d t)
    | none => .error .malformedDate
  | v => .ok v

/-- Writes a date. -/
def date (v : Value) (locale : String) (style : Option String) :
    Except LocalizeFailure String := do
  let length ← lengthOf .date locale style
  let profile ← profileOf directory .date locale style
  match ← readText v with
  | .date d => (profile.date length d none).mapError .number
  | .dateTime d t => (profile.date length d (some t)).mapError .number
  | _ => .error (.wrongKind v.kindName .date)

/-- Writes a time. -/
def time (v : Value) (locale : String) (style : Option String) :
    Except LocalizeFailure String := do
  let length ← lengthOf .time locale style
  let profile ← profileOf directory .time locale style
  match ← readText v with
  | .time t => (profile.time length none t).mapError .number
  | .dateTime d t => (profile.time length (some d) t).mapError .number
  | _ => .error (.wrongKind v.kindName .time)

end

/-- The localizer that writes by a directory. -/
def standard (directory : Directory := .listed) : Localizer where
  localize
    | .number => number directory
    | .date => date directory
    | .time => time directory

end Phrasebook.Localizer
