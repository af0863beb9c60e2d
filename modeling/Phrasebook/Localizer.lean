/-
  Localizers: how values are written for a locale.

  A localizer writes a number, a date or a time in a style.  It fails if it has
  no data for the request; for numbers a message then shows the plain text of
  the value instead.  Other failures lie in the value itself and are not
  recovered from.
-/
import Phrasebook.Message
import Phrasebook.Report
import Phrasebook.Value

set_option autoImplicit false

namespace Phrasebook

/-- Why a value cannot be written. -/
inductive LocalizeFailure where
  /-- there is no data for the kind, locale and style -/
  | noData (kind : FormatKind) (locale : String) (style : Option String) (reason : String)
  /-- a text that should be a date and a time is none -/
  | malformedDate
  /-- a value that has no date, or no time, where one is needed -/
  | wrongKind (received : String) (kind : FormatKind)
  /-- arithmetic on the value fails -/
  | number (fault : Number.Fault)
  deriving DecidableEq, Repr, Inhabited

/-- The report that data is missing. -/
def noDataReport (kind : FormatKind) (locale : String) (style : Option String)
    (reason : String) : Report :=
  ⟨.diagnostic (.localizationDataMissing kind.name locale style reason),
    .localizationData kind.name locale style⟩

/-- What is said of a value that is no date or time. -/
def wrongKindMessage (received : String) (kind : FormatKind) : String :=
  "Cannot render " ++ received ++ " as " ++ kind.name ++ " (expected " ++ kind.name ++
    " or ISO 8601 string)"

/-- Writes values for locales in styles. -/
structure Localizer where
  localize : FormatKind → Value → (locale : String) → (style : Option String) →
    Except LocalizeFailure String

instance : Inhabited Localizer := ⟨⟨fun _ _ _ _ => .ok ""⟩⟩

end Phrasebook
