/-
  Why a text cannot be read as a document.
-/
import Phrasebook.Number.Fault

set_option autoImplicit false

namespace Phrasebook

/-- The formats that documents are written in. -/
inductive DocumentFormat where
  | json
  | yaml
  deriving DecidableEq, Repr, Inhabited

/-- The causes for which reading a document fails. -/
inductive DocumentFault where
  /-- the text has not the form of its format -/
  | malformed (format : DocumentFormat)
  /-- a number of the text is one that is never read -/
  | number (fault : Number.Fault)
  /-- a digit string, date or time of the text names no value -/
  | noSuchValue
  deriving DecidableEq, Repr, Inhabited

end Phrasebook
