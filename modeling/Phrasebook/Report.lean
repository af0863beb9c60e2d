/-
  Error reports: what a caller of the library is given when something fails.

  A report has a headline, which is a plain text or a diagnostic, and details
  that depend on its class.  The classes form a tree: every class is a kind of
  general error, and a missing argument, a missing branch and an argument of the
  wrong type are kinds of resolution error.

  The report of a defect in a pattern knows the pattern and a position in it,
  and shows the line concerned with a caret under the character.
-/
import Phrasebook.Diagnostic.Layout
import Phrasebook.Source.Position

set_option autoImplicit false

namespace Phrasebook

open Phrasebook.Source

/-! ## Classes -/

/-- The classes of error. -/
inductive ErrorClass where
  | general
  | parse
  | resolution
  | missingArgument
  | branch
  | argumentType
  | localizationData
  deriving DecidableEq, Repr, Inhabited

/-- A class and those it is a kind of, the nearest first. -/
def ErrorClass.ancestry : ErrorClass → List ErrorClass
  | .general => [.general]
  | .parse => [.parse, .general]
  | .resolution => [.resolution, .general]
  | .missingArgument => [.missingArgument, .resolution, .general]
  | .branch => [.branch, .resolution, .general]
  | .argumentType => [.argumentType, .resolution, .general]
  | .localizationData => [.localizationData, .general]

/-! ## Reports -/

/-- The headline of a report. -/
inductive Headline where
  | text (s : String)
  | diagnostic (d : Diagnostic)
  deriving DecidableEq, Repr, Inhabited

/-- What a report of each class knows besides its headline. -/
inductive Detail where
  | general
  | parse (position : Int) (pattern : String)
  | resolution (argumentName : String)
  | missingArgument (argumentName : String)
  | branch (argumentName key : String)
  | argumentType (argumentName : String)
  | localizationData (kind locale : String) (style : Option String)
  deriving DecidableEq, Repr, Inhabited

/-- The class of a report with these details. -/
def Detail.errorClass : Detail → ErrorClass
  | .general => .general
  | .parse _ _ => .parse
  | .resolution _ => .resolution
  | .missingArgument _ => .missingArgument
  | .branch _ _ => .branch
  | .argumentType _ => .argumentType
  | .localizationData _ _ _ => .localizationData

/-- The argument concerned, for resolution errors. -/
def Detail.argumentName? : Detail → Option String
  | .resolution name | .missingArgument name | .branch name _ | .argumentType name => some name
  | _ => none

/-- An error report. -/
structure Report where
  headline : Headline
  detail : Detail
  deriving DecidableEq, Repr, Inhabited

namespace Report

/-- The text of a report: its headline, a diagnostic being laid out in full. -/
def message (r : Report) : String :=
  match r.headline with
  | .text s => s
  | .diagnostic d => d.toText

/-- The diagnostic of a report, if it has one. -/
def diagnostic? (r : Report) : Option Diagnostic :=
  match r.headline with
  | .text _ => none
  | .diagnostic d => some d

/-- The headline in one line: a plain text, or the message of a diagnostic. -/
def summary (r : Report) : String :=
  match r.headline with
  | .text s => s
  | .diagnostic d => d.message

end Report

/-! ## Lines of a pattern -/

/-- The line of a position, counted from 1. -/
def lineNumber (pattern : List Char) (position : Int) : Nat := newlinesBefore pattern position + 1

/-- The column of a position, counted from 1. -/
def columnNumber (pattern : List Char) (position : Int) : Int :=
  position - lastNewline pattern position

/-- A text set to the right end of a field. -/
def alignRight (width : Nat) (s : String) : String :=
  String.ofList (List.replicate (width - s.length) ' ') ++ s

/-- A summary, the line of the pattern that holds a position, and a caret under it. -/
def contextText (summary : String) (pattern : List Char) (position : Int) : String :=
  let line := lineNumber pattern position
  let column := columnNumber pattern position
  let margin := alignRight 4 (toString line) ++ " | "
  let blanks (n : Nat) := String.ofList (List.replicate n ' ')
  "\n".intercalate
    [toString line ++ ":" ++ toString column ++ ": " ++ summary,
     "",
     margin ++ String.ofList (lineText pattern (line - 1)),
     blanks (margin.length - 2) ++ "| " ++ blanks (column - 1).toNat ++ "^"]

end Phrasebook
