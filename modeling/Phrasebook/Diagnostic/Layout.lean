/-
  The text of a diagnostic, in three forms.

  The full form has a headline and a line for each further detail.  The simple
  form is one line.  The JSON form is an object for tools.  A layout may cut
  long texts: the hint in every form that shows it, and the message in the
  simple and the JSON form.
-/
import Phrasebook.Diagnostic
import Phrasebook.Source.Position
import Phrasebook.Text.Quoted

set_option autoImplicit false

namespace Phrasebook

open Phrasebook.Source

/-- The forms of a diagnostic. -/
inductive OutputForm where
  | full
  | simple
  | json
  deriving DecidableEq, Repr, Inhabited

/-- A form, and whether and where long texts are cut. -/
structure Layout where
  form : OutputForm := .full
  sanitize : Bool := false
  maxContentLength : Int := 100
  deriving DecidableEq, Repr, Inhabited

namespace Layout

/-- A text, or its beginning and three points if it is longer than allowed.  A negative length
counts from the end of the text. -/
def cut (layout : Layout) (s : String) : String :=
  if layout.sanitize && decide (layout.maxContentLength < s.length) then
    String.ofList (slice s.toList 0 layout.maxContentLength) ++ "..."
  else s

/-- The detail lines of the full form: each that has a text. -/
def detail (label : String) (content : Option String) : List String :=
  match content with
  | some s => if s.isEmpty then [] else ["  = " ++ label ++ s]
  | none => []

/-- The full form. -/
def full (layout : Layout) (d : Diagnostic) : String :=
  "\n".intercalate <|
    [d.severity.name ++ "[" ++ d.code.name ++ "]: " ++ d.message] ++
    (match d.span with
      | some span =>
        ["  --> position " ++ toString span.start ++ " (line " ++ toString span.line ++
          ", column " ++ toString span.column ++ ")"]
      | none => []) ++
    detail "argument: " d.argumentName ++
    detail "expected: " d.expectedType ++
    detail "received: " d.receivedType ++
    (match d.hint with
      | some s => if s.isEmpty then [] else ["  = help: " ++ layout.cut s]
      | none => []) ++
    detail "note: see " d.helpUrl

/-- The simple form. -/
def simple (layout : Layout) (d : Diagnostic) : String :=
  d.code.name ++ ": " ++ layout.cut d.message

/-- A member of the JSON form whose content is a text. -/
def textMember (key content : String) : String :=
  Text.jsonQuoted key ++ ": " ++ Text.jsonQuoted content

/-- A member of the JSON form whose content is a number. -/
def numberMember (key : String) (content : Nat) : String :=
  Text.jsonQuoted key ++ ": " ++ toString content

/-- A member of the JSON form that is left out if it has no text. -/
def optionalMember (key : String) (content : Option String) : List String :=
  match content with
  | some s => if s.isEmpty then [] else [textMember key s]
  | none => []

/-- The JSON form. -/
def json (layout : Layout) (d : Diagnostic) : String :=
  let members :=
    [textMember "code" d.code.name, numberMember "code_value" d.code.number,
      textMember "message" (layout.cut d.message), textMember "severity" d.severity.name] ++
    (match d.span with
      | some span =>
        [numberMember "start" span.start, numberMember "end" span.stop,
          numberMember "line" span.line, numberMember "column" span.column]
      | none => []) ++
    optionalMember "argument_name" d.argumentName ++
    optionalMember "expected_type" d.expectedType ++
    optionalMember "received_type" d.receivedType ++
    (match d.hint with
      | some s => if s.isEmpty then [] else [textMember "hint" (layout.cut s)]
      | none => []) ++
    optionalMember "help_url" d.helpUrl
  "\x7b" ++ ", ".intercalate members ++ "\x7d"

/-- The text of a diagnostic. -/
def format (layout : Layout) (d : Diagnostic) : String :=
  match layout.form with
  | .full => layout.full d
  | .simple => layout.simple d
  | .json => layout.json d

/-- The texts of several diagnostics with a blank line between them. -/
def formatAll (layout : Layout) (ds : List Diagnostic) : String :=
  "\n\n".intercalate (ds.map layout.format)

end Layout

/-- The text of a diagnostic in the default layout. -/
def Diagnostic.toText (d : Diagnostic) : String := Layout.format {} d

end Phrasebook
