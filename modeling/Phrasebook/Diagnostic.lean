/-
  Diagnostics: what is wrong, where, and what to do about it.

  A diagnostic has a code and a message, and where they are known a place in the
  pattern, a hint, a page that explains more, and the argument concerned with
  the types that were expected and received.  This file holds the type and the
  wording of every diagnostic of the library; how one is laid out as text is in
  `Phrasebook.Diagnostic.Layout`.
-/
import Phrasebook.Diagnostic.Code
import Phrasebook.Source.Span

set_option autoImplicit false

namespace Phrasebook

open Phrasebook.Source

/-- How grave a diagnostic is. -/
inductive Severity where
  | error
  | warning
  deriving DecidableEq, Repr, Inhabited

/-- The word for a severity. -/
def Severity.name : Severity → String
  | .error => "error"
  | .warning => "warning"

/-- A structured report of one defect. -/
structure Diagnostic where
  code : Code
  message : String
  span : Option Span := none
  hint : Option String := none
  helpUrl : Option String := none
  argumentName : Option String := none
  expectedType : Option String := none
  receivedType : Option String := none
  severity : Severity := .error
  deriving DecidableEq, Repr, Inhabited

namespace Diagnostic

/-- The page that explains patterns. -/
def patternHelp : String := "https://unicode-org.github.io/icu/userguide/format_parse/messages/"

/-- The end of a message that names a position. -/
def atPosition (span : Span) : String := " at position " ++ toString span.start

/-! ## Syntax of patterns -/

/-- A keyword that is no argument type. -/
def unknownArgumentType (typeName : String) (span : Span) : Diagnostic where
  code := .unknownArgumentType
  message := "Unknown argument type '" ++ typeName ++ "'" ++ atPosition span
  span := span
  hint := "Use one of: number, date, time, plural, select, selectordinal"
  helpUrl := patternHelp

/-- A character that begins no identifier, where one is needed. -/
def expectedIdentifier (span : Span) : Diagnostic where
  code := .expectedIdentifier
  message := "Expected identifier" ++ atPosition span
  span := span
  hint := "Identifiers consist of letters, digits and underscores"

/-- A character that begins no whole number, where one is needed. -/
def expectedInteger (span : Span) : Diagnostic where
  code := .expectedInteger
  message := "Expected number" ++ atPosition span
  span := span
  hint := "Offsets and exact-match keys take an integer such as 1 or =0"

/-- An opening brace that is never closed. -/
def unterminatedArgument (span : Span) : Diagnostic where
  code := .unterminatedArgument
  message := "Unclosed argument starting" ++ atPosition span
  span := span
  hint := "Add the missing '\x7d' or escape the brace as '\x7b'"

/-- A closing brace that closes nothing. -/
def unexpectedCloseBrace (span : Span) : Diagnostic where
  code := .unexpectedCloseBrace
  message := "Unexpected \x7d" ++ atPosition span
  span := span
  hint := "Escape a literal brace as '\x7d'"

/-- A character other than the one that is needed. -/
def expectedCharacter (expected : String) (span : Span) : Diagnostic where
  code := .expectedCharacter
  message := "Expected '" ++ expected ++ "'" ++ atPosition span
  span := span

/-- An argument with branches that has none. -/
def emptyBranchList (typeName : String) (span : Span) : Diagnostic where
  code := .emptyBranchList
  message := "Argument of type '" ++ typeName ++ "' has no branches" ++ atPosition span
  span := span
  hint := "Add at least an 'other \x7b...\x7d' branch"

/-- An argument inside too many others. -/
def nestingDepthExceeded (maxDepth : Int) (span : Span) : Diagnostic where
  code := .nestingDepthExceeded
  message := "Maximum nesting depth (" ++ toString maxDepth ++ ") exceeded" ++ atPosition span
  span := span
  hint := "Flatten nested plural/select constructs"

/-! ## Rendering -/

/-- A placeholder without an argument. -/
def missingArgument (argumentName : String) : Diagnostic where
  code := .missingArgument
  message := "Missing argument: " ++ argumentName
  hint := "Pass '" ++ argumentName ++ "' in the arguments mapping"
  argumentName := argumentName

/-- A selector with neither the branch that was looked up nor the one for everything else. -/
def branchNotFound (typeName argumentName key : String) : Diagnostic where
  code := .branchNotFound
  message := "No matching " ++ typeName ++ " branch for '" ++ key ++ "'"
  hint := "Every plural, select and selectordinal should define 'other'"
  helpUrl := patternHelp
  argumentName := argumentName

/-- An argument of another kind where a number is needed. -/
def argumentTypeMismatch (typeName argumentName received : String) : Diagnostic where
  code := .argumentTypeMismatch
  message := "Argument '" ++ argumentName ++ "' of " ++ typeName ++
    " must be a number, got " ++ received
  hint := "Pass an int, float or Decimal"
  argumentName := argumentName
  expectedType := "Number"
  receivedType := received

/-- Something in a message that is no node. -/
def unknownNode (nodeType : String) : Diagnostic where
  code := .unknownNode
  message := "Unknown node type: " ++ nodeType

/-! ## Locale data -/

/-- A value that cannot be written for a locale. -/
def localizationDataMissing (kind locale : String) (style : Option String) (reason : String) :
    Diagnostic where
  code := .localizationDataMissing
  message := "No " ++ kind ++ " formatting data for locale '" ++ locale ++ "'" ++
    (match style with
      | some s => if s.isEmpty then "" else " style '" ++ s ++ "'"
      | none => "") ++ ": " ++ reason
  hint := "Check the locale code and that the style is supported"

end Diagnostic

end Phrasebook
