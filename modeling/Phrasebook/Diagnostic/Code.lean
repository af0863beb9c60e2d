/-
  Diagnostic codes: one for each kind of defect that the library reports.

  A code has a name and a number.  The thousands of the number give the group:
  1 for arguments, 2 for the choice of a branch, 3 for the syntax of a pattern
  and 4 for missing locale data.
-/
set_option autoImplicit false

namespace Phrasebook

/-- The kinds of defect. -/
inductive Code where
  | missingArgument
  | branchNotFound
  | argumentTypeMismatch
  | unknownNode
  | unknownArgumentType
  | expectedIdentifier
  | expectedInteger
  | unterminatedArgument
  | unexpectedCloseBrace
  | expectedCharacter
  | emptyBranchList
  | nestingDepthExceeded
  | localizationDataMissing
  deriving DecidableEq, Repr, Inhabited

namespace Code

/-- Every code. -/
def all : List Code :=
  [.missingArgument, .branchNotFound, .argumentTypeMismatch, .unknownNode, .unknownArgumentType,
   .expectedIdentifier, .expectedInteger, .unterminatedArgument, .unexpectedCloseBrace,
   .expectedCharacter, .emptyBranchList, .nestingDepthExceeded, .localizationDataMissing]

/-- The name of a code. -/
def name : Code → String
  | .missingArgument => "MISSING_ARGUMENT"
  | .branchNotFound => "BRANCH_NOT_FOUND"
  | .argumentTypeMismatch => "ARGUMENT_TYPE_MISMATCH"
  | .unknownNode => "UNKNOWN_NODE"
  | .unknownArgumentType => "UNKNOWN_ARGUMENT_TYPE"
  | .expectedIdentifier => "EXPECTED_IDENTIFIER"
  | .expectedInteger => "EXPECTED_INTEGER"
  | .unterminatedArgument => "UNTERMINATED_ARGUMENT"
  | .unexpectedCloseBrace => "UNEXPECTED_CLOSE_BRACE"
  | .expectedCharacter => "EXPECTED_CHARACTER"
  | .emptyBranchList => "EMPTY_BRANCH_LIST"
  | .nestingDepthExceeded => "NESTING_DEPTH_EXCEEDED"
  | .localizationDataMissing => "LOCALIZATION_DATA_MISSING"

/-- The number of a code. -/
def number : Code → Nat
  | .missingArgument => 1001
  | .branchNotFound => 2001
  | .argumentTypeMismatch => 2002
  | .unknownNode => 2003
  | .unknownArgumentType => 3001
  | .expectedIdentifier => 3002
  | .expectedInteger => 3003
  | .unterminatedArgument => 3004
  | .unexpectedCloseBrace => 3005
  | .expectedCharacter => 3006
  | .emptyBranchList => 3007
  | .nestingDepthExceeded => 3008
  | .localizationDataMissing => 4001

/-- The code with a name. -/
def ofName? (s : String) : Option Code := all.find? (·.name == s)

theorem mem_all (c : Code) : c ∈ all := by cases c <;> decide

end Code

end Phrasebook
