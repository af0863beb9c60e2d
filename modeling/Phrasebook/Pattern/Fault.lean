/-
  Why a pattern cannot be read, and where.

  The place of a fault is given by the text that is left: what follows from the
  offending character on.  Its position is the length of that text taken from
  the length of the whole pattern, so nothing has to be counted while reading.
-/
set_option autoImplicit false

namespace Phrasebook.Pattern

/-- The ways in which a pattern can be malformed. -/
inductive Cause where
  /-- a closing brace outside of every argument -/
  | unexpectedCloseBrace
  /-- no identifier where one is needed -/
  | expectedIdentifier
  /-- no whole number where one is needed -/
  | expectedInteger
  /-- another character than the one needed -/
  | expectedCharacter (expected : String)
  /-- an opening brace that is never closed -/
  | unterminatedArgument
  /-- a selector without branches -/
  | emptyBranchList (typeName : String)
  /-- more arguments open at once than the limit allows -/
  | nestingDepthExceeded (limit : Int)
  /-- a keyword that is no argument type -/
  | unknownArgumentType (keyword : String)
  deriving DecidableEq, Repr, Inhabited

/-- Why reading stopped. -/
inductive Fault where
  /-- a malformed pattern, and the text from the offending character on -/
  | malformed (cause : Cause) (rest : List Char)
  /-- a whole number with more digits than are read -/
  | integerTooLong
  deriving DecidableEq, Repr, Inhabited

/-- A rule of the grammar: reads the front of a text and returns what is left of it. -/
abbrev Step (α : Type) : Type := List Char → Except Fault (α × List Char)

/-- The number of characters that a fault's span covers: the keyword for an unknown type, else
one. -/
def Cause.width : Cause → Nat
  | .unknownArgumentType keyword => keyword.length
  | _ => 1

end Phrasebook.Pattern
