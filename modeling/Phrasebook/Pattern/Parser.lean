/-
  Reading patterns.

  A parser has two limits: on the length of a pattern, which can be switched
  off, and on the number of arguments open at once, which cannot.  It gives the
  message of a pattern, or says where the first fault is.

  The rules of the grammar can also be run on their own, from any position of a
  text; `readAt` does that and reports positions in the whole text.
-/
import Phrasebook.Number.Rounding
import Phrasebook.Pattern.Rules
import Phrasebook.Report
import Phrasebook.Source.Cursor

set_option autoImplicit false

namespace Phrasebook.Pattern

open Phrasebook.Source

/-! ## Errors -/

/-- A fault at a position of a pattern. -/
structure ParseError where
  pattern : String
  position : Nat
  cause : Cause
  deriving DecidableEq, Repr, Inhabited

/-- The diagnostic of a cause. -/
def Cause.diagnostic (cause : Cause) (span : Span) : Diagnostic :=
  match cause with
  | .unexpectedCloseBrace => .unexpectedCloseBrace span
  | .expectedIdentifier => .expectedIdentifier span
  | .expectedInteger => .expectedInteger span
  | .expectedCharacter expected => .expectedCharacter expected span
  | .unterminatedArgument => .unterminatedArgument span
  | .emptyBranchList typeName => .emptyBranchList typeName span
  | .nestingDepthExceeded limit => .nestingDepthExceeded limit span
  | .unknownArgumentType keyword => .unknownArgumentType keyword span

namespace ParseError

/-- The span of a fault. -/
def span (e : ParseError) : Span := spanFrom e.pattern.toList e.position e.cause.width

/-- The diagnostic of a fault. -/
def diagnostic (e : ParseError) : Diagnostic := e.cause.diagnostic e.span

/-- The report of a fault. -/
def report (e : ParseError) : Report := ⟨.diagnostic e.diagnostic, .parse e.position e.pattern⟩

end ParseError

/-- Why a pattern has no message. -/
inductive ParseFailure where
  /-- the pattern is longer than the limit -/
  | tooLong (size : Nat) (limit : Int)
  /-- the pattern is malformed -/
  | malformed (e : ParseError)
  /-- a whole number in the pattern has too many digits -/
  | integerTooLong
  deriving DecidableEq, Repr, Inhabited

/-- What is said of a pattern that is longer than the limit. -/
def tooLongMessage (size : Nat) (limit : Int) : String :=
  "Pattern size (" ++ Number.withThousands size ++ " characters) exceeds maximum (" ++
    Number.withThousands limit.toNat ++ " characters). " ++
    "Configure max_source_size in MessageFormatParser constructor to increase limit."

/-! ## Rules at a position -/

/-- The position of a fault that a rule met in a text, started at one position inside an argument
opened at another.  A fault of that argument itself lies where it was opened. -/
def faultPosition (source : List Char) (pos openPos : Nat) (cause : Cause) (rest : List Char) :
    Nat :=
  let given := source.drop pos
  if cause = .unterminatedArgument ∧ rest = [] then openPos
  else if rest.length ≤ given.length then pos + (given.length - rest.length)
  else source.length - rest.length

/-- Runs a rule from a position, inside an argument opened at another; the result has the position
behind what was read. -/
def readAt {α : Type} (rule : Step α) (source : List Char) (pos openPos : Nat) :
    Except ParseFailure (α × Nat) :=
  let given := source.drop pos
  match rule given with
  | .ok (x, rest) => .ok (x, pos + (given.length - rest.length))
  | .error (.malformed cause rest) =>
    let position := faultPosition source pos openPos cause rest
    .error (.malformed ⟨String.ofList source, position, cause⟩)
  | .error .integerTooLong => .error .integerTooLong

/-- A step that reads nothing of interest. -/
def silently (rule : List Char → Except Fault (List Char)) : Step Unit :=
  fun s => (rule s).map fun rest => ((), rest)

/-- The room that is left when some arguments are open already. -/
def roomLeft (limit opened : Int) : Nat := (limit - opened).toNat

/-! ## Parsers -/

/-- The limits of a parser. -/
structure Parser where
  maxSourceSize : Int
  maxNestingDepth : Int
  depth_pos : 0 < maxNestingDepth
  deriving DecidableEq, Repr

/-- The longest pattern that is read by default. -/
def defaultSourceSize : Int := 1048576

/-- The most arguments that may be open at once by default. -/
def defaultNestingDepth : Int := 100

instance : Inhabited Parser := ⟨⟨defaultSourceSize, defaultNestingDepth, by decide⟩⟩

/-- Why a parser cannot be built: a limit on nesting that is not positive. -/
inductive ParserFault where
  | depthNotPositive
  deriving DecidableEq, Repr, Inhabited

/-- What is wrong with the limits of a parser. -/
def ParserFault.message : ParserFault → String
  | .depthNotPositive => "max_nesting_depth must be positive"

namespace Parser

/-- A parser with the given limits, or the default ones. -/
def make? (sourceSize nestingDepth : Option Int) : Except ParserFault Parser :=
  let depth := nestingDepth.getD defaultNestingDepth
  if h : 0 < depth then .ok ⟨sourceSize.getD defaultSourceSize, depth, h⟩
  else .error .depthNotPositive

/-- Whether a text is longer than the parser reads.  A limit that is not positive is none. -/
def rejects (p : Parser) (size : Nat) : Bool :=
  decide (0 < p.maxSourceSize) && decide (p.maxSourceSize < size)

/-- The rule for a whole pattern. -/
def rule (p : Parser) : Reader Message :=
  message p.maxNestingDepth p.maxNestingDepth.toNat false

/-- The message that a pattern stands for. -/
def parse (p : Parser) (pattern : String) : Except ParseFailure Message :=
  let source := pattern.toList
  if p.rejects source.length then .error (.tooLong source.length p.maxSourceSize)
  else match p.rule.run source with
    | .ok (nodes, _) => .ok nodes
    | .error (.malformed cause rest) =>
      .error (.malformed ⟨pattern, source.length - rest.length, cause⟩)
    | .error .integerTooLong => .error .integerTooLong

end Parser

end Phrasebook.Pattern
