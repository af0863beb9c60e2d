/-
  The rules of the grammar, as a cursor walks them.

  A walk carries a cursor through the pattern and looks at one character at a
  time.  It does all that reading a pattern takes: it asks the cursor whether it
  is at the end, steps on by a number of characters, cuts words out between two
  positions, searches for an apostrophe and builds the span of a fault.

  So a walk can stop for reasons that have nothing to do with the grammar.  The
  cursor may be asked for a character where there is none, a span may not be
  well-formed, and a loop may go on without coming to an end.  A loop is given a
  bound on its steps, and to run into the bound is told apart (`Stop.endless`).
  That none of this happens is a property of the rules, and is shown with the
  proofs.
-/
import Phrasebook.Pattern.Parser

set_option autoImplicit false

namespace Phrasebook.Pattern

open Phrasebook.Source

/-! ## Where walks stop -/

/-- Why a walk stops. -/
inductive Stop where
  /-- the pattern is longer than the limit -/
  | tooLong (size : Nat) (limit : Int)
  /-- a defect of the pattern, as it is reported -/
  | reported (report : Report)
  /-- a whole number in the pattern has too many digits -/
  | integerTooLong
  /-- the cursor has no character to give -/
  | cursor (fault : CursorFault)
  /-- the numbers of a span are not those of one -/
  | span (fault : SpanFault)
  /-- a loop takes more steps than there are characters -/
  | endless
  deriving DecidableEq, Repr, Inhabited

namespace Walk

/-- A rule of the grammar: walks a cursor over what it reads. -/
abbrev Rule (α : Type) : Type := Cursor → Except Stop (α × Cursor)

/-- The character at the cursor. -/
def look (c : Cursor) : Except Stop Char := c.current.mapError .cursor

/-- The number of characters that are left. -/
def remaining (c : Cursor) : Nat := (c.source.length - c.pos).toNat

/-- Reports a defect at the cursor. -/
def fail {α : Type} (c : Cursor) (cause : Cause) : Except Stop α := do
  let span ← (c.span cause.width).mapError .span
  throw (.reported ⟨.diagnostic (cause.diagnostic span), .parse c.pos (String.ofList c.source)⟩)

/-! ## Tokens -/

/-- Steps on over the characters of a class, with a bound on the steps. -/
def skipWhile (p : Char → Bool) : Nat → Cursor → Except Stop Cursor
  | 0, c => if c.atEnd then return c else throw .endless
  | n + 1, c =>
    if c.atEnd then return c
    else do
      if p (← look c) then skipWhile p n (c.advance 1) else return c

/-- An identifier. -/
def identifier : Rule String := fun c => do
  let stop ← skipWhile isIdentifierChar (remaining c) c
  if stop.pos = c.pos then fail c .expectedIdentifier
  else return (String.ofList (c.sliceTo stop.pos), stop)

/-- The number that a text of digits, with or without a minus sign, denotes. -/
def numberOf (text : List Char) : Except Stop Int :=
  let (negative, digits) := splitMinus text
  if Number.maxIntegerDigits < digits.length then throw .integerTooLong
  else return signedValue negative digits

/-- A whole number. -/
def integer : Rule Int := fun c => do
  let minus ← (c.isAt ['-']).mapError .cursor
  let start := if minus then c.advance 1 else c
  let stop ← skipWhile Text.isAsciiDigit (remaining start) start
  if stop.pos = start.pos then fail c .expectedInteger
  else return (← numberOf (c.sliceTo stop.pos), stop)

/-- Passes over one character. -/
def expect (expected : Char) (c : Cursor) : Except Stop Cursor := do
  match ← (c.expect [expected]).mapError .cursor with
  | some next => return next
  | none => fail c (.expectedCharacter (String.singleton expected))

/-- Skips blanks inside the argument that was opened at `opened`. -/
def skipBlanks (opened c : Cursor) : Except Stop Cursor := do
  let next ← c.skipBlank.mapError .cursor
  if next.atEnd then fail opened .unterminatedArgument else return next

/-- Passes over the closing brace of the argument that was opened at `opened`. -/
def close (opened c : Cursor) : Except Stop Cursor :=
  if c.atEnd then fail opened .unterminatedArgument else expect '}' c

/-! ## Literal text -/

/-- Where a character stands from the cursor on, if it does. -/
def find (ch : Char) (c : Cursor) : Option Int :=
  let start := charsBefore c.source.length c.pos
  ((c.source.drop start).findIdx? (· == ch)).map fun n => (start + n : Nat)

/-- What is quoted from the cursor on: all up to the next apostrophe, which is passed over, or to
the end of the text. -/
def quoted (start : Cursor) : String × Cursor :=
  match find '\'' start with
  | none =>
    let stop := start.advance start.source.length
    (String.ofList (start.sliceTo stop.pos), stop)
  | some stop => (String.ofList (start.sliceTo stop), ⟨start.source, stop + 1⟩)

/-- An apostrophe, with what belongs to it. -/
def quotation : Rule String := fun c => do
  match ← (c.peek 1).mapError .cursor with
  | none => return ("'", c.advance 1)
  | some next =>
    if next = '\'' then return ("'", c.advance 2)
    else if isQuotable next then return quoted (c.advance 1)
    else return ("'", c.advance 1)

/-- A run of literal text. -/
def literal : Rule String := fun c => do
  let stop ← skipWhile (!isSpecial ·) (remaining c) c
  return (String.ofList (c.sliceTo stop.pos), stop)

/-! ## Clauses -/

/-- The style of a formatted argument, if there is one. -/
def styleClause (opened : Cursor) : Rule (Option String) := fun c => do
  let c₁ ← skipBlanks opened c
  if (← look c₁) = ',' then
    let c₂ ← skipBlanks opened (c₁.advance 1)
    let (style, c₃) ← identifier c₂
    let next ← skipBlanks opened c₃
    return (some style, next)
  else return (none, c₁)

/-- The offset of a plural argument; zero if there is none. -/
def offsetClause (opened : Cursor) : Rule Int := fun c => do
  if c.startsWith offsetWord then
    let c₁ ← skipBlanks opened (c.advance offsetWord.length)
    let (offset, c₂) ← integer c₁
    let next ← skipBlanks opened c₂
    return (offset, next)
  else return (0, c)

/-- A comma, inside the argument that was opened at `opened`. -/
def comma (opened c : Cursor) : Except Stop Cursor := do
  expect ',' (← skipBlanks opened c)

/-! ## Branches -/

/-- The key of a branch. -/
def branchKey : Rule BranchKey := fun c => do
  if (← look c) = '=' then
    let (n, next) ← integer (c.advance 1)
    return (.exact n, next)
  else
    let (name, next) ← identifier c
    return (.name name, next)

/-- One branch: a key and a body in braces. -/
def branch (body : Rule Message) (opened : Cursor) : Rule (BranchKey × Message) := fun c => do
  let (key, c₁) ← branchKey c
  let c₂ ← skipBlanks opened c₁
  let c₃ ← expect '{' c₂
  let (message, c₄) ← body c₃
  if c₄.atEnd then fail c₂ .unterminatedArgument else return ((key, message), c₄.advance 1)

/-- One turn over branches: reads a branch, or stops in front of the closing brace. -/
def branchTurn (body : Rule Message) (opened : Cursor) : Rule (Option (BranchKey × Message)) :=
  fun c => do
    let c₁ ← skipBlanks opened c
    if (← look c₁) = '}' then return (none, c₁)
    else
      let (pair, next) ← branch body opened c₁
      return (some pair, next)

/-- The branches up to the closing brace of their argument, turn by turn, with a bound on the turns.
Those read so far are given last first. -/
def branchesFrom (body : Rule Message) (typeName : String) (opened : Cursor) :
    Nat → List (BranchKey × Message) → Rule (Branches Message)
  | 0, _, _ => throw .endless
  | n + 1, read, c => do
    match ← branchTurn body opened c with
    | (none, next) =>
      if read.isEmpty then fail next (.emptyBranchList typeName)
      else return (Branches.ofPairs read.reverse, next)
    | (some pair, next) => branchesFrom body typeName opened n (pair :: read) next

/-- A table of branches.  Each branch takes a character at least. -/
def branches (body : Rule Message) (typeName : String) (opened : Cursor) :
    Rule (Branches Message) :=
  fun c => branchesFrom body typeName opened (remaining c + 1) [] c

/-! ## Arguments -/

/-- What belongs to an argument of a type, behind its keyword. -/
def content (body : Rule Message) (opened : Cursor) (name : String) : ArgumentType → Rule Node
  | .formatted kind => fun c => do
    let (style, next) ← styleClause opened c
    return (.formatted kind name style, next)
  | .plural kind => fun c => do
    let c₁ ← comma opened c
    let c₂ ← skipBlanks opened c₁
    let (offset, c₃) ← offsetClause opened c₂
    let (table, next) ← branches body kind.name opened c₃
    return (.plural kind name offset table, next)
  | .select => fun c => do
    let c₁ ← comma opened c
    let (table, next) ← branches body selectName opened c₁
    return (.select name table, next)

/-- An argument with a type, behind the comma that follows its name. -/
def typedArgument (body : Rule Message) (opened : Cursor) (name : String) : Rule Node :=
  fun c => do
    let c₁ ← skipBlanks opened c
    let (keyword, c₂) ← identifier c₁
    match ArgumentType.ofKeyword? keyword with
    | none => fail c₁ (.unknownArgumentType keyword)
    | some type =>
      let (node, c₃) ← content body opened name type c₂
      let next ← close opened c₃
      return (node, next)

/-- An argument, from its opening brace on.  Without a rule for the bodies of its branches no
further argument may be opened. -/
def argument (limit : Int) (body : Option (Rule Message)) : Rule Node := fun c =>
  match body with
  | none => fail c (.nestingDepthExceeded limit)
  | some body => do
    let c₁ ← skipBlanks c (c.advance 1)
    let (name, c₂) ← identifier c₁
    let c₃ ← skipBlanks c c₂
    if (← look c₃) = ',' then typedArgument body c name (c₃.advance 1)
    else
      let next ← close c c₃
      return (.argument name, next)

/-! ## Messages -/

/-- One turn over a message: reads a node, or stays where the message ends. -/
def turn (argument : Rule Node) (inBranch : Bool) : Rule (Option Node) := fun c =>
  if c.atEnd then return (none, c)
  else do
    let ch ← look c
    if ch = '}' then
      if inBranch then return (none, c) else fail c .unexpectedCloseBrace
    else if ch = '{' then
      let (node, next) ← argument c
      return (some node, next)
    else if ch = '\'' then
      let (text, next) ← quotation c
      return (some (.text text), next)
    else
      let (text, next) ← literal c
      return (some (.text text), next)

/-- The nodes of a message, turn by turn, with a bound on the turns.  Those read so far are given
last first. -/
def turns (argument : Rule Node) (inBranch : Bool) : Nat → List Node → Rule (List Node)
  | 0, _, _ => throw .endless
  | n + 1, read, c => do
    match ← turn argument inBranch c with
    | (none, next) => return (read.reverse, next)
    | (some node, next) => turns argument inBranch n (node :: read) next

/-- A message whose arguments are read by a given rule.  Each of its nodes takes a character at
least. -/
def messageBy (argument : Rule Node) (inBranch : Bool) : Rule Message := fun c => do
  let (nodes, next) ← turns argument inBranch (remaining c + 1) [] c
  return (mergeText nodes, next)

/-- A message with room for a number of arguments open at once. -/
def message (limit : Int) : Nat → Bool → Rule Message
  | 0, inBranch => messageBy (argument limit none) inBranch
  | room + 1, inBranch =>
    messageBy (argument limit (some fun c => message limit room true c)) inBranch

end Walk

/-- The message of a pattern, walked from its first character on. -/
def Parser.walk (p : Parser) (pattern : String) : Except Stop Message :=
  let source := pattern.toList
  if p.rejects source.length then .error (.tooLong source.length p.maxSourceSize)
  else do
    let (nodes, _) ← Walk.message p.maxNestingDepth p.maxNestingDepth.toNat false ⟨source, 0⟩
    return nodes

end Phrasebook.Pattern
