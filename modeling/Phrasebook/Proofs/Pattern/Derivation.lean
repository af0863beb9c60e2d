/-
  The grammar of patterns, as derivation trees.

  A derivation keeps all that a pattern says: its blanks, how its numerals are
  written and how its apostrophes are meant.  Read in order, its tokens spell
  the pattern (`charsOf`); taken for what it means, it stands for a message
  (`messageOf`).  A pattern derives a message if it is spelled by a derivation
  that stands for it.

  message    ::= piece*
  piece      ::= character other than { } '  |  ''  |  quotation  |  '  |  argument
  quotation  ::= ' (brace, then characters other than ') '
  argument   ::= { ws id ws }
               | { ws id ws , ws number|date|time ws [, ws id ws] }
               | { ws id ws , ws plural|selectordinal ws , [ws offset: ws int] branches ws }
               | { ws id ws , ws select ws , branches ws }
  branches   ::= (ws key ws { message })+
  key        ::= id  |  = int

  The grammar has three conditions on what follows (`FitAll`).  An apostrophe
  stands for itself only if no apostrophe or brace comes next; a quotation may
  lack its closing apostrophe only at the end of the pattern; and the digits of
  an offset are not followed by a further digit.  Nothing is said here about
  the order in which a pattern is read.
-/
import Phrasebook.Proofs.Entries
import Phrasebook.Proofs.Message.Atoms
import Phrasebook.Proofs.Pattern.Token

set_option autoImplicit false

namespace Phrasebook.Pattern

/-! ## Tokens of a derivation -/

/-- A character that stands for itself wherever it stands. -/
structure Plain where
  char : Char
  plain : isSpecial char = false

/-- What is quoted: a brace, and all up to the next apostrophe. -/
structure Quoted where
  chars : List Char
  opens : ∃ c rest, chars = c :: rest ∧ isQuotable c = true
  closes : '\'' ∉ chars

/-- The key of a branch as it is written. -/
inductive KeySource where
  | word (w : Word)
  | exact (n : Numeral)

namespace KeySource

def chars : KeySource → List Char
  | .word w => w.chars
  | .exact n => '=' :: n.chars

/-- The key that is meant. -/
def key : KeySource → BranchKey
  | .word w => .name w.name
  | .exact n => .exact n.value

end KeySource

/-- An opening brace and the name behind it, with blanks on both sides of the name. -/
structure Head where
  before : Blanks
  word : Word
  after : Blanks

def Head.chars (h : Head) : List Char :=
  '{' :: (h.before.chars ++ (h.word.chars ++ h.after.chars))

/-- A comma and a style, with blanks on both sides of the style. -/
structure StyleSource where
  before : Blanks
  word : Word
  after : Blanks

def StyleSource.chars (s : StyleSource) : List Char :=
  ',' :: (s.before.chars ++ (s.word.chars ++ s.after.chars))

/-- The word `offset:` and its numeral, with blanks in front of both. -/
structure OffsetSource where
  before : Blanks
  between : Blanks
  amount : Numeral

def OffsetSource.chars (o : OffsetSource) : List Char :=
  o.before.chars ++ (offsetWord ++ (o.between.chars ++ o.amount.chars))

/-- The key of a branch, with blanks on both sides. -/
structure BranchHead where
  before : Blanks
  source : KeySource
  after : Blanks

def BranchHead.chars (h : BranchHead) : List Char :=
  h.before.chars ++ (h.source.chars ++ h.after.chars)

/-- An optional clause, or nothing. -/
def styleChars (style : Option StyleSource) : List Char := (style.map StyleSource.chars).getD []

def offsetChars (offset : Option OffsetSource) : List Char :=
  (offset.map OffsetSource.chars).getD []

/-! ## Derivations -/

mutual

/-- A piece of a message. -/
inductive Piece where
  /-- a character for itself -/
  | literal (c : Plain)
  /-- two apostrophes for one -/
  | doubled
  /-- a quotation, with or without its closing apostrophe -/
  | quoted (span : Quoted) (closed : Bool)
  /-- an apostrophe for itself -/
  | lone
  | argument (source : ArgumentSource)

/-- An argument with all that stands between its braces. -/
inductive ArgumentSource where
  | bare (head : Head)
  | formatted (head : Head) (lead : Blanks) (kind : FormatKind) (trail : Blanks)
      (style : Option StyleSource)
  | plural (head : Head) (lead : Blanks) (kind : PluralKind) (trail : Blanks)
      (offset : Option OffsetSource) (branches : List (BranchHead × List Piece)) (last : Blanks)
  | select (head : Head) (lead trail : Blanks) (branches : List (BranchHead × List Piece))
      (last : Blanks)

end

/-! ## What a derivation spells -/

mutual

/-- The text of a piece. -/
def Piece.chars : Piece → List Char
  | .literal c => [c.char]
  | .doubled => ['\'', '\'']
  | .quoted span closed => '\'' :: (span.chars ++ if closed then ['\''] else [])
  | .lone => ['\'']
  | .argument source => source.chars

/-- The text of an argument. -/
def ArgumentSource.chars : ArgumentSource → List Char
  | .bare head => head.chars ++ ['}']
  | .formatted head lead kind trail style =>
    head.chars ++ ',' :: (lead.chars ++ (kind.name.toList ++ (trail.chars ++
      (styleChars style ++ ['}']))))
  | .plural head lead kind trail offset branches last =>
    head.chars ++ ',' :: (lead.chars ++ (kind.name.toList ++ (trail.chars ++
      ',' :: (offsetChars offset ++ (branchChars branches ++ (last.chars ++ ['}']))))))
  | .select head lead trail branches last =>
    head.chars ++ ',' :: (lead.chars ++ (selectName.toList ++ (trail.chars ++
      ',' :: (branchChars branches ++ (last.chars ++ ['}'])))))

/-- The text of a message. -/
def charsOf : List Piece → List Char
  | [] => []
  | piece :: rest => piece.chars ++ charsOf rest

/-- The text of some branches. -/
def branchChars : List (BranchHead × List Piece) → List Char
  | [] => []
  | (head, body) :: rest => head.chars ++ '{' :: (charsOf body ++ '}' :: branchChars rest)

end

/-! ## What a derivation stands for -/

mutual

/-- The atoms that a piece adds to its message. -/
def Piece.atoms : Piece → List Atom
  | .literal c => [.char c.char]
  | .doubled => [.char '\'']
  | .quoted span _ => span.chars.map .char
  | .lone => [.char '\'']
  | .argument source => [.node source.node]

/-- The node of an argument. -/
def ArgumentSource.node : ArgumentSource → Node
  | .bare head => .argument head.word.name
  | .formatted head _ kind _ style => .formatted kind head.word.name (style.map (·.word.name))
  | .plural head _ kind _ offset branches _ =>
    .plural kind head.word.name ((offset.map (·.amount.value)).getD 0)
      ⟨Entries.tabulate (branchPairs branches)⟩
  | .select head _ _ branches _ =>
    .select head.word.name ⟨Entries.tabulate (branchPairs branches)⟩

/-- The atoms of a message. -/
def atomsOf : List Piece → List Atom
  | [] => []
  | piece :: rest => piece.atoms ++ atomsOf rest

/-- The keys of some branches with the messages of their bodies, in order. -/
def branchPairs : List (BranchHead × List Piece) → List (BranchKey × Message)
  | [] => []
  | (head, body) :: rest => (head.source.key, ofAtoms (atomsOf body)) :: branchPairs rest

end

/-- The message that a derivation stands for: neighbouring characters are one text. -/
def messageOf (pieces : List Piece) : Message := ofAtoms (atomsOf pieces)

/-! ## How many arguments are open at once -/

mutual

def Piece.depth : Piece → Nat
  | .argument source => source.depth
  | _ => 0

def ArgumentSource.depth : ArgumentSource → Nat
  | .bare _ => 1
  | .formatted _ _ _ _ _ => 1
  | .plural _ _ _ _ _ branches _ => branchDepth branches + 1
  | .select _ _ _ branches _ => branchDepth branches + 1

/-- The most arguments that are open at once in a message. -/
def depthOf : List Piece → Nat
  | [] => 0
  | piece :: rest => max piece.depth (depthOf rest)

def branchDepth : List (BranchHead × List Piece) → Nat
  | [] => 0
  | (_, body) :: rest => max (depthOf body) (branchDepth rest)

end

/-! ## What may follow -/

mutual

/-- Whether a piece is read as itself in front of a character, or of the end of the pattern. -/
def Piece.Fits (next : Option Char) : Piece → Prop
  | .lone => ∀ c ∈ next, c ≠ '\'' ∧ isQuotable c = false
  | .quoted _ closed => closed = false → next = none
  | .argument source => source.Fits
  | _ => True

/-- Whether the branches of an argument can be told from each other and from its offset. -/
def ArgumentSource.Fits : ArgumentSource → Prop
  | .plural _ _ _ _ offset branches _ =>
    branches ≠ [] ∧ (offset.isSome = true → Stops Text.isAsciiDigit (branchChars branches)) ∧
      BranchesFit branches
  | .select _ _ _ branches _ => branches ≠ [] ∧ BranchesFit branches
  | _ => True

/-- Whether each piece of a message fits what follows it; behind the message stands `next`. -/
def FitAll (next : Option Char) : List Piece → Prop
  | [] => True
  | piece :: rest => piece.Fits ((charsOf rest).head?.or next) ∧ FitAll next rest

/-- Whether the bodies of branches fit their closing braces. -/
def BranchesFit : List (BranchHead × List Piece) → Prop
  | [] => True
  | (_, body) :: rest => FitAll (some '}') body ∧ BranchesFit rest

end

/-- The grammar: a pattern derives a message with no more than `room` arguments open at once. -/
def Derives (room : Nat) (pattern : List Char) (message : Message) : Prop :=
  ∃ pieces, charsOf pieces = pattern ∧ FitAll none pieces ∧ depthOf pieces ≤ room ∧
    messageOf pieces = message

end Phrasebook.Pattern
