/-
  The arguments that a message uses, and how.

  Every branch counts, whether or not it can be chosen, so the uses are all that
  a caller may have to supply.
-/
import Phrasebook.Message.Visit

set_option autoImplicit false

namespace Phrasebook

/-! ## Kinds of use -/

/-- How a message uses an argument. -/
inductive ArgumentKind where
  | plain
  | number
  | date
  | time
  | plural
  | select
  | selectordinal
  deriving DecidableEq, Repr, Inhabited

namespace ArgumentKind

/-- The word for a kind of use. -/
def name : ArgumentKind → String
  | .plain => "plain"
  | .number => FormatKind.number.name
  | .date => FormatKind.date.name
  | .time => FormatKind.time.name
  | .plural => PluralKind.cardinal.name
  | .select => selectName
  | .selectordinal => PluralKind.ordinal.name

/-- Every kind of use. -/
def all : List ArgumentKind := [.plain, .number, .date, .time, .plural, .select, .selectordinal]

/-- The kind of use with a name. -/
def ofName? (s : String) : Option ArgumentKind := all.find? (·.name == s)

end ArgumentKind

/-- How a node of a kind uses its argument; texts use none. -/
def NodeKind.use? : NodeKind → Option ArgumentKind
  | .text => none
  | .argument => some .plain
  | .formatted .number => some .number
  | .formatted .date => some .date
  | .formatted .time => some .time
  | .plural .cardinal => some .plural
  | .plural .ordinal => some .selectordinal
  | .select => some .select
  | .foreign => none

/-- Whether nodes of a kind choose between branches. -/
def NodeKind.isSelector : NodeKind → Bool
  | .plural _ => true
  | .select => true
  | _ => false

/-! ## Uses -/

/-- The use of an argument. -/
structure ArgumentUse where
  name : String
  kind : ArgumentKind
  deriving DecidableEq, Repr, Inhabited

/-- The order of uses: by the name of the argument, then by the word for the kind. -/
def ArgumentUse.before (a b : ArgumentUse) : Bool :=
  decide (a.name < b.name) || (a.name == b.name && decide (a.kind.name ≤ b.kind.name))

/-- Handles every node that uses an argument, and goes on inside all of them. -/
def useVisitor : Visitor where
  handles kind := kind.use?.isSome
  descends _ := true

/-- The nodes of a message that use an argument, in order. -/
def usingNodes (message : Message) : List Node := useVisitor.visit message

/-- The use that a node makes of its argument. -/
def Node.use? (node : Node) : Option ArgumentUse :=
  node.kind.use?.map fun kind => ⟨node.label, kind⟩

/-- The uses of a message, each once and in order. -/
def argumentUses (message : Message) : List ArgumentUse :=
  ((usingNodes message).filterMap Node.use?).eraseDups.mergeSort ArgumentUse.before

/-- The names of the arguments of a message, each once and in order. -/
def argumentNames (message : Message) : List String :=
  ((argumentUses message).map ArgumentUse.name).eraseDups

/-- Whether some argument of a message has a name. -/
def requiresArgument (message : Message) (name : String) : Bool :=
  (argumentNames message).contains name

/-- Whether a message chooses between branches. -/
def hasSelectors (message : Message) : Bool :=
  (usingNodes message).any fun node => node.kind.isSelector

end Phrasebook
