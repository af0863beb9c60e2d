/-
  Visits: walking through all nodes of a message.

  A visitor handles nodes of some kinds.  A walk goes through a message in
  order, a node before the bodies of its branches, and the bodies in the order
  of their keys.  It passes through nodes that are not handled; behind a handled
  node it goes on inside only if the visitor descends into nodes of its kind.
-/
import Phrasebook.Message

set_option autoImplicit false

namespace Phrasebook

/-- The kinds of node. -/
inductive NodeKind where
  | text
  | argument
  | formatted (kind : FormatKind)
  | plural (kind : PluralKind)
  | select
  | foreign
  deriving DecidableEq, Repr, Inhabited

namespace Node

/-- The kind of a node. -/
def kind : Node → NodeKind
  | .text _ => .text
  | .argument _ => .argument
  | .formatted kind _ _ => .formatted kind
  | .plural kind _ _ _ => .plural kind
  | .select _ _ => .select
  | .foreign _ => .foreign

/-- The text of a text, and the name of the argument of any other node. -/
def label : Node → String
  | .text value => value
  | .argument name => name
  | .formatted _ name _ => name
  | .plural _ name _ _ => name
  | .select name _ => name
  | .foreign kindName => kindName

end Node

/-- Which kinds of node are handled, and which of these are descended into. -/
structure Visitor where
  handles : NodeKind → Bool
  descends : NodeKind → Bool

namespace Visitor

/-- Whether a walk goes on inside a node of a kind. -/
def enters (v : Visitor) (kind : NodeKind) : Bool := !v.handles kind || v.descends kind

/-- The node alone if it is handled. -/
def handled (v : Visitor) (node : Node) : List Node := if v.handles node.kind then [node] else []

mutual

/-- The handled nodes of a node, itself first. -/
def visitNode (v : Visitor) : Node → List Node
  | .plural kind name offset ⟨entries⟩ =>
    v.handled (.plural kind name offset ⟨entries⟩) ++
      if v.enters (.plural kind) then
        (Entries.values (Entries.ofPairs (v.visitEntries entries))).flatten
      else []
  | .select name ⟨entries⟩ =>
    v.handled (.select name ⟨entries⟩) ++
      if v.enters .select then
        (Entries.values (Entries.ofPairs (v.visitEntries entries))).flatten
      else []
  | node => v.handled node

/-- The handled nodes of a message. -/
def visit (v : Visitor) : List Node → List Node
  | [] => []
  | node :: rest => v.visitNode node ++ v.visit rest

/-- The handled nodes of the body of each branch. -/
def visitEntries (v : Visitor) : List (BranchKey × List Node) → List (BranchKey × List Node)
  | [] => []
  | (key, body) :: rest => (key, v.visit body) :: v.visitEntries rest

end

/-- The walk through two messages in a row is the walk through each. -/
theorem visit_append (v : Visitor) (a b : List Node) :
    v.visit (a ++ b) = v.visit a ++ v.visit b := by
  induction a with
  | nil => simp [visit]
  | cons node rest ih => simp [visit, ih]

end Visitor

end Phrasebook
