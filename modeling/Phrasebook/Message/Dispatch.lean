/-
  Visits as they are made: one call after the other.

  A visitor decides for each kind of node what it does with such nodes: it calls
  the handler of the kind, or goes on inside if there is none.  It decides when
  it meets the first node of a kind, and looks its decision up for the others;
  so what it has decided is part of the state of a visit, and is kept from one
  visit to the next.

  A handler of a kind that is descended into goes on inside itself.
-/
import Phrasebook.Message.Visit

set_option autoImplicit false

namespace Phrasebook

/-- What a visitor does with a node that it meets. -/
inductive Method where
  /-- calls the handler of a kind -/
  | handler (kind : NodeKind)
  /-- goes on inside -/
  | passThrough
  deriving DecidableEq, Repr, Inhabited

/-- A handler that is called, and the node that it is called with. -/
structure Call where
  handler : NodeKind
  node : Node
  deriving DecidableEq, Repr, Inhabited

/-- How far a visitor has come: the methods that it has decided on, and the calls that it has made,
in order. -/
structure Tour where
  methods : List (NodeKind × Method)
  calls : List Call
  deriving DecidableEq, Repr, Inhabited

/-- A visitor that has met no node yet. -/
def Tour.fresh : Tour := ⟨[], []⟩

namespace Visitor

/-- The method for the nodes of a kind. -/
def method (v : Visitor) (kind : NodeKind) : Method :=
  if v.handles kind then .handler kind else .passThrough

/-- Looks up what to do with the nodes of a kind, or decides on it. -/
def lookUp (v : Visitor) (kind : NodeKind) (t : Tour) : Method × Tour :=
  match Entries.find? kind t.methods with
  | some method => (method, t)
  | none =>
    (v.method kind, { t with methods := Entries.insert kind (v.method kind) t.methods })

/-- Applies a method to a node; `inside` goes through the bodies of the node. -/
def apply (v : Visitor) (method : Method) (node : Node) (inside : Tour → Tour) (t : Tour) : Tour :=
  match method with
  | .handler kind =>
    let called := { t with calls := t.calls ++ [⟨kind, node⟩] }
    if v.descends kind then inside called else called
  | .passThrough => inside t

/-- Meets a node. -/
def meet (v : Visitor) (node : Node) (inside : Tour → Tour) (t : Tour) : Tour :=
  let (method, found) := v.lookUp node.kind t
  v.apply method node inside found

/-- Does one thing after the other. -/
def inTurn (steps : List (Tour → Tour)) (t : Tour) : Tour := steps.foldl (fun t step => step t) t

mutual

/-- Visits a node. -/
def tourNode (v : Visitor) : Node → Tour → Tour
  | .plural kind name offset ⟨entries⟩ =>
    v.meet (.plural kind name offset ⟨entries⟩)
      (inTurn (Entries.values (Entries.ofPairs (v.tourEntries entries))))
  | .select name ⟨entries⟩ =>
    v.meet (.select name ⟨entries⟩)
      (inTurn (Entries.values (Entries.ofPairs (v.tourEntries entries))))
  | node => v.meet node id

/-- Visits the nodes of a message in order. -/
def tour (v : Visitor) : List Node → Tour → Tour
  | [] => id
  | node :: rest => fun t => v.tour rest (v.tourNode node t)

/-- The visit of the body of each branch. -/
def tourEntries (v : Visitor) : List (BranchKey × List Node) → List (BranchKey × (Tour → Tour))
  | [] => []
  | (key, body) :: rest => (key, v.tour body) :: v.tourEntries rest

end

/-- How far a visitor has come after it visited some messages. -/
def toured (v : Visitor) (messages : List Message) : Tour := inTurn (messages.map v.tour) .fresh

end Visitor

end Phrasebook
