/-
  Places in a message for a single node.

  A slot is a message that lacks one node, at the top or in the body of a
  branch at any depth.  Filling it puts a node there; texts are merged in the
  sequence that takes the node, and all else stays as it is.

  Two nodes that render alike may stand for each other in every slot
  (`renderNodes_fill_congr`): the choice of a branch looks at the keys of a
  table only, so the body that is chosen is the same for both, and if it is the
  one with the slot it renders alike.
-/
import Phrasebook.Proofs.Render.Choice
import Phrasebook.Proofs.Render.Text

set_option autoImplicit false

namespace Phrasebook

/-! ## Slots -/

/-- A node with branches that lacks the body of one of them. -/
inductive Selector where
  | plural (kind : PluralKind) (name : String) (offset : Int)
    (earlier : List (BranchKey × Message)) (key : BranchKey) (later : List (BranchKey × Message))
  | select (name : String)
    (earlier : List (BranchKey × Message)) (key : BranchKey) (later : List (BranchKey × Message))

/-- The node with a body for the branch that lacks it. -/
def Selector.node : Selector → Message → Node
  | .plural kind name offset earlier key later, body =>
    .plural kind name offset ⟨earlier ++ (key, body) :: later⟩
  | .select name earlier key later, body => .select name ⟨earlier ++ (key, body) :: later⟩

/-- A message that lacks one node. -/
inductive Slot where
  | here (before after : List Node)
  | inside (before : List Node) (selector : Selector) (inner : Slot) (after : List Node)

/-- The message with a node for the one that it lacks. -/
def Slot.fill : Slot → Node → Message
  | .here before after, node => mergeText (before ++ node :: after)
  | .inside before selector inner after, node =>
    before ++ selector.node (inner.fill node) :: after

/-! ## Keys -/

section Keys

variable {β : Type}

/-- Whether two tables have the same keys. -/
def Branches.SameKeys (table other : Branches β) : Prop :=
  ∀ key, (table.find? key).isSome = (other.find? key).isSome

/-- A body that is exchanged leaves the keys. -/
theorem sameKeys_exchange (earlier later : List (BranchKey × β)) (key : BranchKey) (b b' : β) :
    Branches.SameKeys ⟨earlier ++ (key, b) :: later⟩ ⟨earlier ++ (key, b') :: later⟩ := by
  intro other
  simp only [Branches.find?, Entries.find?_append, Option.isSome_or, Entries.find?]
  cases Entries.find? other later with
  | some w => rfl
  | none =>
    by_cases hk : key = other
    · simp [hk]
    · simp [hk]

end Keys

/-! ## Rendering in a slot -/

variable {setting : Setting}

/-- Whichever branch is chosen, an exchanged body that renders alike does not show. -/
theorem renderBranch_exchange {body body' : Message}
    (h : ∀ pound, renderNodes setting pound body = renderNodes setting pound body')
    (pound : Option String) (chosen : BranchKey) (earlier later : List (BranchKey × Message))
    (key : BranchKey) :
    renderBranch setting pound chosen (earlier ++ (key, body) :: later) =
      renderBranch setting pound chosen (earlier ++ (key, body') :: later) := by
  induction earlier with
  | nil => rw [List.nil_append, List.nil_append, renderBranch, renderBranch, h]
  | cons e rest ih =>
    obtain ⟨k, b⟩ := e
    have hkeys : (Entries.find? chosen (rest ++ (key, body) :: later)).isNone =
        (Entries.find? chosen (rest ++ (key, body') :: later)).isNone := by
      have hsome := sameKeys_exchange rest later key body body' chosen
      simp only [Branches.find?] at hsome
      rw [← Option.not_isSome, ← Option.not_isSome, hsome]
    rw [List.cons_append, List.cons_append, renderBranch, renderBranch, ih, hkeys]

/-- Nor does it in the selector, which chooses by the keys alone. -/
theorem renderNode_selector_congr {body body' : Message}
    (h : ∀ pound, renderNodes setting pound body = renderNodes setting pound body')
    (selector : Selector) (pound : Option String) :
    renderNode setting pound (selector.node body) =
      renderNode setting pound (selector.node body') := by
  have hnode : ∀ (c : Chooser) (earlier : List (BranchKey × Message)) (key : BranchKey)
      (later : List (BranchKey × Message)),
      renderNode setting pound (c.node (earlier ++ (key, body) :: later)) =
        renderNode setting pound (c.node (earlier ++ (key, body') :: later)) := by
    intro c earlier key later
    have hchoice : c.choice setting (earlier ++ (key, body) :: later) =
        c.choice setting (earlier ++ (key, body') :: later) :=
      (Chooser.choice_congr fun other _ => sameKeys_exchange earlier later key body body' other).1
    simp only [Chooser.renderNode_node, Chooser.enter, hchoice, renderBranch_exchange h]
  cases selector with
  | plural kind name offset earlier key later => exact hnode (.plural kind name offset) ..
  | select name earlier key later => exact hnode (.select name) ..

/-- Nodes that render alike fill a slot alike. -/
theorem renderNodes_fill_congr {node node' : Node}
    (h : ∀ pound, renderNode setting pound node = renderNode setting pound node')
    (slot : Slot) (pound : Option String) :
    renderNodes setting pound (slot.fill node) = renderNodes setting pound (slot.fill node') := by
  induction slot generalizing pound with
  | here before after =>
    rw [Slot.fill, Slot.fill, renderNodes_mergeText, renderNodes_mergeText, renderNodes_append,
      renderNodes_append, renderNodes_cons, renderNodes_cons, h]
  | inside before selector inner after ih =>
    rw [Slot.fill, Slot.fill, renderNodes_append, renderNodes_append, renderNodes_cons,
      renderNodes_cons, renderNode_selector_congr ih]

/-- An argument renders as a text if it has that text as its value and the text has no number
sign. -/
theorem renderNode_argument_eq_text {name s : String}
    (hvalue : setting.value name = .ok (.text s)) (hpound : '#' ∉ s.toList)
    (pound : Option String) :
    renderNode setting pound (.argument name) = renderNode setting pound (.text s) := by
  rw [renderNode_text, fillPound_of_not_mem hpound, renderNode, hvalue]
  rfl

end Phrasebook
