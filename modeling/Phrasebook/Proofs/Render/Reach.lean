/-
  Rendering fails where a node that it reaches fails itself.

  Rendering reaches the first node of a message, the nodes behind one that has a
  text, and the nodes of the body that a selector enters.  A failure of the
  whole is a failure of one of these nodes, its branches apart, and a failure of
  one of them is a failure of the whole (`renderNodes_eq_error_iff`).
-/
import Phrasebook.Proofs.Message.WellFormed
import Phrasebook.Proofs.Render.Path

set_option autoImplicit false

namespace Phrasebook

/-! ## Nodes that are reached -/

/-- A node that the rendering of a message comes to. -/
inductive Reaches (setting : Setting) : Message → Node → Prop
  | first (node : Node) (rest : Message) : Reaches setting (node :: rest) node
  | behind {before node : Node} {rest : Message} {pound : Option String} {text : String}
    (rendered : renderNode setting pound before = .ok text) (reached : Reaches setting rest node) :
    Reaches setting (before :: rest) node
  | inside {c : Chooser} {entries : List (BranchKey × Message)} {key : BranchKey}
    {sign : Option String} {body rest : Message} {node : Node}
    (entered : c.enter setting entries = .ok (key, sign))
    (found : Entries.find? key entries = some body) (reached : Reaches setting body node) :
    Reaches setting (c.node entries :: rest) node

/-- Whether a node fails by itself: a selector in the choice of a branch, and any other node in
its text. -/
def FailsItself (setting : Setting) (node : Node) (failure : RenderFailure) : Prop :=
  match node with
  | .plural kind name offset ⟨entries⟩ =>
    (Chooser.plural kind name offset).enter setting entries = .error failure
  | .select name ⟨entries⟩ => (Chooser.select name).enter setting entries = .error failure
  | node => renderNode setting none node = .error failure

variable {setting : Setting} {failure : RenderFailure}

theorem failsItself_node_iff (c : Chooser) (entries : List (BranchKey × Message)) :
    FailsItself setting (c.node entries) failure ↔ c.enter setting entries = .error failure := by
  cases c <;> exact Iff.rfl

theorem failsItself_iff_of_not_selector {node : Node}
    (h : ∀ (c : Chooser) entries, node ≠ c.node entries) :
    FailsItself setting node failure ↔ renderNode setting none node = .error failure := by
  cases node with
  | plural kind name offset branches => exact absurd rfl (h (.plural kind name offset) branches.entries)
  | select name branches => exact absurd rfl (h (.select name) branches.entries)
  | _ => exact Iff.rfl

/-- A node is a selector with its branches, or none. -/
theorem exists_chooser_or (node : Node) :
    (∃ (c : Chooser) (entries : List (BranchKey × Message)), node = c.node entries) ∨
      ∀ (c : Chooser) entries, node ≠ c.node entries := by
  by_cases h : ∃ (c : Chooser) (entries : List (BranchKey × Message)), node = c.node entries
  · exact .inl h
  · exact .inr fun c entries heq => h ⟨c, entries, heq⟩

/-! ## Failures come from nodes -/

/-- A node that fails itself has no text. -/
theorem renderNode_of_failsItself {node : Node} (h : FailsItself setting node failure)
    (pound : Option String) : renderNode setting pound node = .error failure := by
  rcases exists_chooser_or node with ⟨c, entries, rfl⟩ | hnode
  · rw [failsItself_node_iff] at h
    rw [Chooser.renderNode_node, h]
    rfl
  · exact renderNode_error ((failsItself_iff_of_not_selector hnode).1 h) pound

/-- What a message reaches and fails, it fails of. -/
theorem renderNodes_of_reaches {message : Message} {node : Node}
    (hreached : Reaches setting message node) (hfails : FailsItself setting node failure)
    (pound : Option String) : renderNodes setting pound message = .error failure := by
  induction hreached generalizing pound with
  | first node rest =>
    rw [renderNodes_cons, renderNode_of_failsItself hfails]
    rfl
  | behind rendered _ ih =>
    rw [renderNodes_cons, ih hfails]
    cases h : renderNode setting pound _ with
    | ok text => rfl
    | error failure' =>
      -- a node that has a text in one place has one in every place
      rw [renderNode_error h _] at rendered
      cases rendered
  | inside entered found _ ih =>
    rw [renderNodes_cons, Chooser.renderNode_node, entered]
    change joined (renderBranch setting _ _ _) _ = _
    rw [renderBranch_of_find? found, ih hfails]
    rfl

/-- A selector fails itself, or the body that it enters reaches a node that does. -/
theorem exists_reaches_of_node {c : Chooser} {entries : List (BranchKey × Message)}
    {pound : Option String} (h : renderNode setting pound (c.node entries) = .error failure)
    (hbranch : ∀ sign key, renderBranch setting sign key entries = .error failure →
      ∃ body, Entries.find? key entries = some body ∧
        ∃ node, Reaches setting body node ∧ FailsItself setting node failure)
    (rest : Message) :
    ∃ other, Reaches setting (c.node entries :: rest) other ∧ FailsItself setting other failure := by
  rw [Chooser.renderNode_node] at h
  cases henter : c.enter setting entries with
  | error failure' =>
    rw [henter] at h
    cases h
    exact ⟨_, .first _ _, (failsItself_node_iff c entries).2 henter⟩
  | ok entered =>
    obtain ⟨key, sign⟩ := entered
    rw [henter] at h
    obtain ⟨body, hfound, other, hreached, hfails⟩ := hbranch sign key h
    exact ⟨other, .inside henter hfound hreached, hfails⟩

mutual

/-- A node without a text reaches one that fails itself. -/
theorem exists_reaches_of_renderNode (pound : Option String) (rest : Message) : (node : Node) →
    renderNode setting pound node = .error failure →
      ∃ other, Reaches setting (node :: rest) other ∧ FailsItself setting other failure
  | .text s, h => ⟨.text s, .first _ _, renderNode_error h none⟩
  | .argument name, h => ⟨.argument name, .first _ _, renderNode_error h none⟩
  | .formatted kind name style, h =>
    ⟨.formatted kind name style, .first _ _, renderNode_error h none⟩
  | .foreign kindName, h => ⟨.foreign kindName, .first _ _, renderNode_error h none⟩
  | .plural kind name offset ⟨entries⟩, h =>
    exists_reaches_of_node (c := .plural kind name offset) h
      (fun sign key => exists_reaches_of_renderBranch sign key entries) rest
  | .select name ⟨entries⟩, h =>
    exists_reaches_of_node (c := .select name) h
      (fun sign key => exists_reaches_of_renderBranch sign key entries) rest

theorem exists_reaches_of_renderNodes (pound : Option String) : (nodes : List Node) →
    renderNodes setting pound nodes = .error failure →
      ∃ node, Reaches setting nodes node ∧ FailsItself setting node failure
  | [], h => by
    rw [renderNodes_nil] at h
    cases h
  | node :: rest, h => by
    rw [renderNodes_cons] at h
    cases hnode : renderNode setting pound node with
    | error failure' =>
      rw [hnode] at h
      cases h
      exact exists_reaches_of_renderNode pound rest node hnode
    | ok text =>
      rw [hnode] at h
      have hrest : renderNodes setting pound rest = .error failure := by
        cases hrest : renderNodes setting pound rest with
        | ok others =>
          rw [hrest] at h
          cases h
        | error failure' =>
          rw [hrest] at h
          exact h
      obtain ⟨other, hreached, hfails⟩ := exists_reaches_of_renderNodes pound rest hrest
      exact ⟨other, .behind hnode hreached, hfails⟩

theorem exists_reaches_of_renderBranch (pound : Option String) (key : BranchKey) :
    (entries : List (BranchKey × List Node)) →
    renderBranch setting pound key entries = .error failure →
      ∃ body, Entries.find? key entries = some body ∧
        ∃ node, Reaches setting body node ∧ FailsItself setting node failure
  | [], h => by
    rw [renderBranch] at h
    cases h
  | (k, body) :: rest, h => by
    rw [renderBranch] at h
    split at h
    · next hlast =>
      obtain ⟨rfl, hnone⟩ := hlast
      exact ⟨body, Entries.find?_cons_self_of_not_mem (Option.isNone_iff_eq_none.1 hnone),
        exists_reaches_of_renderNodes pound body h⟩
    · obtain ⟨other, hfound, hother⟩ := exists_reaches_of_renderBranch pound key rest h
      exact ⟨other, by rw [Entries.find?, hfound], hother⟩

end

/-- A message has no text exactly if a node that it reaches fails itself. -/
theorem renderNodes_eq_error_iff {pound : Option String} {message : Message} :
    renderNodes setting pound message = .error failure ↔
      ∃ node, Reaches setting message node ∧ FailsItself setting node failure := by
  constructor
  · exact exists_reaches_of_renderNodes pound message
  · rintro ⟨node, hreached, hfails⟩
    exact renderNodes_of_reaches hreached hfails pound

/-! ## What is reached in a message -/

section Reached

variable {setting : Setting} {message : Message} {node : Node}

/-- A node of a well-formed message is well-formed in some room. -/
theorem exists_wellFormed_of_reaches (hreached : Reaches setting message node)
    (h : ∀ other ∈ message, ∃ room, other.WellFormed room) : ∃ room, node.WellFormed room := by
  induction hreached with
  | first node rest => exact h node List.mem_cons_self
  | behind _ _ ih => exact ih fun other hmem => h other (List.mem_cons_of_mem _ hmem)
  | @inside c entries key sign body rest node _ found _ ih =>
    refine ih fun other hmem => ?_
    have hentry := Entries.mem_of_find?_eq_some found
    obtain ⟨room, hselector⟩ := h _ List.mem_cons_self
    cases c with
    | plural kind name offset =>
      cases hselector with
      | plural _ _ _ _ _ bodies => exact ⟨_, bodies _ hentry other hmem⟩
    | select name =>
      cases hselector with
      | select _ _ _ bodies => exact ⟨_, bodies _ hentry other hmem⟩

/-- A walk through a node that uses an argument begins with it. -/
theorem mem_visitNode_self (h : node.kind.use?.isSome = true) :
    node ∈ useVisitor.visitNode node := by
  cases node with
  | text s => cases h
  | foreign kindName => cases h
  | argument name => rw [visitNode_argument]; exact List.mem_cons_self
  | formatted kind name style => rw [visitNode_formatted]; exact List.mem_cons_self
  | plural kind name offset branches => rw [visitNode_plural]; exact List.mem_cons_self
  | select name branches => rw [visitNode_select]; exact List.mem_cons_self

/-- A walk through a selector goes through the bodies of its branches. -/
theorem mem_visitNode_of_find? {c : Chooser} {entries : List (BranchKey × Message)}
    {key : BranchKey} {body : Message} (hfound : Entries.find? key entries = some body)
    (hmem : node ∈ useVisitor.visit body) : node ∈ useVisitor.visitNode (c.node entries) := by
  have hflat := mem_flatten_of_find? hfound hmem
  cases c with
  | plural kind name offset =>
    rw [Chooser.node, visitNode_plural]
    exact List.mem_cons_of_mem _ hflat
  | select name =>
    rw [Chooser.node, visitNode_select]
    exact List.mem_cons_of_mem _ hflat

/-- What is reached and uses an argument is among the nodes that do. -/
theorem mem_usingNodes_of_reaches (hreached : Reaches setting message node)
    (h : node.kind.use?.isSome = true) : node ∈ usingNodes message := by
  rw [usingNodes]
  induction hreached with
  | first node rest =>
    rw [Visitor.visit]
    exact List.mem_append_left _ (mem_visitNode_self h)
  | behind _ _ ih =>
    rw [Visitor.visit]
    exact List.mem_append_right _ (ih h)
  | inside _ found _ ih =>
    rw [Visitor.visit]
    exact List.mem_append_left _ (mem_visitNode_of_find? found (ih h))

theorem mem_argumentUses_of_reaches (hreached : Reaches setting message node) {use : ArgumentUse}
    (huse : node.use? = some use) : use ∈ argumentUses message := by
  have hsome : node.kind.use?.isSome = true := by
    rw [Node.use?, Option.map_eq_some_iff] at huse
    obtain ⟨kind, hkind, -⟩ := huse
    rw [hkind]
    rfl
  simp only [argumentUses, List.mem_mergeSort, List.mem_eraseDups, List.mem_filterMap]
  exact ⟨node, mem_usingNodes_of_reaches hreached hsome, huse⟩

end Reached

end Phrasebook
