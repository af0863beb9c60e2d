/-
  Merging is a normal form.

  A list of nodes consists of the nodes that are no texts (`solids`) and of the
  text in front of the first of them, between two and behind the last (`gaps`).
  Merging keeps both, and its result is normal; a normal message is merged
  already, so merging twice is merging once, and lists may be merged in parts.
  Two lists are merged to the same message exactly if they have the same solid
  nodes and the same text in every gap.

  How text is cut does not show when a message is rendered, whatever the number
  sign stands for, so merging is not seen there either.
-/
import Phrasebook.Proofs.Message.Atoms
import Phrasebook.Proofs.Render.Text

set_option autoImplicit false

namespace Phrasebook

/-! ## What a list of nodes consists of -/

/-- The nodes that are no texts, in order. -/
def solids (nodes : List Node) : List Node := nodes.filter (!·.isText)

/-- The text of a node that is one. -/
def Node.text? : Node → Option String
  | .text s => some s
  | _ => none

/-- The texts among some nodes, one behind the other. -/
def textOf (nodes : List Node) : String := String.join (nodes.filterMap Node.text?)

/-- The text in front of the first node that is no text, between two such nodes and behind the
last. -/
def gaps (nodes : List Node) : List String := (nodes.splitOnP (!·.isText)).map textOf

theorem Node.exists_text_of_isText {node : Node} (h : node.isText = true) :
    ∃ s, node = .text s := by
  cases node with
  | text s => exact ⟨s, rfl⟩
  | _ => cases h

/-- A node that is no text is one atom. -/
theorem Node.atoms_of_not_isText {node : Node} (h : node.isText = false) :
    node.atoms = [.node node] := by
  cases node with
  | text s => cases h
  | _ => rfl

theorem solids_text_cons (s : String) (nodes : List Node) :
    solids (.text s :: nodes) = solids nodes := rfl

theorem solids_cons {node : Node} (hnode : node.isText = false) (nodes : List Node) :
    solids (node :: nodes) = node :: solids nodes := by
  rw [solids, List.filter_cons_of_pos (by rw [hnode]; rfl), solids]

theorem gaps_ne_nil (nodes : List Node) : gaps nodes ≠ [] :=
  fun h => List.splitOnP_ne_nil _ nodes (List.map_eq_nil_iff.1 h)

theorem textOf_text_cons (s : String) (nodes : List Node) :
    textOf (.text s :: nodes) = s ++ textOf nodes := by
  rw [← String.toList_inj]
  simp [textOf, Node.text?]

/-- A text in front lengthens the first gap. -/
theorem gaps_text_cons (s : String) (nodes : List Node) :
    gaps (.text s :: nodes) = (gaps nodes).modifyHead (s ++ ·) := by
  have htext : (!(Node.text s).isText) = false := rfl
  rw [gaps, List.splitOnP_cons_eq_if_modifyHead, htext, if_neg Bool.false_ne_true, gaps]
  obtain ⟨first, more, hsplit⟩ :=
    List.exists_cons_of_ne_nil (List.splitOnP_ne_nil (!·.isText) nodes)
  rw [hsplit, List.modifyHead_cons, List.map_cons, List.map_cons, List.modifyHead_cons,
    textOf_text_cons]

/-- Any other node opens a new gap. -/
theorem gaps_cons {node : Node} (hnode : node.isText = false) (nodes : List Node) :
    gaps (node :: nodes) = "" :: gaps nodes := by
  rw [gaps, List.splitOnP_cons_eq_if_modifyHead, hnode]
  rfl

/-! ## Atoms in gaps -/

/-- The node that an atom is, if it is one. -/
def Atom.node? : Atom → Option Node
  | .char _ => none
  | .node n => some n

/-- The character that an atom is, if it is one. -/
def Atom.char? : Atom → Option Char
  | .char c => some c
  | .node _ => none

/-- The characters of gaps with nodes between them. -/
def weave : List String → List Node → List Atom
  | [], _ => []
  | gap :: _, [] => gap.toList.map .char
  | gap :: gaps, node :: nodes => gap.toList.map .char ++ .node node :: weave gaps nodes

theorem weave_modifyHead {gaps : List String} (hgaps : gaps ≠ []) (s : String)
    (nodes : List Node) :
    weave (gaps.modifyHead (s ++ ·)) nodes = s.toList.map .char ++ weave gaps nodes := by
  obtain ⟨gap, more, rfl⟩ := List.exists_cons_of_ne_nil hgaps
  cases nodes with
  | nil => rw [List.modifyHead_cons, weave, weave, String.toList_append, List.map_append]
  | cons node rest =>
    rw [List.modifyHead_cons, weave, weave, String.toList_append, List.map_append,
      List.append_assoc]

/-- The gaps and the solid nodes of a list tell its atoms. -/
theorem atoms_eq_weave (nodes : List Node) : atoms nodes = weave (gaps nodes) (solids nodes) := by
  induction nodes with
  | nil => rfl
  | cons node rest ih =>
    rw [atoms_cons, ih]
    cases hnode : node.isText with
    | true =>
      obtain ⟨s, rfl⟩ := Node.exists_text_of_isText hnode
      rw [gaps_text_cons, solids_text_cons, weave_modifyHead (gaps_ne_nil rest)]
      rfl
    | false =>
      rw [gaps_cons hnode, solids_cons hnode, weave, Node.atoms_of_not_isText hnode]
      rfl

/-- The atoms of a list tell its solid nodes. -/
theorem solids_eq_of_atoms (nodes : List Node) :
    solids nodes = (atoms nodes).filterMap Atom.node? := by
  induction nodes with
  | nil => rfl
  | cons node rest ih =>
    rw [atoms_cons, List.filterMap_append, ← ih]
    cases hnode : node.isText with
    | true =>
      obtain ⟨s, rfl⟩ := Node.exists_text_of_isText hnode
      have hchars : (s.toList.map Atom.char).filterMap Atom.node? = [] := by
        rw [List.filterMap_map, List.filterMap_eq_nil_iff]
        intro c _
        rfl
      rw [solids_text_cons, Node.atoms, hchars, List.nil_append]
    | false =>
      rw [solids_cons hnode, Node.atoms_of_not_isText hnode]
      rfl

/-- Characters in front of atoms belong to their first gap. -/
theorem splitOnP_chars_append (s : List Char) (as : List Atom) :
    (s.map Atom.char ++ as).splitOnP (·.node?.isSome) =
      (as.splitOnP (·.node?.isSome)).modifyHead (s.map .char ++ ·) := by
  obtain ⟨first, more, hsplit⟩ :=
    List.exists_cons_of_ne_nil (List.splitOnP_ne_nil (·.node?.isSome) as)
  induction s with
  | nil => rw [List.map_nil, List.nil_append, hsplit]; rfl
  | cons c rest ih =>
    have hchar : (Atom.char c).node?.isSome = false := rfl
    rw [List.map_cons, List.cons_append, List.splitOnP_cons_eq_if_modifyHead, hchar,
      if_neg Bool.false_ne_true, ih, hsplit]
    rfl

/-- The atoms of a list tell its gaps. -/
theorem gaps_eq_of_atoms (nodes : List Node) :
    gaps nodes = ((atoms nodes).splitOnP (·.node?.isSome)).map
      fun as => String.ofList (as.filterMap Atom.char?) := by
  induction nodes with
  | nil => rfl
  | cons node rest ih =>
    rw [atoms_cons]
    cases hnode : node.isText with
    | true =>
      obtain ⟨s, rfl⟩ := Node.exists_text_of_isText hnode
      obtain ⟨first, more, hsplit⟩ :=
        List.exists_cons_of_ne_nil (List.splitOnP_ne_nil (·.node?.isSome) (atoms rest))
      have hchars : (s.toList.map Atom.char).filterMap Atom.char? = s.toList := by
        rw [List.filterMap_map]
        exact List.filterMap_some
      rw [gaps_text_cons, ih, Node.atoms, splitOnP_chars_append, hsplit, List.modifyHead_cons,
        List.map_cons, List.map_cons, List.modifyHead_cons, List.filterMap_append, hchars,
        String.ofList_append, String.ofList_toList]
    | false =>
      rw [gaps_cons hnode, ih, Node.atoms_of_not_isText hnode, List.singleton_append,
        List.splitOnP_cons_eq_if_modifyHead]
      rfl

/-- Two lists have the same atoms exactly if they have the same solid nodes and the same gaps. -/
theorem atoms_eq_iff {nodes others : List Node} :
    atoms nodes = atoms others ↔ solids nodes = solids others ∧ gaps nodes = gaps others := by
  constructor
  · intro h
    rw [solids_eq_of_atoms, solids_eq_of_atoms others, gaps_eq_of_atoms, gaps_eq_of_atoms others, h]
    exact ⟨rfl, rfl⟩
  · rintro ⟨hsolids, hgaps⟩
    rw [atoms_eq_weave, atoms_eq_weave others, hsolids, hgaps]

/-! ## What merging does -/

/-- Merging loses no atom. -/
theorem atoms_mergeText (nodes : List Node) : atoms (mergeText nodes) = atoms nodes := by
  rw [mergeText_eq, atoms_ofAtoms fun _ => isText_of_mem_atoms]

theorem normal_mergeText (nodes : List Node) : Normal (mergeText nodes) := by
  rw [mergeText_eq]
  exact normal_ofAtoms fun _ => isText_of_mem_atoms

/-- A normal message is merged already. -/
theorem mergeText_of_normal {nodes : List Node} (h : Normal nodes) : mergeText nodes = nodes := by
  rw [mergeText_eq, ofAtoms_atoms h]

/-- Lists are merged to the same message exactly if they have the same atoms. -/
theorem mergeText_eq_iff {nodes others : List Node} :
    mergeText nodes = mergeText others ↔ atoms nodes = atoms others := by
  constructor
  · intro h
    rw [← atoms_mergeText, h, atoms_mergeText]
  · intro h
    rw [mergeText_eq, mergeText_eq, h]

/-- Merging gives a normal form of lists of nodes.  The result has no empty text and no text beside
another, and the nodes that are no texts in order; what is merged already stays as it is, also the
parts of a list.  The form is one for all lists with the same solid nodes and the same text in every
gap, and for no others.  A list renders as its form does, to the same text or to the same failure,
whether or not the number sign stands for something. -/
theorem mergeText_normalForm (nodes others : List Node) :
    Normal (mergeText nodes) ∧
    solids (mergeText nodes) = solids nodes ∧
    mergeText (mergeText nodes) = mergeText nodes ∧
    mergeText (nodes ++ others) = mergeText (mergeText nodes ++ mergeText others) ∧
    (mergeText nodes = mergeText others ↔
      solids nodes = solids others ∧ gaps nodes = gaps others) ∧
    ∀ (setting : Setting) (pound : Option String),
      renderNodes setting pound (mergeText nodes) = renderNodes setting pound nodes := by
  have hsolids := (atoms_eq_iff.1 (atoms_mergeText nodes)).1
  have happend : atoms (nodes ++ others) = atoms (mergeText nodes ++ mergeText others) := by
    rw [atoms_append, atoms_append, atoms_mergeText, atoms_mergeText]
  exact ⟨normal_mergeText nodes, hsolids, mergeText_of_normal (normal_mergeText nodes),
    mergeText_eq_iff.2 happend, mergeText_eq_iff.trans atoms_eq_iff,
    fun setting pound => renderNodes_mergeText setting pound nodes⟩

/-- Empty texts between two texts, and in front of a node. -/
example : mergeText [.text "a", .text "", .text "b", .argument "x", .text "", .argument "y"] =
    [.text "ab", .argument "x", .argument "y"] := by decide

end Phrasebook
