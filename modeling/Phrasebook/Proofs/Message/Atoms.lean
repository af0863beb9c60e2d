/-
  Messages as runs of characters and nodes.

  A message has a normal form: no text is empty and no two texts stand side by
  side.  Such a message is known by its atoms, which are the characters of its
  texts one by one and its other nodes.  `atoms` takes a message apart,
  `ofAtoms` makes every longest run of characters one text again, and merging
  is the one followed by the other (`mergeText_eq`).
-/
import Mathlib.Data.List.Chain
import Phrasebook.Message.Merge

set_option autoImplicit false

namespace Phrasebook

/-! ## Normal messages -/

/-- Whether a node is a text. -/
def Node.isText : Node → Bool
  | .text _ => true
  | _ => false

/-- Nodes of which no text is empty and no two texts stand side by side. -/
structure Normal (nodes : List Node) : Prop where
  noEmpty : Node.text "" ∉ nodes
  apart : nodes.IsChain fun a b => a.isText = true → b.isText = false

theorem normal_nil : Normal [] := ⟨List.not_mem_nil, List.IsChain.nil⟩

theorem Normal.tail {node : Node} {nodes : List Node} (h : Normal (node :: nodes)) :
    Normal nodes :=
  ⟨fun hm => h.noEmpty (List.mem_cons_of_mem node hm), h.apart.tail⟩

/-- A node that is no text may stand in front of every normal message. -/
theorem Normal.cons {node : Node} {nodes : List Node} (h : Normal nodes)
    (hnode : node.isText = false) : Normal (node :: nodes) := by
  constructor
  · intro hm
    rcases List.mem_cons.1 hm with heq | hm
    · rw [← heq] at hnode
      cases hnode
    · exact h.noEmpty hm
  · refine h.apart.cons ?_
    intro _ _ htext
    rw [hnode] at htext
    cases htext

/-- A text that is not empty may stand in front of a normal message that does not begin with
one. -/
theorem Normal.consText {s : String} {nodes : List Node} (h : Normal nodes) (hs : s ≠ "")
    (hhead : ∀ node ∈ nodes.head?, node.isText = false) : Normal (.text s :: nodes) := by
  constructor
  · intro hm
    rcases List.mem_cons.1 hm with heq | hm
    · exact hs (Node.text.inj heq).symm
    · exact h.noEmpty hm
  · exact h.apart.cons fun node hnode _ => hhead node hnode

/-- In a normal message no text follows a text. -/
theorem Normal.head?_isText {s : String} {nodes : List Node} (h : Normal (.text s :: nodes)) :
    ∀ node ∈ nodes.head?, node.isText = false :=
  fun _ hnode => h.apart.rel_head? hnode rfl

theorem Normal.text_ne {s : String} {nodes : List Node} (h : Normal (.text s :: nodes)) :
    s ≠ "" := by
  rintro rfl
  exact h.noEmpty List.mem_cons_self

/-- A normal message takes a further node at its end, unless it is an empty text or follows a text
as a text. -/
theorem normal_append_singleton {nodes : List Node} {node : Node} :
    Normal (nodes ++ [node]) ↔ Normal nodes ∧ node ≠ .text "" ∧
      ∀ last ∈ nodes.getLast?, last.isText = true → node.isText = false := by
  constructor
  · intro h
    obtain ⟨hleft, -, hjoin⟩ := List.isChain_append.1 h.apart
    refine ⟨⟨fun hm => h.noEmpty (List.mem_append_left _ hm), hleft⟩, ?_, ?_⟩
    · rintro rfl
      exact h.noEmpty (List.mem_append_right _ List.mem_cons_self)
    · intro last hlast
      exact hjoin last hlast node rfl
  · rintro ⟨h, hnode, hlast⟩
    constructor
    · intro hm
      rcases List.mem_append.1 hm with hm | hm
      · exact h.noEmpty hm
      · exact hnode (List.mem_singleton.1 hm).symm
    · refine List.isChain_append.2 ⟨h.apart, List.IsChain.singleton node, ?_⟩
      intro last hl other ho
      cases ho
      exact hlast last hl

/-! ## Atoms -/

/-- What a message consists of: the characters of its texts, and its other nodes. -/
inductive Atom where
  | char (c : Char)
  | node (n : Node)

/-- The atoms of a node. -/
def Node.atoms : Node → List Atom
  | .text s => s.toList.map .char
  | node => [.node node]

/-- The atoms of a message. -/
def atoms (nodes : List Node) : List Atom := nodes.flatMap Node.atoms

@[simp] theorem atoms_nil : atoms [] = [] := rfl

theorem atoms_cons (node : Node) (nodes : List Node) :
    atoms (node :: nodes) = node.atoms ++ atoms nodes := rfl

theorem atoms_append (nodes others : List Node) :
    atoms (nodes ++ others) = atoms nodes ++ atoms others := List.flatMap_append

/-- The nodes among the atoms of a message are nodes of the message. -/
theorem mem_of_mem_atoms {nodes : List Node} {node : Node} (h : Atom.node node ∈ atoms nodes) :
    node ∈ nodes := by
  obtain ⟨n, hmem, hn⟩ := List.mem_flatMap.1 h
  cases n with
  | text s => simp [Node.atoms] at hn
  | _ =>
    simp only [Node.atoms, List.mem_singleton, Atom.node.injEq] at hn
    rwa [hn]

/-- No text is an atom. -/
theorem isText_of_mem_atoms {nodes : List Node} {node : Node} (h : Atom.node node ∈ atoms nodes) :
    node.isText = false := by
  obtain ⟨n, -, hn⟩ := List.mem_flatMap.1 h
  cases n with
  | text s => simp [Node.atoms] at hn
  | _ =>
    simp only [Node.atoms, List.mem_singleton, Atom.node.injEq] at hn
    rw [hn]
    rfl

/-! ## Messages of atoms -/

/-- Puts a character in front of a message, into the text at its front if there is one. -/
def consChar (c : Char) : Message → Message
  | .text s :: rest => .text (String.ofList (c :: s.toList)) :: rest
  | nodes => .text (String.ofList [c]) :: nodes

/-- The message of atoms, in which every longest run of characters is one text. -/
def ofAtoms : List Atom → Message
  | [] => []
  | .char c :: rest => consChar c (ofAtoms rest)
  | .node n :: rest => n :: ofAtoms rest

theorem ofList_cons_ne_empty (c : Char) (s : List Char) : String.ofList (c :: s) ≠ "" := by
  intro h
  have hl := congrArg String.toList h
  simp at hl

theorem Normal.consChar {nodes : Message} (h : Normal nodes) (c : Char) :
    Normal (consChar c nodes) := by
  unfold Phrasebook.consChar
  split
  · exact h.tail.consText (ofList_cons_ne_empty _ _) h.head?_isText
  · rename_i hno
    refine h.consText (ofList_cons_ne_empty _ _) ?_
    intro node hnode
    cases node with
    | text s =>
      cases nodes with
      | nil => cases hnode
      | cons n rest =>
        cases Option.mem_some.1 hnode
        exact absurd rfl (hno s rest)
    | _ => rfl

/-- The message of atoms is normal if no text hides among them. -/
theorem normal_ofAtoms {as : List Atom} (h : ∀ node, .node node ∈ as → node.isText = false) :
    Normal (ofAtoms as) := by
  induction as with
  | nil => exact normal_nil
  | cons a rest ih =>
    have hrest := ih fun node hm => h node (List.mem_cons_of_mem a hm)
    cases a with
    | char c => exact hrest.consChar c
    | node n => exact hrest.cons (h n List.mem_cons_self)

/-- The nodes that are made of atoms are texts and the nodes among the atoms. -/
theorem mem_ofAtoms {node : Node} {as : List Atom} (h : node ∈ ofAtoms as) :
    node.isText = true ∨ .node node ∈ as := by
  induction as with
  | nil => cases h
  | cons a rest ih =>
    have hrest : node ∈ ofAtoms rest → node.isText = true ∨ .node node ∈ a :: rest :=
      fun hm => (ih hm).imp_right (List.mem_cons_of_mem a)
    cases a with
    | char c =>
      rw [ofAtoms] at h
      unfold consChar at h
      split at h
      · rename_i heq
        rcases List.mem_cons.1 h with rfl | hm
        · exact .inl rfl
        · exact hrest (heq ▸ List.mem_cons_of_mem _ hm)
      · rcases List.mem_cons.1 h with rfl | hm
        · exact .inl rfl
        · exact hrest hm
    | node n =>
      rcases List.mem_cons.1 h with rfl | hm
      · exact .inr List.mem_cons_self
      · exact hrest hm

/-- A run of characters in front of a message that does not begin with a text is one text. -/
theorem ofAtoms_chars_append {s : List Char} {as : List Atom} (hs : s ≠ [])
    (hhead : ∀ node ∈ (ofAtoms as).head?, node.isText = false) :
    ofAtoms (s.map .char ++ as) = .text (String.ofList s) :: ofAtoms as := by
  induction s with
  | nil => exact absurd rfl hs
  | cons c rest ih =>
    rw [List.map_cons, List.cons_append, ofAtoms]
    by_cases hrest : rest = []
    · subst hrest
      rw [List.map_nil, List.nil_append]
      unfold consChar
      split
      · rename_i s' rest' heq
        rw [heq] at hhead
        exact absurd (hhead _ rfl) (by simp [Node.isText])
      · rfl
    · rw [ih hrest]
      simp [consChar]

/-- Making a message of atoms loses none of them, if no text hides among them. -/
theorem atoms_ofAtoms {as : List Atom} (h : ∀ node, .node node ∈ as → node.isText = false) :
    atoms (ofAtoms as) = as := by
  induction as with
  | nil => rfl
  | cons a rest ih =>
    have hrest := ih fun node hm => h node (List.mem_cons_of_mem a hm)
    cases a with
    | char c =>
      have hchar : ∀ nodes : Message, atoms (consChar c nodes) = .char c :: atoms nodes := by
        intro nodes
        unfold consChar
        split
        · simp [atoms_cons, Node.atoms]
        · simp [atoms_cons, Node.atoms]
      rw [ofAtoms, hchar, hrest]
    | node n =>
      have hnode : n.atoms = [.node n] := by
        have htext := h n List.mem_cons_self
        cases n with
        | text s => cases htext
        | _ => rfl
      rw [ofAtoms, atoms_cons, hnode, hrest]
      rfl

/-- A node that is no text keeps what is in front of it apart from what is behind. -/
theorem ofAtoms_append_node {node : Node} (hnode : node.isText = false) (as bs : List Atom) :
    ofAtoms (as ++ .node node :: bs) = ofAtoms as ++ node :: ofAtoms bs := by
  induction as with
  | nil => rfl
  | cons a rest ih =>
    rw [List.cons_append]
    cases a with
    | node n => rw [ofAtoms, ofAtoms, ih, List.cons_append]
    | char c =>
      rw [ofAtoms, ofAtoms, ih]
      cases hrest : ofAtoms rest with
      | nil =>
        cases node with
        | text s => cases hnode
        | _ => rfl
      | cons first more =>
        cases first with
        | text s => rfl
        | _ => rfl

/-- A normal message is known by its atoms. -/
theorem ofAtoms_atoms {nodes : List Node} (h : Normal nodes) : ofAtoms (atoms nodes) = nodes := by
  induction nodes with
  | nil => rfl
  | cons node rest ih =>
    have hrest := ih h.tail
    rw [atoms_cons]
    cases node with
    | text s =>
      have hs : s.toList ≠ [] := by
        intro hnil
        exact h.text_ne (by rw [← String.ofList_toList (s := s), hnil])
      have hhead : ∀ node ∈ (ofAtoms (atoms rest)).head?, node.isText = false := by
        rw [hrest]
        exact h.head?_isText
      rw [Node.atoms, ofAtoms_chars_append hs hhead, hrest, String.ofList_toList]
    | _ => exact congrArg (_ :: ·) hrest

/-! ## Merging -/

/-- One step of merging keeps the message read so far normal and adds the atoms of the node. -/
theorem pushNode_spec {merged : List Node} (h : Normal merged.reverse) (node : Node) :
    Normal (pushNode merged node).reverse ∧
      atoms (pushNode merged node).reverse = atoms merged.reverse ++ node.atoms := by
  cases node with
  | text value =>
    by_cases hv : value = ""
    · subst hv
      simp only [pushNode, ↓reduceIte]
      exact ⟨h, by simp [Node.atoms]⟩
    · have hne : Node.text value ≠ .text "" := fun heq => hv (Node.text.inj heq)
      simp only [pushNode, hv, ↓reduceIte]
      split
      · -- the text read last takes up the new one
        rename_i before rest
        rw [List.reverse_cons] at h ⊢
        rw [List.reverse_cons]
        obtain ⟨hrest, hb, hlast⟩ := normal_append_singleton.1 h
        refine ⟨normal_append_singleton.2 ⟨hrest, ?_, hlast⟩, ?_⟩
        · intro heq
          have hempty := congrArg String.toList (Node.text.inj heq)
          simp only [String.toList_append, String.toList_empty, List.append_eq_nil_iff] at hempty
          exact hv (String.toList_eq_nil_iff.1 hempty.2)
        · rw [atoms_append, atoms_append, atoms_cons, atoms_cons, Node.atoms, Node.atoms,
            Node.atoms, String.toList_append, List.map_append]
          simp
      · rename_i hno
        rw [List.reverse_cons, normal_append_singleton, atoms_append]
        refine ⟨⟨h, hne, ?_⟩, by rw [atoms_cons, atoms_nil, List.append_nil]⟩
        intro last hlast htext
        rw [List.getLast?_reverse] at hlast
        cases last with
        | text s =>
          cases merged with
          | nil => cases hlast
          | cons n rest =>
            cases Option.mem_some.1 hlast
            exact absurd rfl (hno s rest)
        | _ => cases htext
  | _ =>
    simp only [pushNode]
    rw [List.reverse_cons, normal_append_singleton, atoms_append]
    refine ⟨⟨h, by simp, ?_⟩, by rw [atoms_cons, atoms_nil, List.append_nil]⟩
    intro _ _ _
    rfl

/-- Merging takes a message apart and makes every longest run of characters one text. -/
theorem mergeText_eq (nodes : List Node) : mergeText nodes = ofAtoms (atoms nodes) := by
  have hfold : ∀ (rest merged : List Node), Normal merged.reverse →
      Normal (rest.foldl pushNode merged).reverse ∧
        atoms (rest.foldl pushNode merged).reverse = atoms merged.reverse ++ atoms rest := by
    intro rest
    induction rest with
    | nil => intro merged h; exact ⟨h, by simp⟩
    | cons node rest ih =>
      intro merged h
      obtain ⟨hn, ha⟩ := pushNode_spec h node
      obtain ⟨hn', ha'⟩ := ih _ hn
      refine ⟨hn', ?_⟩
      rw [List.foldl_cons, ha', ha, atoms_cons, List.append_assoc]
  obtain ⟨hn, ha⟩ := hfold nodes [] normal_nil
  rw [List.reverse_nil, atoms_nil, List.nil_append] at ha
  rw [mergeText, ← ha, ofAtoms_atoms hn]

end Phrasebook
