/-
  Walks in pre-order.

  The address of a node counts the way to it: its number among the nodes of its
  message, or the number of a selector there, the number of one of the
  selector's bodies, and the address of the node in that body (`NodeAt`).  A
  node comes before the nodes inside it and before those behind it exactly if
  its address is smaller, so the pre-order of a message is the order of its
  addresses.

  A walk gives, in this order and each once, the nodes of the handled kinds that
  stand in no handled node which is not descended into (`visit_inPreorder`).
-/
import Phrasebook.Message.Visit
import Phrasebook.Proofs.Entries

set_option autoImplicit false

namespace Phrasebook

/-! ## Bodies -/

/-- The bodies of the branches of a node, in the order of their keys. -/
def Node.bodies : Node → List Message
  | .plural _ _ _ branches => branches.values
  | .select _ branches => branches.values
  | _ => []

section Induction

variable {motive : Node → Prop}

mutual

/-- What holds of a node if it holds of all nodes in its bodies holds of every node. -/
@[elab_as_elim]
theorem node_induction (step : ∀ node, (∀ body ∈ node.bodies, ∀ inner ∈ body, motive inner) →
    motive node) : (node : Node) → motive node
  | .plural kind name offset ⟨entries⟩ =>
    step (.plural kind name offset ⟨entries⟩) fun body h =>
      entries_induction step entries body (Entries.mem_values_ofPairs h)
  | .select name ⟨entries⟩ =>
    step (.select name ⟨entries⟩) fun body h =>
      entries_induction step entries body (Entries.mem_values_ofPairs h)
  | .text value => step (.text value) nofun
  | .argument name => step (.argument name) nofun
  | .formatted kind name style => step (.formatted kind name style) nofun
  | .foreign kindName => step (.foreign kindName) nofun

theorem nodes_induction (step : ∀ node, (∀ body ∈ node.bodies, ∀ inner ∈ body, motive inner) →
    motive node) : (nodes : List Node) → ∀ inner ∈ nodes, motive inner
  | [], _, h => nomatch h
  | node :: rest, inner, h =>
    (List.mem_cons.1 h).elim (fun heq => heq ▸ node_induction step node)
      (nodes_induction step rest inner)

theorem entries_induction (step : ∀ node, (∀ body ∈ node.bodies, ∀ inner ∈ body, motive inner) →
    motive node) : (entries : List (BranchKey × List Node)) →
    ∀ body ∈ Entries.values entries, ∀ inner ∈ body, motive inner
  | [], _, h => nomatch h
  | (_, first) :: rest, body, h =>
    (List.mem_cons.1 h).elim (fun heq => heq ▸ nodes_induction step first)
      (entries_induction step rest body)

end

end Induction

/-! ## The walk, body by body -/

namespace Visitor

variable (v : Visitor)

theorem visitEntries_eq_map (entries : List (BranchKey × Message)) :
    v.visitEntries entries = entries.map fun e => (e.1, v.visit e.2) := by
  induction entries with
  | nil => rw [visitEntries, List.map_nil]
  | cons e rest ih => rw [visitEntries, ih, List.map_cons]

/-- A walk gives a node, if it is handled, and then goes through its bodies, if it enters them. -/
theorem visitNode_eq (node : Node) :
    v.visitNode node =
      v.handled node ++ if v.enters node.kind then node.bodies.flatMap v.visit else [] := by
  have hvalues : ∀ entries : List (BranchKey × Message),
      (Entries.values (Entries.ofPairs (v.visitEntries entries))).flatten =
        (Entries.values (Entries.ofPairs entries)).flatMap v.visit := by
    intro entries
    rw [visitEntries_eq_map, Entries.values_ofPairs_map, List.flatMap_def]
  cases node with
  | plural kind name offset branches =>
    rw [visitNode, hvalues]
    rfl
  | select name branches =>
    rw [visitNode, hvalues]
    rfl
  | _ =>
    rw [visitNode]
    · simp [Node.bodies]
    all_goals exact nofun

theorem visit_eq_flatMap (message : Message) : v.visit message = message.flatMap v.visitNode := by
  induction message with
  | nil => rw [visit, List.flatMap_nil]
  | cons node rest ih => rw [visit, ih, List.flatMap_cons]

end Visitor

/-! ## Addresses -/

/-- The node at an address of a message, and the nodes that it stands in, outermost first. -/
inductive NodeAt : Message → List Nat → List Node → Node → Prop
  | here {message : Message} {i : Nat} {node : Node} (h : message[i]? = some node) :
    NodeAt message [i] [] node
  | inside {message body : Message} {i j : Nat} {address : List Nat} {above : List Node}
    {outer node : Node} (h : message[i]? = some outer) (hbody : outer.bodies[j]? = some body)
    (hnode : NodeAt body address above node) :
    NodeAt message (i :: j :: address) (outer :: above) node

/-- A list that holds what stands at some addresses, each once and in the order of the addresses. -/
def InPreorder {α : Type} (found : List α) (stands : List Nat → α → Prop) : Prop :=
  ∃ places : List (List Nat × α), places.Pairwise (·.1 < ·.1) ∧
    (∀ address x, (address, x) ∈ places ↔ stands address x) ∧ found = places.map Prod.snd

/-- What stands at the addresses in the parts of a list, behind the number of the part; the parts
are numbered from `n` on. -/
def AtPart {α β : Type} (stands : β → List Nat → α → Prop) (n : Nat) (parts : List β) :
    List Nat → α → Prop
  | [], _ => False
  | i :: address, x => ∃ k part, i = n + k ∧ parts[k]? = some part ∧ stands part address x

section Listing

variable {α β : Type}

theorem InPreorder.congr {found : List α} {stands other : List Nat → α → Prop}
    (h : InPreorder found stands) (hsame : ∀ address x, stands address x ↔ other address x) :
    InPreorder found other := by
  obtain ⟨places, hsorted, hmem, hfound⟩ := h
  exact ⟨places, hsorted, fun address x => (hmem address x).trans (hsame address x), hfound⟩

theorem inPreorder_nil : InPreorder ([] : List α) fun _ _ => False :=
  ⟨[], List.Pairwise.nil, fun _ _ => by simp, rfl⟩

/-- What stands at the empty address comes before everything else. -/
theorem InPreorder.root {found : List α} {stands : List Nat → α → Prop}
    (h : InPreorder found stands) (hroot : ∀ y, ¬ stands [] y) (x : α) :
    InPreorder (x :: found) fun address y => address = [] ∧ y = x ∨ stands address y := by
  obtain ⟨places, hsorted, hmem, rfl⟩ := h
  refine ⟨([], x) :: places, List.pairwise_cons.2 ⟨?_, hsorted⟩, ?_, rfl⟩
  · rintro ⟨address, y⟩ hy
    cases address with
    | nil => exact absurd ((hmem [] y).1 hy) (hroot y)
    | cons i rest => exact List.nil_lt_cons i rest
  · intro address y
    rw [List.mem_cons, Prod.mk.injEq, hmem]

/-- Parts that are listed in pre-order are so one behind the other. -/
theorem inPreorder_parts {list : β → List α} {stands : β → List Nat → α → Prop} {parts : List β}
    (h : ∀ part ∈ parts, InPreorder (list part) (stands part)) (n : Nat) :
    InPreorder (parts.flatMap list) (AtPart stands n parts) := by
  induction parts generalizing n with
  | nil =>
    refine inPreorder_nil.congr fun address x => ?_
    cases address <;> simp [AtPart]
  | cons part rest ih =>
    obtain ⟨places, hsorted, hmem, hfound⟩ := h part List.mem_cons_self
    obtain ⟨others, hsorted', hmem', hfound'⟩ :=
      ih (fun p hp => h p (List.mem_cons_of_mem part hp)) (n + 1)
    refine ⟨places.map (fun p => (n :: p.1, p.2)) ++ others,
      List.pairwise_append.2 ⟨?_, hsorted', ?_⟩, ?_, ?_⟩
    · rw [List.pairwise_map]
      exact hsorted.imp fun hlt => List.cons_lt_cons_iff.2 (.inr ⟨rfl, hlt⟩)
    · -- the number of a later part is larger
      rintro _ hfirst ⟨address, y⟩ hother
      obtain ⟨⟨address', x⟩, -, rfl⟩ := List.mem_map.1 hfirst
      cases address with
      | nil => exact absurd ((hmem' [] y).1 hother) id
      | cons i rest' =>
        obtain ⟨k, _, hi, -, -⟩ := (hmem' (i :: rest') y).1 hother
        exact List.cons_lt_cons_iff.2 (.inl (by omega))
    · intro address x
      rw [List.mem_append, hmem', List.mem_map]
      cases address with
      | nil => simp [AtPart]
      | cons i address =>
        constructor
        · rintro (⟨⟨address', y⟩, hplace, heq⟩ | ⟨k, other, rfl, hk, hat⟩)
          · cases heq
            exact ⟨0, part, rfl, rfl, (hmem _ _).1 hplace⟩
          · exact ⟨k + 1, other, by omega, hk, hat⟩
        · rintro ⟨k, other, rfl, hk, hat⟩
          cases k with
          | zero =>
            cases hk
            exact .inl ⟨(address, x), (hmem _ _).2 hat, rfl⟩
          | succ k => exact .inr ⟨k, other, by omega, hk, hat⟩
    · rw [List.flatMap_cons, hfound, hfound', List.map_append, List.map_map]
      rfl

/-- What is listed is what stands somewhere. -/
theorem InPreorder.mem_iff {found : List α} {stands : List Nat → α → Prop}
    (h : InPreorder found stands) (x : α) : x ∈ found ↔ ∃ address, stands address x := by
  obtain ⟨places, -, hmem, rfl⟩ := h
  rw [List.mem_map]
  constructor
  · rintro ⟨⟨address, y⟩, hplace, rfl⟩
    exact ⟨address, (hmem address y).1 hplace⟩
  · rintro ⟨address, hat⟩
    exact ⟨(address, x), (hmem address x).2 hat, rfl⟩

end Listing

/-! ## What a visit handles -/

namespace Visitor

variable (v : Visitor)

/-- A node at an address that is handled: one of a handled kind, in no node of a handled kind that
is not descended into. -/
def HandledAt (message : Message) (address : List Nat) (node : Node) : Prop :=
  ∃ above, NodeAt message address above node ∧ v.handles node.kind = true ∧
    ∀ outer ∈ above, v.handles outer.kind = true → v.descends outer.kind = true

/-- The same inside a node that is met, at the empty address if it is that node. -/
def HandledIn (node : Node) (address : List Nat) (inner : Node) : Prop :=
  v.handles node.kind = true ∧ address = [] ∧ inner = node ∨
    v.enters node.kind = true ∧ AtPart v.HandledAt 0 node.bodies address inner

theorem enters_iff (kind : NodeKind) :
    v.enters kind = true ↔ (v.handles kind = true → v.descends kind = true) := by
  rw [enters]
  cases v.handles kind <;> simp

theorem handledAt_iff (message : Message) (address : List Nat) (inner : Node) :
    v.HandledAt message address inner ↔ AtPart v.HandledIn 0 message address inner := by
  constructor
  · rintro ⟨above, hat, hhandles, habove⟩
    cases hat with
    | here h => exact ⟨_, _, (Nat.zero_add _).symm, h, .inl ⟨hhandles, rfl, rfl⟩⟩
    | inside h hbody hnode =>
      obtain ⟨houter, hinner⟩ := List.forall_mem_cons.1 habove
      exact ⟨_, _, (Nat.zero_add _).symm, h, .inr ⟨(v.enters_iff _).2 houter,
        _, _, (Nat.zero_add _).symm, hbody, _, hnode, hhandles, hinner⟩⟩
  · intro h
    cases address with
    | nil => exact absurd h id
    | cons i address =>
      obtain ⟨k, node, rfl, hk, hin⟩ := h
      rw [Nat.zero_add]
      rcases hin with ⟨hhandles, rfl, rfl⟩ | ⟨henters, hpart⟩
      · exact ⟨[], .here hk, hhandles, nofun⟩
      · cases address with
        | nil => exact absurd hpart id
        | cons j address =>
          obtain ⟨l, body, rfl, hl, above, hat, hhandles, habove⟩ := hpart
          rw [Nat.zero_add]
          exact ⟨node :: above, .inside hk hl hat, hhandles,
            List.forall_mem_cons.2 ⟨(v.enters_iff _).1 henters, habove⟩⟩

/-- Nodes that are each walked in pre-order are so as a message. -/
theorem visit_inPreorder_of_nodes {message : Message}
    (h : ∀ node ∈ message, InPreorder (v.visitNode node) (v.HandledIn node)) :
    InPreorder (v.visit message) (v.HandledAt message) := by
  rw [visit_eq_flatMap]
  exact (inPreorder_parts h 0).congr fun address inner =>
    (v.handledAt_iff message address inner).symm

theorem visitNode_inPreorder (node : Node) : InPreorder (v.visitNode node) (v.HandledIn node) := by
  induction node using node_induction with
  | step node ih =>
    have hbodies : InPreorder (if v.enters node.kind then node.bodies.flatMap v.visit else [])
        fun address inner => v.enters node.kind = true ∧
          AtPart v.HandledAt 0 node.bodies address inner := by
      split
      · next henters =>
        refine (inPreorder_parts (fun body h => v.visit_inPreorder_of_nodes (ih body h)) 0).congr ?_
        exact fun address inner => (and_iff_right henters).symm
      · next henters => exact inPreorder_nil.congr fun _ _ => by simp [henters]
    rw [visitNode_eq, handled]
    split
    · next hhandles =>
      refine (hbodies.root (fun inner h => h.2) node).congr fun address inner => ?_
      rw [HandledIn, hhandles]
      simp
    · next hhandles =>
      refine hbodies.congr fun address inner => ?_
      rw [HandledIn]
      simp [hhandles]

/-- A walk gives the nodes that are handled in pre-order, each once. -/
theorem visit_inPreorder (message : Message) :
    InPreorder (v.visit message) (v.HandledAt message) :=
  v.visit_inPreorder_of_nodes fun node _ => v.visitNode_inPreorder node

end Visitor

end Phrasebook
