/-
  What a visitor calls.

  A visitor goes by the methods that it has decided on, and decides on further
  ones as it goes.  None of them differs from the method of its kind
  (`Tour.Sound`), so a visit makes the calls that a walk through the message
  tells, whatever was visited before (`Visitor.calls_tour`): it calls the handlers of
  the handled nodes, in pre-order and each once.

  The visit that collects the uses of arguments goes on inside every node, so it
  finds those of all nodes at any depth.
-/
import Phrasebook.Message.Dispatch
import Phrasebook.Message.Uses
import Phrasebook.Proofs.Message.Preorder

set_option autoImplicit false

namespace Phrasebook

/-! ## Tours that go on -/

/-- Whether every method that was decided on is the one of its kind. -/
def Tour.Sound (v : Visitor) (t : Tour) : Prop := ∀ e ∈ t.methods, e.2 = v.method e.1

/-- Whether a tour goes on from another by a call for each of some nodes, to the handler of its
kind. -/
structure Tour.GoesOn (v : Visitor) (found : List Node) (t t' : Tour) : Prop where
  sound : t'.Sound v
  calls : t'.calls = t.calls ++ found.map fun node => ⟨node.kind, node⟩

/-- Whether a step of a visit calls the handlers of some nodes, however far the visitor has come. -/
def Visitor.Calls (v : Visitor) (found : List Node) (step : Tour → Tour) : Prop :=
  ∀ t : Tour, t.Sound v → t.GoesOn v found (step t)

namespace Visitor

variable {v : Visitor}

theorem sound_fresh (v : Visitor) : Tour.fresh.Sound v := nofun

theorem calls_id : v.Calls [] id := fun t h => ⟨h, by simp⟩

theorem Calls.comp {found others : List Node} {first next : Tour → Tour} (h : v.Calls found first)
    (hnext : v.Calls others next) : v.Calls (found ++ others) fun t => next (first t) := by
  intro t ht
  have hfirst := h t ht
  have hothers := hnext (first t) hfirst.sound
  refine ⟨hothers.sound, ?_⟩
  rw [hothers.calls, hfirst.calls, List.map_append, List.append_assoc]

theorem calls_inTurn {α : Type} {list : α → List Node} {go : α → Tour → Tour} {parts : List α}
    (h : ∀ part ∈ parts, v.Calls (list part) (go part)) :
    v.Calls (parts.flatMap list) (inTurn (parts.map go)) := by
  induction parts with
  | nil => exact calls_id
  | cons part rest ih =>
    exact (h part List.mem_cons_self).comp (ih fun p hp => h p (List.mem_cons_of_mem part hp))

/-! ## One node -/

/-- Whether it is looked up or decided on, the method is that of the kind. -/
theorem lookUp_eq (kind : NodeKind) {t : Tour} (h : t.Sound v) :
    (v.lookUp kind t).1 = v.method kind ∧ t.GoesOn v [] (v.lookUp kind t).2 := by
  rw [lookUp]
  split
  · next method hfound =>
    exact ⟨h _ (Entries.mem_of_find?_eq_some hfound), calls_id t h⟩
  · refine ⟨rfl, ?_, (calls_id t h).calls⟩
    intro e he
    rcases Entries.mem_insert he with rfl | hmem
    · rfl
    · exact h e hmem

theorem calls_apply (node : Node) {found : List Node} {inside : Tour → Tour}
    (h : v.Calls found inside) :
    v.Calls (v.handled node ++ if v.enters node.kind then found else [])
      (v.apply (v.method node.kind) node inside) := by
  have hcall : v.Calls [node] fun t => { t with calls := t.calls ++ [⟨node.kind, node⟩] } :=
    fun t ht => ⟨ht, rfl⟩
  rw [method, handled, enters]
  cases v.handles node.kind with
  | false => exact h
  | true =>
    cases hdescends : v.descends node.kind with
    | false =>
      have hstop : v.Calls [node] (v.apply (.handler node.kind) node inside) := by
        intro t ht
        rw [apply, hdescends]
        exact hcall t ht
      exact hstop
    | true =>
      have hboth : v.Calls ([node] ++ found) (v.apply (.handler node.kind) node inside) := by
        intro t ht
        rw [apply, hdescends]
        exact hcall.comp h t ht
      exact hboth

/-- A node that is met is handled first, and then its inside is gone through if it is entered. -/
theorem calls_meet (node : Node) {found : List Node} {inside : Tour → Tour}
    (h : v.Calls found inside) :
    v.Calls (v.handled node ++ if v.enters node.kind then found else []) (v.meet node inside) := by
  intro t ht
  obtain ⟨hmethod, hgoes⟩ := lookUp_eq (v := v) node.kind ht
  have happly := calls_apply node h _ hgoes.sound
  rw [meet]
  simp only [hmethod]
  refine ⟨happly.sound, ?_⟩
  rw [happly.calls, hgoes.calls, List.map_nil, List.append_nil]

/-! ## Messages -/

variable (v)

theorem tourEntries_eq_map (entries : List (BranchKey × Message)) :
    v.tourEntries entries = entries.map fun e => (e.1, v.tour e.2) := by
  induction entries with
  | nil => rw [tourEntries, List.map_nil]
  | cons e rest ih => rw [tourEntries, ih, List.map_cons]

/-- A visit meets a node, with its bodies one after the other inside. -/
theorem tourNode_eq (node : Node) :
    v.tourNode node = v.meet node (inTurn (node.bodies.map v.tour)) := by
  cases node with
  | plural kind name offset branches =>
    rw [tourNode, tourEntries_eq_map, Entries.values_ofPairs_map]
    rfl
  | select name branches =>
    rw [tourNode, tourEntries_eq_map, Entries.values_ofPairs_map]
    rfl
  | _ =>
    rw [tourNode]
    · rfl
    all_goals exact nofun

theorem tour_eq_inTurn (message : Message) : v.tour message = inTurn (message.map v.tourNode) := by
  funext t
  induction message generalizing t with
  | nil =>
    rw [tour]
    rfl
  | cons node rest ih =>
    rw [tour]
    exact ih _

variable {v}

/-- A visit of a message calls for the nodes that its nodes are visited for. -/
theorem calls_tour_of_nodes {message : Message}
    (h : ∀ node ∈ message, v.Calls (v.visitNode node) (v.tourNode node)) :
    v.Calls (v.visit message) (v.tour message) := by
  rw [visit_eq_flatMap, tour_eq_inTurn]
  exact calls_inTurn h

theorem calls_tourNode (node : Node) : v.Calls (v.visitNode node) (v.tourNode node) := by
  induction node using node_induction with
  | step node ih =>
    rw [visitNode_eq, tourNode_eq]
    exact calls_meet node (calls_inTurn fun body hbody => calls_tour_of_nodes (ih body hbody))

/-- A visit calls the handlers of the nodes that a walk gives, however far the visitor has come. -/
theorem calls_tour (message : Message) : v.Calls (v.visit message) (v.tour message) :=
  calls_tour_of_nodes fun node _ => calls_tourNode node

/-- Whatever was visited, the methods that were decided on are those of their kinds. -/
theorem sound_toured (messages : List Message) : (v.toured messages).Sound v :=
  (calls_inTurn (fun message _ => calls_tour message) _ (sound_fresh v)).sound

end Visitor

/-! ## Uses of arguments -/

/-- The use that a node makes of an argument.  A text makes none. -/
inductive Node.Uses : Node → ArgumentUse → Prop
  | argument (name : String) : Node.Uses (.argument name) ⟨name, .plain⟩
  | number (name : String) (style : Option String) :
    Node.Uses (.formatted .number name style) ⟨name, .number⟩
  | date (name : String) (style : Option String) :
    Node.Uses (.formatted .date name style) ⟨name, .date⟩
  | time (name : String) (style : Option String) :
    Node.Uses (.formatted .time name style) ⟨name, .time⟩
  | plural (name : String) (offset : Int) (branches : Branches Message) :
    Node.Uses (.plural .cardinal name offset branches) ⟨name, .plural⟩
  | selectordinal (name : String) (offset : Int) (branches : Branches Message) :
    Node.Uses (.plural .ordinal name offset branches) ⟨name, .selectordinal⟩
  | select (name : String) (branches : Branches Message) :
    Node.Uses (.select name branches) ⟨name, .select⟩

/-- Whether a node chooses between branches: a plural or ordinal number, or a keyword. -/
inductive Node.Selects : Node → Prop
  | plural (name : String) (offset : Int) (branches : Branches Message) :
    Node.Selects (.plural .cardinal name offset branches)
  | selectordinal (name : String) (offset : Int) (branches : Branches Message) :
    Node.Selects (.plural .ordinal name offset branches)
  | select (name : String) (branches : Branches Message) : Node.Selects (.select name branches)

theorem Node.use?_eq_some_iff {node : Node} {use : ArgumentUse} :
    node.use? = some use ↔ node.Uses use := by
  constructor
  · intro h
    rw [Node.use?, Option.map_eq_some_iff] at h
    obtain ⟨kind, hkind, rfl⟩ := h
    cases node with
    | text => cases hkind
    | argument name =>
      cases hkind
      exact .argument name
    | formatted format name style =>
      cases format with
      | number =>
        cases hkind
        exact .number name style
      | date =>
        cases hkind
        exact .date name style
      | time =>
        cases hkind
        exact .time name style
    | plural number name offset branches =>
      cases number with
      | cardinal =>
        cases hkind
        exact .plural name offset branches
      | ordinal =>
        cases hkind
        exact .selectordinal name offset branches
    | select name branches =>
      cases hkind
      exact .select name branches
    | foreign => cases hkind
  · intro h
    cases h <;> rfl

theorem Node.isSelector_kind_iff {node : Node} :
    node.kind.isSelector = true ↔ node.Selects := by
  constructor
  · intro h
    cases node with
    | plural number name offset branches =>
      cases number with
      | cardinal => exact .plural name offset branches
      | ordinal => exact .selectordinal name offset branches
    | select name branches => exact .select name branches
    | _ => cases h
  · intro h
    cases h <;> rfl

/-- The visit that collects uses finds every node that uses an argument. -/
theorem mem_usingNodes_iff {message : Message} {node : Node} :
    node ∈ usingNodes message ↔
      (∃ address above, NodeAt message address above node) ∧ node.kind.use?.isSome = true := by
  rw [usingNodes, (useVisitor.visit_inPreorder message).mem_iff]
  constructor
  · rintro ⟨address, above, hat, hhandles, -⟩
    exact ⟨⟨address, above, hat⟩, hhandles⟩
  · rintro ⟨⟨address, above, hat⟩, huse⟩
    exact ⟨address, above, hat, huse, fun _ _ _ => rfl⟩

theorem mem_argumentUses_iff {message : Message} {use : ArgumentUse} :
    use ∈ argumentUses message ↔
      ∃ address above node, NodeAt message address above node ∧ node.Uses use := by
  simp only [argumentUses, List.mem_mergeSort, List.mem_eraseDups, List.mem_filterMap,
    ← Node.use?_eq_some_iff]
  constructor
  · rintro ⟨node, hnode, huse⟩
    obtain ⟨⟨address, above, hat⟩, -⟩ := mem_usingNodes_iff.1 hnode
    exact ⟨address, above, node, hat, huse⟩
  · rintro ⟨address, above, node, hat, huse⟩
    refine ⟨node, mem_usingNodes_iff.2 ⟨⟨address, above, hat⟩, ?_⟩, huse⟩
    rw [Node.use?, Option.map_eq_some_iff] at huse
    obtain ⟨kind, hkind, -⟩ := huse
    rw [hkind]
    rfl

theorem hasSelectors_iff {message : Message} :
    hasSelectors message = true ↔
      ∃ address above node, NodeAt message address above node ∧ node.Selects := by
  simp only [hasSelectors, List.any_eq_true, ← Node.isSelector_kind_iff]
  constructor
  · rintro ⟨node, hnode, hselector⟩
    obtain ⟨⟨address, above, hat⟩, -⟩ := mem_usingNodes_iff.1 hnode
    exact ⟨address, above, node, hat, hselector⟩
  · rintro ⟨address, above, node, hat, hselector⟩
    refine ⟨node, mem_usingNodes_iff.2 ⟨⟨address, above, hat⟩, ?_⟩, hselector⟩
    cases node with
    | plural kind _ _ _ => cases kind <;> rfl
    | select _ _ => rfl
    | _ => cases hselector

/-! ## Visits -/

/-- A visit is a pruned pre-order walk.  Whatever the visitor has visited before, it calls for each
node of a handled kind the handler of that kind, once and in pre-order, unless the node stands in
a handled node that is not descended into; and it calls nothing else.  So the visit that collects
the uses of a message finds those of all its nodes at any depth, and the message has selectors
exactly if one of these nodes chooses between branches. -/
theorem tour_pruned_preorder (v : Visitor) (earlier : List Message) (message : Message) :
    (∃ found, InPreorder found (fun address node => ∃ above, NodeAt message address above node ∧
        v.handles node.kind = true ∧
        ∀ outer ∈ above, v.handles outer.kind = true → v.descends outer.kind = true) ∧
      (v.tour message (v.toured earlier)).calls =
        (v.toured earlier).calls ++ found.map fun node => ⟨node.kind, node⟩) ∧
    (useVisitor.tour message .fresh).calls.map Call.node = usingNodes message ∧
    (∀ use, use ∈ argumentUses message ↔
      ∃ address above node, NodeAt message address above node ∧ node.Uses use) ∧
    (hasSelectors message = true ↔
      ∃ address above node, NodeAt message address above node ∧ node.Selects) := by
  refine ⟨⟨v.visit message, v.visit_inPreorder message, ?_⟩, ?_,
    fun _ => mem_argumentUses_iff, hasSelectors_iff⟩
  · exact (Visitor.calls_tour message _ (Visitor.sound_toured earlier)).calls
  · have hcalls := (Visitor.calls_tour message _ (Visitor.sound_fresh useVisitor)).calls
    rw [hcalls, List.map_append, List.map_map, usingNodes]
    exact List.map_id _

end Phrasebook
