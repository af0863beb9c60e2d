/-
  Rendering looks at the arguments that a message uses, and at no others.

  Two settings that differ in their arguments only, and agree on every argument
  that a message uses, render it alike (`render_congr`); so do settings with
  other rules that choose alike for its plural selectors (`Agree`).  A walk
  through a message goes on inside every selector, and of the branches of one key
  it takes the last, which is the one that rendering takes; so whatever body is
  rendered, its arguments are among those of the message.
-/
import Phrasebook.Message.Uses
import Phrasebook.Proofs.Entries
import Phrasebook.Proofs.Render.Text

set_option autoImplicit false

namespace Phrasebook

/-! ## What a message uses -/

theorem requiresArgument_iff {message : Message} {name : String} :
    requiresArgument message name = true ↔
      ∃ node ∈ usingNodes message, ∃ use, node.use? = some use ∧ use.name = name := by
  simp only [requiresArgument, argumentNames, argumentUses, List.contains_iff_mem,
    List.mem_eraseDups, List.mem_map, List.mem_mergeSort, List.mem_filterMap]
  constructor
  · rintro ⟨use, ⟨node, hnode, huse⟩, rfl⟩
    exact ⟨node, hnode, use, huse, rfl⟩
  · rintro ⟨node, hnode, use, huse, rfl⟩
    exact ⟨use, ⟨node, hnode, huse⟩, rfl⟩

/-- The visit of a table finds, for each key, the visit of its last body. -/
theorem find?_visitEntries (v : Visitor) (key : BranchKey)
    (entries : List (BranchKey × Message)) :
    Entries.find? key (v.visitEntries entries) = (Entries.find? key entries).map v.visit := by
  induction entries with
  | nil => simp [Visitor.visitEntries]
  | cons e rest ih =>
    obtain ⟨k, body⟩ := e
    rw [Visitor.visitEntries, Entries.find?, ih, Entries.find?]
    cases Entries.find? key rest with
    | some w => rfl
    | none =>
      by_cases hk : k = key
      · simp [hk]
      · simp [hk]

/-- What a body uses is used by its table. -/
theorem mem_flatten_of_find? {v : Visitor} {key : BranchKey}
    {entries : List (BranchKey × Message)} {body : Message}
    (h : Entries.find? key entries = some body) {node : Node} (hnode : node ∈ v.visit body) :
    node ∈ (Entries.values (Entries.ofPairs (v.visitEntries entries))).flatten := by
  have hfind : Entries.find? key (Entries.ofPairs (v.visitEntries entries)) =
      some (v.visit body) := by
    rw [Entries.find?_ofPairs, find?_visitEntries, h]
    rfl
  have hmem := List.mem_map_of_mem (f := Prod.snd) (Entries.mem_of_find?_eq_some hfind)
  exact List.mem_flatten.2 ⟨v.visit body, hmem, hnode⟩

/-! ## The walk through the nodes that use an argument -/

theorem visitNode_argument (name : String) :
    useVisitor.visitNode (.argument name) = [.argument name] := by
  rw [Visitor.visitNode]
  · rfl
  all_goals exact nofun

theorem visitNode_formatted (kind : FormatKind) (name : String) (style : Option String) :
    useVisitor.visitNode (.formatted kind name style) = [.formatted kind name style] := by
  rw [Visitor.visitNode]
  · cases kind <;> rfl
  all_goals exact nofun

theorem visitNode_plural (kind : PluralKind) (name : String) (offset : Int)
    (entries : List (BranchKey × Message)) :
    useVisitor.visitNode (.plural kind name offset ⟨entries⟩) =
      .plural kind name offset ⟨entries⟩ ::
        (Entries.values (Entries.ofPairs (useVisitor.visitEntries entries))).flatten := by
  rw [Visitor.visitNode]
  cases kind <;> rfl

theorem visitNode_select (name : String) (entries : List (BranchKey × Message)) :
    useVisitor.visitNode (.select name ⟨entries⟩) =
      .select name ⟨entries⟩ ::
        (Entries.values (Entries.ofPairs (useVisitor.visitEntries entries))).flatten := by
  rw [Visitor.visitNode]
  rfl

/-! ## Settings that agree -/

/-- Two settings that write values alike, and neither give the arguments of some nodes different
values nor choose for them differently. -/
structure Agree (setting other : Setting) (nodes : List Node) : Prop where
  locale_eq : other.locale = setting.locale
  localizer_eq : other.localizer = setting.localizer
  value_eq : ∀ node ∈ nodes, ∀ use, node.use? = some use →
    other.value use.name = setting.value use.name
  choosePlural_eq : ∀ (kind : PluralKind) (name : String) (offset : Int)
    (entries : List (BranchKey × Message)), .plural kind name offset ⟨entries⟩ ∈ nodes →
      choosePlural other kind name offset (⟨entries⟩ : Branches Message) =
        choosePlural setting kind name offset ⟨entries⟩

namespace Agree

variable {setting other : Setting}

theorem mono {nodes others : List Node} (h : Agree setting other nodes)
    (hsub : ∀ node ∈ others, node ∈ nodes) : Agree setting other others :=
  ⟨h.locale_eq, h.localizer_eq, fun node hnode => h.value_eq node (hsub node hnode),
    fun _ _ _ _ hnode => h.choosePlural_eq _ _ _ _ (hsub _ hnode)⟩

/-- They agree on the argument of a node that uses one. -/
theorem value_label {nodes : List Node} (h : Agree setting other nodes) {node : Node}
    (hmem : node ∈ nodes) (huses : node.kind.use?.isSome = true) :
    other.value node.label = setting.value node.label := by
  obtain ⟨kind, hkind⟩ := Option.isSome_iff_exists.1 huses
  refine h.value_eq node hmem ⟨node.label, kind⟩ ?_
  rw [Node.use?, hkind]
  rfl

end Agree

theorem localized_congr {setting other : Setting} (hlocale : other.locale = setting.locale)
    (hlocalizer : other.localizer = setting.localizer) (kind : FormatKind) (v : Value)
    (style : Option String) : localized other kind v style = localized setting kind v style := by
  simp only [localized, hlocale, hlocalizer]

/-! ## Rendering -/

section

variable {setting other : Setting}

mutual

theorem renderNode_congr (pound : Option String) : (node : Node) →
    Agree setting other (useVisitor.visitNode node) →
      renderNode other pound node = renderNode setting pound node
  | .text s, _ => by rw [renderNode, renderNode]
  | .argument name, h => by
    rw [visitNode_argument] at h
    have hvalue : other.value name = setting.value name := h.value_label List.mem_cons_self rfl
    rw [renderNode, renderNode, hvalue]
  | .formatted kind name style, h => by
    rw [visitNode_formatted] at h
    have huses : (NodeKind.formatted kind).use?.isSome = true := by cases kind <;> rfl
    have hvalue : other.value name = setting.value name := h.value_label List.mem_cons_self huses
    simp only [renderNode, hvalue, localized_congr h.locale_eq h.localizer_eq]
  | .plural kind name offset ⟨entries⟩, h => by
    rw [visitNode_plural] at h
    have hbodies : ∀ pound key, renderBranch other pound key entries =
        renderBranch setting pound key entries := by
      intro pound key
      refine renderBranch_congr pound key entries ?_
      intro body hbody
      exact h.mono fun _ hm => List.mem_cons_of_mem _ (mem_flatten_of_find? hbody hm)
    simp only [renderNode, h.choosePlural_eq _ _ _ _ List.mem_cons_self, hbodies]
  | .select name ⟨entries⟩, h => by
    rw [visitNode_select] at h
    have hvalue : other.value name = setting.value name := h.value_label List.mem_cons_self rfl
    have hbodies : ∀ pound key, renderBranch other pound key entries =
        renderBranch setting pound key entries := by
      intro pound key
      refine renderBranch_congr pound key entries ?_
      intro body hbody
      exact h.mono fun _ hm => List.mem_cons_of_mem _ (mem_flatten_of_find? hbody hm)
    simp only [renderNode, chooseKeyword, hvalue, hbodies]
  | .foreign kindName, _ => by rw [renderNode, renderNode]

theorem renderNodes_congr (pound : Option String) : (nodes : List Node) →
    Agree setting other (useVisitor.visit nodes) →
      renderNodes other pound nodes = renderNodes setting pound nodes
  | [], _ => by rw [renderNodes, renderNodes]
  | node :: rest, h => by
    rw [Visitor.visit] at h
    rw [renderNodes, renderNodes,
      renderNode_congr pound node (h.mono fun _ hm => List.mem_append_left _ hm),
      renderNodes_congr pound rest (h.mono fun _ hm => List.mem_append_right _ hm)]

theorem renderBranch_congr (pound : Option String) (key : BranchKey) :
    (entries : List (BranchKey × List Node)) →
    (∀ body, Entries.find? key entries = some body →
      Agree setting other (useVisitor.visit body)) →
      renderBranch other pound key entries = renderBranch setting pound key entries
  | [], _ => by rw [renderBranch, renderBranch]
  | (k, body) :: rest, h => by
    rw [renderBranch, renderBranch]
    split
    · rename_i hlast
      -- no later branch has the key, so this is the body that is found
      obtain ⟨rfl, hnone⟩ := hlast
      refine renderNodes_congr pound body (h body ?_)
      exact Entries.find?_cons_self_of_not_mem (Option.isNone_iff_eq_none.1 hnone)
    · refine renderBranch_congr pound key rest ?_
      intro b hb
      refine h b ?_
      rw [Entries.find?, hb]

end

/-- Settings that differ in their arguments alone choose for a plural selector by the value that they
give its argument. -/
theorem agree_of_value_eq {nodes : List Node} (hlocale : other.locale = setting.locale)
    (hrules : other.rules = setting.rules) (hlocalizer : other.localizer = setting.localizer)
    (hvalue : ∀ node ∈ nodes, ∀ use, node.use? = some use →
      other.value use.name = setting.value use.name) :
    Agree setting other nodes := by
  refine ⟨hlocale, hlocalizer, hvalue, ?_⟩
  intro kind name offset entries hmem
  have hname : other.value name = setting.value name := by
    cases kind
    · exact hvalue _ hmem ⟨name, .plural⟩ rfl
    · exact hvalue _ hmem ⟨name, .selectordinal⟩ rfl
  simp only [choosePlural, hname, hrules, hlocale]

/-- Arguments that a message does not use do not matter to it. -/
theorem render_congr {message : Message} (hlocale : other.locale = setting.locale)
    (hrules : other.rules = setting.rules) (hlocalizer : other.localizer = setting.localizer)
    (hvalue : ∀ name, requiresArgument message name = true →
      other.value name = setting.value name) :
    render other message = render setting message := by
  refine renderNodes_congr none message (agree_of_value_eq hlocale hrules hlocalizer ?_)
  intro node hnode use huse
  exact hvalue use.name (requiresArgument_iff.2 ⟨node, hnode, use, huse, rfl⟩)

end

end Phrasebook
