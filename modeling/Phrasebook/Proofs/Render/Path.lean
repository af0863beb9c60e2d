/-
  Rendering follows one path through a message.

  The path goes through the nodes that are rendered, up to the first that fails,
  and at a selector into the branch that is entered.  A rendering depends on the
  message by what is on its path, and on the arguments by those that are named
  there.

  What may change off the path is told by single edits: a body that is not
  chosen, the order of a table, a branch that is not looked up or not chosen, a
  node behind one that fails.  Every edit keeps the outcome and the path, so the
  next one is measured by the same path, and any number of them keep the outcome
  (`render_of_changes`).
-/
import Mathlib.Logic.Relation
import Phrasebook.Proofs.Render.Arguments
import Phrasebook.Proofs.Render.Choice
import Phrasebook.Proofs.Render.Slot

set_option autoImplicit false

namespace Phrasebook

/-! ## Paths -/

/-- A node on the path: the argument that it names, the keys that it looks up and the key that it
chooses. -/
structure Visit where
  name : String
  tried : List BranchKey
  chosen : Option BranchKey
  deriving DecidableEq, Repr

/-- A node that names an argument and has no branches. -/
def Visit.leaf (name : String) : Visit := ⟨name, [], none⟩

/-- A selector on the path. -/
def Chooser.visit (setting : Setting) (c : Chooser) (entries : List (BranchKey × Message)) :
    Visit :=
  ⟨c.name, c.keysTried setting entries, (c.choice setting entries).toOption⟩

mutual

/-- What the rendering of a node visits. -/
def pathNode (setting : Setting) : Node → List Visit
  | .text _ => []
  | .argument name => [.leaf name]
  | .formatted _ name _ => [.leaf name]
  | .plural kind name offset ⟨entries⟩ =>
    (Chooser.plural kind name offset).visit setting entries ::
      match (Chooser.plural kind name offset).enter setting entries with
      | .ok (key, _) => pathBranch setting key entries
      | .error _ => []
  | .select name ⟨entries⟩ =>
    (Chooser.select name).visit setting entries ::
      match (Chooser.select name).enter setting entries with
      | .ok (key, _) => pathBranch setting key entries
      | .error _ => []
  | .foreign _ => []

/-- What the rendering of nodes visits, up to the first that fails. -/
def pathNodes (setting : Setting) : List Node → List Visit
  | [] => []
  | node :: rest =>
    pathNode setting node ++ match renderNode setting none node with
      | .ok _ => pathNodes setting rest
      | .error _ => []

/-- What the rendering of the branch with a key visits. -/
def pathBranch (setting : Setting) (key : BranchKey) : List (BranchKey × List Node) → List Visit
  | [] => []
  | (k, body) :: rest =>
    if k = key ∧ (Entries.find? key rest).isNone then pathNodes setting body
    else pathBranch setting key rest

end

/-- What the rendering of a message visits. -/
def path (setting : Setting) (message : Message) : List Visit := pathNodes setting message

theorem pathNode_node (setting : Setting) (c : Chooser) (entries : List (BranchKey × Message)) :
    pathNode setting (c.node entries) = c.visit setting entries ::
      match c.enter setting entries with
      | .ok (key, _) => pathBranch setting key entries
      | .error _ => [] := by
  cases c <;> rw [Chooser.node, pathNode]

theorem pathBranch_of_find? {setting : Setting} {key : BranchKey}
    {entries : List (BranchKey × Message)} {body : Message}
    (h : Entries.find? key entries = some body) :
    pathBranch setting key entries = pathNodes setting body :=
  Entries.eq_of_find?_eq_some (fun _ _ _ => by rw [pathBranch]) h

/-! ## Messages with the same path -/

/-- Messages of which one is rendered as the other is, along the same path. -/
structure Alike (setting : Setting) (message other : Message) : Prop where
  render_eq : ∀ pound, renderNodes setting pound other = renderNodes setting pound message
  path_eq : pathNodes setting other = pathNodes setting message

/-- The same for nodes. -/
structure AlikeNode (setting : Setting) (node other : Node) : Prop where
  render_eq : ∀ pound, renderNode setting pound other = renderNode setting pound node
  path_eq : pathNode setting other = pathNode setting node

section Alike

variable {setting : Setting}

theorem Alike.refl (message : Message) : Alike setting message message := ⟨fun _ => rfl, rfl⟩

theorem AlikeNode.refl (node : Node) : AlikeNode setting node node := ⟨fun _ => rfl, rfl⟩

theorem AlikeNode.cons {node other : Node} {rest others : Message}
    (hnode : AlikeNode setting node other) (hrest : Alike setting rest others) :
    Alike setting (node :: rest) (other :: others) where
  render_eq pound := by
    rw [renderNodes_cons, renderNodes_cons, hnode.render_eq, hrest.render_eq]
  path_eq := by
    rw [pathNodes, pathNodes, hnode.render_eq, hnode.path_eq, hrest.path_eq]

/-- A node that fails does so whatever the number sign stands for. -/
theorem renderNode_error {node : Node} {failure : RenderFailure} {pound : Option String}
    (h : renderNode setting pound node = .error failure) (pound' : Option String) :
    renderNode setting pound' node = .error failure := by
  cases node with
  | text s =>
    rw [renderNode] at h
    cases h
  | _ => rwa [renderNode] at h ⊢

/-- What stands behind a node that fails is not reached. -/
theorem alike_of_error {node : Node} {failure : RenderFailure}
    (h : renderNode setting none node = .error failure) (rest others : Message) :
    Alike setting (node :: rest) (node :: others) where
  render_eq pound := by
    rw [renderNodes_cons, renderNodes_cons, renderNode_error h pound]
    rfl
  path_eq := by
    rw [pathNodes, pathNodes, h]

/-- Two tables are entered alike if they agree on the keys that are tried, and the bodies of the key
that is chosen are alike. -/
theorem Chooser.alikeNode {c : Chooser} {entries others : List (BranchKey × Message)}
    (htried : ∀ key ∈ c.keysTried setting entries, hasKey others key = hasKey entries key)
    (hbody : ∀ key body, c.choice setting entries = .ok key →
      Entries.find? key entries = some body →
        ∃ body', Entries.find? key others = some body' ∧ Alike setting body body') :
    AlikeNode setting (c.node entries) (c.node others) := by
  obtain ⟨hchoice, hkeys⟩ := Chooser.choice_congr htried
  have henter : c.enter setting others = c.enter setting entries := by
    rw [Chooser.enter, Chooser.enter, hchoice]
  have hvisit : c.visit setting others = c.visit setting entries := by
    rw [Chooser.visit, Chooser.visit, hkeys, hchoice]
  cases h : c.enter setting entries with
  | error failure =>
    rw [h] at henter
    constructor
    · intro pound
      rw [Chooser.renderNode_node, Chooser.renderNode_node, henter, h]
      rfl
    · rw [pathNode_node, pathNode_node, henter, h, hvisit]
  | ok entered =>
    obtain ⟨key, sign⟩ := entered
    rw [h] at henter
    have hrun := Chooser.choice_of_enter h
    obtain ⟨-, hpresent⟩ := Probe.mem_tried_of_run hrun
    obtain ⟨body, hfind⟩ := Option.isSome_iff_exists.1 hpresent
    obtain ⟨body', hfind', halike⟩ := hbody key body hrun hfind
    constructor
    · intro pound
      rw [Chooser.renderNode_node, Chooser.renderNode_node, henter, h]
      show renderBranch setting sign key others = renderBranch setting sign key entries
      rw [renderBranch_of_find? hfind, renderBranch_of_find? hfind', halike.render_eq]
    · rw [pathNode_node, pathNode_node, henter, h, hvisit]
      show _ :: pathBranch setting key others = _ :: pathBranch setting key entries
      rw [pathBranch_of_find? hfind, pathBranch_of_find? hfind', halike.path_eq]

end Alike

/-! ## Edits off the path -/

/-- One edit off the path of a message, in the nodes that are rendered or in a body at any depth. -/
inductive Edit (setting : Setting) : Message → Message → Prop
  /-- what stands behind a node that fails is exchanged -/
  | unreached {node : Node} {failure : RenderFailure} (rest others : Message)
      (h : renderNode setting none node = .error failure) :
      Edit setting (node :: rest) (node :: others)
  /-- a body that is not chosen is exchanged -/
  | replace (c : Chooser) (earlier later : List (BranchKey × Message)) (key : BranchKey)
      (body body' rest : Message)
      (h : c.choice setting (earlier ++ (key, body) :: later) ≠ .ok key) :
      Edit setting (c.node (earlier ++ (key, body) :: later) :: rest)
        (c.node (earlier ++ (key, body') :: later) :: rest)
  /-- the branches of a table are put in another order -/
  | permute (c : Chooser) {entries others : List (BranchKey × Message)} (rest : Message)
      (hkeys : (Entries.keys entries).Nodup) (h : entries.Perm others) :
      Edit setting (c.node entries :: rest) (c.node others :: rest)
  /-- a branch is added whose key is not looked up -/
  | add (c : Chooser) (earlier later : List (BranchKey × Message)) (key : BranchKey)
      (body rest : Message) (h : key ∉ c.keysTried setting (earlier ++ later)) :
      Edit setting (c.node (earlier ++ later) :: rest)
        (c.node (earlier ++ (key, body) :: later) :: rest)
  /-- a branch is removed that is not chosen -/
  | remove (c : Chooser) (earlier later : List (BranchKey × Message)) (key : BranchKey)
      (body rest : Message) (h : c.choice setting (earlier ++ (key, body) :: later) ≠ .ok key) :
      Edit setting (c.node (earlier ++ (key, body) :: later) :: rest)
        (c.node (earlier ++ later) :: rest)
  /-- the edit is in a body -/
  | inside (c : Chooser) (earlier later : List (BranchKey × Message)) (key : BranchKey)
      {body body' : Message} (rest : Message) (h : Edit setting body body') :
      Edit setting (c.node (earlier ++ (key, body) :: later) :: rest)
        (c.node (earlier ++ (key, body') :: later) :: rest)
  /-- the edit is behind a node -/
  | behind (node : Node) {rest others : Message} (h : Edit setting rest others) :
      Edit setting (node :: rest) (node :: others)

section Edit

variable {setting : Setting}

/-- A body may be exchanged for one that is alike, and for any if it is not chosen. -/
theorem alikeNode_exchange {c : Chooser} {earlier later : List (BranchKey × Message)}
    {key : BranchKey} {body body' : Message}
    (h : c.choice setting (earlier ++ (key, body) :: later) = .ok key →
      Alike setting body body') :
    AlikeNode setting (c.node (earlier ++ (key, body) :: later))
      (c.node (earlier ++ (key, body') :: later)) := by
  refine Chooser.alikeNode ?_ ?_
  · intro other _
    exact (sameKeys_exchange earlier later key body body' other).symm
  · intro chosen found hchoice hfind
    by_cases hkey : key = chosen
    · subst hkey
      rw [Entries.find?_append, Entries.find?] at hfind ⊢
      cases hlater : Entries.find? key later with
      | some w =>
        -- a later branch with the key is the one that counts
        rw [hlater] at hfind
        exact ⟨found, hfind, .refl found⟩
      | none =>
        simp only [hlater, ↓reduceIte, Option.some_or, Option.some.injEq] at hfind ⊢
        subst hfind
        exact ⟨body', rfl, h hchoice⟩
    · rw [Entries.find?_exchange_of_ne hkey] at hfind ⊢
      exact ⟨found, hfind, .refl found⟩

/-- A branch may come or go whose key is not looked up. -/
theorem alikeNode_of_not_tried {c : Chooser} {entries others : List (BranchKey × Message)}
    {key : BranchKey} (htried : key ∉ c.keysTried setting entries)
    (h : ∀ other, key ≠ other → Entries.find? other others = Entries.find? other entries) :
    AlikeNode setting (c.node entries) (c.node others) := by
  have hne : ∀ other ∈ c.keysTried setting entries, key ≠ other :=
    fun other hmem heq => htried (heq ▸ hmem)
  refine Chooser.alikeNode ?_ ?_
  · intro other hmem
    rw [hasKey, hasKey, h other (hne other hmem)]
  · intro chosen found hchoice hfind
    obtain ⟨hmem, -⟩ := Probe.mem_tried_of_run hchoice
    exact ⟨found, (h chosen (hne chosen hmem)).trans hfind, .refl found⟩

/-- A key that is there and is not chosen was not looked up. -/
theorem not_tried_of_choice_ne {c : Chooser} {earlier later : List (BranchKey × Message)}
    {key : BranchKey} {body : Message}
    (h : c.choice setting (earlier ++ (key, body) :: later) ≠ .ok key) :
    key ∉ c.keysTried setting (earlier ++ (key, body) :: later) := by
  intro hmem
  refine h (Probe.run_of_mem_tried hmem ?_)
  rw [hasKey, Entries.find?_append, Entries.find?]
  cases Entries.find? key later <;> simp

theorem find?_perm {entries others : List (BranchKey × Message)}
    (hkeys : (Entries.keys entries).Nodup) (h : entries.Perm others) (key : BranchKey) :
    Entries.find? key others = Entries.find? key entries := by
  have hothers : (Entries.keys others).Nodup := (h.map Prod.fst).nodup_iff.1 hkeys
  refine Option.ext fun body => ?_
  rw [Entries.find?_eq_some_iff hothers, Entries.find?_eq_some_iff hkeys, h.mem_iff]

/-- An edit off the path keeps the outcome and the path. -/
theorem Edit.alike {message other : Message} (h : Edit setting message other) :
    Alike setting message other := by
  induction h with
  | unreached rest others h => exact alike_of_error h rest others
  | replace c earlier later key body body' rest h =>
    exact (alikeNode_exchange fun hchoice => absurd hchoice h).cons (.refl rest)
  | permute c rest hkeys h =>
    refine (Chooser.alikeNode ?_ ?_).cons (.refl rest)
    · intro key _
      rw [hasKey, hasKey, find?_perm hkeys h]
    · intro key body _ hfind
      exact ⟨body, (find?_perm hkeys h key).trans hfind, .refl body⟩
  | add c earlier later key body rest h =>
    refine (alikeNode_of_not_tried h ?_).cons (.refl rest)
    intro other hne
    exact Entries.find?_exchange_of_ne hne body earlier later
  | remove c earlier later key body rest h =>
    refine (alikeNode_of_not_tried (not_tried_of_choice_ne h) ?_).cons (.refl rest)
    intro other hne
    exact (Entries.find?_exchange_of_ne hne body earlier later).symm
  | inside c earlier later key rest _ ih =>
    exact (alikeNode_exchange fun _ => ih).cons (.refl rest)
  | behind node _ ih => exact (AlikeNode.refl node).cons ih

end Edit

/-! ## Arguments off the path -/

/-- Two settings that differ in their arguments only, and not in those that some visits name. -/
structure AgreeOn (setting other : Setting) (visits : List Visit) : Prop where
  locale_eq : other.locale = setting.locale
  rules_eq : other.rules = setting.rules
  localizer_eq : other.localizer = setting.localizer
  value_eq : ∀ visit ∈ visits, other.value visit.name = setting.value visit.name

section Arguments

variable {setting other : Setting}

theorem AgreeOn.mono {visits others : List Visit} (h : AgreeOn setting other visits)
    (hsub : ∀ visit ∈ others, visit ∈ visits) : AgreeOn setting other others :=
  ⟨h.locale_eq, h.rules_eq, h.localizer_eq, fun visit hmem => h.value_eq visit (hsub visit hmem)⟩

/-- A selector enters the same branch, and goes on there. -/
theorem node_of_agreeOn (c : Chooser) (entries : List (BranchKey × Message))
    (hbranch : ∀ key, AgreeOn setting other (pathBranch setting key entries) →
      (∀ pound, renderBranch other pound key entries = renderBranch setting pound key entries) ∧
        pathBranch other key entries = pathBranch setting key entries)
    (h : AgreeOn setting other (pathNode setting (c.node entries))) :
    (∀ pound, renderNode other pound (c.node entries) = renderNode setting pound (c.node entries)) ∧
      pathNode other (c.node entries) = pathNode setting (c.node entries) := by
  rw [pathNode_node] at h
  have hvalue : other.value c.name = setting.value c.name := h.value_eq _ List.mem_cons_self
  obtain ⟨hprobe, hpound⟩ := Chooser.probe_congr h.locale_eq h.rules_eq hvalue
  have henter : c.enter other entries = c.enter setting entries := by
    simp only [Chooser.enter, Chooser.choice, hprobe, hpound]
  have hvisit : c.visit other entries = c.visit setting entries := by
    simp only [Chooser.visit, Chooser.choice, Chooser.keysTried, hprobe]
  have hinner := h.mono fun _ hmem => List.mem_cons_of_mem _ hmem
  simp only [Chooser.renderNode_node, pathNode_node, henter, hvisit]
  cases hentered : c.enter setting entries with
  | error failure => exact ⟨fun _ => rfl, rfl⟩
  | ok entered =>
    obtain ⟨key, sign⟩ := entered
    rw [hentered] at hinner
    obtain ⟨hrender, hpath⟩ := hbranch key hinner
    exact ⟨fun _ => hrender sign, congrArg _ hpath⟩

mutual

theorem renderNode_of_agreeOn : (node : Node) → AgreeOn setting other (pathNode setting node) →
    (∀ pound, renderNode other pound node = renderNode setting pound node) ∧
      pathNode other node = pathNode setting node
  | .text s, _ => ⟨fun _ => by rw [renderNode, renderNode], by rw [pathNode, pathNode]⟩
  | .argument name, h => by
    rw [pathNode] at h
    have hvalue : other.value name = setting.value name := h.value_eq _ List.mem_cons_self
    refine ⟨fun pound => ?_, by rw [pathNode, pathNode]⟩
    rw [renderNode, renderNode, hvalue]
  | .formatted kind name style, h => by
    rw [pathNode] at h
    have hvalue : other.value name = setting.value name := h.value_eq _ List.mem_cons_self
    refine ⟨fun pound => ?_, by rw [pathNode, pathNode]⟩
    simp only [renderNode, hvalue, localized_congr h.locale_eq h.localizer_eq]
  | .plural kind name offset ⟨entries⟩, h =>
    node_of_agreeOn (.plural kind name offset) entries
      (fun key => renderBranch_of_agreeOn key entries) h
  | .select name ⟨entries⟩, h =>
    node_of_agreeOn (.select name) entries (fun key => renderBranch_of_agreeOn key entries) h
  | .foreign kindName, _ => ⟨fun _ => by rw [renderNode, renderNode], by rw [pathNode, pathNode]⟩

/-- Arguments that are not named on the path of some nodes matter neither to the outcome nor to the
path. -/
theorem renderNodes_of_agreeOn : (nodes : List Node) →
    AgreeOn setting other (pathNodes setting nodes) →
      (∀ pound, renderNodes other pound nodes = renderNodes setting pound nodes) ∧
        pathNodes other nodes = pathNodes setting nodes
  | [], _ => ⟨fun _ => by rw [renderNodes, renderNodes], by rw [pathNodes, pathNodes]⟩
  | node :: rest, h => by
    rw [pathNodes] at h
    obtain ⟨hnode, hpath⟩ :=
      renderNode_of_agreeOn node (h.mono fun _ hmem => List.mem_append_left _ hmem)
    have hrest := h.mono fun _ hmem => List.mem_append_right _ hmem
    simp only [renderNodes_cons, pathNodes, hnode, hpath]
    cases hn : renderNode setting none node with
    | error failure =>
      refine ⟨fun pound => ?_, rfl⟩
      rw [renderNode_error hn pound]
      rfl
    | ok s =>
      rw [hn] at hrest
      obtain ⟨hrender, hpaths⟩ := renderNodes_of_agreeOn rest hrest
      simp only [hrender, hpaths, implies_true, and_self]

theorem renderBranch_of_agreeOn (key : BranchKey) : (entries : List (BranchKey × List Node)) →
    AgreeOn setting other (pathBranch setting key entries) →
      (∀ pound, renderBranch other pound key entries = renderBranch setting pound key entries) ∧
        pathBranch other key entries = pathBranch setting key entries
  | [], _ => ⟨fun _ => by rw [renderBranch, renderBranch], by rw [pathBranch, pathBranch]⟩
  | (k, body) :: rest, h => by
    rw [pathBranch] at h
    simp only [renderBranch, pathBranch]
    split
    · rename_i hlast
      rw [if_pos hlast] at h
      exact renderNodes_of_agreeOn body h
    · rename_i hlast
      rw [if_neg hlast] at h
      exact renderBranch_of_agreeOn key rest h

end

end Arguments

/-! ## Any number of changes -/

/-- One change off the path of a rendering: an edit of its message, or other arguments that have the
same values for the names on the path. -/
inductive Change : Setting × Message → Setting × Message → Prop
  | edit {setting : Setting} {message other : Message} (h : Edit setting message other) :
      Change (setting, message) (setting, other)
  | arguments {setting : Setting} {message : Message} {arguments : Arguments}
      (h : ∀ visit ∈ path setting message,
        Entries.find? visit.name arguments = Entries.find? visit.name setting.arguments) :
      Change (setting, message) ({ setting with arguments }, message)

/-- One change keeps the outcome and the path. -/
theorem Change.keeps {before after : Setting × Message} (h : Change before after) :
    render after.1 after.2 = render before.1 before.2 ∧
      path after.1 after.2 = path before.1 before.2 := by
  cases h with
  | edit h => exact ⟨h.alike.render_eq none, h.alike.path_eq⟩
  | @arguments setting message arguments h =>
    have hagree : AgreeOn setting { setting with arguments } (path setting message) :=
      ⟨rfl, rfl, rfl, fun visit hmem => by simp only [Setting.value, h visit hmem]⟩
    obtain ⟨hrender, hpath⟩ := renderNodes_of_agreeOn message hagree
    exact ⟨hrender none, hpath⟩

/-- A rendering depends on the selected path alone: after any number of changes off the path, of the
message and of the arguments, its outcome is the same, be it a text or a failure, and so is the
path. -/
theorem render_of_changes {setting other : Setting} {message message' : Message}
    (h : Relation.ReflTransGen Change (setting, message) (other, message')) :
    render other message' = render setting message ∧
      path other message' = path setting message := by
  generalize hbefore : (setting, message) = before at h
  generalize hafter : (other, message') = after at h
  suffices hkeeps : render after.1 after.2 = render before.1 before.2 ∧
      path after.1 after.2 = path before.1 before.2 by
    subst hbefore hafter
    exact hkeeps
  clear hbefore hafter
  induction h with
  | refl => exact ⟨rfl, rfl⟩
  | tail _ hchange ih =>
    obtain ⟨hrender, hpath⟩ := hchange.keeps
    exact ⟨hrender.trans ih.1, hpath.trans ih.2⟩

/-- A plural selector that is not entered gives way to something that is no node, its branch moves
behind another and a third one is added, and the argument that it named is bound no more. -/
theorem render_of_changes_lazy :
    let other : BranchKey × Message := (.other, [.text "ok"])
    let before : Setting := ⟨[("g", .text "b"), ("n", .text "?")], "en", .empty, default⟩
    let after : Setting := ⟨[("g", .text "b")], "en", .empty, default⟩
    let message : Message := [.select "g" ⟨[(.name "a", [.plural .cardinal "n" 0 ⟨[]⟩]), other]⟩]
    let message' : Message := [.select "g" ⟨[other, (.name "c", []), (.name "a", [.foreign "x"])]⟩]
    Relation.ReflTransGen Change (before, message) (after, message') ∧
      render after message' = .ok "ok" := by
  intro other before after message message'
  let g : Chooser := .select "g"
  let foreign : BranchKey × Message := (.name "a", [.foreign "x"])
  have hreplace : Edit before message [g.node [foreign, other]] :=
    .replace g [] [other] (.name "a") _ [.foreign "x"] [] (by decide +kernel)
  have hpermute : Edit before [g.node [foreign, other]] [g.node [other, foreign]] :=
    .permute g [] (by decide) (List.Perm.swap other foreign [])
  have hadd : Edit before [g.node [other, foreign]] message' :=
    .add g [other] [foreign] (.name "c") [] [] (by decide +kernel)
  have hpath : path before message' = [⟨"g", [.name "b", .other], some .other⟩] := by
    decide +kernel
  have harguments : ∀ visit ∈ path before message',
      Entries.find? visit.name after.arguments = Entries.find? visit.name before.arguments := by
    intro visit hmem
    rw [hpath, List.mem_singleton] at hmem
    subst hmem
    rfl
  have hchanges : Relation.ReflTransGen Change (before, message) (after, message') :=
    (((Relation.ReflTransGen.single (.edit hreplace)).tail (.edit hpermute)).tail
      (.edit hadd)).tail (.arguments harguments)
  refine ⟨hchanges, (render_of_changes hchanges).1.trans ?_⟩
  decide +kernel

end Phrasebook
