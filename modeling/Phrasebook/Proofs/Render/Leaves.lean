/-
  A rendering is written by the leaves on its path.

  A leaf is a node without branches, together with the selectors that it stands
  in, nearest first.  The leaves of a message are those that a rendering comes to
  when every selector gives way to its chosen branch, in the order of the source
  (`pathLeaves`).

  What a leaf adds to the text depends on its own node and on the nearest
  selector alone (`Contributes`): the number sign of a text stands for a number
  if the nearest selector is a plural, and for itself otherwise, and a value is
  written as it is outside any selector.  The text of a message is what its
  leaves add, one after the other (`render_leaves`).
-/
import Mathlib.Data.List.Forall2
import Phrasebook.Proofs.Render.Choice
import Phrasebook.Proofs.Render.Text

set_option autoImplicit false

namespace Phrasebook

open Phrasebook.Number

/-! ## Leaves -/

/-- A node without branches, in the selectors around it, nearest first. -/
structure PlacedLeaf where
  node : Node
  around : List Chooser

mutual

/-- The leaves of a node. -/
def leavesNode (setting : Setting) (around : List Chooser) : Node → List PlacedLeaf
  | .text s => [⟨.text s, around⟩]
  | .argument name => [⟨.argument name, around⟩]
  | .formatted kind name style => [⟨.formatted kind name style, around⟩]
  | .plural kind name offset ⟨entries⟩ =>
    match (Chooser.plural kind name offset).choice setting entries with
    | .ok key => leavesBranch setting (.plural kind name offset :: around) key entries
    | .error _ => []
  | .select name ⟨entries⟩ =>
    match (Chooser.select name).choice setting entries with
    | .ok key => leavesBranch setting (.select name :: around) key entries
    | .error _ => []
  | .foreign kindName => [⟨.foreign kindName, around⟩]

/-- The leaves of several nodes. -/
def leavesNodes (setting : Setting) (around : List Chooser) : List Node → List PlacedLeaf
  | [] => []
  | node :: rest => leavesNode setting around node ++ leavesNodes setting around rest

/-- The leaves of the branch with a key. -/
def leavesBranch (setting : Setting) (around : List Chooser) (key : BranchKey) :
    List (BranchKey × List Node) → List PlacedLeaf
  | [] => []
  | (k, body) :: rest =>
    if k = key ∧ (Entries.find? key rest).isNone then leavesNodes setting around body
    else leavesBranch setting around key rest

end

/-- The leaves that the rendering of a message comes to, in the order of the source. -/
def pathLeaves (setting : Setting) (message : Message) : List PlacedLeaf :=
  leavesNodes setting [] message

theorem leavesNode_node (setting : Setting) (around : List Chooser) (c : Chooser)
    (entries : List (BranchKey × Message)) :
    leavesNode setting around (c.node entries) =
      match c.choice setting entries with
      | .ok key => leavesBranch setting (c :: around) key entries
      | .error _ => [] := by
  cases c <;> rw [Chooser.node, leavesNode]

/-! ## What a leaf adds -/

/-- A text with a number in the place of every number sign. -/
def withNumber (number s : String) : String :=
  String.ofList (s.toList.flatMap fun c => if c = '#' then number.toList else [c])

/-- What a leaf adds to the text of a message. -/
inductive Contributes (setting : Setting) : PlacedLeaf → String → Prop
  /-- a text in no selector stands for itself -/
  | outside (s : String) : Contributes setting ⟨.text s, []⟩ s
  /-- so does a text whose nearest selector compares texts -/
  | select (s name : String) (further : List Chooser) :
    Contributes setting ⟨.text s, .select name :: further⟩ s
  /-- in a text whose nearest selector is a plural, the number sign stands for the number of that
  selector less its offset -/
  | plural {kind : PluralKind} {name : String} {offset : Int} {n shifted : Numeric}
    {number : String} (s : String) (further : List Chooser)
    (hvalue : setting.value name = .ok (.number n)) (hshifted : n.subInt offset = .ok shifted)
    (hnumber : shifted.text = .ok number) :
    Contributes setting ⟨.text s, .plural kind name offset :: further⟩ (withNumber number s)
  /-- any other leaf adds the text that it has on its own -/
  | alone {node : Node} {text : String} (around : List Chooser) (hnode : ∀ s, node ≠ .text s)
    (halone : render setting [node] = .ok text) : Contributes setting ⟨node, around⟩ text

/-- Texts that leaves add one after the other make up a text. -/
def Composes (setting : Setting) (placed : List PlacedLeaf) (text : String) : Prop :=
  ∃ texts, List.Forall₂ (Contributes setting) placed texts ∧ text = String.join texts

section Composes

variable {setting : Setting} {placed others : List PlacedLeaf} {s t : String}

theorem Composes.nil : Composes setting [] "" := ⟨[], .nil, rfl⟩

theorem Composes.append (h : Composes setting placed s) (hothers : Composes setting others t) :
    Composes setting (placed ++ others) (s ++ t) := by
  obtain ⟨texts, hadd, rfl⟩ := h
  obtain ⟨texts', hadd', rfl⟩ := hothers
  refine ⟨texts ++ texts', List.rel_append hadd hadd', ?_⟩
  rw [← String.toList_inj]
  simp only [String.toList_append, String.toList_join, List.flatMap_append]

theorem Contributes.composes {leaf : PlacedLeaf} (h : Contributes setting leaf s) :
    Composes setting [leaf] s := by
  refine ⟨[s], .cons h .nil, ?_⟩
  rw [← String.toList_inj, String.toList_join, List.flatMap_singleton]

end Composes

/-! ## Number signs -/

theorem fillPound_some (number s : String) : fillPound (some number) s = withNumber number s := by
  rw [← String.toList_inj, toList_fillPound, withNumber, String.toList_ofList]
  refine congrArg (fun f => s.toList.flatMap f) (funext fun c => ?_)
  by_cases hc : c = '#'
  · simp only [fillChar, hc, ↓reduceIte, Option.getD_some]
  · simp only [fillChar, hc, ↓reduceIte, String.toList_singleton]

/-- What the number sign stands for in some selectors: the nearest one decides. -/
def signAround (setting : Setting) : List Chooser → Except RenderFailure (Option String)
  | [] => .ok none
  | nearest :: _ => nearest.pound setting

section Sign

variable {setting : Setting}

/-- A selector is entered by its choice, and gives the number sign its meaning. -/
theorem Chooser.pound_of_enter {c : Chooser} {entries : List (BranchKey × Message)}
    {key : BranchKey} {sign : Option String} (h : c.enter setting entries = .ok (key, sign)) :
    c.pound setting = .ok sign := by
  rw [enter, choice_of_enter h] at h
  cases hsign : c.pound setting with
  | error failure =>
    rw [hsign] at h
    cases h
  | ok sign' =>
    rw [hsign] at h
    cases h
    rfl

/-- Where a plural selector gives the number sign a meaning, its argument is a number, and the sign
stands for the text of that number less the offset. -/
theorem Chooser.pound_plural {kind : PluralKind} {name : String} {offset : Int}
    {sign : Option String} (h : (plural kind name offset).pound setting = .ok sign) :
    ∃ n shifted number, setting.value name = .ok (.number n) ∧ n.subInt offset = .ok shifted ∧
      shifted.text = .ok number ∧ sign = some number := by
  simp only [pound, numbers] at h
  cases hv : setting.value name with
  | error failure => simp [hv, bind, Except.bind] at h
  | ok v =>
    cases v with
    | number n =>
      cases hs : n.subInt offset with
      | error fault => simp [hv, hs, bind, Except.bind, numberOf, onNumber] at h
      | ok shifted =>
        cases ht : shifted.text with
        | error fault => simp [hv, hs, ht, bind, Except.bind, numberOf, onNumber, pure,
            Except.pure] at h
        | ok number =>
          simp only [hv, hs, ht, bind, Except.bind, numberOf, onNumber, pure, Except.pure,
            Except.ok.injEq] at h
          exact ⟨n, shifted, number, rfl, hs, ht, h.symm⟩
    | _ => simp [hv, bind, Except.bind, numberOf] at h

/-- A text adds itself, its number signs filled as the nearest selector has it. -/
theorem contributes_text {around : List Chooser} {sign : Option String}
    (hsign : signAround setting around = .ok sign) (s : String) :
    Contributes setting ⟨.text s, around⟩ (fillPound sign s) := by
  cases around with
  | nil =>
    cases hsign
    exact .outside s
  | cons nearest further =>
    cases nearest with
    | select name =>
      cases hsign
      exact .select s name further
    | plural kind name offset =>
      obtain ⟨n, shifted, number, hvalue, hshifted, hnumber, rfl⟩ := Chooser.pound_plural hsign
      rw [fillPound_some]
      exact .plural s further hvalue hshifted hnumber

/-- A value is written the same whatever the number sign stands for. -/
theorem contributes_alone {node : Node} {around : List Chooser} {sign : Option String}
    {text : String} (hnode : ∀ s, node ≠ .text s)
    (hsame : renderNode setting none node = renderNode setting sign node)
    (h : renderNode setting sign node = .ok text) :
    Contributes setting ⟨node, around⟩ text :=
  .alone around hnode (by rw [render, renderNodes_singleton, hsame, h])

end Sign

/-! ## The text of a message -/

section Render

variable {setting : Setting}

/-- A selector is written by the leaves of the branch that it enters, where it is the nearest. -/
theorem composes_node {c : Chooser} {entries : List (BranchKey × Message)} {sign : Option String}
    {around : List Chooser} {text : String}
    (h : renderNode setting sign (c.node entries) = .ok text)
    (hbranch : ∀ inner key, signAround setting (c :: around) = .ok inner →
      renderBranch setting inner key entries = .ok text →
        Composes setting (leavesBranch setting (c :: around) key entries) text) :
    Composes setting (leavesNode setting around (c.node entries)) text := by
  rw [Chooser.renderNode_node] at h
  rw [leavesNode_node]
  cases henter : c.enter setting entries with
  | error failure =>
    rw [henter] at h
    cases h
  | ok entered =>
    obtain ⟨key, inner⟩ := entered
    rw [henter] at h
    rw [Chooser.choice_of_enter henter]
    exact hbranch inner key (Chooser.pound_of_enter henter) h

mutual

theorem composes_renderNode {around : List Chooser} {sign : Option String} {text : String}
    (hsign : signAround setting around = .ok sign) : (node : Node) →
    renderNode setting sign node = .ok text →
      Composes setting (leavesNode setting around node) text
  | .text s, h => by
    rw [renderNode_text] at h
    cases h
    rw [leavesNode]
    exact (contributes_text hsign s).composes
  | .argument name, h => by
    rw [leavesNode]
    exact (contributes_alone (by simp) (by rw [renderNode, renderNode]) h).composes
  | .formatted kind name style, h => by
    rw [leavesNode]
    exact (contributes_alone (by simp) (by rw [renderNode, renderNode]) h).composes
  | .foreign kindName, h => by
    rw [leavesNode]
    exact (contributes_alone (by simp) (by rw [renderNode, renderNode]) h).composes
  | .plural kind name offset ⟨entries⟩, h =>
    composes_node (c := .plural kind name offset) h
      fun _ key hinner => composes_renderBranch hinner key entries
  | .select name ⟨entries⟩, h =>
    composes_node (c := .select name) h
      fun _ key hinner => composes_renderBranch hinner key entries

theorem composes_renderNodes {around : List Chooser} {sign : Option String} {text : String}
    (hsign : signAround setting around = .ok sign) : (nodes : List Node) →
    renderNodes setting sign nodes = .ok text →
      Composes setting (leavesNodes setting around nodes) text
  | [], h => by
    rw [renderNodes_nil] at h
    cases h
    rw [leavesNodes]
    exact .nil
  | node :: rest, h => by
    rw [renderNodes_cons] at h
    rw [leavesNodes]
    cases hnode : renderNode setting sign node with
    | error failure =>
      rw [hnode] at h
      cases h
    | ok first =>
      cases hrest : renderNodes setting sign rest with
      | error failure =>
        rw [hnode, hrest] at h
        cases h
      | ok others =>
        rw [hnode, hrest] at h
        cases h
        exact (composes_renderNode hsign node hnode).append (composes_renderNodes hsign rest hrest)

theorem composes_renderBranch {around : List Chooser} {sign : Option String} {text : String}
    (hsign : signAround setting around = .ok sign) (key : BranchKey) :
    (entries : List (BranchKey × List Node)) → renderBranch setting sign key entries = .ok text →
      Composes setting (leavesBranch setting around key entries) text
  | [], h => by
    rw [renderBranch] at h
    cases h
    rw [leavesBranch]
    exact .nil
  | (k, body) :: rest, h => by
    rw [renderBranch] at h
    rw [leavesBranch]
    split at h
    · next hlast =>
      rw [if_pos hlast]
      exact composes_renderNodes hsign body h
    · next hlast =>
      rw [if_neg hlast]
      exact composes_renderBranch hsign key rest h

end

/-- The text of a message is what the leaves on its path add, one after the other: the nearest
selector of a text says what its number sign stands for, and what is not a text is written as it is
outside any selector. -/
theorem render_leaves {message : Message} {text : String}
    (h : render setting message = .ok text) :
    ∃ texts, List.Forall₂ (Contributes setting) (pathLeaves setting message) texts ∧
      text = String.join texts :=
  composes_renderNodes rfl message h

end Render

/-- A plural in a keyword selector in a plural, with a number sign in each and one in the value of an
argument: behind the inner selectors the sign means again what it did before them. -/
theorem render_leaves_scoped :
    let setting : Setting :=
      ⟨[("n", .number (.int 4)), ("g", .text "f"), ("m", .number (.int 5)), ("s", .text "#1")],
        "en", .empty, default⟩
    let inner : Node := .plural .ordinal "m" 0 ⟨[(.other, [.text "#c"])]⟩
    let middle : Node := .select "g" ⟨[(.name "f", [.text "#b", inner, .text "#"])]⟩
    let outer : Node :=
      .plural .cardinal "n" 1 ⟨[(.other, [.text "#a", middle, .argument "s", .text "#d"])]⟩
    render setting [outer] = .ok "3a#b5c##13d" ∧
      ∃ texts, List.Forall₂ (Contributes setting) (pathLeaves setting [outer]) texts ∧
        "3a#b5c##13d" = String.join texts := by
  intro setting inner middle outer
  have h : render setting [outer] = .ok "3a#b5c##13d" := by decide +kernel
  exact ⟨h, render_leaves h⟩

end Phrasebook
