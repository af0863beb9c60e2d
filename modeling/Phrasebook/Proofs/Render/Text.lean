/-
  Rendering does not see how text is cut.

  The text of a message is the texts of its nodes one after the other, and the
  first node that fails fails for all.  Filling number signs works character by
  character, so joining neighbouring texts, or dropping an empty one, changes
  neither the text of a message nor its failure (`renderNodes_mergeText`).
-/
import Phrasebook.Message.Merge
import Phrasebook.Render

set_option autoImplicit false

namespace Phrasebook

/-! ## Number signs -/

/-- What a character stands for where the number sign has a meaning or none. -/
def fillChar (pound : Option String) (c : Char) : String :=
  if c = '#' then pound.getD "#" else String.singleton c

theorem toList_fillPound (pound : Option String) (s : String) :
    (fillPound pound s).toList = s.toList.flatMap fun c => (fillChar pound c).toList := by
  cases pound with
  | none =>
    have hself : ∀ c, (fillChar none c).toList = [c] := by
      intro c
      by_cases hc : c = '#'
      · simp [fillChar, hc]
      · simp [fillChar, hc]
    simp [fillPound, hself]
  | some number =>
    simp only [fillPound, String.toList_join, List.flatMap_map]
    rfl

theorem fillPound_append (pound : Option String) (s t : String) :
    fillPound pound (s ++ t) = fillPound pound s ++ fillPound pound t := by
  rw [← String.toList_inj]
  simp only [toList_fillPound, String.toList_append, List.flatMap_append]

theorem fillPound_empty (pound : Option String) : fillPound pound "" = "" := by
  rw [← String.toList_inj, toList_fillPound]
  rfl

/-- A text without a number sign stands for itself. -/
theorem fillPound_of_not_mem {s : String} (h : '#' ∉ s.toList) (pound : Option String) :
    fillPound pound s = s := by
  rw [← String.toList_inj, toList_fillPound]
  have hself : ∀ c ∈ s.toList, (fillChar pound c).toList = [c] := by
    intro c hc
    have hne : c ≠ '#' := fun heq => h (heq ▸ hc)
    simp [fillChar, hne]
  rw [List.flatMap_def, List.map_congr_left hself, ← List.flatMap_def]
  simp

/-! ## Texts one after the other -/

/-- One text behind another.  The first failure counts. -/
def joined (first others : Except RenderFailure String) : Except RenderFailure String := do
  let s ← first
  let t ← others
  return s ++ t

theorem joined_assoc (a b c : Except RenderFailure String) :
    joined (joined a b) c = joined a (joined b c) := by
  cases a with
  | error e => rfl
  | ok s =>
    cases b with
    | error e => rfl
    | ok t =>
      cases c with
      | error e => rfl
      | ok u => exact congrArg Except.ok String.append_assoc

@[simp] theorem joined_empty_left (a : Except RenderFailure String) : joined (.ok "") a = a := by
  cases a with
  | error e => rfl
  | ok s => exact congrArg Except.ok String.empty_append

@[simp] theorem joined_empty_right (a : Except RenderFailure String) : joined a (.ok "") = a := by
  cases a with
  | error e => rfl
  | ok s => exact congrArg Except.ok String.append_empty

variable (setting : Setting) (pound : Option String)

theorem renderNodes_nil : renderNodes setting pound [] = .ok "" := by
  rw [renderNodes]

theorem renderNodes_cons (node : Node) (nodes : List Node) :
    renderNodes setting pound (node :: nodes) =
      joined (renderNode setting pound node) (renderNodes setting pound nodes) := by
  rw [renderNodes, joined]

theorem renderNodes_append (nodes others : List Node) :
    renderNodes setting pound (nodes ++ others) =
      joined (renderNodes setting pound nodes) (renderNodes setting pound others) := by
  induction nodes with
  | nil => rw [List.nil_append, renderNodes_nil, joined_empty_left]
  | cons node rest ih =>
    rw [List.cons_append, renderNodes_cons, renderNodes_cons, ih, joined_assoc]

theorem renderNodes_singleton (node : Node) :
    renderNodes setting pound [node] = renderNode setting pound node := by
  rw [renderNodes_cons, renderNodes_nil, joined_empty_right]

theorem renderNode_text (s : String) :
    renderNode setting pound (.text s) = .ok (fillPound pound s) := by
  rw [renderNode]

/-! ## Merging -/

/-- One step of merging adds the text of the node. -/
theorem renderNodes_pushNode (merged : List Node) (node : Node) :
    renderNodes setting pound (pushNode merged node).reverse =
      joined (renderNodes setting pound merged.reverse) (renderNode setting pound node) := by
  have hpush : renderNodes setting pound (node :: merged).reverse =
      joined (renderNodes setting pound merged.reverse) (renderNode setting pound node) := by
    rw [List.reverse_cons, renderNodes_append, renderNodes_singleton]
  cases node with
  | text value =>
    by_cases hv : value = ""
    · subst hv
      simp only [pushNode, ↓reduceIte]
      rw [renderNode_text, fillPound_empty, joined_empty_right]
    · simp only [pushNode, hv, ↓reduceIte]
      split
      · rename_i before rest
        rw [List.reverse_cons, List.reverse_cons, renderNodes_append, renderNodes_append,
          joined_assoc, renderNodes_singleton, renderNodes_singleton, renderNode_text,
          renderNode_text, renderNode_text, fillPound_append]
        rfl
      · exact hpush
  | _ => exact hpush

/-- Merging changes neither the text of a message nor its failure. -/
theorem renderNodes_mergeText (nodes : List Node) :
    renderNodes setting pound (mergeText nodes) = renderNodes setting pound nodes := by
  have hfold : ∀ (rest merged : List Node),
      renderNodes setting pound (rest.foldl pushNode merged).reverse =
        joined (renderNodes setting pound merged.reverse) (renderNodes setting pound rest) := by
    intro rest
    induction rest with
    | nil =>
      intro merged
      rw [List.foldl_nil, renderNodes_nil, joined_empty_right]
    | cons node rest ih =>
      intro merged
      rw [List.foldl_cons, ih, renderNodes_pushNode, joined_assoc, ← renderNodes_cons]
  rw [mergeText, hfold, List.reverse_nil, renderNodes_nil, joined_empty_left]

end Phrasebook
