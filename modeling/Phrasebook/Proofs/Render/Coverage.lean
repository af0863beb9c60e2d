/-
  The arguments of a message are all that its rendering can lack.

  Rendering enters one branch of a selector, and the walk that collects the
  arguments of a message enters all of them.  The two meet without a comparison
  of the walks.  A failure for want of an argument names an argument that has no
  value (`renderNodes_blamesAbsent`).  If the message did not use it, a value
  for it would change nothing (`render_congr`), and the same failure would name
  an argument that has one.
-/
import Phrasebook.Proofs.Render.Arguments

set_option autoImplicit false

namespace Phrasebook

/-! ## What a failure names -/

/-- A result that names an argument as missing only if it has no value. -/
def BlamesAbsent {α : Type} (setting : Setting) (result : Except RenderFailure α) : Prop :=
  ∀ name, result = .error (.missingArgument name) → Entries.find? name setting.arguments = none

section Steps

variable {α β : Type} {setting : Setting}

theorem blamesAbsent_ok (x : α) : BlamesAbsent setting (.ok x) := nofun

theorem blamesAbsent_pure (x : α) : BlamesAbsent setting (pure x) := blamesAbsent_ok x

/-- One step after the other names what one of them names. -/
theorem BlamesAbsent.bind {first : Except RenderFailure α} {next : α → Except RenderFailure β}
    (hfirst : BlamesAbsent setting first) (hnext : ∀ x, BlamesAbsent setting (next x)) :
    BlamesAbsent setting (first >>= next) := by
  intro name h
  cases first with
  | error failure =>
    have hfailure : failure = .missingArgument name := Except.error.inj h
    exact hfirst name (congrArg Except.error hfailure)
  | ok x => exact hnext x name h

theorem blamesAbsent_value (name : String) : BlamesAbsent setting (setting.value name) := by
  intro missing h
  rw [Setting.value] at h
  split at h
  · cases h
  · rename_i hnone
    cases h
    exact hnone

theorem blamesAbsent_onNumber (result : Except Number.Fault α) :
    BlamesAbsent setting (onNumber result) := by
  intro name h
  cases result <;> cases h

theorem blamesAbsent_localized (kind : FormatKind) (v : Value) (style : Option String) :
    BlamesAbsent setting (localized setting kind v style) := by
  rw [localized.eq_def]
  split
  · exact blamesAbsent_ok _
  · exact blamesAbsent_onNumber _
  · exact nofun

theorem blamesAbsent_numberOf (typeName argumentName : String) (v : Value) :
    BlamesAbsent setting (numberOf typeName argumentName v) := by
  rw [numberOf.eq_def]
  split
  · exact blamesAbsent_ok _
  · exact nofun

theorem blamesAbsent_chooseNamed (branches : Branches β) (typeName argumentName key : String) :
    BlamesAbsent setting (chooseNamed branches typeName argumentName key) := by
  rw [chooseNamed]
  split
  · exact blamesAbsent_ok _
  · split
    · exact blamesAbsent_ok _
    · exact nofun

/-- Choosing a branch fails for want of the argument of the selector alone. -/
theorem blamesAbsent_choosePlural (kind : PluralKind) (name : String) (offset : Int)
    (branches : Branches β) :
    BlamesAbsent setting (choosePlural setting kind name offset branches) := by
  rw [choosePlural]
  refine (blamesAbsent_value name).bind fun v => ?_
  refine (blamesAbsent_numberOf _ _ v).bind fun n => ?_
  refine (blamesAbsent_onNumber _).bind fun shifted => ?_
  have hnumber : ∀ key : BranchKey, BlamesAbsent setting (do
      let number ← onNumber shifted.text
      return (key, number)) :=
    fun key => (blamesAbsent_onNumber _).bind fun _ => blamesAbsent_pure _
  cases chooseExact? branches n with
  | some key => exact (blamesAbsent_pure key).bind hnumber
  | none =>
    refine (blamesAbsent_onNumber _).bind fun category => ?_
    exact (blamesAbsent_chooseNamed branches _ _ category).bind hnumber

theorem blamesAbsent_chooseKeyword (name : String) (branches : Branches β) :
    BlamesAbsent setting (chooseKeyword setting name branches) := by
  rw [chooseKeyword]
  refine (blamesAbsent_value name).bind fun v => ?_
  exact (blamesAbsent_onNumber _).bind fun _ => blamesAbsent_chooseNamed _ _ _ _

end Steps

mutual

theorem renderNode_blamesAbsent (setting : Setting) (pound : Option String) : (node : Node) →
    BlamesAbsent setting (renderNode setting pound node)
  | .text s => by
    rw [renderNode]
    exact blamesAbsent_ok _
  | .argument name => by
    rw [renderNode]
    exact (blamesAbsent_value name).bind fun _ => blamesAbsent_onNumber _
  | .formatted kind name style => by
    rw [renderNode]
    exact (blamesAbsent_value name).bind fun v => blamesAbsent_localized kind v style
  | .plural kind name offset ⟨entries⟩ => by
    rw [renderNode]
    refine (blamesAbsent_choosePlural kind name offset _).bind fun chosen => ?_
    exact renderBranch_blamesAbsent setting _ chosen.1 entries
  | .select name ⟨entries⟩ => by
    rw [renderNode]
    refine (blamesAbsent_chooseKeyword name _).bind fun key => ?_
    exact renderBranch_blamesAbsent setting none key entries
  | .foreign kindName => by
    rw [renderNode]
    exact nofun

/-- Rendering fails for want of an argument only if that argument has no value. -/
theorem renderNodes_blamesAbsent (setting : Setting) (pound : Option String) :
    (nodes : List Node) → BlamesAbsent setting (renderNodes setting pound nodes)
  | [] => by
    rw [renderNodes]
    exact blamesAbsent_ok _
  | node :: rest => by
    rw [renderNodes]
    refine (renderNode_blamesAbsent setting pound node).bind fun _ => ?_
    exact (renderNodes_blamesAbsent setting pound rest).bind fun _ => blamesAbsent_pure _

theorem renderBranch_blamesAbsent (setting : Setting) (pound : Option String) (key : BranchKey) :
    (entries : List (BranchKey × List Node)) →
      BlamesAbsent setting (renderBranch setting pound key entries)
  | [] => by
    rw [renderBranch]
    exact blamesAbsent_ok _
  | (k, body) :: rest => by
    rw [renderBranch]
    split
    · exact renderNodes_blamesAbsent setting pound body
    · exact renderBranch_blamesAbsent setting pound key rest

end

/-! ## What a message lacks -/

theorem mem_argumentNames_iff {message : Message} {name : String} :
    name ∈ argumentNames message ↔ requiresArgument message name = true := by
  rw [requiresArgument, List.contains_iff_mem]

/-- Arguments with the same values for the names of a message render it alike. -/
theorem render_arguments_congr {setting : Setting} {message : Message} {arguments : Arguments}
    (h : ∀ name ∈ argumentNames message,
      Entries.find? name arguments = Entries.find? name setting.arguments) :
    render { setting with arguments } message = render setting message := by
  refine render_congr rfl rfl rfl ?_
  intro name hname
  simp only [Setting.value, h name (mem_argumentNames_iff.2 hname)]

/-- What a message lacks, it uses. -/
theorem mem_argumentNames_of_missing {setting : Setting} {message : Message} {name : String}
    (h : render setting message = .error (.missingArgument name)) :
    name ∈ argumentNames message := by
  by_contra hnot
  -- a value for an argument that is not used makes no difference
  have hsame : render { setting with arguments := setting.arguments ++ [(name, .null)] } message =
      render setting message := by
    refine render_arguments_congr ?_
    intro other hother
    have hne : name ≠ other := fun heq => hnot (heq ▸ hother)
    rw [Entries.find?_append, Entries.find?_singleton, if_neg hne, Option.none_or]
  have hnone := renderNodes_blamesAbsent _ none message name (hsame.trans h)
  rw [Entries.find?_append, Entries.find?_singleton, if_pos rfl] at hnone
  cases hnone

/-- The names of a message cover its rendering.  An argument that a rendering lacks is among them
and has no value, so nothing is missing if all of them have values; and arguments that agree on
them render the message alike, be it to the same text or to the same failure. -/
theorem argumentNames_cover_render (setting : Setting) (message : Message) :
    (∀ name, render setting message = .error (.missingArgument name) →
      name ∈ argumentNames message ∧ Entries.find? name setting.arguments = none) ∧
    ((∀ name ∈ argumentNames message, (Entries.find? name setting.arguments).isSome = true) →
      ∀ name, render setting message ≠ .error (.missingArgument name)) ∧
    (∀ arguments : Arguments, (∀ name ∈ argumentNames message,
        Entries.find? name arguments = Entries.find? name setting.arguments) →
      render { setting with arguments } message = render setting message) := by
  have hmissing : ∀ name, render setting message = .error (.missingArgument name) →
      name ∈ argumentNames message ∧ Entries.find? name setting.arguments = none := by
    intro name h
    exact ⟨mem_argumentNames_of_missing h, renderNodes_blamesAbsent setting none message name h⟩
  refine ⟨hmissing, ?_, fun arguments h => render_arguments_congr h⟩
  intro hbound name h
  obtain ⟨hmem, hnone⟩ := hmissing name h
  have hsome := hbound name hmem
  rw [hnone] at hsome
  cases hsome

/-- An argument of the branch for everything else, inside a keyword branch. -/
theorem argumentNames_cover_nested :
    let message : Message :=
      [.plural .cardinal "n" 1 ⟨[(.name "one", [.text "#"]),
        (.name "other", [.select "kind" ⟨[(.name "a", [.argument "who"]), (.name "b", [])]⟩])]⟩]
    let setting : Setting := ⟨[("n", .number (.int 3)), ("kind", .text "a")], "en", .empty, default⟩
    "who" ∈ argumentNames message ∧ Entries.find? "who" setting.arguments = none := by
  intro message setting
  have h : render setting message = .error (.missingArgument "who") := by decide +kernel
  exact (argumentNames_cover_render setting message).1 "who" h

end Phrasebook
