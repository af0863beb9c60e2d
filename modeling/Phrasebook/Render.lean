/-
  Rendering: the text of a message for given arguments.

  Texts stand for themselves and arguments for the text of their value; numbers,
  dates and times are written by a localizer, and a selector gives way to one of
  its branches.  Only the branch that is chosen is rendered, so an argument that
  occurs in no other place may be missing.

  Inside a branch of a plural selector the sign `#` stands for the number that
  was sorted, which is the argument less the offset.  Inside a branch of a
  keyword selector it stands for itself again.
-/
import Phrasebook.Localizer
import Phrasebook.Plural.Rules

set_option autoImplicit false

namespace Phrasebook

open Phrasebook.Number

/-! ## Failures -/

/-- Why a message has no text. -/
inductive RenderFailure where
  /-- no value is given for an argument -/
  | missingArgument (name : String)
  /-- a selector has neither the branch looked up nor the one for everything else -/
  | noBranch (typeName argumentName key : String)
  /-- a plural selector is given something that is no number -/
  | notANumber (typeName argumentName received : String)
  /-- the message holds something that is no node -/
  | unknownNode (kindName : String)
  /-- a value cannot be written for the locale -/
  | localizer (failure : LocalizeFailure)
  /-- arithmetic on a number fails -/
  | number (fault : Number.Fault)
  deriving DecidableEq, Repr, Inhabited

/-- The report of a failure, if the library reports it itself. -/
def RenderFailure.report? : RenderFailure → Option Report
  | .missingArgument name =>
    some ⟨.diagnostic (.missingArgument name), .missingArgument name⟩
  | .noBranch typeName argumentName key =>
    some ⟨.diagnostic (.branchNotFound typeName argumentName key), .branch argumentName key⟩
  | .notANumber typeName argumentName received =>
    some ⟨.diagnostic (.argumentTypeMismatch typeName argumentName received),
      .argumentType argumentName⟩
  | .unknownNode kindName => some ⟨.diagnostic (.unknownNode kindName), .resolution ""⟩
  | .localizer (.noData kind locale style reason) => some (noDataReport kind locale style reason)
  | .localizer _ => none
  | .number _ => none

/-! ## Settings -/

/-- The values that a message is rendered with, by name. -/
abbrev Arguments : Type := List (String × Value)

/-- What a message is rendered with, the same in all its parts. -/
structure Setting where
  arguments : Arguments
  locale : String
  rules : Plural.Registry
  localizer : Localizer
  deriving Inhabited

/-! ## Leaves -/

/-- The value of an argument. -/
def Setting.value (setting : Setting) (name : String) : Except RenderFailure Value :=
  match Entries.find? name setting.arguments with
  | some v => .ok v
  | none => .error (.missingArgument name)

/-- Passes on a fault of arithmetic. -/
def onNumber {α : Type} : Except Number.Fault α → Except RenderFailure α
  | .ok x => .ok x
  | .error fault => .error (.number fault)

/-- A text with its number signs replaced, if they stand for something. -/
def fillPound (pound : Option String) (s : String) : String :=
  match pound with
  | none => s
  | some number =>
    String.join (s.toList.map fun c => if c = '#' then number else String.singleton c)

/-- A value written by the localizer.  A number for which there is no data is shown as it is. -/
def localized (setting : Setting) (kind : FormatKind) (v : Value) (style : Option String) :
    Except RenderFailure String :=
  match kind, setting.localizer.localize kind v setting.locale style with
  | _, .ok s => .ok s
  | .number, .error (.noData _ _ _ _) => onNumber v.toText
  | _, .error failure => .error (.localizer failure)

/-! ## The choice of a branch -/

/-- The key of the branch that is chosen for a name: the name itself, or the key for everything
else. -/
def chooseNamed {β : Type} (branches : Branches β) (typeName argumentName key : String) :
    Except RenderFailure BranchKey :=
  if (branches.find? (.name key)).isSome then .ok (.name key)
  else if (branches.find? .other).isSome then .ok .other
  else .error (.noBranch typeName argumentName key)

/-- The key of a branch for exactly a given number, if there is such a branch. -/
def chooseExact? {β : Type} (branches : Branches β) (n : Numeric) : Option BranchKey :=
  match n.integral? with
  | some k => if (branches.find? (.exact k)).isSome then some (.exact k) else none
  | none => none

/-- The number of a plural selector's argument. -/
def numberOf (typeName argumentName : String) (v : Value) : Except RenderFailure Numeric :=
  match v with
  | .number n => .ok n
  | v => .error (.notANumber typeName argumentName v.kindName)

/-- The key of the branch that a plural selector chooses, and the text for the number sign.  An
exact number comes first, and is compared before the offset is taken away; the category is that
of the number behind it. -/
def choosePlural {β : Type} (setting : Setting) (kind : PluralKind) (name : String)
    (offset : Int) (branches : Branches β) : Except RenderFailure (BranchKey × String) := do
  let n ← numberOf kind.name name (← setting.value name)
  let shifted ← onNumber (n.subInt offset)
  let key ← match chooseExact? branches n with
    | some key => pure key
    | none => do
      let category ← onNumber (setting.rules.category kind shifted setting.locale)
      chooseNamed branches kind.name name category
  return (key, ← onNumber shifted.text)

/-- The key of the branch that a keyword selector chooses. -/
def chooseKeyword {β : Type} (setting : Setting) (name : String) (branches : Branches β) :
    Except RenderFailure BranchKey := do
  let key ← onNumber (← setting.value name).toText
  chooseNamed branches selectName name key

/-! ## Messages -/

mutual

/-- The text of a node. -/
def renderNode (setting : Setting) (pound : Option String) : Node → Except RenderFailure String
  | .text s => .ok (fillPound pound s)
  | .argument name => do onNumber (← setting.value name).toText
  | .formatted kind name style => do localized setting kind (← setting.value name) style
  | .plural kind name offset ⟨entries⟩ => do
    let (key, number) ← choosePlural setting kind name offset ⟨entries⟩
    renderBranch setting (some number) key entries
  | .select name ⟨entries⟩ => do
    let key ← chooseKeyword setting name ⟨entries⟩
    renderBranch setting none key entries
  | .foreign kindName => .error (.unknownNode kindName)

/-- The text of a message. -/
def renderNodes (setting : Setting) (pound : Option String) :
    List Node → Except RenderFailure String
  | [] => .ok ""
  | node :: rest => do
    let first ← renderNode setting pound node
    let others ← renderNodes setting pound rest
    return first ++ others

/-- The text of the last branch with a key; nothing if there is none. -/
def renderBranch (setting : Setting) (pound : Option String) (key : BranchKey) :
    List (BranchKey × List Node) → Except RenderFailure String
  | [] => .ok ""
  | (k, body) :: rest =>
    if k = key ∧ (Entries.find? key rest).isNone then renderNodes setting pound body
    else renderBranch setting pound key rest

end

/-- The text of a message. -/
def render (setting : Setting) (message : Message) : Except RenderFailure String :=
  renderNodes setting none message

/-! ## The chosen branch -/

/-- What is rendered of a table is the body that the key finds. -/
theorem renderBranch_of_find? {setting : Setting} {pound : Option String} {key : BranchKey}
    {entries : List (BranchKey × List Node)} {body : List Node}
    (h : Entries.find? key entries = some body) :
    renderBranch setting pound key entries = renderNodes setting pound body :=
  Entries.eq_of_find?_eq_some (fun _ _ _ => by rw [renderBranch]) h

end Phrasebook
