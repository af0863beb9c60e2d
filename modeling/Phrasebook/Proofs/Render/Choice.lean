/-
  The choice of a branch.

  A selector looks up some keys in its table, one after the other, and takes the
  first that is there: a plural selector an exact number, then a category, then
  the key for everything else.  Which keys these are is settled before the table
  is looked at (`Probe`), so the choice depends on a table only by the presence
  of the keys that are tried (`Probe.run_congr`), and a key that is tried and
  there is the one that is chosen (`Probe.run_of_mem_tried`).
-/
import Phrasebook.Proofs.Entries
import Phrasebook.Render

set_option autoImplicit false

namespace Phrasebook

open Phrasebook.Number

/-! ## Probes -/

/-- Keys to be looked up one after the other until one is there, and the failure if none is. -/
inductive Probe where
  | fail (failure : RenderFailure)
  | look (key : BranchKey) (otherwise : Probe)

namespace Probe

/-- The first key that is there. -/
def run (present : BranchKey → Bool) : Probe → Except RenderFailure BranchKey
  | .fail failure => .error failure
  | .look key otherwise => if present key then .ok key else otherwise.run present

/-- The keys that are looked up. -/
def tried (present : BranchKey → Bool) : Probe → List BranchKey
  | .fail _ => []
  | .look key otherwise => key :: if present key then [] else otherwise.tried present

variable {present other : BranchKey → Bool} {key : BranchKey}

theorem run_look_of_present (h : present key = true) (otherwise : Probe) :
    (Probe.look key otherwise).run present = .ok key := by
  rw [run, if_pos h]

theorem run_look_of_absent (h : present key = false) (otherwise : Probe) :
    (Probe.look key otherwise).run present = otherwise.run present := by
  rw [run, h, if_neg Bool.false_ne_true]

theorem tried_look_of_present (h : present key = true) (otherwise : Probe) :
    (Probe.look key otherwise).tried present = [key] := by
  rw [tried, if_pos h]

theorem tried_look_of_absent (h : present key = false) (otherwise : Probe) :
    (Probe.look key otherwise).tried present = key :: otherwise.tried present := by
  rw [tried, h, if_neg Bool.false_ne_true]

/-- Only the keys that are tried matter, to what is found and to what is tried. -/
theorem run_congr (probe : Probe) (h : ∀ key ∈ probe.tried present, other key = present key) :
    probe.run other = probe.run present ∧ probe.tried other = probe.tried present := by
  induction probe with
  | fail failure => exact ⟨rfl, rfl⟩
  | look key otherwise ih =>
    have hkey : other key = present key := h key List.mem_cons_self
    cases hp : present key with
    | true =>
      have ho := hkey.trans hp
      rw [run_look_of_present ho, run_look_of_present hp, tried_look_of_present ho,
        tried_look_of_present hp]
      exact ⟨rfl, rfl⟩
    | false =>
      have ho := hkey.trans hp
      rw [tried_look_of_absent hp] at h
      obtain ⟨hrun, htried⟩ := ih fun k hk => h k (List.mem_cons_of_mem _ hk)
      rw [run_look_of_absent ho, run_look_of_absent hp, tried_look_of_absent ho,
        tried_look_of_absent hp, hrun, htried]
      exact ⟨rfl, rfl⟩

/-- What is found was tried and is there. -/
theorem mem_tried_of_run {probe : Probe} (h : probe.run present = .ok key) :
    key ∈ probe.tried present ∧ present key = true := by
  induction probe with
  | fail failure => cases h
  | look first otherwise ih =>
    cases hp : present first with
    | true =>
      rw [run_look_of_present hp] at h
      cases h
      exact ⟨List.mem_cons_self, hp⟩
    | false =>
      rw [run_look_of_absent hp] at h
      obtain ⟨hmem, hkey⟩ := ih h
      rw [tried_look_of_absent hp]
      exact ⟨List.mem_cons_of_mem _ hmem, hkey⟩

/-- What is tried and there is found: nothing is tried behind it. -/
theorem run_of_mem_tried {probe : Probe} (hmem : key ∈ probe.tried present)
    (hkey : present key = true) : probe.run present = .ok key := by
  induction probe with
  | fail failure => cases hmem
  | look first otherwise ih =>
    cases hp : present first with
    | true =>
      rw [tried_look_of_present hp, List.mem_singleton] at hmem
      rw [run_look_of_present hp, hmem]
    | false =>
      rw [tried_look_of_absent hp, List.mem_cons] at hmem
      rcases hmem with rfl | hmem
      · rw [hp] at hkey
        cases hkey
      · rw [run_look_of_absent hp]
        exact ih hmem

end Probe

/-- Whether a table has a key. -/
def hasKey {β : Type} (entries : List (BranchKey × β)) (key : BranchKey) : Bool :=
  (Entries.find? key entries).isSome

/-- The probe of a name. -/
def Probe.named (typeName argumentName key : String) : Probe :=
  .look (.name key) (.look .other (.fail (.noBranch typeName argumentName key)))

theorem run_named {β : Type} (entries : List (BranchKey × β)) (typeName argumentName key : String) :
    (Probe.named typeName argumentName key).run (hasKey entries) =
      chooseNamed ⟨entries⟩ typeName argumentName key := rfl

/-- The probe of an exact number, if it is one, in front of another probe. -/
def Probe.exactly (n : Numeric) (otherwise : Probe) : Probe :=
  match n.integral? with
  | some k => .look (.exact k) otherwise
  | none => otherwise

theorem run_exactly {β : Type} (entries : List (BranchKey × β)) (n : Numeric)
    (otherwise : Probe) :
    (Probe.exactly n otherwise).run (hasKey entries) =
      match chooseExact? ⟨entries⟩ n with
      | some key => .ok key
      | none => otherwise.run (hasKey entries) := by
  simp only [Probe.exactly, chooseExact?]
  cases n.integral? with
  | none => rfl
  | some k =>
    have hhas : (Branches.find? ⟨entries⟩ (.exact k)).isSome = hasKey entries (.exact k) := rfl
    simp only [hhas]
    cases hp : hasKey entries (.exact k) with
    | true => exact Probe.run_look_of_present hp otherwise
    | false => exact Probe.run_look_of_absent hp otherwise

/-! ## Selectors -/

/-- A selector without its branches. -/
inductive Chooser where
  | plural (kind : PluralKind) (name : String) (offset : Int)
  | select (name : String)

namespace Chooser

/-- The argument that decides. -/
def name : Chooser → String
  | .plural _ name _ => name
  | .select name => name

/-- The selector with its branches. -/
def node : Chooser → List (BranchKey × Message) → Node
  | .plural kind name offset, entries => .plural kind name offset ⟨entries⟩
  | .select name, entries => .select name ⟨entries⟩

/-- The number of a plural selector, and what is left of it behind the offset. -/
def numbers (setting : Setting) (kind : PluralKind) (name : String) (offset : Int) :
    Except RenderFailure (Numeric × Numeric) := do
  let n ← numberOf kind.name name (← setting.value name)
  return (n, ← onNumber (n.subInt offset))

/-- The keys that a selector looks up.  What fails before is a probe that fails. -/
def probe (setting : Setting) : Chooser → Probe
  | .plural kind name offset =>
    match numbers setting kind name offset with
    | .error failure => .fail failure
    | .ok (n, shifted) =>
      .exactly n <| match setting.rules.category kind shifted setting.locale with
        | .error fault => .fail (.number fault)
        | .ok category => .named kind.name name category
  | .select name =>
    match (do onNumber (← setting.value name).toText) with
    | .error failure => .fail failure
    | .ok key => .named selectName name key

/-- What the number sign stands for in the branch that is chosen. -/
def pound (setting : Setting) : Chooser → Except RenderFailure (Option String)
  | .plural kind name offset => do
    let (_, shifted) ← numbers setting kind name offset
    return some (← onNumber shifted.text)
  | .select _ => .ok none

/-- The key that a selector chooses. -/
def choice (setting : Setting) (c : Chooser) (entries : List (BranchKey × Message)) :
    Except RenderFailure BranchKey :=
  (c.probe setting).run (hasKey entries)

/-- The keys that a selector looks up in a table. -/
def keysTried (setting : Setting) (c : Chooser) (entries : List (BranchKey × Message)) :
    List BranchKey :=
  (c.probe setting).tried (hasKey entries)

/-- The key of the branch that is entered, and what the number sign stands for in it. -/
def enter (setting : Setting) (c : Chooser) (entries : List (BranchKey × Message)) :
    Except RenderFailure (BranchKey × Option String) := do
  let key ← c.choice setting entries
  return (key, ← c.pound setting)

/-- The choice of a plural selector is a probe of its table. -/
theorem enter_plural (setting : Setting) (kind : PluralKind) (name : String) (offset : Int)
    (entries : List (BranchKey × Message)) :
    (plural kind name offset).enter setting entries =
      (choosePlural setting kind name offset ⟨entries⟩).map fun chosen =>
        (chosen.1, some chosen.2) := by
  simp only [enter, choice, probe, pound, numbers, choosePlural]
  cases setting.value name with
  | error failure => rfl
  | ok v =>
    cases hn : numberOf kind.name name v with
    | error failure => simp only [bind, Except.bind, hn, Probe.run, Except.map]
    | ok n =>
      cases hs : n.subInt offset with
      | error fault => simp only [bind, Except.bind, hn, hs, onNumber, Probe.run, Except.map]
      | ok shifted =>
        simp only [bind, Except.bind, hn, hs, onNumber, pure, Except.pure, run_exactly]
        cases chooseExact? ⟨entries⟩ n with
        | some key => cases shifted.text <;> rfl
        | none =>
          cases setting.rules.category kind shifted setting.locale with
          | error fault => rfl
          | ok category =>
            simp only [run_named]
            cases chooseNamed ⟨entries⟩ kind.name name category with
            | error failure => rfl
            | ok key => cases shifted.text <;> rfl

/-- So is the choice of a keyword selector. -/
theorem enter_select (setting : Setting) (name : String)
    (entries : List (BranchKey × Message)) :
    (select name).enter setting entries =
      (chooseKeyword setting name ⟨entries⟩).map fun key => (key, none) := by
  simp only [enter, choice, probe, pound, chooseKeyword]
  cases setting.value name with
  | error failure => rfl
  | ok v =>
    cases ht : v.toText with
    | error fault => simp only [bind, Except.bind, ht, onNumber, Probe.run, Except.map]
    | ok key =>
      simp only [bind, Except.bind, ht, onNumber, run_named]
      cases chooseNamed ⟨entries⟩ selectName name key <;> rfl

/-- A selector renders the branch that it enters. -/
theorem renderNode_node (setting : Setting) (sign : Option String) (c : Chooser)
    (entries : List (BranchKey × Message)) :
    renderNode setting sign (c.node entries) =
      (c.enter setting entries >>= fun entered =>
        renderBranch setting entered.2 entered.1 entries) := by
  cases c with
  | plural kind name offset =>
    rw [enter_plural, node, renderNode]
    cases choosePlural setting kind name offset ⟨entries⟩ <;> rfl
  | select name =>
    rw [enter_select, node, renderNode]
    cases chooseKeyword setting name ⟨entries⟩ <;> rfl

section Congruence

variable {setting other : Setting} {c : Chooser} {entries others : List (BranchKey × Message)}

/-- In tables that agree on the keys that are tried the same key is chosen, and the same keys are
tried. -/
theorem choice_congr
    (h : ∀ key ∈ c.keysTried setting entries, hasKey others key = hasKey entries key) :
    c.choice setting others = c.choice setting entries ∧
      c.keysTried setting others = c.keysTried setting entries :=
  (c.probe setting).run_congr h

/-- The key of the branch that is entered is the one that is chosen. -/
theorem choice_of_enter {key : BranchKey} {sign : Option String}
    (h : c.enter setting entries = .ok (key, sign)) : c.choice setting entries = .ok key := by
  rw [enter] at h
  cases hkey : c.choice setting entries with
  | error failure =>
    rw [hkey] at h
    cases h
  | ok chosen =>
    rw [hkey] at h
    cases hsign : c.pound setting with
    | error failure =>
      rw [hsign] at h
      cases h
    | ok sign =>
      rw [hsign] at h
      cases h
      rfl

/-- A selector looks at its argument alone. -/
theorem probe_congr (hlocale : other.locale = setting.locale)
    (hrules : other.rules = setting.rules) (hvalue : other.value c.name = setting.value c.name) :
    c.probe other = c.probe setting ∧ c.pound other = c.pound setting := by
  cases c with
  | plural kind name offset =>
    have hname : other.value name = setting.value name := hvalue
    simp only [probe, pound, numbers, hname, hlocale, hrules, and_self]
  | select name =>
    have hname : other.value name = setting.value name := hvalue
    simp only [probe, pound, hname, and_self]

end Congruence

end Chooser

end Phrasebook
