/-
  Where rendering breaks down.

  A rendering with the localizer of the library over any directory, with no
  rules but bundled ones and with plain arguments gives a text, or a failure that
  the library reports, unless it reaches a node whose arithmetic fails
  (`settles_render`).  Arithmetic fails on whole numbers too long to be written,
  on differences beyond the largest decimal, on offsets beyond the largest binary
  number, on signaling NaNs, on ordinal numbers that have no last digit, and
  where the directory answers with an overflow.
-/
import Phrasebook.Proofs.Localizer.Number
import Phrasebook.Proofs.Plural.Bundled
import Phrasebook.Proofs.Render.Reach

set_option autoImplicit false

namespace Phrasebook

open Phrasebook.Number

/-! ## Failures -/

/-- Whether a failure is reported as one of an argument: it is missing, it is no number, or there is
no branch for it. -/
def RenderFailure.IsReported (failure : RenderFailure) : Prop :=
  ∃ report, failure.report? = some report ∧
    report.detail.errorClass ∈ [ErrorClass.missingArgument, .branch, .argumentType]

/-- The fault of arithmetic that a failure passes on. -/
def RenderFailure.fault? : RenderFailure → Option Fault
  | .number fault => some fault
  | .localizer (.number fault) => some fault
  | _ => none

/-- A failure that passes on a fault is not reported. -/
theorem RenderFailure.report?_of_fault? {failure : RenderFailure} {fault : Fault}
    (h : failure.fault? = some fault) : failure.report? = none := by
  cases failure with
  | number fault => rfl
  | localizer failure => cases failure <;> first | rfl | cases h
  | _ => cases h

theorem RenderFailure.not_isReported_of_fault? {failure : RenderFailure} {fault : Fault}
    (h : failure.fault? = some fault) : ¬ failure.IsReported := by
  rintro ⟨report, hreport, -⟩
  rw [report?_of_fault? h] at hreport
  cases hreport

/-! ## Strain -/

/-- A node whose arithmetic fails, and the fault. -/
inductive Strained (directory : Locale.Directory) (setting : Setting) : Node → Fault → Prop
  /-- an argument is too long to be shown -/
  | argument {name : String} {v : Value} (value : setting.value name = .ok v) (long : v.IsLong) :
    Strained directory setting (.argument name) .tooManyDigits
  /-- a keyword is too long to be shown -/
  | keyword {name : String} {branches : Branches Message} {v : Value}
    (value : setting.value name = .ok v) (long : v.IsLong) :
    Strained directory setting (.select name branches) .tooManyDigits
  /-- a number can be neither written nor shown, or writing it overflows -/
  | number {name : String} {style : Option String} {v : Value} {fault : Fault}
    (value : setting.value name = .ok v)
    (write : Localizer.WriteFault directory setting.locale style v fault) :
    Strained directory setting (.formatted .number name style) fault
  /-- the offset cannot be taken away -/
  | difference {kind : PluralKind} {name : String} {offset : Int} {branches : Branches Message}
    {n : Numeric} {fault : Fault} (value : setting.value name = .ok (.number n))
    (sub : n.SubFault offset fault) :
    Strained directory setting (.plural kind name offset branches) fault
  /-- a number without a branch of its own has no last digit to choose one by -/
  | category {name : String} {offset : Int} {entries : List (BranchKey × Message)} {n : Numeric}
    {d : Decimal} (value : setting.value name = .ok (.number n))
    (difference : n.subInt offset = .ok (.decimal d))
    (inexact : chooseExact? (⟨entries⟩ : Branches Message) n = none)
    (rule : (setting.rules.rule? .ordinal setting.locale).isSome = true)
    (indivisible : d.Indivisible 10) :
    Strained directory setting (.plural .ordinal name offset ⟨entries⟩) .invalidOperation
  /-- a branch is chosen, and its number sign is too long to be shown -/
  | sign {kind : PluralKind} {name : String} {offset shifted : Int}
    {entries : List (BranchKey × Message)} {n : Numeric} {key : BranchKey}
    (value : setting.value name = .ok (.number n))
    (difference : n.subInt offset = .ok (.int shifted))
    (chosen : (Chooser.plural kind name offset).choice setting entries = .ok key)
    (long : ¬ IsShort shifted) :
    Strained directory setting (.plural kind name offset ⟨entries⟩) .tooManyDigits

/-- A setting of the library: its own localizer over a directory, no rules but bundled ones, and
plain arguments. -/
structure Setting.IsPlain (directory : Locale.Directory) (setting : Setting) : Prop where
  localizer : setting.localizer = .standard directory
  rules : setting.rules.OnlyBundled
  arguments : ∀ v ∈ Entries.values setting.arguments, v.IsScalar

/-- Whether a node is one of a pattern, and writes no date and no time. -/
def Node.IsPlain : Node → Prop
  | .formatted kind _ _ => kind = .number
  | .foreign _ => False
  | _ => True

/-! ## Failures of nodes -/

/-- Failures of which each is reported or passes on a fault, and the faults that they pass on. -/
structure Settles (fails : RenderFailure → Prop) (faults : Fault → Prop) : Prop where
  faults_iff : ∀ fault, faults fault ↔ ∃ failure, fails failure ∧ failure.fault? = some fault
  classified : ∀ failure, fails failure →
    failure.IsReported ∨ ∃ fault, failure.fault? = some fault

section Settles

variable {α : Type} {result : Except RenderFailure α} {faults : Fault → Prop}

theorem settles_ok {a : α} (h : result = .ok a) (hfaults : ∀ fault, ¬ faults fault) :
    Settles (fun failure => result = .error failure) faults := by
  subst h
  refine ⟨fun fault => iff_of_false (hfaults fault) ?_, nofun⟩
  rintro ⟨failure, herror, -⟩
  cases herror

theorem settles_reported {failure : RenderFailure} (h : result = .error failure)
    (hreported : failure.IsReported) (hfaults : ∀ fault, ¬ faults fault) :
    Settles (fun failure => result = .error failure) faults := by
  subst h
  refine ⟨fun fault => iff_of_false (hfaults fault) ?_, ?_⟩
  · rintro ⟨_, ⟨⟩, hfault⟩
    exact RenderFailure.not_isReported_of_fault? hfault hreported
  · rintro _ ⟨⟩
    exact .inl hreported

theorem settles_fault {failure : RenderFailure} {fault : Fault} (h : result = .error failure)
    (hfault : failure.fault? = some fault) (hfaults : ∀ fault', faults fault' ↔ fault' = fault) :
    Settles (fun failure => result = .error failure) faults := by
  subst h
  refine ⟨fun fault' => ?_, ?_⟩
  · rw [hfaults]
    constructor
    · rintro rfl
      exact ⟨_, rfl, hfault⟩
    · rintro ⟨_, ⟨⟩, hfault'⟩
      rw [hfault] at hfault'
      exact (Option.some.inj hfault').symm
  · rintro _ ⟨⟩
    exact .inr ⟨fault, hfault⟩

/-- There is a result or a reported failure exactly if there is no fault. -/
theorem Settles.ok_or_reported_iff
    (h : Settles (fun failure => result = .error failure) faults) :
    ((∃ a, result = .ok a) ∨ ∃ failure, result = .error failure ∧ failure.IsReported) ↔
      ¬ ∃ fault, faults fault := by
  constructor
  · rintro hresult ⟨fault, hfault⟩
    obtain ⟨failure, herror, hfailure⟩ := (h.faults_iff fault).1 hfault
    rcases hresult with ⟨a, hok⟩ | ⟨failure', herror', hreported⟩
    · cases hok.symm.trans herror
    · cases herror.symm.trans herror'
      exact RenderFailure.not_isReported_of_fault? hfailure hreported
  · intro hnone
    cases hresult : result with
    | ok a => exact .inl ⟨a, rfl⟩
    | error failure =>
      rcases h.classified failure hresult with hreported | ⟨fault, hfault⟩
      · exact .inr ⟨failure, rfl, hreported⟩
      · exact absurd ⟨fault, (h.faults_iff fault).2 ⟨failure, hresult, hfault⟩⟩ hnone

end Settles

section Nodes

variable {directory : Locale.Directory} {setting : Setting}

theorem Setting.IsPlain.value_cases (h : setting.IsPlain directory) (name : String) :
    (∃ v, setting.value name = .ok v ∧ v.IsScalar) ∨
      setting.value name = .error (.missingArgument name) := by
  rw [Setting.value]
  cases hfind : Entries.find? name setting.arguments with
  | none => exact .inr rfl
  | some v =>
    refine .inl ⟨v, rfl, h.arguments v ?_⟩
    exact List.mem_map_of_mem (f := Prod.snd) (Entries.mem_of_find?_eq_some hfind)

theorem isReported_missingArgument (name : String) :
    (RenderFailure.missingArgument name).IsReported :=
  ⟨_, rfl, show ErrorClass.missingArgument ∈ _ by decide⟩

theorem isReported_noBranch (typeName argumentName key : String) :
    (RenderFailure.noBranch typeName argumentName key).IsReported :=
  ⟨_, rfl, show ErrorClass.branch ∈ _ by decide⟩

theorem isReported_notANumber (typeName argumentName received : String) :
    (RenderFailure.notANumber typeName argumentName received).IsReported :=
  ⟨_, rfl, show ErrorClass.argumentType ∈ _ by decide⟩

/-- A node is strained by a value. -/
theorem exists_value_of_strained {node : Node} {fault : Fault}
    (h : Strained directory setting node fault) : ∃ v, setting.value node.label = .ok v := by
  cases h <;> exact ⟨_, ‹_›⟩

theorem not_strained_of_missing {node : Node}
    (h : setting.value node.label = .error (.missingArgument node.label)) (fault : Fault) :
    ¬ Strained directory setting node fault := by
  intro hstrained
  obtain ⟨v, hvalue⟩ := exists_value_of_strained hstrained
  rw [h] at hvalue
  cases hvalue

/-- A step that shows a plain value fails as the value is long. -/
theorem onNumber_toText_cases {v : Value} (h : v.IsScalar) :
    (onNumber v.toText = .error (.number .tooManyDigits) ∧ v.IsLong) ∨
    ((∃ text, onNumber v.toText = .ok text) ∧ ¬ v.IsLong) := by
  by_cases hlong : v.IsLong
  · exact .inl ⟨by rw [(Value.toText_eq_error_iff h).2 ⟨rfl, hlong⟩]; rfl, hlong⟩
  · refine .inr ⟨?_, hlong⟩
    cases htext : v.toText with
    | error fault => exact absurd ((Value.toText_eq_error_iff h).1 htext).2 hlong
    | ok text => exact ⟨text, rfl⟩

theorem strained_argument_iff {name : String} {v : Value} (h : setting.value name = .ok v)
    {fault : Fault} :
    Strained directory setting (.argument name) fault ↔ fault = .tooManyDigits ∧ v.IsLong := by
  constructor
  · rintro (⟨hvalue, hlong⟩)
    cases h.symm.trans hvalue
    exact ⟨rfl, hlong⟩
  · rintro ⟨rfl, hlong⟩
    exact .argument h hlong

theorem settles_argument (h : setting.IsPlain directory) (name : String) :
    Settles (FailsItself setting (.argument name))
      (Strained directory setting (.argument name)) := by
  have hnode : renderNode setting none (.argument name) =
      setting.value name >>= fun v => onNumber v.toText := by rw [renderNode]
  rcases h.value_cases name with ⟨v, hvalue, hscalar⟩ | hmissing
  · rw [hvalue] at hnode
    rcases onNumber_toText_cases hscalar with ⟨htext, hv⟩ | ⟨⟨text, htext⟩, hv⟩
    · refine settles_fault (hnode.trans htext) rfl fun fault => ?_
      rw [strained_argument_iff hvalue, and_iff_left hv]
    · refine settles_ok (hnode.trans htext) fun fault hstrained => ?_
      exact hv ((strained_argument_iff hvalue).1 hstrained).2
  · rw [hmissing] at hnode
    exact settles_reported hnode (isReported_missingArgument name)
      (not_strained_of_missing hmissing)

/-- A number is written, or shown, or its writing fails. -/
theorem localized_cases (h : setting.IsPlain directory) {v : Value} (hscalar : v.IsScalar)
    (style : Option String) :
    ((∃ text, localized setting .number v style = .ok text) ∧
      ∀ fault, ¬ Localizer.WriteFault directory setting.locale style v fault) ∨
    ∃ failure fault, localized setting .number v style = .error failure ∧
      failure.fault? = some fault ∧
      ∀ fault', Localizer.WriteFault directory setting.locale style v fault' ↔ fault' = fault := by
  have hwrite : setting.localizer.localize .number v setting.locale style =
      Localizer.number directory v setting.locale style := by
    rw [h.localizer]
    rfl
  rcases Localizer.number_cases directory setting.locale style hscalar with
    ⟨⟨text, hnumber⟩, hnone⟩ | ⟨⟨reason, hnumber⟩, hlong⟩ | ⟨fault, hnumber, hfault⟩
  · refine .inl ⟨⟨text, ?_⟩, hnone⟩
    simp only [localized, hwrite, hnumber]
  · have hshown : localized setting .number v style = onNumber v.toText := by
      simp only [localized, hwrite, hnumber]
    rw [hshown]
    rcases onNumber_toText_cases hscalar with ⟨htext, hv⟩ | ⟨htext, hv⟩
    · exact .inr ⟨_, _, htext, rfl, fun fault => by rw [hlong, and_iff_left hv]⟩
    · exact .inl ⟨htext, fun fault hfault => hv ((hlong fault).1 hfault).2⟩
  · refine .inr ⟨.localizer (.number fault), fault, ?_, rfl, fun fault' => ?_⟩
    · simp only [localized, hwrite, hnumber]
    · exact ⟨hfault.unique, fun heq => heq ▸ hfault⟩

theorem strained_number_iff {name : String} {style : Option String} {v : Value}
    (h : setting.value name = .ok v) {fault : Fault} :
    Strained directory setting (.formatted .number name style) fault ↔
      Localizer.WriteFault directory setting.locale style v fault := by
  constructor
  · rintro (_ | _ | ⟨hvalue, hwrite⟩)
    cases h.symm.trans hvalue
    exact hwrite
  · exact .number h

theorem settles_number (h : setting.IsPlain directory) (name : String) (style : Option String) :
    Settles (FailsItself setting (.formatted .number name style))
      (Strained directory setting (.formatted .number name style)) := by
  have hnode : renderNode setting none (.formatted .number name style) =
      setting.value name >>= fun v => localized setting .number v style := by rw [renderNode]
  rcases h.value_cases name with ⟨v, hvalue, hscalar⟩ | hmissing
  · rw [hvalue] at hnode
    rcases localized_cases h hscalar style with
      ⟨⟨text, htext⟩, hnone⟩ | ⟨failure, fault, htext, hfault, hiff⟩
    · refine settles_ok (hnode.trans htext) fun fault hstrained => ?_
      exact hnone fault ((strained_number_iff hvalue).1 hstrained)
    · refine settles_fault (hnode.trans htext) hfault fun fault' => ?_
      rw [strained_number_iff hvalue, hiff]
  · rw [hmissing] at hnode
    exact settles_reported hnode (isReported_missingArgument name)
      (not_strained_of_missing hmissing)

/-! ## Failures of selectors -/

theorem chooseNamed_cases {β : Type} (branches : Branches β) (typeName argumentName key : String) :
    (∃ chosen, chooseNamed branches typeName argumentName key = .ok chosen) ∨
      chooseNamed branches typeName argumentName key =
        .error (.noBranch typeName argumentName key) := by
  rw [chooseNamed]
  split
  · exact .inl ⟨_, rfl⟩
  split
  · exact .inl ⟨_, rfl⟩
  · exact .inr rfl

theorem strained_select_iff {name : String} {branches : Branches Message} {v : Value}
    (h : setting.value name = .ok v) {fault : Fault} :
    Strained directory setting (.select name branches) fault ↔
      fault = .tooManyDigits ∧ v.IsLong := by
  constructor
  · rintro (_ | ⟨hvalue, hlong⟩)
    cases h.symm.trans hvalue
    exact ⟨rfl, hlong⟩
  · rintro ⟨rfl, hlong⟩
    exact .keyword h hlong

theorem settles_select (h : setting.IsPlain directory) (name : String)
    (entries : List (BranchKey × Message)) :
    Settles (FailsItself setting (.select name ⟨entries⟩))
      (Strained directory setting (.select name ⟨entries⟩)) := by
  rcases h.value_cases name with ⟨v, hvalue, hscalar⟩ | hmissing
  · rcases onNumber_toText_cases hscalar with ⟨htext, hv⟩ | ⟨⟨key, htext⟩, hv⟩
    · have henter : (Chooser.select name).enter setting entries =
          .error (.number .tooManyDigits) := by
        simp only [Chooser.enter_select, chooseKeyword, hvalue, htext, bind, Except.bind,
          Except.map]
      refine settles_fault henter rfl fun fault => ?_
      rw [strained_select_iff hvalue, and_iff_left hv]
    · have hnone : ∀ fault, ¬ Strained directory setting (.select name ⟨entries⟩) fault :=
        fun fault hstrained => hv ((strained_select_iff hvalue).1 hstrained).2
      have henter : (Chooser.select name).enter setting entries =
          (chooseNamed (⟨entries⟩ : Branches Message) selectName name key).map (·, none) := by
        simp only [Chooser.enter_select, chooseKeyword, hvalue, htext, bind, Except.bind]
      rcases chooseNamed_cases (⟨entries⟩ : Branches Message) selectName name key with
        ⟨chosen, hchosen⟩ | hchosen
      · rw [hchosen] at henter
        exact settles_ok henter hnone
      · rw [hchosen] at henter
        exact settles_reported henter (isReported_noBranch _ _ _) hnone
  · have henter : (Chooser.select name).enter setting entries =
        .error (.missingArgument name) := by
      simp only [Chooser.enter_select, chooseKeyword, hmissing, bind, Except.bind, Except.map]
    exact settles_reported henter (isReported_missingArgument name)
      (not_strained_of_missing hmissing)

section Plural

variable {kind : PluralKind} {name : String} {offset : Int}
  {entries : List (BranchKey × Message)} {n shifted : Numeric}

/-- Whether a category is asked for that the English endings cannot tell. -/
def LacksEnding (setting : Setting) (kind : PluralKind) (entries : List (BranchKey × Message))
    (n shifted : Numeric) : Prop :=
  kind = .ordinal ∧ chooseExact? (⟨entries⟩ : Branches Message) n = none ∧
    (setting.rules.rule? .ordinal setting.locale).isSome = true ∧
    ∃ d, shifted = .decimal d ∧ d.Indivisible 10

/-- With both numbers at hand a selector chooses the exact key of its number, or else a keyword. -/
theorem choice_plural
    (hnumbers : Chooser.numbers setting kind name offset = .ok (n, shifted)) :
    (Chooser.plural kind name offset).choice setting entries =
      match chooseExact? (⟨entries⟩ : Branches Message) n with
      | some key => .ok key
      | none => Probe.run (hasKey entries)
        (match setting.rules.category kind shifted setting.locale with
          | .error fault => .fail (.number fault)
          | .ok category => .named kind.name name category) := by
  rw [Chooser.choice, Chooser.probe, hnumbers]
  exact run_exactly entries n _

/-- With both numbers at hand a selector finds a branch, or none, or its rule fails. -/
theorem choice_cases (h : setting.IsPlain directory)
    (hnumbers : Chooser.numbers setting kind name offset = .ok (n, shifted))
    (hquiet : shifted.Quiet) :
    (((∃ key, (Chooser.plural kind name offset).choice setting entries = .ok key) ∨
        ∃ failure, (Chooser.plural kind name offset).choice setting entries = .error failure ∧
          failure.IsReported) ∧ ¬ LacksEnding setting kind entries n shifted) ∨
    ((Chooser.plural kind name offset).choice setting entries =
        .error (.number .invalidOperation) ∧ LacksEnding setting kind entries n shifted) := by
  rw [choice_plural hnumbers]
  cases hexact : chooseExact? (⟨entries⟩ : Branches Message) n with
  | some key =>
    refine .inl ⟨.inl ⟨key, rfl⟩, ?_⟩
    rintro ⟨-, hinexact, -⟩
    rw [hexact] at hinexact
    cases hinexact
  | none =>
    cases hcategory : setting.rules.category kind shifted setting.locale with
    | error fault =>
      obtain ⟨rfl, hrule, hdecimal⟩ := (h.rules.category_eq_error_iff hquiet).1 hcategory
      obtain ⟨rule, hsome⟩ := Option.isSome_iff_exists.1 hrule
      obtain ⟨rfl, -⟩ := h.rules.eq_of_rule? hsome
      exact .inr ⟨rfl, rfl, hexact, hrule, hdecimal⟩
    | ok category =>
      dsimp only
      rw [run_named]
      refine .inl ⟨?_, ?_⟩
      · rcases chooseNamed_cases (⟨entries⟩ : Branches Message) kind.name name category with
          hchosen | hchosen
        · exact .inl hchosen
        · exact .inr ⟨_, hchosen, isReported_noBranch _ _ _⟩
      · rintro ⟨rfl, -, hrule, hdecimal⟩
        rw [(h.rules.category_eq_error_iff hquiet).2 ⟨rfl, hrule, hdecimal⟩] at hcategory
        cases hcategory

theorem numbers_eq (kind : PluralKind) (hvalue : setting.value name = .ok (.number n))
    (hsub : n.subInt offset = .ok shifted) :
    Chooser.numbers setting kind name offset = .ok (n, shifted) := by
  simp only [Chooser.numbers, hvalue, numberOf, hsub, onNumber, bind, Except.bind, pure,
    Except.pure]

/-- Behind the offset a plural selector is strained in its rule or in its number sign. -/
theorem strained_plural_iff (directory : Locale.Directory) (kind : PluralKind)
    (entries : List (BranchKey × Message)) (hvalue : setting.value name = .ok (.number n))
    (hsub : n.subInt offset = .ok shifted) (fault : Fault) :
    Strained directory setting (.plural kind name offset ⟨entries⟩) fault ↔
      (fault = .invalidOperation ∧ LacksEnding setting kind entries n shifted) ∨
      (fault = .tooManyDigits ∧
        (∃ key, (Chooser.plural kind name offset).choice setting entries = .ok key) ∧
        ∃ i, shifted = .int i ∧ ¬ IsShort i) := by
  constructor
  · intro hstrained
    cases hstrained with
    | difference hvalue' hfault =>
      cases hvalue.symm.trans hvalue'
      rw [Numeric.subInt_eq_error_iff.2 hfault] at hsub
      cases hsub
    | category hvalue' hsub' hinexact hrule hdecimal =>
      cases hvalue.symm.trans hvalue'
      cases hsub.symm.trans hsub'
      exact .inl ⟨rfl, rfl, hinexact, hrule, _, rfl, hdecimal⟩
    | sign hvalue' hsub' hchosen hlong =>
      cases hvalue.symm.trans hvalue'
      cases hsub.symm.trans hsub'
      exact .inr ⟨rfl, ⟨_, hchosen⟩, _, rfl, hlong⟩
  · rintro (⟨rfl, rfl, hinexact, hrule, d, rfl, hdecimal⟩ | ⟨rfl, ⟨key, hchosen⟩, i, rfl, hlong⟩)
    · exact .category hvalue hsub hinexact hrule hdecimal
    · exact .sign hvalue hsub hchosen hlong

/-- The faults of the subtraction come before all others. -/
theorem strained_plural_iff_of_subInt_error {fault : Fault}
    (hvalue : setting.value name = .ok (.number n)) (hsub : n.subInt offset = .error fault)
    {fault' : Fault} :
    Strained directory setting (.plural kind name offset ⟨entries⟩) fault' ↔ fault' = fault := by
  constructor
  · intro hstrained
    cases hstrained with
    | difference hvalue' hfault =>
      cases hvalue.symm.trans hvalue'
      cases hsub.symm.trans (Numeric.subInt_eq_error_iff.2 hfault)
      rfl
    | category hvalue' hsub' =>
      cases hvalue.symm.trans hvalue'
      cases hsub.symm.trans hsub'
    | sign hvalue' hsub' =>
      cases hvalue.symm.trans hvalue'
      cases hsub.symm.trans hsub'
  · rintro rfl
    exact .difference hvalue (Numeric.subInt_eq_error_iff.1 hsub)

/-- A selector that has its numbers enters a branch, or its rule or its number sign fails. -/
theorem settles_enter (h : setting.IsPlain directory)
    (hvalue : setting.value name = .ok (.number n)) (hsub : n.subInt offset = .ok shifted) :
    Settles (fun failure => (Chooser.plural kind name offset).enter setting entries =
      .error failure) (Strained directory setting (.plural kind name offset ⟨entries⟩)) := by
  have hnumbers := numbers_eq kind hvalue hsub
  have hfaults := strained_plural_iff directory kind entries hvalue hsub
  have henter : (Chooser.plural kind name offset).enter setting entries =
      (Chooser.plural kind name offset).choice setting entries >>= fun key =>
        (onNumber shifted.text).map fun text => (key, some text) := by
    rw [Chooser.enter, Chooser.pound, hnumbers]
    cases (Chooser.plural kind name offset).choice setting entries with
    | error failure => rfl
    | ok key =>
      dsimp only [bind, Except.bind]
      cases onNumber shifted.text <;> rfl
  rcases choice_cases h hnumbers (Numeric.quiet_of_subInt hsub) with
    ⟨⟨key, hchoice⟩ | ⟨failure, hchoice, hreported⟩, hlacks⟩ | ⟨hchoice, hlacks⟩
  · rw [hchoice] at henter
    cases htext : shifted.text with
    | error fault =>
      obtain ⟨rfl, hlong⟩ := Numeric.text_eq_error_iff.1 htext
      rw [htext] at henter
      refine settles_fault henter rfl fun fault' => (hfaults fault').trans ⟨?_, ?_⟩
      · rintro (⟨-, hlacks'⟩ | ⟨rfl, -⟩)
        · exact absurd hlacks' hlacks
        · rfl
      · rintro rfl
        exact .inr ⟨rfl, ⟨key, hchoice⟩, hlong⟩
    | ok text =>
      rw [htext] at henter
      refine settles_ok henter fun fault hstrained => ?_
      rcases (hfaults fault).1 hstrained with ⟨-, hlacks'⟩ | ⟨-, -, hlong⟩
      · exact hlacks hlacks'
      · cases htext.symm.trans (Numeric.text_eq_error_iff.2 ⟨rfl, hlong⟩)
  · rw [hchoice] at henter
    refine settles_reported henter hreported fun fault hstrained => ?_
    rcases (hfaults fault).1 hstrained with ⟨-, hlacks'⟩ | ⟨-, ⟨key, hchosen⟩, -⟩
    · exact hlacks hlacks'
    · cases hchoice.symm.trans hchosen
  · rw [hchoice] at henter
    refine settles_fault henter rfl fun fault' => (hfaults fault').trans ⟨?_, ?_⟩
    · rintro (⟨rfl, -⟩ | ⟨-, ⟨key, hchosen⟩, -⟩)
      · rfl
      · cases hchoice.symm.trans hchosen
    · rintro rfl
      exact .inl ⟨rfl, hlacks⟩

theorem settles_plural (h : setting.IsPlain directory) (kind : PluralKind) (name : String)
    (offset : Int) (entries : List (BranchKey × Message)) :
    Settles (FailsItself setting (.plural kind name offset ⟨entries⟩))
      (Strained directory setting (.plural kind name offset ⟨entries⟩)) := by
  have henter := Chooser.enter_plural setting kind name offset entries
  rcases h.value_cases name with ⟨v, hvalue, -⟩ | hmissing
  · by_cases hnumber : ∃ n, v = .number n
    · obtain ⟨n, rfl⟩ := hnumber
      cases hsub : n.subInt offset with
      | error fault =>
        simp only [choosePlural, hvalue, numberOf, hsub, onNumber, bind, Except.bind,
          Except.map] at henter
        exact settles_fault henter rfl fun fault' =>
          strained_plural_iff_of_subInt_error hvalue hsub
      | ok shifted => exact settles_enter h hvalue hsub
    · have hreceived :
          numberOf kind.name name v = .error (.notANumber kind.name name v.kindName) := by
        cases v with
        | number n => exact absurd ⟨n, rfl⟩ hnumber
        | _ => rfl
      simp only [choosePlural, hvalue, hreceived, bind, Except.bind, Except.map] at henter
      refine settles_reported henter (isReported_notANumber _ _ _) fun fault hstrained => ?_
      cases hstrained <;> cases hvalue.symm.trans ‹_› <;> exact hnumber ⟨_, rfl⟩
  · simp only [choosePlural, hmissing, bind, Except.bind, Except.map] at henter
    exact settles_reported henter (isReported_missingArgument name)
      (not_strained_of_missing hmissing)

end Plural

/-- A node of a pattern fails as it is strained, or its failure is reported. -/
theorem settles_node (h : setting.IsPlain directory) {node : Node} (hnode : node.IsPlain) :
    Settles (FailsItself setting node) (Strained directory setting node) := by
  cases node with
  | text s =>
    have htext : renderNode setting none (.text s) = .ok (fillPound none s) := by rw [renderNode]
    exact settles_ok htext nofun
  | argument name => exact settles_argument h name
  | formatted kind name style =>
    obtain rfl : kind = .number := hnode
    exact settles_number h name style
  | plural kind name offset branches => exact settles_plural h kind name offset branches.entries
  | select name branches => exact settles_select h name branches.entries
  | foreign kindName => exact absurd hnode id

end Nodes

/-! ## Messages -/

section Messages

variable {directory : Locale.Directory} {setting : Setting} {message : Message}

/-- Whatever is reached in a message of a pattern without dates and times is plain. -/
theorem isPlain_of_reaches {room : Nat} (hwell : WellFormed room message)
    (hkinds : ∀ use ∈ argumentUses message, use.kind ≠ .date ∧ use.kind ≠ .time)
    {node : Node} (hreached : Reaches setting message node) : node.IsPlain := by
  obtain ⟨room', hnode⟩ := exists_wellFormed_of_reaches hreached fun other hmem =>
    ⟨room, hwell.nodes other hmem⟩
  cases node with
  | foreign kindName => cases hnode
  | formatted kind name style =>
    cases kind with
    | number => rfl
    | date => exact absurd rfl (hkinds ⟨name, .date⟩ (mem_argumentUses_of_reaches hreached rfl)).1
    | time => exact absurd rfl (hkinds ⟨name, .time⟩ (mem_argumentUses_of_reaches hreached rfl)).2
  | _ => trivial

/-- The failures of a rendering are reported, or they are those of strained nodes. -/
theorem settles_render (h : setting.IsPlain directory) {room : Nat}
    (hwell : WellFormed room message)
    (hkinds : ∀ use ∈ argumentUses message, use.kind ≠ .date ∧ use.kind ≠ .time) :
    Settles (fun failure => render setting message = .error failure)
      fun fault =>
        ∃ node, Reaches setting message node ∧ Strained directory setting node fault where
  faults_iff fault := by
    simp only [render, renderNodes_eq_error_iff]
    constructor
    · rintro ⟨node, hreached, hstrained⟩
      have hnode := settles_node h (isPlain_of_reaches hwell hkinds hreached)
      obtain ⟨failure, hfails, hfault⟩ := (hnode.faults_iff fault).1 hstrained
      exact ⟨failure, ⟨node, hreached, hfails⟩, hfault⟩
    · rintro ⟨failure, ⟨node, hreached, hfails⟩, hfault⟩
      have hnode := settles_node h (isPlain_of_reaches hwell hkinds hreached)
      exact ⟨node, hreached, (hnode.faults_iff fault).2 ⟨failure, hfails, hfault⟩⟩
  classified failure hfailure := by
    obtain ⟨node, hreached, hfails⟩ := renderNodes_eq_error_iff.1 hfailure
    exact (settles_node h (isPlain_of_reaches hwell hkinds hreached)).classified failure hfails

end Messages

end Phrasebook
