/-
  The order in which a plural selector looks for its branch.

  A branch for exactly the number comes first: its key is compared with what the
  number is worth before the offset is taken away, whatever the kind of the
  number.  Then come the branch of the category of what is left behind the
  offset, and the branch for everything else (`PluralBranch`).  There is one
  outcome for every table and every number, and it is rendered with the number
  sign standing for what is left, unless that has too many digits to be written
  (`renderNode_plural`).
-/
import Phrasebook.Proofs.Localizer.Number
import Phrasebook.Proofs.Number.Whole
import Phrasebook.Proofs.Render.Text

set_option autoImplicit false

namespace Phrasebook

open Phrasebook.Number

/-! ## The branch -/

/-- Whether a table has no branch for exactly what a number is worth. -/
def NoExactBranch (entries : List (BranchKey × Message)) (n : Numeric) : Prop :=
  ∀ N : Int, n.worth? = some (N : ℚ) → Entries.find? (.exact N) entries = none

/-- The branch of a table that a plural selector takes for a number of which something is left behind
the offset, or the reason why it takes none. -/
inductive PluralBranch (setting : Setting) (kind : PluralKind) (name : String)
    (entries : List (BranchKey × Message)) (n shifted : Numeric) :
    Except RenderFailure (BranchKey × Message) → Prop
  /-- a key that the number is worth decides, whatever the category -/
  | exact {N : Int} {body : Message} (hworth : n.worth? = some (N : ℚ))
    (hfound : Entries.find? (.exact N) entries = some body) :
    PluralBranch setting kind name entries n shifted (.ok (.exact N, body))
  /-- otherwise the category of what is left does -/
  | category {category : String} {body : Message} (hexact : NoExactBranch entries n)
    (hcategory : setting.rules.category kind shifted setting.locale = .ok category)
    (hfound : Entries.find? (.name category) entries = some body) :
    PluralBranch setting kind name entries n shifted (.ok (.name category, body))
  /-- without a branch of its own it is in the one for everything else -/
  | other {category : String} {body : Message} (hexact : NoExactBranch entries n)
    (hcategory : setting.rules.category kind shifted setting.locale = .ok category)
    (hnone : Entries.find? (.name category) entries = none)
    (hfound : Entries.find? .other entries = some body) :
    PluralBranch setting kind name entries n shifted (.ok (.other, body))
  /-- and without that one the failure names the category -/
  | missing {category : String} (hexact : NoExactBranch entries n)
    (hcategory : setting.rules.category kind shifted setting.locale = .ok category)
    (hnone : Entries.find? (.name category) entries = none)
    (hother : Entries.find? .other entries = none) :
    PluralBranch setting kind name entries n shifted (.error (.noBranch kind.name name category))
  /-- a rule may fail -/
  | fault {fault : Fault} (hexact : NoExactBranch entries n)
    (hcategory : setting.rules.category kind shifted setting.locale = .error fault) :
    PluralBranch setting kind name entries n shifted (.error (.number fault))

section Branch

variable {setting : Setting} {kind : PluralKind} {name : String} {offset : Int}
  {entries : List (BranchKey × Message)} {n shifted : Numeric}
  {outcome : Except RenderFailure (BranchKey × Message)}

/-! ### Exact keys -/

theorem chooseExact?_eq_some_iff {key : BranchKey} :
    chooseExact? ⟨entries⟩ n = some key ↔
      ∃ (N : Int) (body : Message), key = .exact N ∧ n.worth? = some (N : ℚ) ∧
        Entries.find? (.exact N) entries = some body := by
  simp only [chooseExact?, Branches.find?]
  cases hn : n.integral? with
  | none =>
    refine iff_of_false nofun ?_
    rintro ⟨N, body, -, hworth, -⟩
    rw [← Numeric.integral?_eq_some_iff, hn] at hworth
    cases hworth
  | some k =>
    have hworth : ∀ N : Int, n.worth? = some (N : ℚ) ↔ k = N := fun N => by
      rw [← Numeric.integral?_eq_some_iff, hn, Option.some.injEq]
    simp only [hworth]
    rcases Option.eq_none_or_eq_some (Entries.find? (.exact k) entries) with hfind | ⟨body, hfind⟩
    · simp only [hfind]
      refine iff_of_false (by simp) ?_
      rintro ⟨N, body, -, rfl, hfound⟩
      rw [hfind] at hfound
      cases hfound
    · simp only [hfind, Option.isSome_some, if_true, Option.some.injEq]
      constructor
      · rintro rfl
        exact ⟨k, body, rfl, rfl, hfind⟩
      · rintro ⟨N, body', rfl, rfl, -⟩
        rfl

theorem chooseExact?_eq_none_iff : chooseExact? ⟨entries⟩ n = none ↔ NoExactBranch entries n := by
  constructor
  · intro hnone N hworth
    cases hfind : Entries.find? (.exact N) entries with
    | none => rfl
    | some body =>
      have hsome := chooseExact?_eq_some_iff.2 ⟨N, body, rfl, hworth, hfind⟩
      rw [hnone] at hsome
      cases hsome
  · intro hexact
    cases hkey : chooseExact? ⟨entries⟩ n with
    | none => rfl
    | some key =>
      obtain ⟨N, body, -, hworth, hfound⟩ := chooseExact?_eq_some_iff.1 hkey
      rw [hexact N hworth] at hfound
      cases hfound

/-! ### One outcome -/

/-- There is a branch to take or a reason to take none. -/
theorem exists_pluralBranch (setting : Setting) (kind : PluralKind) (name : String)
    (entries : List (BranchKey × Message)) (n shifted : Numeric) :
    ∃ outcome, PluralBranch setting kind name entries n shifted outcome := by
  cases hkey : chooseExact? ⟨entries⟩ n with
  | some key =>
    obtain ⟨N, body, -, hworth, hfound⟩ := chooseExact?_eq_some_iff.1 hkey
    exact ⟨_, .exact hworth hfound⟩
  | none =>
    have hexact := chooseExact?_eq_none_iff.1 hkey
    cases hcategory : setting.rules.category kind shifted setting.locale with
    | error fault => exact ⟨_, .fault hexact hcategory⟩
    | ok category =>
      cases hnone : Entries.find? (.name category) entries with
      | some body => exact ⟨_, .category hexact hcategory hnone⟩
      | none =>
        cases hother : Entries.find? .other entries with
        | some body => exact ⟨_, .other hexact hcategory hnone hother⟩
        | none => exact ⟨_, .missing hexact hcategory hnone hother⟩

/-- With both numbers at hand a plural selector takes the exact key of the first, or else the keyword
of the second. -/
theorem choosePlural_of_subInt (hvalue : setting.value name = .ok (.number n))
    (hshifted : n.subInt offset = .ok shifted) :
    choosePlural setting kind name offset (⟨entries⟩ : Branches Message) = (do
      let key ← match chooseExact? (⟨entries⟩ : Branches Message) n with
        | some key => pure key
        | none => do
          let category ← onNumber (setting.rules.category kind shifted setting.locale)
          chooseNamed (⟨entries⟩ : Branches Message) kind.name name category
      return (key, ← onNumber shifted.text)) := by
  rw [choosePlural, hvalue]
  change onNumber (n.subInt offset) >>= _ = _
  rw [hshifted]
  rfl

/-- What a plural selector chooses is the branch that it takes, and the text of what is left. -/
theorem choosePlural_of_pluralBranch (hvalue : setting.value name = .ok (.number n))
    (hshifted : n.subInt offset = .ok shifted)
    (h : PluralBranch setting kind name entries n shifted outcome) :
    choosePlural setting kind name offset ⟨entries⟩ = (do
      let chosen ← outcome
      return (chosen.1, ← onNumber shifted.text)) := by
  rw [choosePlural_of_subInt hvalue hshifted]
  cases h with
  | exact hworth hfound => rw [chooseExact?_eq_some_iff.2 ⟨_, _, rfl, hworth, hfound⟩]; rfl
  | category hexact hcategory hfound =>
    rw [chooseExact?_eq_none_iff.2 hexact, hcategory]
    simp [onNumber, chooseNamed, Branches.find?, hfound, bind, Except.bind]
  | other hexact hcategory hnone hfound =>
    rw [chooseExact?_eq_none_iff.2 hexact, hcategory]
    simp [onNumber, chooseNamed, Branches.find?, hnone, hfound, bind, Except.bind]
  | missing hexact hcategory hnone hother =>
    rw [chooseExact?_eq_none_iff.2 hexact, hcategory]
    simp [onNumber, chooseNamed, Branches.find?, hnone, hother, bind, Except.bind]
  | fault hexact hcategory =>
    rw [chooseExact?_eq_none_iff.2 hexact, hcategory]
    rfl

/-- The key of the branch that is taken finds its body. -/
theorem PluralBranch.find? {key : BranchKey} {body : Message}
    (h : PluralBranch setting kind name entries n shifted (.ok (key, body))) :
    Entries.find? key entries = some body := by
  cases h <;> assumption

/-- Exact keys apart, and the key for everything else, the key is the category. -/
theorem PluralBranch.category_of_name {s : String} {body : Message}
    (h : PluralBranch setting kind name entries n shifted (.ok (.name s, body))) :
    s = "other" ∨ setting.rules.category kind shifted setting.locale = .ok s := by
  generalize hkey : BranchKey.name s = key at h
  cases h with
  | exact hworth hfound => cases hkey
  | category hexact hcategory hfound =>
    cases hkey
    exact .inr hcategory
  | other hexact hcategory hnone hfound =>
    cases hkey
    exact .inl rfl

theorem PluralBranch.unique {outcome' : Except RenderFailure (BranchKey × Message)}
    (h : PluralBranch setting kind name entries n shifted outcome)
    (h' : PluralBranch setting kind name entries n shifted outcome') : outcome' = outcome := by
  cases h with
  | exact hworth hfound =>
    cases h' with
    | exact hworth' hfound' =>
      rw [hworth, Option.some.injEq, Int.cast_inj] at hworth'
      subst hworth'
      rw [hfound] at hfound'
      cases hfound'
      rfl
    | _ => grind [NoExactBranch]
  | _ => cases h' <;> grind [NoExactBranch]

/-! ## The text -/

/-- A plural selector renders the branch that it takes, the number sign standing for what is left of
the number. -/
theorem renderNode_of_pluralBranch (hvalue : setting.value name = .ok (.number n))
    (hshifted : n.subInt offset = .ok shifted)
    (h : PluralBranch setting kind name entries n shifted outcome) (sign : Option String) :
    renderNode setting sign (.plural kind name offset ⟨entries⟩) = (do
      let chosen ← outcome
      renderNodes setting (some (← onNumber shifted.text)) chosen.2) := by
  rw [renderNode, choosePlural_of_pluralBranch hvalue hshifted h]
  cases outcome with
  | error failure => rfl
  | ok chosen =>
    obtain ⟨key, body⟩ := chosen
    cases shifted.text with
    | error fault => rfl
    | ok number => exact renderBranch_of_find? h.find?

/-- A plural selector takes one branch of its table, by an exact key first, then by the category, and
then the one for everything else, or there is one reason why it takes none.  Except for the branch
for everything else a name is taken for being the category.  The body is rendered with the number
sign standing for the number less the offset, unless that is a whole number with too many digits. -/
theorem renderNode_plural (hvalue : setting.value name = .ok (.number n))
    (hshifted : n.subInt offset = .ok shifted) (sign : Option String) :
    (∃! outcome, PluralBranch setting kind name entries n shifted outcome) ∧
    (∀ failure, PluralBranch setting kind name entries n shifted (.error failure) →
      renderNode setting sign (.plural kind name offset ⟨entries⟩) = .error failure) ∧
    ∀ key body, PluralBranch setting kind name entries n shifted (.ok (key, body)) →
      (∀ s, key = .name s → s = "other" ∨
        setting.rules.category kind shifted setting.locale = .ok s) ∧
      (¬ Value.IsLong (.number shifted) → ∃ number, shifted.text = .ok number ∧
        renderNode setting sign (.plural kind name offset ⟨entries⟩) =
          renderNodes setting (some number) body) ∧
      (Value.IsLong (.number shifted) →
        renderNode setting sign (.plural kind name offset ⟨entries⟩) =
          .error (.number .tooManyDigits)) := by
  refine ⟨?_, fun failure h => renderNode_of_pluralBranch hvalue hshifted h sign,
    fun key body h => ⟨?_, fun hshort => ?_, fun hlong => ?_⟩⟩
  · obtain ⟨outcome, h⟩ := exists_pluralBranch setting kind name entries n shifted
    exact ⟨outcome, h, fun _ h' => h.unique h'⟩
  · rintro s rfl
    exact h.category_of_name
  · cases htext : shifted.text with
    | error fault =>
      exact absurd (Value.isLong_number_iff.2 (Numeric.text_eq_error_iff.1 htext).2) hshort
    | ok number =>
      refine ⟨number, rfl, ?_⟩
      rw [renderNode_of_pluralBranch hvalue hshifted h, htext]
      rfl
  · have htext := Numeric.text_eq_error_iff.2 ⟨rfl, Value.isLong_number_iff.1 hlong⟩
    rw [renderNode_of_pluralBranch hvalue hshifted h, htext]
    rfl

/-- A hundred is found by its exact key however it is written, and in front of a name with the same
digits. -/
theorem renderNode_plural_hundred :
    let n : Numeric := .decimal (.finite false 1 2)
    let setting : Setting := ⟨[("n", .number n)], "en", .empty, default⟩
    let entries : List (BranchKey × Message) :=
      [(.name "100", [.text "name"]), (.other, [.text "other"]), (.exact 100, [.text "#"])]
    setting.value "n" = .ok (.number n) ∧ n.subInt 1 = .ok (.decimal (.finite false 99 0)) ∧
      ∃ number, Numeric.text (.decimal (.finite false 99 0)) = .ok number ∧
        renderNode setting none (.plural .ordinal "n" 1 ⟨entries⟩) =
          renderNodes setting (some number) [.text "#"] := by
  intro n setting entries
  have hvalue : setting.value "n" = .ok (.number n) := rfl
  have hshifted : n.subInt 1 = .ok (.decimal (.finite false 99 0)) := by decide +kernel
  have hworth : n.worth? = some ((100 : Int) : ℚ) := by
    norm_num [n, Numeric.worth?, Decimal.worth, Decimal.signed]
  refine ⟨hvalue, hshifted, ?_⟩
  refine ((renderNode_plural hvalue hshifted none).2.2 (.exact 100) [.text "#"]
    (.exact hworth rfl)).2.1 ?_
  rintro ⟨i, heq, -⟩
  cases heq

/-- A power of ten with as many zeros as a whole number has digits is too long. -/
theorem not_isShort_ten_pow : ¬ IsShort (10 ^ maxIntegerDigits) := by
  rw [isShort_iff, Int.natAbs_pow, not_lt, show (10 : Int).natAbs = 10 from rfl]

/-- A branch that is taken and has no number sign is not rendered, if the number is left with too many
digits. -/
theorem renderNode_plural_tooLong :
    let n : Int := 10 ^ 4300 - 1
    let setting : Setting := ⟨[("n", .number (.int n))], "en", .empty, default⟩
    let entries : List (BranchKey × Message) := [(.other, [.text "x"])]
    (Numeric.int n).subInt (-1) = .ok (.int (10 ^ 4300)) ∧
      PluralBranch setting .cardinal "n" entries (.int n) (.int (10 ^ 4300))
        (.ok (.other, [.text "x"])) ∧
      render setting [.plural .cardinal "n" (-1) ⟨entries⟩] = .error (.number .tooManyDigits) := by
  intro n setting entries
  have hshifted : (Numeric.int n).subInt (-1) = .ok (.int (10 ^ 4300)) := by
    rw [Numeric.subInt, sub_neg_eq_add, sub_add_cancel]
  have hbranch : PluralBranch setting .cardinal "n" entries (.int n) (.int (10 ^ 4300))
      (.ok (.other, [.text "x"])) := by
    refine .category (fun N _ => rfl) ?_ rfl
    have hne : (10 : Int) ^ 4300 ≠ 1 := (one_lt_pow₀ (by decide) (by decide)).ne'
    have hsame : Numeric.equalsInt (.int (10 ^ 4300)) 1 = .ok false := by
      simp only [Numeric.equalsInt, Numeric.integral?, Except.ok.injEq, beq_eq_false_iff_ne, ne_eq,
        Option.some.injEq, hne, not_false_iff]
    have hrule : setting.rules.category .cardinal (.int (10 ^ 4300)) setting.locale = (do
        return (if ← Numeric.equalsInt (.int (10 ^ 4300)) 1 then Plural.Category.one
          else Plural.Category.other).name) := rfl
    rw [hrule, hsame]
    rfl
  have htext : Numeric.text (.int (10 ^ 4300)) = .error .tooManyDigits :=
    Numeric.text_eq_error_iff.2 ⟨rfl, _, rfl, not_isShort_ten_pow⟩
  refine ⟨hshifted, hbranch, ?_⟩
  rw [render, renderNodes_singleton, renderNode_of_pluralBranch rfl hshifted hbranch, htext]
  rfl

end Branch

end Phrasebook
