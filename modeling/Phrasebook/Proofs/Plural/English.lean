/-
  English ordinals by two rules.

  The rule of the language goes by the last digits of a whole number as it is
  written, whatever its sign: the first, the -21st, the 112th (`ending`).  The
  rule that comes with the library takes a remainder that is never negative, so
  below zero it goes by other digits: -1 leaves 99 and has the ending of 99.
  The two agree exactly on the numbers that are not negative and on those whose
  digits take no special ending either way (`EndsAlike`).

  Where they agree it makes no difference which of the two is installed for
  English, be it for the locale of a message or for its language.  That holds
  over every directory whose English rule goes by the digits of whole numbers.
-/
import Phrasebook.Proofs.Number.Whole
import Phrasebook.Proofs.Plural.Registrations
import Phrasebook.Proofs.Render.Arguments
import Phrasebook.Proofs.Render.Precedence

set_option autoImplicit false

namespace Phrasebook.Plural

open Phrasebook.Number

/-! ## Endings -/

theorem Category.name_injective : Function.Injective Category.name := by
  intro a b hname
  have hread := congrArg Category.ofName? hname
  rwa [Category.ofName?_name, Category.ofName?_name, Option.some_inj] at hread

/-- The ending of a number by its last two digits: `st`, `nd`, `rd`, or `th`. -/
def ending (a : Nat) : Category :=
  if a % 10 = 1 ∧ a % 100 ≠ 11 then .one
  else if a % 10 = 2 ∧ a % 100 ≠ 12 then .two
  else if a % 10 = 3 ∧ a % 100 ≠ 13 then .few
  else .other

theorem ending_mod (a : Nat) : ending (a % 100) = ending a := by
  have hten : a % 100 % 10 = a % 10 := Nat.mod_mod_of_dvd a (by decide)
  rw [ending, ending, hten, Nat.mod_mod]

/-- Whether a number has one ending by its digits and by its remainder: it is not negative, or its
last digits take none of the special endings in either way. -/
def EndsAlike (n : Int) : Prop :=
  0 ≤ n ∨ n.natAbs % 10 ∈ [0, 4, 5, 6] ∨ n.natAbs % 100 ∈ [11, 12, 13, 87, 88, 89]

instance (n : Int) : Decidable (EndsAlike n) := inferInstanceAs (Decidable (_ ∨ _ ∨ _))

/-- What is left of a negative number is what its digits lack to a hundred. -/
theorem ending_lack_iff : ∀ a < 100, ending ((100 - a) % 100) = ending a ↔
    a % 10 ∈ [0, 4, 5, 6] ∨ a % 100 ∈ [11, 12, 13, 87, 88, 89] := by
  decide

theorem ending_remainder_iff (n : Int) :
    ending (n % 100).toNat = ending n.natAbs ↔ EndsAlike n := by
  rcases Int.lt_or_le n 0 with hn | hn
  · have hlack : (n % 100).toNat = (100 - n.natAbs % 100) % 100 := by omega
    have hten : n.natAbs % 100 % 10 = n.natAbs % 10 := Nat.mod_mod_of_dvd _ (by decide)
    have hiff := ending_lack_iff (n.natAbs % 100) (Nat.mod_lt _ (by decide))
    rw [ending_mod n.natAbs, hten, Nat.mod_mod] at hiff
    rw [hlack, hiff, EndsAlike, or_iff_right (Int.not_le.2 hn)]
  · have hsame : (n % 100).toNat = n.natAbs % 100 := by omega
    rw [hsame, ending_mod]
    exact iff_of_true rfl (.inl hn)

/-! ## The rules -/

namespace Rule

/-- The bundled rule goes by the remainder. -/
theorem englishOrdinal_int (n : Int) :
    englishOrdinal.category (.int n) = .ok (ending (n % 100).toNat).name := by
  have hremainder : ∀ m : Nat, (m : Int) ∣ 100 →
      (Numeric.int n).remainder m = .ok (.int ((n % 100).toNat % m : Nat)) := by
    intro m hm
    have hleft : n.fmod m = ((n % 100).toNat % m : Nat) := by
      rw [Int.fmod_eq_emod_of_nonneg _ (Int.natCast_nonneg m), Int.natCast_emod,
        Int.toNat_of_nonneg (Int.emod_nonneg n (by decide)), Int.emod_emod_of_dvd n hm]
    rw [Numeric.remainder, hleft]
  have hlast := hremainder 10 (by decide)
  have hlastTwo := hremainder 100 (by decide)
  generalize (n % 100).toNat = a at hlast hlastTwo ⊢
  -- an ending is asked for by the last digit first, and by the last two only if that is right
  have hends : ∀ digit teen : Int, (do
      if ← (Numeric.int (a % 10 : Nat)).equalsInt digit then
        return !(← (Numeric.int (a % 100 : Nat)).equalsInt teen)
      else return false) = (.ok (decide (((a % 10 : Nat) : Int) = digit ∧
        ((a % 100 : Nat) : Int) ≠ teen)) : Except Fault Bool) := by
    intro digit teen
    simp only [Numeric.equalsInt_int, bind, Except.bind, pure, Except.pure, ne_eq,
      Bool.decide_and, decide_not]
    cases decide (((a % 10 : Nat) : Int) = digit) <;> rfl
  have hcategory : englishOrdinal.category (.int n) = .ok (
      if a % 10 = 1 ∧ a % 100 ≠ 11 then Category.one.name
      else if a % 10 = 2 ∧ a % 100 ≠ 12 then Category.two.name
      else if a % 10 = 3 ∧ a % 100 ≠ 13 then Category.few.name
      else Category.other.name) := by
    simp only [englishOrdinal]
    rw [hlast, hlastTwo]
    simp only [bind, Except.bind] at hends ⊢
    rw [hends, hends, hends]
    simp only [decide_eq_true_eq]
    split_ifs <;> first | rfl | omega
  rw [hcategory, ending]
  split_ifs <;> rfl

theorem covers_int (k : Nat) (a : Nat) : Relation.covers [(k, k)] (.int a) = decide (a = k) := by
  rw [Relation.covers, Numeric.integral?]
  simp only [List.any_cons, List.any_nil, Bool.or_false, ← Bool.decide_and]
  exact decide_eq_decide.2 (by omega)

/-- The rule of the language goes by the digits. -/
theorem ofLanguage_english_int (n : Int) :
    (ofLanguage .ordinal "en").category (.int n) = .ok (ending n.natAbs).name := by
  have hremainder : ∀ m : Nat,
      (Numeric.int n.natAbs).remainder m = .ok (.int (n.natAbs % m : Nat)) := by
    intro m
    rw [Numeric.remainder, Int.fmod_eq_emod_of_nonneg _ (Int.natCast_nonneg m), Int.natCast_emod]
  have hends : ∀ digit teen : Nat, allHold ⟨.int n.natAbs, n.natAbs, 0, 0⟩
      [modIn .n 10 [(digit, digit)], modNotIn .n 100 [(teen, teen)]] =
        .ok (decide (n.natAbs % 10 = digit ∧ n.natAbs % 100 ≠ teen)) := by
    intro digit teen
    simp only [allHold, Relation.holds, modIn, modNotIn, Operands.get, hremainder, covers_int, bind,
      Except.bind, pure, Except.pure, ne_eq, Bool.decide_and, decide_not, beq_true, beq_false]
    cases decide (n.natAbs % 10 = digit) <;> cases decide (n.natAbs % 100 = teen) <;> rfl
  -- the conditions stand in the order of the names of their categories
  have hconditions : conditionsOf .ordinal "en" =
      [(.few, [[modIn .n 10 [(3, 3)], modNotIn .n 100 [(13, 13)]]]),
        (.one, [[modIn .n 10 [(1, 1)], modNotIn .n 100 [(11, 11)]]]),
        (.two, [[modIn .n 10 [(2, 2)], modNotIn .n 100 [(12, 12)]]])] := by
    decide
  have hcategory : (conditionsOf .ordinal "en").category (.int n) = .ok (ending n.natAbs) := by
    rw [hconditions, Conditions.category, Operands.of, ending]
    simp only [categoryIn, Condition.holds, bind, Except.bind, hends, pure, Except.pure,
      decide_eq_true_eq]
    split_ifs <;> first | rfl | omega
  rw [ofLanguage]
  simp only [hcategory]
  rfl

/-- The bundled rule and one that goes by the digits give one category to exactly the numbers that
have one ending. -/
theorem englishOrdinal_eq_iff {rule : Rule} {n : Int}
    (h : rule.category (.int n) = .ok (ending n.natAbs).name) :
    englishOrdinal.category (.int n) = rule.category (.int n) ↔ EndsAlike n := by
  rw [englishOrdinal_int, h, Except.ok.injEq, Category.name_injective.eq_iff, ending_remainder_iff]

end Rule

/-- Whether a directory knows English, and by the ordinal rule that it has there a whole number has
the ending of its digits. -/
def KnowsEnglish (directory : Locale.Directory) : Prop :=
  ∃ profile, Locale.find "en" directory = .ok profile ∧
    ∀ n : Int, (profile.rule .ordinal).category (.int n) = .ok (ending n.natAbs).name

theorem knowsEnglish_listed : KnowsEnglish .listed := by
  have hread : Locale.Tag.read? (Locale.normalize "en") = some ⟨"en", none, none, none⟩ := by
    decide +kernel
  have hlisted : (⟨"en", none, none, none⟩ : Locale.Tag).text ∈ Locale.listedCodes := by
    decide +kernel
  refine ⟨Locale.Tag.profile ⟨"en", none, none, none⟩, ?_, Rule.ofLanguage_english_int⟩
  simp only [Locale.find, Locale.Directory.listed, hread, if_pos hlisted]

/-! ## One rule in the place of the other -/

namespace Registry

open Engine (RuleChange)

/-- To a number that two rules sort alike it makes no difference which of them is registered. -/
theorem category_register_congr {r : Registry} {kind : PluralKind}
    (hnodup : (Entries.keys (r.table kind)).Nodup) {rule other : Rule} {n : Numeric}
    (hsame : other.category n = rule.category n) (code locale : String) :
    (r.register kind code other).category kind n locale =
      (r.register kind code rule).category kind n locale := by
  simp only [category, rule?, table_register_self, Entries.find?_insert hnodup]
  by_cases hown : Locale.normalize code = Locale.normalize locale
  · simp only [hown, ↓reduceIte, Option.getD_some, hsame]
  · rw [if_neg hown, if_neg hown]
    cases Entries.find? (Locale.normalize locale) (r.table kind) with
    | some rule => rfl
    | none =>
      by_cases hlanguage : Locale.normalize code = Locale.language locale
      · simp only [hlanguage, ↓reduceIte, Option.getD_some, hsame]
      · simp only [hlanguage, ↓reduceIte]

/-- A locale is sorted by the rule that is registered for it. -/
theorem category_register_self {r : Registry} {kind : PluralKind}
    (hnodup : (Entries.keys (r.table kind)).Nodup) (locale : String) (rule : Rule) (n : Numeric) :
    (r.register kind locale rule).category kind n locale = rule.category n := by
  rw [category, rule?, table_register_self, Entries.find?_insert_self _ _ _ hnodup,
    Option.getD_some]

/-- What installs the bundled rule for English. -/
def bundledEnglish : List RuleChange := [.installOrdinal "en", .installAllOrdinals]

theorem apply_bundledEnglish {change : RuleChange} (h : change ∈ bundledEnglish) (r : Registry) :
    change.apply r = r.register .ordinal "en" Rule.englishOrdinal := by
  have hinstall : r.installOrdinal? "en" = some (r.register .ordinal "en" Rule.englishOrdinal) := by
    rw [installOrdinal?, Locale.language_en]
    rfl
  simp only [bundledEnglish, List.mem_cons, List.not_mem_nil, or_false] at h
  rcases h with rfl | rfl
  · rw [RuleChange.apply, hinstall, Option.getD_some]
  · have hkeys : Entries.keys bundledOrdinals = ["en"] := rfl
    rw [RuleChange.apply, installAllOrdinals, hkeys, List.foldl_cons, List.foldl_nil, hinstall,
      Option.getD_some]

variable {directory : Locale.Directory} (changes : List RuleChange) {bundled : RuleChange}

/-- The ordinal rules behind the installation of the language.  Its cardinal rule does not stand in
their table. -/
theorem category_languageEnglish {profile : Locale.Profile}
    (hfind : Locale.find "en" directory = .ok profile) (n : Numeric) (locale : String) :
    ((RuleChange.installLanguage directory "en").apply (empty.after changes)).category .ordinal n
        locale =
      ((empty.after changes).register .ordinal "en" (profile.rule .ordinal)).category .ordinal n
        locale := by
  rw [RuleChange.apply, installLanguage?, hfind]
  rfl

/-- Numbers that have one ending are in one ordinal category in every locale, whichever of the two
rules is installed for English. -/
theorem category_english_congr (henglish : KnowsEnglish directory)
    (hbundled : bundled ∈ bundledEnglish) {n : Int} (hn : EndsAlike n) (locale : String) :
    ((RuleChange.installLanguage directory "en").apply (empty.after changes)).category .ordinal
        (.int n) locale =
      (bundled.apply (empty.after changes)).category .ordinal (.int n) locale := by
  obtain ⟨profile, hfind, hdigits⟩ := henglish
  have hsame := (Rule.englishOrdinal_eq_iff (hdigits n)).2 hn
  rw [category_languageEnglish changes hfind, apply_bundledEnglish hbundled]
  exact category_register_congr (nodup_table_after changes .ordinal) hsame.symm "en" locale

/-- In English itself each of them is the rule in force. -/
theorem category_english (henglish : KnowsEnglish directory) (hbundled : bundled ∈ bundledEnglish)
    (n : Int) :
    ((RuleChange.installLanguage directory "en").apply (empty.after changes)).category .ordinal
        (.int n) "en" = .ok (ending n.natAbs).name ∧
      (bundled.apply (empty.after changes)).category .ordinal (.int n) "en" =
        .ok (ending (n % 100).toNat).name := by
  obtain ⟨profile, hfind, hdigits⟩ := henglish
  have hnodup := nodup_table_after changes .ordinal
  rw [category_languageEnglish changes hfind, apply_bundledEnglish hbundled,
    category_register_self hnodup, category_register_self hnodup, hdigits, Rule.englishOrdinal_int]
  exact ⟨rfl, rfl⟩

end Registry

end Phrasebook.Plural

/-! ## Rendering by one rule or the other -/

namespace Phrasebook

open Phrasebook.Number Phrasebook.Plural
open Phrasebook.Engine (RuleChange)

/-- Whether an ordinal selector is given no number, or a whole one that has a branch of its own or
of which something with one ending is left behind the offset. -/
def OrdinalAlike (arguments : Arguments) (name : String) (offset : Int)
    (entries : List (BranchKey × Message)) : Prop :=
  ∀ n, Entries.find? name arguments = some (.number n) →
    ∃ k : Int, n = .int k ∧ (NoExactBranch entries n → EndsAlike (k - offset))

/-- Whether the plural selectors of a message are ordinal, each of them given such a number. -/
def OrdinalsAlike (arguments : Arguments) (message : Message) : Prop :=
  ∀ (kind : PluralKind) (name : String) (offset : Int) (entries : List (BranchKey × Message)),
    .plural kind name offset ⟨entries⟩ ∈ usingNodes message →
      kind = .ordinal ∧ OrdinalAlike arguments name offset entries

section

variable {arguments : Arguments} {locale : String} {localizer : Localizer}

/-- A selector chooses alike by two registries that sort alike what is left of its number. -/
theorem choosePlural_congr {rules others : Registry} {kind : PluralKind} {name : String}
    {offset : Int} {entries : List (BranchKey × Message)}
    (hsame : ∀ n, Entries.find? name arguments = some (.number n) → NoExactBranch entries n →
      ∀ shifted, n.subInt offset = .ok shifted →
        others.category kind shifted locale = rules.category kind shifted locale) :
    choosePlural ⟨arguments, locale, others, localizer⟩ kind name offset ⟨entries⟩ =
      choosePlural ⟨arguments, locale, rules, localizer⟩ kind name offset ⟨entries⟩ := by
  simp only [choosePlural, Setting.value]
  cases hvalue : Entries.find? name arguments with
  | none => rfl
  | some value =>
    cases value with
    | number n =>
      cases hshifted : n.subInt offset with
      | error fault => simp only [numberOf, hshifted, onNumber, bind, Except.bind]
      | ok shifted =>
        cases hexact : chooseExact? ⟨entries⟩ n with
        | some key => simp only [numberOf, hshifted, hexact, onNumber, bind, Except.bind]
        | none =>
          have hcategory := hsame n hvalue (chooseExact?_eq_none_iff.1 hexact) shifted hshifted
          simp only [numberOf, hshifted, hexact, hcategory, onNumber, bind, Except.bind]
    | _ => rfl

variable {directory : Locale.Directory} (henglish : KnowsEnglish directory)
  {changes : List RuleChange} {bundled : RuleChange} (hbundled : bundled ∈ Registry.bundledEnglish)

include henglish hbundled

/-- So does an ordinal selector by either rule for English. -/
theorem choosePlural_english_congr {name : String} {offset : Int}
    {entries : List (BranchKey × Message)} (halike : OrdinalAlike arguments name offset entries) :
    choosePlural ⟨arguments, locale,
        (RuleChange.installLanguage directory "en").apply (Registry.empty.after changes), localizer⟩
        .ordinal name offset ⟨entries⟩ =
      choosePlural ⟨arguments, locale, bundled.apply (Registry.empty.after changes), localizer⟩
        .ordinal name offset ⟨entries⟩ := by
  refine choosePlural_congr fun n hvalue hexact shifted hshifted => ?_
  obtain ⟨k, rfl, hends⟩ := halike n hvalue
  obtain rfl : .int (k - offset) = shifted := Except.ok.inj hshifted
  exact Registry.category_english_congr changes henglish hbundled (hends hexact) locale

/-- In English a selector with a branch for each ending tells all other numbers apart. -/
theorem choosePlural_english_iff {name : String} {offset k : Int}
    {entries : List (BranchKey × Message)}
    (hvalue : Entries.find? name arguments = some (.number (.int k)))
    (hexact : NoExactBranch entries (.int k)) (hshort : IsShort (k - offset))
    (hendings : ∀ a, (Entries.find? (.name (ending a).name) entries).isSome = true) :
    choosePlural ⟨arguments, "en",
        (RuleChange.installLanguage directory "en").apply (Registry.empty.after changes), localizer⟩
        .ordinal name offset ⟨entries⟩ =
      choosePlural ⟨arguments, "en", bundled.apply (Registry.empty.after changes), localizer⟩
        .ordinal name offset ⟨entries⟩ ↔ EndsAlike (k - offset) := by
  have hchosen : ∀ (rules : Registry) (a : Nat),
      rules.category .ordinal (.int (k - offset)) "en" = .ok (ending a).name →
        choosePlural ⟨arguments, "en", rules, localizer⟩ .ordinal name offset ⟨entries⟩ =
          .ok (.name (ending a).name, toString (k - offset)) := by
    intro rules a hcategory
    obtain ⟨body, hbody⟩ := Option.isSome_iff_exists.1 (hendings a)
    have hnumber : Setting.value ⟨arguments, "en", rules, localizer⟩ name =
        .ok (.number (.int k)) := by
      rw [Setting.value, hvalue]
    rw [choosePlural_of_pluralBranch hnumber rfl (.category hexact hcategory hbody), Numeric.text,
      integerText_eq_ok (isShort_iff.1 hshort)]
    rfl
  obtain ⟨hdigits, hremainder⟩ := Registry.category_english changes henglish hbundled (k - offset)
  rw [hchosen _ _ hdigits, hchosen _ _ hremainder, ← ending_remainder_iff, Except.ok.injEq,
    Prod.mk.injEq, and_iff_left rfl, BranchKey.name.injEq, Category.name_injective.eq_iff, eq_comm]

theorem render_english_congr {message : Message} (halike : OrdinalsAlike arguments message) :
    render ⟨arguments, locale,
        (RuleChange.installLanguage directory "en").apply (Registry.empty.after changes), localizer⟩
        message =
      render ⟨arguments, locale, bundled.apply (Registry.empty.after changes), localizer⟩
        message := by
  refine renderNodes_congr none message ⟨rfl, rfl, fun _ _ _ _ => rfl, ?_⟩
  intro kind name offset entries hmem
  obtain ⟨rfl, hnode⟩ := halike kind name offset entries hmem
  exact choosePlural_english_congr henglish hbundled hnode

end

/-- The bundled rule for English ordinals gives a whole number the ending of its remainder by a
hundred, and the rule of the language gives it the ending of its digits.  They agree on exactly the
numbers that are not negative or whose last digits take no special ending either way, and so do the
bundled rule and that of any directory which knows English.  On those numbers it makes no difference
which of the two is installed, whatever else was done to the rules: neither to the branch of an
ordinal selector, nor to the text of a message whose plural selectors are all ordinal.  On the
others an English selector with a branch for each ending differs. -/
theorem englishOrdinal_agrees {directory : Locale.Directory} (henglish : KnowsEnglish directory)
    (changes : List RuleChange) {bundled : RuleChange}
    (hbundled : bundled ∈ Registry.bundledEnglish) (arguments : Arguments) (localizer : Localizer) :
    let byDigits (locale : String) : Setting := ⟨arguments, locale,
      (RuleChange.installLanguage directory "en").apply (Registry.empty.after changes), localizer⟩
    let byRemainder (locale : String) : Setting := ⟨arguments, locale,
      bundled.apply (Registry.empty.after changes), localizer⟩
    (∀ n : Int, Rule.englishOrdinal.category (.int n) = .ok (ending (n % 100).toNat).name) ∧
    (∀ n : Int, (Rule.ofLanguage .ordinal "en").category (.int n) =
      .ok (ending n.natAbs).name) ∧
    (∀ n : Int, Rule.englishOrdinal.category (.int n) =
      (Rule.ofLanguage .ordinal "en").category (.int n) ↔ EndsAlike n) ∧
    (∃ profile, Locale.find "en" directory = .ok profile ∧ ∀ n : Int,
      Rule.englishOrdinal.category (.int n) = (profile.rule .ordinal).category (.int n) ↔
        EndsAlike n) ∧
    (∀ locale name offset entries, OrdinalAlike arguments name offset entries →
      choosePlural (byDigits locale) .ordinal name offset (⟨entries⟩ : Branches Message) =
        choosePlural (byRemainder locale) .ordinal name offset ⟨entries⟩) ∧
    (∀ locale message, OrdinalsAlike arguments message →
      render (byDigits locale) message = render (byRemainder locale) message) ∧
    ∀ name offset entries k, Entries.find? name arguments = some (.number (.int k)) →
      NoExactBranch entries (.int k) → IsShort (k - offset) →
      (∀ a, (Entries.find? (.name (ending a).name) entries).isSome = true) →
      (choosePlural (byDigits "en") .ordinal name offset (⟨entries⟩ : Branches Message) =
        choosePlural (byRemainder "en") .ordinal name offset ⟨entries⟩ ↔ EndsAlike (k - offset)) :=
  ⟨Rule.englishOrdinal_int, Rule.ofLanguage_english_int,
    fun n => Rule.englishOrdinal_eq_iff (Rule.ofLanguage_english_int n),
    henglish.imp fun _ hknown => ⟨hknown.1, fun n => Rule.englishOrdinal_eq_iff (hknown.2 n)⟩,
    fun _ _ _ _ => choosePlural_english_congr henglish hbundled,
    fun _ _ => render_english_congr henglish hbundled,
    fun _ _ _ _ => choosePlural_english_iff henglish hbundled⟩

/-- Behind an offset of one, twenty-two is the twenty-first by both rules.  Zero leaves a number on
which they differ, but has a branch of its own. -/
theorem englishOrdinal_agrees_offset :
    let entries : List (BranchKey × Message) :=
      [(.exact 0, [.text "none"]), (.name "one", [.text "#st"]), (.other, [.text "#th"])]
    let message : Message := [.plural .ordinal "n" 1 ⟨entries⟩]
    let byDigits (n : Int) : Setting := ⟨[("n", .number (.int n))], "en_GB",
      (RuleChange.installLanguage .listed "en").apply .empty, .standard⟩
    let byRemainder (n : Int) : Setting := ⟨[("n", .number (.int n))], "en_GB",
      RuleChange.installAllOrdinals.apply .empty, .standard⟩
    (∀ n ∈ [0, 22], render (byDigits n) message = render (byRemainder n) message) ∧
      render (byRemainder 0) message = .ok "none" ∧
      render (byRemainder 22) message = .ok "21st" := by
  intro entries message byDigits byRemainder
  refine ⟨fun n hn => ?_, by decide +kernel, by decide +kernel⟩
  have hbundled : RuleChange.installAllOrdinals ∈ Registry.bundledEnglish :=
    List.mem_cons_of_mem _ List.mem_cons_self
  refine (englishOrdinal_agrees knowsEnglish_listed [] hbundled [("n", .number (.int n))]
    .standard).2.2.2.2.2.1 "en_GB" message ?_
  have huses : usingNodes message = [.plural .ordinal "n" 1 ⟨entries⟩] := by decide +kernel
  intro kind name offset others hmem
  rw [huses, List.mem_singleton] at hmem
  cases hmem
  refine ⟨rfl, fun m hm => ?_⟩
  cases hm
  refine ⟨n, rfl, fun hexact => ?_⟩
  simp only [List.mem_cons, List.not_mem_nil, or_false] at hn
  rcases hn with rfl | rfl
  · have hzero := hexact 0 rfl
    cases hzero
  · decide

/-- The number before zero ends by its digit in the rule of the language and by 99 in the bundled
one. -/
theorem englishOrdinal_minusOne :
    let message : Message := [.plural .ordinal "n" 0
      ⟨[(.name "one", [.text "one"]), (.other, [.text "other"])]⟩]
    let setting (change : RuleChange) : Setting :=
      ⟨[("n", .number (.int (-1)))], "en", change.apply .empty, .standard⟩
    Rule.englishOrdinal.category (.int (-1)) ≠
        (Rule.ofLanguage .ordinal "en").category (.int (-1)) ∧
      render (setting .installAllOrdinals) message = .ok "other" ∧
      render (setting (.installLanguage .listed "en")) message = .ok "one" := by
  decide +kernel

end Phrasebook
