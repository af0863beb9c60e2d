/-
  The rule in force is the one that was registered last.

  Whatever is done to the rules of an engine, it registers some rules for some
  locales (`registrations`), or it clears them all.  A registry holds the
  registrations since the last clear, each under the normalized code of its
  locale, a later one in the place of an earlier (`Records`).  A locale finds the
  last rule of its own code, else the last of its language, else the rule of the
  library (`InForce`).

  The code of a language has neither hyphens nor underscores, so a rule is one
  for a language only if it was registered under exactly that code
  (`normalize_eq_language_iff`).
-/
import Mathlib.Data.List.DropRight
import Mathlib.Data.List.Induction
import Mathlib.Data.List.TakeWhile
import Phrasebook.Proofs.Engine.Transparency

set_option autoImplicit false

namespace Phrasebook

open Phrasebook.Number

/-! ## Codes of languages -/

namespace Text

/-- A character that no other character has for its lower case. -/
def NoImage (d : Char) : Prop :=
  d ∉ ['i', Char.ofNat 0x307, Char.ofNat 0x3C2, Char.ofNat 0x3C3] ∧ 0 < d.toNat ∧
    ∀ run ∈ lowerRuns, ¬ (run.first + run.shift ≤ d.toNat ∧ d.toNat ≤ run.last + run.shift)

instance (d : Char) : Decidable (NoImage d) := inferInstanceAs (Decidable (_ ∧ _ ∧ _))

theorem eq_of_lowerChar_eq {c d : Char} (hd : NoImage d) (h : lowerChar c = d) : c = d := by
  obtain ⟨-, hpos, hruns⟩ := hd
  rw [lowerChar] at h
  split at h
  · next run hrun =>
    have hmem := List.mem_of_find?_eq_some hrun
    have hcovers := List.find?_some hrun
    simp only [Bool.and_eq_true, decide_eq_true_eq] at hcovers
    obtain ⟨⟨hfirst, hlast⟩, -⟩ := hcovers
    have hcode : d.toNat = (c.toNat + run.shift).toNat ∨ d.toNat = 0 := by
      rw [← h]
      by_cases hvalid : (c.toNat + run.shift).toNat.isValidChar
      · exact .inl (congrArg Char.toNat (dif_pos hvalid))
      · exact .inr (congrArg Char.toNat (dif_neg hvalid))
    rcases hcode with hcode | hnone
    · exact absurd ⟨by omega, by omega⟩ (hruns run hmem)
    · omega
  · exact h

theorem mem_of_mem_lowerFrom {d : Char} (hd : NoImage d) (before s : List Char)
    (h : d ∈ lowerFrom before s) : d ∈ s := by
  induction s generalizing before with
  | nil => exact h
  | cons c after ih =>
    rw [lowerFrom, List.mem_append] at h
    rcases h with himage | hrest
    · have hne := hd.1
      simp only [List.mem_cons, List.not_mem_nil, or_false, not_or] at hne
      split at himage
      · simp [hne] at himage
      · split at himage
        · split at himage <;> simp [hne] at himage
        · have hsame := eq_of_lowerChar_eq hd (List.mem_singleton.1 himage).symm
          exact hsame ▸ List.mem_cons_self
    · exact List.mem_cons_of_mem _ (ih (c :: before) hrest)

/-- Lower case brings no such character in. -/
theorem mem_of_mem_lower {d : Char} (hd : NoImage d) {s : String} (h : d ∈ (lower s).toList) :
    d ∈ s.toList := by
  rw [lower, String.toList_ofList] at h
  exact mem_of_mem_lowerFrom hd [] s.toList h

end Text

namespace Locale

theorem hyphen_not_mem_normalize (code : String) : '-' ∉ (normalize code).toList := by
  rw [normalize, String.toList_ofList, List.mem_map]
  rintro ⟨c, -, hc⟩
  split at hc
  · cases hc
  · contradiction

/-- A language has neither a hyphen nor an underscore. -/
theorem not_mem_language (code : String) :
    '-' ∉ (language code).toList ∧ '_' ∉ (language code).toList := by
  have hhyphen : Text.NoImage '-' := by decide +kernel
  have hunderscore : Text.NoImage '_' := by decide +kernel
  refine ⟨fun hmem => ?_, fun hmem => ?_⟩
  · have hsource := Text.mem_of_mem_lower hhyphen hmem
    rw [String.toList_ofList] at hsource
    exact hyphen_not_mem_normalize code ((List.takeWhile_sublist _).subset hsource)
  · have hsource := Text.mem_of_mem_lower hunderscore hmem
    rw [String.toList_ofList] at hsource
    simpa using List.mem_takeWhile_imp hsource

theorem normalize_of_not_mem {code : String} (h : '-' ∉ code.toList) : normalize code = code := by
  have hkept : ∀ c ∈ code.toList, (if c = '-' then '_' else c) = id c := by
    intro c hc
    exact if_neg fun heq : c = '-' => h (heq ▸ hc)
  rw [normalize, List.map_congr_left hkept, List.map_id, String.ofList_toList]

/-- A code that is a language when it is normalized is so as it stands. -/
theorem normalize_eq_language_iff {code other : String} :
    normalize other = language code ↔ other = language code := by
  obtain ⟨hhyphen, hunderscore⟩ := not_mem_language code
  constructor
  · intro h
    have hother : '-' ∉ other.toList := by
      intro hmem
      have himage : '_' ∈ (normalize other).toList := by
        rw [normalize, String.toList_ofList]
        exact List.mem_map.2 ⟨'-', hmem, rfl⟩
      exact hunderscore (h ▸ himage)
    rwa [normalize_of_not_mem hother] at h
  · rintro rfl
    exact normalize_of_not_mem hhyphen

theorem language_en : language "en" = "en" := by decide +kernel

/-- Codes that differ in hyphens and underscores alone have one language. -/
theorem language_congr {code other : String} (h : normalize other = normalize code) :
    language other = language code := by
  rw [← language_normalize, h, language_normalize]

end Locale

/-! ## Registrations -/

namespace Plural

/-- A rule that is registered for the numbers of a kind in a locale. -/
structure Registration where
  kind : PluralKind
  locale : String
  rule : Rule

namespace Registration

/-- Whether a registration is for a locale, in whichever spelling. -/
def IsFor (kind : PluralKind) (locale : String) (x : Registration) : Prop :=
  x.kind = kind ∧ Locale.normalize x.locale = Locale.normalize locale

/-- Whether a registration is for the language of a locale. -/
def IsForLanguage (kind : PluralKind) (locale : String) (x : Registration) : Prop :=
  x.kind = kind ∧ x.locale = Locale.language locale

/-- Whether a registration is under a code. -/
def IsUnder (kind : PluralKind) (code : String) (x : Registration) : Prop :=
  x.kind = kind ∧ Locale.normalize x.locale = code

theorem isUnder_language_iff {kind : PluralKind} {locale : String} {x : Registration} :
    x.IsUnder kind (Locale.language locale) ↔ x.IsForLanguage kind locale :=
  and_congr_right fun _ => Locale.normalize_eq_language_iff

end Registration

/-- The rule of the last registration of some sort. -/
def Latest (registrations : List Registration) (sort : Registration → Prop) (rule : Rule) : Prop :=
  ∃ earlier x later, registrations = earlier ++ x :: later ∧ sort x ∧ x.rule = rule ∧
    ∀ y ∈ later, ¬ sort y

/-- The rule that a locale uses: the last one of its own, else the last one of its language, else
the one of the library. -/
inductive InForce (registrations : List Registration) (kind : PluralKind) (locale : String) :
    Rule → Prop
  | own {rule : Rule} (h : Latest registrations (·.IsFor kind locale) rule) :
    InForce registrations kind locale rule
  | language {rule : Rule} (hown : ∀ x ∈ registrations, ¬ x.IsFor kind locale)
      (h : Latest registrations (·.IsForLanguage kind locale) rule) :
    InForce registrations kind locale rule
  | default (hown : ∀ x ∈ registrations, ¬ x.IsFor kind locale)
      (hlanguage : ∀ x ∈ registrations, ¬ x.IsForLanguage kind locale) :
    InForce registrations kind locale (Rule.default kind)

end Plural

/-! ## What changes register -/

namespace Engine.RuleChange

open Plural

/-- What a change registers. -/
def registrations : RuleChange → List Registration
  | .register kind locale rule => [⟨kind, locale, rule⟩]
  | .installOrdinal locale =>
    ((Entries.find? (Locale.language locale) Registry.bundledOrdinals).map
      (⟨.ordinal, locale, ·⟩)).toList
  | .installAllOrdinals =>
    Registry.bundledOrdinals.map fun bundled => ⟨.ordinal, bundled.1, bundled.2⟩
  | .installLanguage directory locale =>
    match Locale.find locale directory with
    | .ok profile =>
      [⟨.cardinal, locale, profile.rule .cardinal⟩, ⟨.ordinal, locale, profile.rule .ordinal⟩]
    | .error _ => []
  | .clear => []

/-- Whether a change clears the registry. -/
def isClear : RuleChange → Bool
  | .clear => true
  | _ => false

/-- What a change answers: whether it installed what it was asked to, where that can fail. -/
def answer (rules : Registry) : RuleChange → Option Bool
  | .installOrdinal locale => some (rules.installOrdinal? locale).isSome
  | .installLanguage directory locale => some (rules.installLanguage? locale directory).isSome
  | _ => none

/-- Two changes that differ in the spelling of their locale alone. -/
inductive Respelled : RuleChange → RuleChange → Prop
  | register {locale other : String} (h : Locale.normalize other = Locale.normalize locale)
      (kind : PluralKind) (rule : Rule) :
    Respelled (.register kind locale rule) (.register kind other rule)
  | installOrdinal {locale other : String} (h : Locale.normalize other = Locale.normalize locale) :
    Respelled (.installOrdinal locale) (.installOrdinal other)
  | installAllOrdinals : Respelled .installAllOrdinals .installAllOrdinals
  | installLanguage {locale other : String} (h : Locale.normalize other = Locale.normalize locale)
      (directory : Locale.Directory) :
    Respelled (.installLanguage directory locale) (.installLanguage directory other)
  | clear : Respelled .clear .clear

end Engine.RuleChange

namespace Plural.Registry

open Engine (RuleChange)

/-- The registry after some changes. -/
def after (r : Registry) (changes : List RuleChange) : Registry := changes.foldl RuleChange.apply r

/-- What some changes answer, one after the other. -/
def answers (r : Registry) : List RuleChange → List (Option Bool)
  | [] => []
  | change :: rest => change.answer r :: answers (change.apply r) rest

/-- What was registered by some changes since they last cleared the registry. -/
def registrationsOf (changes : List RuleChange) : List Registration :=
  (changes.rtakeWhile fun change => !change.isClear).flatMap RuleChange.registrations

theorem registrationsOf_append_singleton (changes : List RuleChange) (change : RuleChange) :
    registrationsOf (changes ++ [change]) =
      if change.isClear then [] else registrationsOf changes ++ change.registrations := by
  rw [registrationsOf, List.rtakeWhile_concat]
  cases change.isClear <;> simp [registrationsOf]

/-! ## What a registry holds -/

/-- The registrations of a kind, each under its code. -/
def pairsOf (kind : PluralKind) (registrations : List Registration) : List (String × Rule) :=
  registrations.filterMap fun x =>
    if x.kind = kind then some (Locale.normalize x.locale, x.rule) else none

/-- A registry that holds some registrations, made one after the other. -/
def Records (r : Registry) (registrations : List Registration) : Prop :=
  ∀ kind, r.table kind = Entries.ofPairs (pairsOf kind registrations)

theorem records_empty : Records empty [] := by
  intro kind
  cases kind <;> rfl

section

variable {r : Registry} {registrations : List Registration}

theorem Records.register (h : Records r registrations) (kind : PluralKind) (locale : String)
    (rule : Rule) :
    Records (r.register kind locale rule) (registrations ++ [⟨kind, locale, rule⟩]) := by
  intro other
  rw [pairsOf, List.filterMap_append]
  by_cases hkind : other = kind
  · subst hkind
    rw [table_register_self, h]
    simp only [List.filterMap_cons, List.filterMap_nil, ↓reduceIte]
    rw [Entries.ofPairs_append_singleton]
    rfl
  · rw [table_register_of_ne r hkind, h]
    simp [Ne.symm hkind, pairsOf]

/-- Installing a bundled rule is registering it. -/
theorem Records.installOrdinal (h : Records r registrations) (locale : String) :
    Records ((RuleChange.installOrdinal locale).apply r)
      (registrations ++ (RuleChange.installOrdinal locale).registrations) := by
  rw [RuleChange.apply, RuleChange.registrations, installOrdinal?]
  cases Entries.find? (Locale.language locale) bundledOrdinals with
  | none => simpa using h
  | some rule => exact h.register .ordinal locale rule

/-- Every change keeps a record. -/
theorem Records.apply (h : Records r registrations) (change : RuleChange) :
    Records (change.apply r)
      (if change.isClear then [] else registrations ++ change.registrations) := by
  cases change with
  | register kind locale rule => exact h.register kind locale rule
  | installOrdinal locale => exact h.installOrdinal locale
  | installAllOrdinals =>
    -- English is the only language that comes with a rule
    have henglish : (RuleChange.installOrdinal "en").registrations =
        RuleChange.installAllOrdinals.registrations := by
      rw [RuleChange.registrations, RuleChange.registrations, Locale.language_en]
      rfl
    exact henglish ▸ h.installOrdinal "en"
  | installLanguage directory locale =>
    simp only [RuleChange.apply, RuleChange.registrations, RuleChange.isClear, installLanguage?]
    cases Locale.find locale directory with
    | error fault => simpa using h
    | ok profile =>
      have hboth := (h.register .cardinal locale (profile.rule .cardinal)).register .ordinal locale
        (profile.rule .ordinal)
      simpa using hboth
  | clear => exact records_empty

theorem records_after (changes : List RuleChange) :
    Records (empty.after changes) (registrationsOf changes) := by
  induction changes using List.reverseRecOn with
  | nil => exact records_empty
  | append_singleton changes change ih =>
    rw [registrationsOf_append_singleton, after, List.foldl_append]
    exact ih.apply change

/-- A registry holds one rule under each code. -/
theorem nodup_table_after (changes : List RuleChange) (kind : PluralKind) :
    (Entries.keys ((empty.after changes).table kind)).Nodup := by
  rw [records_after changes kind]
  exact Entries.nodup_keys_ofPairs _

/-! ## The rule in force -/

theorem latest_cons_iff {sort : Registration → Prop} {x : Registration} {rest : List Registration}
    {rule : Rule} :
    Latest (x :: rest) sort rule ↔
      Latest rest sort rule ∨ sort x ∧ x.rule = rule ∧ ∀ y ∈ rest, ¬ sort y := by
  constructor
  · rintro ⟨earlier, y, later, hsplit, hy, hrule, hlater⟩
    cases earlier with
    | nil =>
      cases hsplit
      exact .inr ⟨hy, hrule, hlater⟩
    | cons z earlier =>
      cases hsplit
      exact .inl ⟨earlier, y, later, rfl, hy, hrule, hlater⟩
  · rintro (⟨earlier, y, later, rfl, hy, hrule, hlater⟩ | ⟨hx, hrule, hlater⟩)
    · exact ⟨x :: earlier, y, later, rfl, hy, hrule, hlater⟩
    · exact ⟨[], x, rest, rfl, hx, hrule, hlater⟩

theorem find?_pairsOf_eq_none_iff {kind : PluralKind} {code : String} :
    Entries.find? code (pairsOf kind registrations) = none ↔
      ∀ x ∈ registrations, ¬ x.IsUnder kind code := by
  rw [Entries.find?_eq_none_iff, Entries.keys, pairsOf, List.mem_map]
  simp only [List.mem_filterMap, Option.ite_none_right_eq_some, Option.some.injEq]
  constructor
  · rintro h x hx ⟨hkind, hcode⟩
    exact h ⟨_, ⟨x, hx, hkind, rfl⟩, hcode⟩
  · rintro h ⟨_, ⟨x, hx, hkind, rfl⟩, hcode⟩
    exact h x hx ⟨hkind, hcode⟩

theorem find?_pairsOf_eq_some_iff {kind : PluralKind} {code : String} {rule : Rule} :
    Entries.find? code (pairsOf kind registrations) = some rule ↔
      Latest registrations (·.IsUnder kind code) rule := by
  induction registrations with
  | nil =>
    refine iff_of_false nofun ?_
    rintro ⟨earlier, x, later, hsplit, -⟩
    cases earlier <;> cases hsplit
  | cons x rest ih =>
    have hnone : Entries.find? code (pairsOf kind rest) = none ↔
        ∀ y ∈ rest, ¬ y.IsUnder kind code := find?_pairsOf_eq_none_iff
    rw [latest_cons_iff, ← ih, ← hnone, pairsOf, List.filterMap_cons, ← pairsOf]
    by_cases hkind : x.kind = kind
    · rw [if_pos hkind, Entries.find?]
      cases Entries.find? code (pairsOf kind rest) with
      | some other => simp
      | none => simp [Registration.IsUnder, hkind]
    · simp [hkind, Registration.IsUnder]

/-- A locale has a rule in force. -/
theorem exists_inForce (registrations : List Registration) (kind : PluralKind) (locale : String) :
    ∃ rule, InForce registrations kind locale rule := by
  cases hown : Entries.find? (Locale.normalize locale) (pairsOf kind registrations) with
  | some rule => exact ⟨rule, .own (find?_pairsOf_eq_some_iff.1 hown)⟩
  | none =>
    have hnone := find?_pairsOf_eq_none_iff.1 hown
    cases hlanguage : Entries.find? (Locale.language locale) (pairsOf kind registrations) with
    | some rule =>
      have hlatest := find?_pairsOf_eq_some_iff.1 hlanguage
      simp only [Registration.isUnder_language_iff] at hlatest
      exact ⟨rule, .language hnone hlatest⟩
    | none =>
      have hother := find?_pairsOf_eq_none_iff.1 hlanguage
      simp only [Registration.isUnder_language_iff] at hother
      exact ⟨_, .default hnone hother⟩

/-- It is the one that a registry sorts numbers by. -/
theorem Records.category_eq (h : Records r registrations) {kind : PluralKind} {locale : String}
    {rule : Rule} (hrule : InForce registrations kind locale rule) (n : Numeric) :
    r.category kind n locale = rule.category n := by
  rw [category, rule?, h kind, Entries.find?_ofPairs, Entries.find?_ofPairs]
  cases hrule with
  | own hlatest =>
    rw [find?_pairsOf_eq_some_iff.2 hlatest]
    rfl
  | language hown hlatest =>
    simp only [← Registration.isUnder_language_iff] at hlatest
    rw [find?_pairsOf_eq_none_iff.2 hown, find?_pairsOf_eq_some_iff.2 hlatest]
    rfl
  | default hown hlanguage =>
    simp only [← Registration.isUnder_language_iff] at hlanguage
    rw [find?_pairsOf_eq_none_iff.2 hown, find?_pairsOf_eq_none_iff.2 hlanguage]
    rfl

end

/-! ## Installing and spelling -/

theorem apply_of_answer_false {r : Registry} {change : RuleChange}
    (h : change.answer r = some false) : change.apply r = r := by
  cases change with
  | installOrdinal locale =>
    have hnone : r.installOrdinal? locale = none := by simpa [RuleChange.answer] using h
    rw [RuleChange.apply, hnone, Option.getD_none]
  | installLanguage directory locale =>
    have hnone : r.installLanguage? locale directory = none := by
      simpa [RuleChange.answer] using h
    rw [RuleChange.apply, hnone, Option.getD_none]
  | _ => cases h

/-- The rules that a directory has for a locale are installed for both kinds. -/
theorem Records.installLanguage {r : Registry} {registrations : List Registration}
    (h : Records r registrations) {directory : Locale.Directory} {locale : String}
    (hanswer : (RuleChange.installLanguage directory locale).answer r = some true) :
    ∃ profile, Locale.find locale directory = .ok profile ∧ ∀ kind,
      Entries.find? (Locale.normalize locale)
          (((RuleChange.installLanguage directory locale).apply r).table kind) =
        some (profile.rule kind) := by
  have hrecords := h.apply (.installLanguage directory locale)
  rw [RuleChange.answer, installLanguage?] at hanswer
  cases hprofile : Locale.find locale directory with
  | error fault =>
    rw [hprofile] at hanswer
    cases hanswer
  | ok profile =>
    refine ⟨profile, rfl, fun kind => ?_⟩
    rw [hrecords kind, Entries.find?_ofPairs, find?_pairsOf_eq_some_iff]
    simp only [RuleChange.isClear, RuleChange.registrations, hprofile]
    cases kind with
    | cardinal =>
      refine ⟨registrations, _, _, rfl, ⟨rfl, rfl⟩, rfl, ?_⟩
      rintro y hy ⟨hkind, -⟩
      obtain rfl := List.mem_singleton.1 hy
      cases hkind
    | ordinal =>
      refine ⟨registrations ++ [⟨.cardinal, locale, profile.rule .cardinal⟩],
        ⟨.ordinal, locale, profile.rule .ordinal⟩, [], ?_, ⟨rfl, rfl⟩, rfl, nofun⟩
      rw [List.append_assoc]
      rfl

theorem register_congr {locale other : String}
    (h : Locale.normalize other = Locale.normalize locale) (r : Registry) (kind : PluralKind)
    (rule : Rule) : r.register kind other rule = r.register kind locale rule := by
  simp only [register, h]

/-- The spelling of a locale matters neither to what a change does nor to what it answers. -/
theorem respelled_eq {change other : RuleChange} (h : change.Respelled other) (r : Registry) :
    other.apply r = change.apply r ∧ other.answer r = change.answer r := by
  cases h with
  | register h kind rule => exact ⟨register_congr h r kind rule, rfl⟩
  | @installOrdinal locale other h =>
    have hsame : r.installOrdinal? other = r.installOrdinal? locale := by
      rw [installOrdinal?, installOrdinal?, Locale.language_congr h,
        funext (register_congr h r PluralKind.ordinal)]
    simp only [RuleChange.apply, RuleChange.answer, hsame, and_self]
  | installAllOrdinals => exact ⟨rfl, rfl⟩
  | @installLanguage locale other h directory =>
    have hsame : r.installLanguage? other directory = r.installLanguage? locale directory := by
      simp only [installLanguage?, Locale.find_congr h, register_congr h]
    simp only [RuleChange.apply, RuleChange.answer, hsame, and_self]
  | clear => exact ⟨rfl, rfl⟩

theorem respelled_after {changes others : List RuleChange}
    (h : List.Forall₂ RuleChange.Respelled changes others) (r : Registry) :
    r.after others = r.after changes ∧ r.answers others = r.answers changes := by
  induction h generalizing r with
  | nil => exact ⟨rfl, rfl⟩
  | cons hchange hrest ih =>
    obtain ⟨happly, hanswer⟩ := respelled_eq hchange r
    obtain ⟨hafter, hanswers⟩ := ih (RuleChange.apply r _)
    rw [answers, answers, happly, hanswer, hanswers]
    refine ⟨?_, rfl⟩
    rw [after, List.foldl_cons, happly]
    exact hafter

theorem category_congr {locale other : String}
    (h : Locale.normalize other = Locale.normalize locale) (r : Registry) (kind : PluralKind)
    (n : Numeric) : r.category kind n other = r.category kind n locale := by
  simp only [category, rule?, h, Locale.language_congr h]

/-- A registry is told by what was done to it since it was last cleared.  A number is sorted by the
rule that was registered last under the code of its locale, else by the one that was registered last
under exactly the language of the locale, else by the rule of the library, each kind of number by
its own rules.  An installation that answers no changes nothing, and one out of a directory that
answers yes sets the rules that the directory has for the locale, for both kinds.  Hyphens and
underscores in locales make no difference to any answer. -/
theorem category_along_changes (changes : List RuleChange) :
    (∀ kind locale,
      (∃ rule, InForce (registrationsOf changes) kind locale rule) ∧
      ∀ rule, InForce (registrationsOf changes) kind locale rule → ∀ n,
        (empty.after changes).category kind n locale = rule.category n) ∧
    (∀ change : RuleChange, change.answer (empty.after changes) = some false →
      change.apply (empty.after changes) = empty.after changes) ∧
    (∀ directory locale,
      (RuleChange.installLanguage directory locale).answer (empty.after changes) = some true →
        ∃ profile, Locale.find locale directory = .ok profile ∧ ∀ kind,
          Entries.find? (Locale.normalize locale)
              (((RuleChange.installLanguage directory locale).apply
                (empty.after changes)).table kind) = some (profile.rule kind)) ∧
    (∀ others, List.Forall₂ RuleChange.Respelled changes others →
      empty.answers others = empty.answers changes ∧
      ∀ kind n locale other, Locale.normalize other = Locale.normalize locale →
        (empty.after others).category kind n other =
          (empty.after changes).category kind n locale) := by
  have hrecords := records_after changes
  refine ⟨fun kind locale => ⟨exists_inForce _ kind locale, fun rule => hrecords.category_eq⟩,
    fun change => apply_of_answer_false, fun directory locale => hrecords.installLanguage, ?_⟩
  intro others hothers
  obtain ⟨hafter, hanswers⟩ := respelled_after hothers empty
  refine ⟨hanswers, fun kind n locale other hlocale => ?_⟩
  rw [hafter]
  exact category_congr hlocale _ kind n

/-- Of the rules for Portuguese only those behind the clear are left; the one for Portugal wins
there, and the one for the language in Brazil.  No ordinal rule comes with German, and the listed
rules for Brazil are installed for both kinds. -/
theorem category_along_portuguese :
    let many : Rule := ⟨"many", fun _ => .ok "many"⟩
    let few : Rule := ⟨"few", fun _ => .ok "few"⟩
    let changes : List RuleChange :=
      [.register .cardinal "pt_BR" many, .clear, .register .cardinal "pt-PT" many,
        .register .cardinal "pt" few, .installOrdinal "de"]
    (empty.after changes).category .cardinal (.int 1) "pt_PT" = .ok "many" ∧
      (empty.after changes).category .cardinal (.int 1) "PT-BR" = .ok "few" ∧
      (empty.after changes).category .ordinal (.int 1) "pt" = .ok "other" ∧
      (RuleChange.installOrdinal "de").apply (empty.after changes) = empty.after changes ∧
      ∃ profile, Locale.find "pt-BR" .listed = .ok profile ∧ ∀ kind,
        Entries.find? "pt_BR" (((RuleChange.installLanguage .listed "pt-BR").apply
          (empty.after changes)).table kind) = some (profile.rule kind) := by
  intro many few changes
  obtain ⟨hforce, hfalse, hinstalled, -⟩ := category_along_changes changes
  have hregistrations : registrationsOf changes =
      [⟨.cardinal, "pt-PT", many⟩, ⟨.cardinal, "pt", few⟩] := by
    have hnone : (RuleChange.installOrdinal "de").registrations = [] := by
      have hlanguage : Locale.language "de" = "de" := by decide +kernel
      rw [RuleChange.registrations, hlanguage]
      rfl
    have hsplit : registrationsOf changes =
        [⟨.cardinal, "pt-PT", many⟩, ⟨.cardinal, "pt", few⟩] ++
          ((RuleChange.installOrdinal "de").registrations ++ []) := rfl
    rw [hsplit, hnone]
    rfl
  have hportugal : InForce (registrationsOf changes) .cardinal "pt_PT" many := by
    rw [hregistrations]
    refine .own ⟨[], _, _, rfl, ⟨rfl, by decide +kernel⟩, rfl, ?_⟩
    rintro y hy ⟨-, hlocale⟩
    obtain rfl := List.mem_singleton.1 hy
    exact absurd hlocale (by decide +kernel)
  have hbrazil : InForce (registrationsOf changes) .cardinal "PT-BR" few := by
    rw [hregistrations]
    refine .language ?_ ⟨[_], _, [], rfl, ⟨rfl, by decide +kernel⟩, rfl, nofun⟩
    simp only [List.forall_mem_cons, Registration.IsFor, true_and]
    exact ⟨by decide +kernel, by decide +kernel, nofun⟩
  have hordinal : InForce (registrationsOf changes) .ordinal "pt" (Rule.default .ordinal) := by
    rw [hregistrations]
    refine .default ?_ ?_ <;>
      simp [Registration.IsFor, Registration.IsForLanguage]
  refine ⟨(hforce _ _).2 _ hportugal _, (hforce _ _).2 _ hbrazil _,
    (hforce _ _).2 _ hordinal _, ?_, ?_⟩
  · refine hfalse (.installOrdinal "de") ?_
    have hlanguage : Locale.language "de" = "de" := by decide +kernel
    rw [RuleChange.answer, installOrdinal?, hlanguage]
    rfl
  · have hcode : Locale.normalize "pt-BR" = "pt_BR" := by decide +kernel
    exact hcode ▸ hinstalled .listed "pt-BR" (by decide +kernel)

end Plural.Registry

end Phrasebook
