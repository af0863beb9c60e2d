/-
  The cache of an engine does not show.

  Whatever an engine was used for before, it answers as if it parsed every
  pattern afresh.  The invariant is that a cached message is what the parser
  gives for its key (`Sound`).  Lookups, evictions and clears only take entries
  away or move them, a pattern enters the cache with the message that was just
  parsed, and the rules, the locale and the localizer play no part in parsing;
  so every step keeps the invariant, and with it every history.
-/
import Phrasebook.Engine
import Phrasebook.Proofs.Cache.Operations
import Phrasebook.Proofs.Entries

set_option autoImplicit false

namespace Phrasebook.Engine

open Phrasebook.Pattern

/-! ## Steps -/

/-- A change to the rules of an engine. -/
inductive RuleChange where
  | register (kind : PluralKind) (locale : String) (rule : Plural.Rule)
  | installOrdinal (locale : String)
  | installAllOrdinals
  | installLanguage (directory : Locale.Directory) (locale : String)
  | clear

/-- The rules after a change.  What cannot be installed leaves them as they are. -/
def RuleChange.apply (rules : Plural.Registry) : RuleChange → Plural.Registry
  | .register kind locale rule => rules.register kind locale rule
  | .installOrdinal locale => (rules.installOrdinal? locale).getD rules
  | .installAllOrdinals => rules.installAllOrdinals
  | .installLanguage directory locale => (rules.installLanguage? locale directory).getD rules
  | .clear => .empty

/-- Arguments as a caller has them: no name is given twice. -/
structure Table where
  pairs : Arguments
  nodup : (Entries.keys pairs).Nodup

/-- What is done with an engine. -/
inductive Step where
  | parse (pattern : String)
  | format (pattern : String) (arguments keywords : Table) (locale : Option String)
  | contains (pattern : String)
  | clearCache
  | changeRules (change : RuleChange)

/-- What a step gives back. -/
inductive Answer where
  | message (result : Except ParseFailure Message)
  | text (result : Except Failure String)
  | known (found : Bool)
  | nothing

/-- The arguments of a call, those given by keyword over those of the table. -/
def merged (arguments keywords : Table) : Arguments :=
  mergedArguments arguments.pairs keywords.pairs

/-- What an engine answers to a step, and the engine behind it. -/
def act (e : Engine) : Step → Answer × Engine
  | .parse pattern => (.message (e.parse pattern).1, (e.parse pattern).2)
  | .format pattern arguments keywords locale =>
    let (result, e) := e.format pattern (merged arguments keywords) locale
    (.text result, e)
  | .contains pattern => (.known (e.cache.contains pattern), e)
  | .clearCache => (.nothing, e.clearCache)
  | .changeRules change => (.nothing, { e with rules := change.apply e.rules })

/-- The engine after some steps. -/
def after (e : Engine) (history : List Step) : Engine :=
  history.foldl (fun e step => (e.act step).2) e

/-- The pattern that a step parses. -/
def Step.pattern? : Step → Option String
  | .parse pattern => some pattern
  | .format pattern _ _ _ => some pattern
  | _ => none

/-- The rules after a step. -/
def Step.rules (rules : Plural.Registry) : Step → Plural.Registry
  | .changeRules change => change.apply rules
  | _ => rules

/-- The text of a pattern without an engine: it is parsed, and its message is rendered. -/
def plainFormat (parser : Parser) (setting : Setting) (pattern : String) :
    Except Failure String := do
  let message ← (parser.parse pattern).mapError .parse
  (render setting message).mapError .render

/-! ## The invariant -/

/-- An engine whose cache holds messages of its own parser, each by its pattern. -/
def Sound (e : Engine) : Prop :=
  ∀ entry ∈ e.cache.entries, e.parser.parse entry.1 = .ok entry.2

/-- The lookups that a cache has counted. -/
def lookups (e : Engine) : Nat := e.cache.hits + e.cache.misses

theorem parse_eq (e : Engine) (pattern : String) :
    e.parse pattern =
      let fetched := e.cache.fetch pattern fun cache => (e.parser.parse pattern, cache)
      (fetched.1, { e with cache := fetched.2 }) := rfl

/-- Parsing finds what it would compute, or computes it; a pattern that has no message leaves the
entries as they are. -/
theorem parse_cases {e : Engine} (h : Sound e) (pattern : String) :
    (∃ message, e.parser.parse pattern = .ok message ∧
      e.parse pattern = (.ok message, { e with cache := (e.cache.get pattern).2 })) ∨
    (∃ message, e.parser.parse pattern = .ok message ∧ e.parse pattern =
      (.ok message, { e with cache := (e.cache.get pattern).2.set pattern message })) ∨
    (∃ failure, e.parser.parse pattern = .error failure ∧
      (e.cache.get pattern).2.entries = e.cache.entries ∧
      e.parse pattern = (.error failure, { e with cache := (e.cache.get pattern).2 })) := by
  rw [parse_eq]
  rcases e.cache.fetch_cases pattern fun cache => (e.parser.parse pattern, cache) with
    ⟨message, -, hfind, hfetch⟩ | ⟨message, -, houtcome, hfetch⟩ | ⟨failure, hmem, houtcome, hfetch⟩
  · have hparse := h _ (Cache.mem_entries_of_find? hfind)
    rw [hfetch]
    exact .inl ⟨message, hparse, rfl⟩
  · rw [hfetch]
    exact .inr (.inl ⟨message, houtcome, rfl⟩)
  · rw [hfetch]
    refine .inr (.inr ⟨failure, houtcome, ?_, rfl⟩)
    rcases e.cache.get_cases pattern with ⟨_, hfound, -, -⟩ | ⟨-, hget⟩
    · exact absurd hfound hmem
    · rw [hget]

theorem parse_fst {e : Engine} (h : Sound e) (pattern : String) :
    (e.parse pattern).1 = e.parser.parse pattern := by
  rcases parse_cases h pattern with
    ⟨message, hparse, heq⟩ | ⟨message, hparse, heq⟩ | ⟨failure, hparse, -, heq⟩ <;>
    rw [heq, hparse]

theorem sound_parse {e : Engine} (h : Sound e) (pattern : String) : Sound (e.parse pattern).2 := by
  have hget : ∀ entry ∈ (e.cache.get pattern).2.entries, e.parser.parse entry.1 = .ok entry.2 :=
    fun entry hmem => h entry (Cache.mem_entries_of_get hmem)
  rcases parse_cases h pattern with
    ⟨message, hparse, heq⟩ | ⟨message, hparse, heq⟩ | ⟨failure, hparse, -, heq⟩
  · rw [heq]
    exact hget
  · rw [heq]
    intro entry hmem
    rcases Cache.mem_entries_of_set hmem with hmem | rfl
    · exact hget entry hmem
    · exact hparse
  · rw [heq]
    exact hget

theorem lookups_parse {e : Engine} (h : Sound e) (pattern : String) :
    lookups (e.parse pattern).2 = lookups e + 1 := by
  rcases parse_cases h pattern with
    ⟨message, -, heq⟩ | ⟨message, -, heq⟩ | ⟨failure, -, -, heq⟩
  · rw [heq]
    exact Cache.lookups_get e.cache pattern
  · rw [heq]
    exact (Cache.lookups_set _ _ _).trans (Cache.lookups_get e.cache pattern)
  · rw [heq]
    exact Cache.lookups_get e.cache pattern

theorem entries_parse_of_error {e : Engine} (h : Sound e) {pattern : String}
    {failure : ParseFailure} (hfail : e.parser.parse pattern = .error failure) :
    (e.parse pattern).2.cache.entries = e.cache.entries := by
  rcases parse_cases h pattern with
    ⟨message, hparse, -⟩ | ⟨message, hparse, -⟩ | ⟨failure, -, hentries, heq⟩
  · rw [hfail] at hparse
    cases hparse
  · rw [hfail] at hparse
    cases hparse
  · rw [heq]
    exact hentries

/-- Formatting is parsing, and rendering what was parsed. -/
theorem format_eq {e : Engine} (h : Sound e) (pattern : String) (arguments : Arguments)
    (locale : Option String) :
    e.format pattern arguments locale =
      (plainFormat e.parser (e.setting arguments locale) pattern, (e.parse pattern).2) := by
  have hframe : (e.parse pattern).2.setting arguments locale = e.setting arguments locale := rfl
  have hparse := parse_fst h pattern
  rw [format, plainFormat, ← hparse]
  cases hresult : e.parse pattern with
  | mk result e' =>
    rw [hresult] at hframe
    cases result with
    | error failure => rfl
    | ok message =>
      dsimp only at hframe ⊢
      rw [hframe]
      cases hrender : render (e.setting arguments locale) message with
      | ok text => simp [Except.mapError, bind, Except.bind, hrender]
      | error failure => simp [Except.mapError, bind, Except.bind, hrender]

/-- A step that reads a pattern leaves the engine that parsing the pattern leaves. -/
theorem act_snd_of_pattern? {e : Engine} (h : Sound e) {step : Step} {pattern : String}
    (hpattern : step.pattern? = some pattern) : (e.act step).2 = (e.parse pattern).2 := by
  cases step with
  | parse p =>
    cases hpattern
    rfl
  | format p arguments keywords locale =>
    cases hpattern
    rw [act, format_eq h]
  | _ => cases hpattern

/-! ## Steps keep the invariant -/

/-- An engine that differs from the one it began as in its rules and its cache only, and has a
sound cache. -/
structure Faithful (start : Engine) (rules : Plural.Registry) (e : Engine) : Prop where
  locale_eq : e.locale = start.locale
  localizer_eq : e.localizer = start.localizer
  parser_eq : e.parser = start.parser
  rules_eq : e.rules = rules
  sound : Sound e

namespace Faithful

variable {start e : Engine} {rules : Plural.Registry}

theorem parse (h : Faithful start rules e) (pattern : String) :
    Faithful start rules (e.parse pattern).2 where
  locale_eq := h.locale_eq
  localizer_eq := h.localizer_eq
  parser_eq := h.parser_eq
  rules_eq := h.rules_eq
  sound := sound_parse h.sound pattern

theorem step (h : Faithful start rules e) (step : Step) :
    Faithful start (step.rules rules) (e.act step).2 := by
  cases step with
  | parse pattern => exact h.parse pattern
  | format pattern arguments keywords locale =>
    rw [act, format_eq h.sound]
    exact h.parse pattern
  | contains pattern => exact h
  | clearCache =>
    exact ⟨h.locale_eq, h.localizer_eq, h.parser_eq, h.rules_eq, fun entry hmem => nomatch hmem⟩
  | changeRules change =>
    have hrules : change.apply e.rules = change.apply rules := by rw [h.rules_eq]
    exact ⟨h.locale_eq, h.localizer_eq, h.parser_eq, hrules, h.sound⟩

/-- A whole history keeps what one step keeps. -/
theorem after (h : Faithful start rules e) (history : List Step) :
    Faithful start (history.foldl Step.rules rules) (e.after history) := by
  induction history generalizing e rules with
  | nil => exact h
  | cons step rest ih => exact ih (h.step step)

/-- The setting of a call is that of the engine it began as, with the rules of the moment. -/
theorem setting_eq (h : Faithful start rules e) (arguments : Arguments) (locale : Option String) :
    e.setting arguments locale = ⟨arguments, locale.getD start.locale, rules, start.localizer⟩ := by
  rw [setting, h.locale_eq, h.rules_eq, h.localizer_eq]

end Faithful

theorem find?_merged (arguments keywords : Table) (name : String) :
    Entries.find? name (merged arguments keywords) =
      (Entries.find? name keywords.pairs).or (Entries.find? name arguments.pairs) :=
  Entries.find?_insertAll arguments.nodup keywords.pairs name

/-- After every history, an engine that began with an empty cache parses as its parser does, and
formats as if it parsed and rendered afresh, with keywords before arguments, the rules of the
moment, and its own locale for a call that names none.  Each of these counts one lookup, and if the
pattern has no message the entries of the cache stay as they are. -/
theorem transparent (config : CacheConfig) (locale : String) (rules : Plural.Registry)
    (localizer : Localizer) (parser : Parser) (history : List Step) :
    let e := after { locale, cache := config.cache, rules, localizer, parser } history
    (∀ pattern, (e.act (.parse pattern)).1 = .message (parser.parse pattern)) ∧
    (∀ pattern arguments keywords given,
      (e.act (.format pattern arguments keywords given)).1 =
        .text (plainFormat parser
          { arguments := merged arguments keywords
            locale := given.getD locale
            rules := history.foldl Step.rules rules
            localizer } pattern)) ∧
    (∀ arguments keywords name, Entries.find? name (merged arguments keywords) =
      (Entries.find? name keywords.pairs).or (Entries.find? name arguments.pairs)) ∧
    (∀ step : Step, step.pattern?.isSome = true → lookups (e.act step).2 = lookups e + 1) ∧
    (∀ (step : Step) (pattern : String) (failure : ParseFailure), step.pattern? = some pattern →
      parser.parse pattern = .error failure →
        (e.act step).2.cache.entries = e.cache.entries) := by
  intro e
  have hstart : Faithful { locale, cache := config.cache, rules, localizer, parser } rules
      { locale, cache := config.cache, rules, localizer, parser } :=
    ⟨rfl, rfl, rfl, rfl, fun entry hmem => nomatch hmem⟩
  have h := hstart.after history
  have hparser : e.parser = parser := h.parser_eq
  refine ⟨?_, ?_, find?_merged, ?_, ?_⟩
  · intro pattern
    rw [act, parse_fst h.sound, hparser]
  · intro pattern arguments keywords given
    rw [act, format_eq h.sound, h.setting_eq, hparser]
  · intro step hstep
    obtain ⟨pattern, hpattern⟩ := Option.isSome_iff_exists.1 hstep
    rw [act_snd_of_pattern? h.sound hpattern]
    exact lookups_parse h.sound pattern
  · intro step pattern failure hpattern hfail
    rw [act_snd_of_pattern? h.sound hpattern]
    exact entries_parse_of_error h.sound (hparser ▸ hfail)

/-- A pattern that is not closed takes nothing out of a full cache. -/
theorem entries_kept_by_open_pattern :
    let e := after
      { locale := "en", cache := (⟨1, Nat.one_pos⟩ : CacheConfig).cache, rules := .empty,
        localizer := .standard, parser := default }
      [.parse "a", .parse "b", .changeRules .installAllOrdinals]
    (e.act (.parse "\x7b")).2.cache.entries = e.cache.entries := by
  have hfail : (default : Parser).parse "\x7b" =
      .error (.malformed ⟨"\x7b", 0, .unterminatedArgument⟩) := by
    decide +kernel
  exact (transparent ⟨1, Nat.one_pos⟩ "en" .empty .standard default
    [.parse "a", .parse "b", .changeRules .installAllOrdinals]).2.2.2.2
      (.parse "\x7b") "\x7b" _ rfl hfail

end Phrasebook.Engine
