/-
  A backend answers from its store as it is at the moment of the request.

  A backend has two parts that change: a store, and an engine with rules and
  with a cache of parsed patterns that all keys and locales share.  The store is
  changed by storing alone and the rules by rule changes alone, so after any
  history both are known without the requests in between, and the cache of the
  engine does not show (`Engine.Faithful`).  So a request finds what the store
  holds, and a pattern is rendered as if it were parsed for this request, in the
  locale of the request.
-/
import Phrasebook.Backend
import Phrasebook.Proofs.Engine.Transparency

set_option autoImplicit false

namespace Phrasebook

open Phrasebook.Pattern

/-- The path that a request looks up. -/
def Request.path (r : Request) : String := joinKey r.scope r.key r.separator

namespace Backend

/-! ## Steps -/

/-- What is done with a backend. -/
inductive Step where
  | store (locale : String) (entries : List (Value × Value))
  | translate (request : Request)
  | engine (step : Engine.Step)

/-- The store after a step.  A table that cannot be stored leaves it as it is. -/
def Step.onStore (s : Store) : Step → Store
  | .store locale entries => (s.store locale entries).toOption.getD s
  | _ => s

/-- The rules after a step. -/
def Step.onRules (rules : Plural.Registry) : Step → Plural.Registry
  | .engine step => step.rules rules
  | _ => rules

/-- The backend after a step. -/
def act (b : Backend) : Step → Backend
  | .store locale entries =>
    { b with store := (b.store.store locale entries).toOption.getD b.store }
  | .translate request => (b.answer request).2
  | .engine step => { b with engine := (b.engine.act step).2 }

/-- The backend after some steps. -/
def after (b : Backend) (history : List Step) : Backend := history.foldl act b

/-! ## Requests -/

section Answer

variable {b : Backend} {r : Request}

theorem answer_of_value?_none (h : b.store.value? r.locale r.path = none) :
    b.answer r = (.ok (.missing r.locale r.path), b) := by
  refine answer_of_missing ?_
  rw [lookup, (Store.resolve_eq_missing_iff _ _ _ _ _).2 h]
  rfl

theorem lookup_of_value?_some {v : Value} (h : b.store.value? r.locale r.path = some v) :
    b.lookup r = .found v := by
  have h' : b.store.value? r.locale (joinKey r.scope r.key r.separator) = some v := h
  simp only [lookup, Store.resolve, h']

/-- A value that is no text is answered as it is, and the engine is not asked. -/
theorem answer_of_value?_other {v : Value} (h : b.store.value? r.locale r.path = some v)
    (hv : ∀ pattern, v ≠ .text pattern) : b.answer r = (.ok (.found v), b) := by
  rw [answer, lookup_of_value?_some h]
  split
  · rename_i pattern heq
    cases heq
    exact absurd rfl (hv pattern)
  · rfl

/-- A text is formatted by the engine, in the locale of the request. -/
theorem answer_of_value?_text {pattern : String}
    (h : b.store.value? r.locale r.path = some (.text pattern)) :
    b.answer r =
      let formatted := b.engine.format pattern r.arguments (some r.locale)
      (formatted.1.map fun text => .found (.text text), { b with engine := formatted.2 }) := by
  rw [answer, lookup_of_value?_some h]

end Answer

/-! ## Steps keep the two parts apart -/

/-- A backend with a store, whose engine differs from the one it began as in its rules and its
cache only. -/
structure Faithful (start : Engine) (store : Store) (rules : Plural.Registry) (b : Backend) :
    Prop where
  store_eq : b.store = store
  engine : Engine.Faithful start rules b.engine

namespace Faithful

variable {start : Engine} {store : Store} {rules : Plural.Registry} {b : Backend}

/-- A request changes the cache of the engine at most. -/
theorem answer (h : Faithful start store rules b) (r : Request) :
    Faithful start store rules (b.answer r).2 := by
  cases hvalue : b.store.value? r.locale r.path with
  | none =>
    rw [answer_of_value?_none hvalue]
    exact h
  | some v =>
    by_cases htext : ∃ pattern, v = .text pattern
    · obtain ⟨pattern, rfl⟩ := htext
      rw [answer_of_value?_text hvalue, Engine.format_eq h.engine.sound]
      exact ⟨h.store_eq, h.engine.parse pattern⟩
    · rw [answer_of_value?_other hvalue fun pattern heq => htext ⟨pattern, heq⟩]
      exact h

theorem act (h : Faithful start store rules b) (step : Step) :
    Faithful start (step.onStore store) (step.onRules rules) (b.act step) := by
  cases step with
  | store locale entries =>
    refine ⟨?_, h.engine⟩
    rw [Step.onStore, ← h.store_eq]
    rfl
  | translate request => exact h.answer request
  | engine step => exact ⟨h.store_eq, h.engine.step step⟩

/-- A whole history keeps what one step keeps. -/
theorem after (h : Faithful start store rules b) (history : List Step) :
    Faithful start (history.foldl Step.onStore store) (history.foldl Step.onRules rules)
      (b.after history) := by
  induction history generalizing b store rules with
  | nil => exact h
  | cons step rest ih => exact ih (h.act step)

/-- A request is answered from the store and the rules alone. -/
theorem answer_text (h : Faithful start store rules b) {r : Request} {pattern : String}
    (hvalue : store.value? r.locale r.path = some (.text pattern)) :
    (b.answer r).1 =
      (Engine.plainFormat start.parser ⟨r.arguments, r.locale, rules, start.localizer⟩ pattern).map
        fun text => .found (.text text) := by
  rw [← h.store_eq] at hvalue
  rw [answer_of_value?_text hvalue, Engine.format_eq h.engine.sound, h.engine.setting_eq,
    h.engine.parser_eq]
  rfl

/-- It finds nothing exactly if the store holds nothing. -/
theorem answer_missing_iff (h : Faithful start store rules b) {r : Request}
    {locale path : String} :
    (b.answer r).1 = .ok (.missing locale path) ↔
      store.value? r.locale r.path = none ∧ locale = r.locale ∧ path = r.path := by
  cases hvalue : store.value? r.locale r.path with
  | none =>
    rw [answer_of_value?_none (h.store_eq ▸ hvalue)]
    simp [eq_comm]
  | some v =>
    by_cases htext : ∃ pattern, v = .text pattern
    · obtain ⟨pattern, rfl⟩ := htext
      rw [h.answer_text hvalue]
      cases Engine.plainFormat start.parser ⟨r.arguments, r.locale, rules, start.localizer⟩
          pattern with
      | error failure => simp [Except.map]
      | ok text => simp [Except.map]
    · rw [answer_of_value?_other (h.store_eq ▸ hvalue) fun pattern heq => htext ⟨pattern, heq⟩]
      simp

end Faithful

/-- After every history of storing, requests, rule changes and other uses of its engine, a backend
answers a request from the store of the moment.  It finds nothing exactly if the store holds nothing
for the locale and the path of the request.  A value that is no text is the answer as it is, and
leaves the backend as it is.  A text is parsed afresh and rendered with the arguments and in the
locale of the request, with the rules of the moment; the locale of the engine plays no part. -/
theorem answer_along_history (store : Store) (config : CacheConfig) (locale : String)
    (rules : Plural.Registry) (localizer : Localizer) (parser : Parser) (history : List Step)
    (r : Request) :
    let b := after ⟨store, { locale, cache := config.cache, rules, localizer, parser }⟩ history
    let held := (history.foldl Step.onStore store).value? r.locale r.path
    (∀ given path, (b.answer r).1 = .ok (.missing given path) ↔
      held = none ∧ given = r.locale ∧ path = r.path) ∧
    (∀ v, held = some v → (∀ pattern, v ≠ .text pattern) → b.answer r = (.ok (.found v), b)) ∧
    (∀ pattern, held = some (.text pattern) →
      (b.answer r).1 =
        (Engine.plainFormat parser
          { arguments := r.arguments
            locale := r.locale
            rules := history.foldl Step.onRules rules
            localizer } pattern).map fun text => .found (.text text)) := by
  intro b held
  have hstart : Faithful { locale, cache := config.cache, rules, localizer, parser } store rules
      ⟨store, { locale, cache := config.cache, rules, localizer, parser }⟩ :=
    ⟨rfl, rfl, rfl, rfl, rfl, fun entry hmem => nomatch hmem⟩
  have h := hstart.after history
  refine ⟨fun given path => h.answer_missing_iff, ?_, fun pattern => h.answer_text⟩
  intro v hheld hv
  exact answer_of_value?_other (h.store_eq ▸ hheld) hv

/-- A pattern that was stored anew is rendered anew, though its locale was asked before under
another spelling, and another locale has filled the cache since. -/
theorem answer_of_replaced :
    let table : String → List (Value × Value) := fun pattern => [(.text "k", .text pattern)]
    let request : String → Request := fun locale =>
      { locale, key := "k", arguments := [("n", .number (.int 2))] }
    let history : List Step :=
      [.store "en-US" (table "a \x7bn\x7d"), .translate (request "en_US"), .store "de" (table "b"),
        .translate (request "de"), .store "en_US" (table "c \x7bn\x7d")]
    let b := after ⟨.empty,
      { locale := "de", cache := (⟨1, Nat.one_pos⟩ : CacheConfig).cache, rules := .empty,
        localizer := .standard, parser := default }⟩ history
    (b.answer (request "en-US")).1 = .ok (.found (.text "c 2")) := by
  intro table request history b
  have hheld : (history.foldl Step.onStore .empty).value? "en-US" (request "en-US").path =
      some (.text "c \x7bn\x7d") := by rfl
  have htext : Engine.plainFormat default ⟨[("n", .number (.int 2))], "en-US", .empty, .standard⟩
      "c \x7bn\x7d" = .ok "c 2" := by decide +kernel
  have h := (answer_along_history .empty ⟨1, Nat.one_pos⟩ "de" .empty .standard default history
    (request "en-US")).2.2 _ hheld
  exact h.trans (congrArg (Except.map fun text => Lookup.found (.text text)) htext)

end Backend

end Phrasebook
