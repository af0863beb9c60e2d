/-
  Loading a bundle stores its entries up to the first one that cannot be stored.

  An entry of a bundle asks for one call, or cannot be stored, and which of the
  two is the case does not depend on the store (`AsksFor`, `IsFaulty`).  Loading
  makes the calls as it reads the entries.  So a bundle without a faulty entry is
  stored whole, and of a bundle with one the calls of the entries in front of it
  are made and stay made (`BundleAsks`): such a load changes nothing only if the
  first entry is faulty already, or what is stored in front changes nothing.
  What a document is read as plays no part in it, so all this holds with any
  reader for YAML.
-/
import Mathlib
import Phrasebook.Bundle
import Phrasebook.Proofs.Store.LastWrite

set_option autoImplicit false

namespace Phrasebook.Store

open Phrasebook.Number

/-! ## Entries -/

/-- The call that an entry of a bundle asks for.  The key of the entry and all keys of its table
have texts. -/
structure AsksFor (entry : Value × Value) (call : Call) : Prop where
  locale_eq : entry.1.toText = .ok call.locale
  table_eq : entry.2 = .table call.entries
  flattens : ∃ values, flatten "" call.entries = .ok values

/-- Why an entry of a bundle at a path cannot be stored. -/
inductive IsFaulty (path : String) : Value × Value → LoadFault → Prop
  | locale {key v : Value} {fault : Fault} (h : key.toText = .error fault) :
      IsFaulty path (key, v) (.key fault)
  | notTable {key v : Value} {locale : String} (h : key.toText = .ok locale)
      (hv : ∀ entries, v ≠ .table entries) : IsFaulty path (key, v) (.localeNotTable path locale)
  | key {key : Value} {locale : String} {entries : List (Value × Value)} {fault : Fault}
      (h : key.toText = .ok locale) (hflat : flatten "" entries = .error fault) :
      IsFaulty path (key, .table entries) (.key fault)

/-- An entry that cannot be stored has a fault. -/
theorem exists_asksFor_or_isFaulty (path : String) (entry : Value × Value) :
    (∃ call, AsksFor entry call) ∨ ∃ fault, IsFaulty path entry fault := by
  obtain ⟨key, v⟩ := entry
  cases hkey : key.toText with
  | error fault => exact .inr ⟨_, .locale hkey⟩
  | ok locale =>
    by_cases htable : ∃ entries, v = .table entries
    · obtain ⟨entries, rfl⟩ := htable
      cases hflat : flatten "" entries with
      | error fault => exact .inr ⟨_, .key hkey hflat⟩
      | ok values => exact .inl ⟨⟨locale, entries⟩, hkey, rfl, values, hflat⟩
    · exact .inr ⟨_, .notTable hkey fun entries heq => htable ⟨entries, heq⟩⟩

/-- The entries of a bundle that can be stored, up to the first one that cannot. -/
theorem exists_front (path : String) (entries : List (Value × Value)) :
    ∃ front calls, List.Forall₂ AsksFor front calls ∧
      (entries = front ∨ ∃ faulty later fault,
        entries = front ++ faulty :: later ∧ IsFaulty path faulty fault) := by
  induction entries with
  | nil => exact ⟨[], [], .nil, .inl rfl⟩
  | cons entry rest ih =>
    rcases exists_asksFor_or_isFaulty path entry with ⟨call, hcall⟩ | ⟨fault, hfault⟩
    · obtain ⟨front, calls, hfront, hrest⟩ := ih
      refine ⟨entry :: front, call :: calls, .cons hcall hfront, ?_⟩
      rcases hrest with rfl | ⟨faulty, later, fault, rfl, hfault⟩
      · exact .inl rfl
      · exact .inr ⟨faulty, later, fault, rfl, hfault⟩
    · exact ⟨[], [], .nil, .inr ⟨entry, rest, fault, rfl, hfault⟩⟩

/-! ## Loading -/

section Load

variable {path : String} {entry : Value × Value}

/-- An entry that asks for a call is stored by that call, and loading goes on behind it. -/
theorem AsksFor.loadEntries_cons {call : Call} (h : AsksFor entry call) (path : String)
    (s : Store) :
    ∃ s₁, s.store call.locale call.entries = .ok s₁ ∧ ∀ rest,
      loadEntries path (entry :: rest) s =
        ((loadEntries path rest s₁).1.map (call.locale :: ·), (loadEntries path rest s₁).2) := by
  obtain ⟨key, v⟩ := entry
  obtain ⟨hkey, rfl, values, hflat⟩ := h
  have hlocale : key.toText = .ok call.locale := hkey
  have hstore : s.store call.locale call.entries = .ok (s.insert call.locale values) :=
    store_eq_ok_iff.2 ⟨values, hflat, rfl⟩
  refine ⟨_, hstore, fun rest => ?_⟩
  simp only [loadEntries, hlocale, hstore]
  rcases loadEntries path rest (s.insert call.locale values) with ⟨fault | locales, s'⟩ <;> rfl

/-- Loading stops at a faulty entry. -/
theorem IsFaulty.loadEntries_cons {fault : LoadFault} (h : IsFaulty path entry fault)
    (rest : List (Value × Value)) (s : Store) :
    loadEntries path (entry :: rest) s = (.error fault, s) := by
  cases h with
  | locale h => simp only [loadEntries, h]
  | @notTable key v locale h hv =>
    cases v with
    | table entries => exact absurd rfl (hv entries)
    | _ => simp only [loadEntries, h]
  | key h hflat =>
    have hstore : ∀ locale, s.store locale _ = .error _ := fun locale => by
      rw [store, hflat]
      rfl
    simp only [loadEntries, h, hstore]

/-- Entries that can be stored are stored in order, whatever comes behind them. -/
theorem loadEntries_append {front : List (Value × Value)} {calls : List Call}
    (h : List.Forall₂ AsksFor front calls) (path : String) (s : Store) :
    ∃ s', s.storeAll calls = .ok s' ∧ ∀ rest,
      loadEntries path (front ++ rest) s =
        ((loadEntries path rest s').1.map (calls.map Call.locale ++ ·),
          (loadEntries path rest s').2) := by
  induction h generalizing s with
  | nil =>
    refine ⟨s, rfl, fun rest => ?_⟩
    rw [List.nil_append]
    rcases loadEntries path rest s with ⟨fault | locales, s'⟩ <;> rfl
  | @cons entry call front calls hentry _ ih =>
    obtain ⟨s₁, hstore, hcons⟩ := hentry.loadEntries_cons path s
    obtain ⟨s', hcalls, hrest⟩ := ih s₁
    refine ⟨s', storeAll_cons_eq_ok_iff.2 ⟨s₁, hstore, hcalls⟩, fun rest => ?_⟩
    rw [List.cons_append, hcons, hrest]
    rcases loadEntries path rest s' with ⟨fault | locales, s''⟩ <;> rfl

end Load

/-! ## Bundles -/

/-- The calls that the bundle at a path asks for, in the order of its document, and what ends them:
its end, or the first fault. -/
inductive BundleAsks (readYaml : DocumentReader) (f : Folder) (path : String) :
    List Call → Except LoadFault Unit → Prop
  | unreadable {fault : LoadFault} (h : documentAt f path readYaml = .error fault) :
      BundleAsks readYaml f path [] (.error fault)
  | empty (h : documentAt f path readYaml = .ok .null) : BundleAsks readYaml f path [] (.ok ())
  | notTable {document : Value} (h : documentAt f path readYaml = .ok document)
      (hnull : document ≠ .null) (htable : ∀ entries, document ≠ .table entries) :
      BundleAsks readYaml f path [] (.error (.notTable (tidyPath path)))
  | whole {entries : List (Value × Value)} {calls : List Call}
      (h : documentAt f path readYaml = .ok (.table entries))
      (hcalls : List.Forall₂ AsksFor entries calls) : BundleAsks readYaml f path calls (.ok ())
  | upTo {front later : List (Value × Value)} {faulty : Value × Value} {calls : List Call}
      {fault : LoadFault} (h : documentAt f path readYaml = .ok (.table (front ++ faulty :: later)))
      (hcalls : List.Forall₂ AsksFor front calls) (hfault : IsFaulty (tidyPath path) faulty fault) :
      BundleAsks readYaml f path calls (.error fault)

/-- Whatever stands at a path, loading it makes the calls that it asks for, and ends as they do. -/
theorem exists_bundleAsks (readYaml : DocumentReader) (f : Folder) (path : String) (s : Store) :
    ∃ calls ending s', BundleAsks readYaml f path calls ending ∧ s.storeAll calls = .ok s' ∧
      s.loadFile f path readYaml = (ending.map fun _ => calls.map Call.locale, s') := by
  cases hdocument : documentAt f path readYaml with
  | error fault => exact ⟨[], _, s, .unreadable hdocument, rfl, by rw [loadFile, hdocument]; rfl⟩
  | ok document =>
    have hload : s.loadFile f path readYaml = s.loadDocument (tidyPath path) document := by
      rw [loadFile, hdocument]
    rw [hload]
    by_cases hnull : document = .null
    · subst hnull
      exact ⟨[], _, s, .empty hdocument, rfl, rfl⟩
    · by_cases htable : ∃ entries, document = .table entries
      · obtain ⟨entries, rfl⟩ := htable
        obtain ⟨front, calls, hfront, hrest⟩ := exists_front (tidyPath path) entries
        obtain ⟨s', hcalls, happend⟩ := loadEntries_append hfront (tidyPath path) s
        rcases hrest with rfl | ⟨faulty, later, fault, rfl, hfault⟩
        · refine ⟨calls, .ok (), s', .whole hdocument hfront, hcalls, ?_⟩
          have hend := happend []
          rw [List.append_nil] at hend
          rw [loadDocument, hend, loadEntries]
          simp [Except.map]
        · refine ⟨calls, .error fault, s', .upTo hdocument hfront hfault, hcalls, ?_⟩
          rw [loadDocument, happend, hfault.loadEntries_cons]
          rfl
      · have hother : ∀ entries, document ≠ .table entries :=
          fun entries heq => htable ⟨entries, heq⟩
        refine ⟨[], _, s, .notTable hdocument hnull hother, rfl, ?_⟩
        cases document with
        | null => exact absurd rfl hnull
        | table entries => exact absurd rfl (hother entries)
        | _ => rfl

/-! ## What calls leave as it is -/

section Calls

variable {s s' : Store} {calls : List Call}

/-- A locale is added at the end of the others, unless it is there. -/
theorem locales_of_store {locale : String} {entries : List (Value × Value)}
    (h : s.store locale entries = .ok s') :
    s'.locales = if Locale.normalize locale ∈ s.locales then s.locales
      else s.locales ++ [Locale.normalize locale] := by
  obtain ⟨values, -, rfl⟩ := store_eq_ok_iff.1 h
  exact Entries.keys_insert _ _ _

/-- After some calls their locales are there, and no other new ones. -/
theorem mem_locales_of_storeAll (h : s.storeAll calls = .ok s') (locale : String) :
    locale ∈ s'.locales ↔
      locale ∈ s.locales ∨ ∃ call ∈ calls, Locale.normalize call.locale = locale := by
  induction calls generalizing s with
  | nil =>
    cases h
    simp
  | cons call rest ih =>
    obtain ⟨s₁, hstore, hrest⟩ := storeAll_cons_eq_ok_iff.1 h
    rw [ih hrest, locales_of_store hstore]
    split
    · next hmem =>
      simp only [List.exists_mem_cons_iff]
      refine ⟨fun hor => hor.imp_right .inr, ?_⟩
      rintro (hold | rfl | hnew)
      · exact .inl hold
      · exact .inl hmem
      · exact .inr hnew
    · simp [or_assoc, eq_comm]

/-- The locales stay the same exactly if all calls are for locales that are there. -/
theorem locales_of_storeAll_eq_iff (h : s.storeAll calls = .ok s') :
    s'.locales = s.locales ↔ ∀ call ∈ calls, Locale.normalize call.locale ∈ s.locales := by
  refine ⟨fun heq call hcall => ?_, fun hall => ?_⟩
  · rw [← heq, mem_locales_of_storeAll h]
    exact .inr ⟨call, hcall, rfl⟩
  · induction calls generalizing s with
    | nil =>
      cases h
      rfl
    | cons call rest ih =>
      obtain ⟨s₁, hstore, hrest⟩ := storeAll_cons_eq_ok_iff.1 h
      obtain ⟨hcall, hothers⟩ := List.forall_mem_cons.1 hall
      have hlocales : s₁.locales = s.locales := by rw [locales_of_store hstore, if_pos hcall]
      rw [ih hrest (hlocales ▸ hothers), hlocales]

/-- In a locale that no call is for, every lookup finds what it found before. -/
theorem resolve_of_storeAll (h : s.storeAll calls = .ok s') {locale : String}
    (hne : ∀ call ∈ calls, Locale.normalize call.locale ≠ Locale.normalize locale) (key : String)
    (scope : Scope) (separator : String) :
    s'.resolve locale key scope separator = s.resolve locale key scope separator := by
  induction calls generalizing s with
  | nil =>
    cases h
    rfl
  | cons call rest ih =>
    obtain ⟨s₁, hstore, hrest⟩ := storeAll_cons_eq_ok_iff.1 h
    obtain ⟨hcall, hothers⟩ := List.forall_mem_cons.1 hne
    rw [ih hrest hothers, resolve_of_store hstore hcall.symm]

end Calls

/-- A bundle that is loaded is stored by one call for each locale of its document, in order, and the
locales are answered as they are written there.  A bundle that fails to load has stored what its
document holds in front of the first fault: nothing if it cannot be read, is no table, or is faulty
from its first entry on.  So the locales of the store stay the same exactly if those in front of the
fault are there already, and lookups in other locales than these find what they found before. -/
theorem loadFile_front (readYaml : DocumentReader) (f : Folder) (path : String) (s : Store) :
    ∃ calls ending s', BundleAsks readYaml f path calls ending ∧ s.storeAll calls = .ok s' ∧
      s.loadFile f path readYaml = (ending.map fun _ => calls.map Call.locale, s') ∧
      (s'.locales = s.locales ↔ ∀ call ∈ calls, Locale.normalize call.locale ∈ s.locales) ∧
      ∀ locale, (∀ call ∈ calls, Locale.normalize call.locale ≠ Locale.normalize locale) →
        ∀ key scope separator,
          s'.resolve locale key scope separator = s.resolve locale key scope separator := by
  obtain ⟨calls, ending, s', hasks, hcalls, hload⟩ := exists_bundleAsks readYaml f path s
  exact ⟨calls, ending, s', hasks, hcalls, hload, locales_of_storeAll_eq_iff hcalls,
    fun _ hne => resolve_of_storeAll hcalls hne⟩

/-- The first locale of a bundle stays stored, though the second one is refused and the load
fails. -/
theorem loadFile_halfway :
    let bundles := Folder.ofFiles [("b.json", "\x7b\"en\": \x7b\"a\": \"A\"\x7d, \"de\": 5\x7d")]
    ∃ s', empty.loadFile bundles "b.json" = (.error (.localeNotTable "b.json" "de"), s') ∧
      empty.locales = [] ∧ s'.locales = ["en"] ∧
      empty.resolve "en" "a" = .missing "en" "a" ∧ s'.resolve "en" "a" = .found (.text "A") := by
  intro bundles
  have hdocument : documentAt bundles "b.json" =
      .ok (.table [(.text "en", .table [(.text "a", .text "A")]),
        (.text "de", .number (.int 5))]) := by
    cbv
  refine ⟨⟨[("en", [("a", .text "A")])]⟩, ?_, rfl, rfl, rfl, rfl⟩
  rw [loadFile, hdocument]
  rfl

end Phrasebook.Store
