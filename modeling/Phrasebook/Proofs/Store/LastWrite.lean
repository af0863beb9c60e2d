/-
  The last leaf that is written under a path is the one that is found.

  A call stores the leaves of a document for a locale, and a sequence of calls
  is one sequence of writes: call after call, and within a call in the order of
  the document.  A store holds under a path what was written there last in its
  locale (`Holds`), however the path came about: by nested tables, by a key with
  a point in it, or by keys of several calls.  One call adds its writes at the
  end (`Holds.store`), so this stays true along every sequence of calls.
-/
import Phrasebook.Proofs.Entries
import Phrasebook.Proofs.Store.Leaves

set_option autoImplicit false

namespace Phrasebook.Store

open Phrasebook.Number

/-! ## Calls and writes -/

/-- A document that is stored for a locale. -/
structure Call where
  locale : String
  entries : List (Value × Value)

/-- The store after some calls. -/
def storeAll (s : Store) (calls : List Call) : Except Fault Store :=
  calls.foldlM (fun s call => s.store call.locale call.entries) s

/-- A document is stored if it can be flattened, whatever the store holds. -/
theorem store_eq_ok_iff {s s' : Store} {locale : String} {entries : List (Value × Value)} :
    s.store locale entries = .ok s' ↔
      ∃ values, flatten "" entries = .ok values ∧ s' = s.insert locale values := by
  rw [store]
  cases flatten "" entries with
  | error fault => exact iff_of_false nofun fun ⟨_, h, _⟩ => nomatch h
  | ok values =>
    constructor
    · intro h
      cases h
      exact ⟨values, rfl, rfl⟩
    · rintro ⟨_, ⟨⟩, rfl⟩
      rfl

/-- Some calls succeed if each does on what the ones in front of it have left. -/
theorem storeAll_cons_eq_ok_iff {s s' : Store} {call : Call} {rest : List Call} :
    s.storeAll (call :: rest) = .ok s' ↔
      ∃ s₁, s.store call.locale call.entries = .ok s₁ ∧ s₁.storeAll rest = .ok s' := by
  rw [storeAll, List.foldlM_cons]
  cases s.store call.locale call.entries with
  | error fault => exact iff_of_false nofun fun ⟨_, h, _⟩ => nomatch h
  | ok s₁ =>
    constructor
    · exact fun h => ⟨s₁, rfl, h⟩
    · rintro ⟨_, ⟨⟩, h⟩
      exact h

/-- A leaf that is written for a locale. -/
structure Write where
  locale : String
  leaf : Leaf

/-- Whether a write is one under a path of a locale. -/
def Write.IsUnder (locale path : String) (w : Write) : Prop :=
  Locale.normalize w.locale = Locale.normalize locale ∧ w.leaf.path = path

instance (locale path : String) (w : Write) : Decidable (w.IsUnder locale path) :=
  inferInstanceAs (Decidable (_ ∧ _))

/-- The writes of a call, in the order of the document. -/
def Call.writes (call : Call) : List Write := (tableLeaves call.entries).map (⟨call.locale, ·⟩)

/-- The writes of some calls, one call after the other. -/
def writesOf (calls : List Call) : List Write := calls.flatMap Call.writes

/-- The last write under a path of a locale. -/
def lastWrite? (locale path : String) (writes : List Write) : Option Write :=
  writes.reverse.find? fun w => decide (w.IsUnder locale path)

section LastWrite

variable {locale path : String} {writes : List Write}

theorem lastWrite?_append (more : List Write) :
    lastWrite? locale path (writes ++ more) =
      (lastWrite? locale path more).or (lastWrite? locale path writes) := by
  rw [lastWrite?, List.reverse_append, List.find?_append]
  rfl

theorem lastWrite?_eq_none_iff :
    lastWrite? locale path writes = none ↔ ∀ w ∈ writes, ¬ w.IsUnder locale path := by
  simp [lastWrite?]

/-- Behind the last write under a path there is no other. -/
theorem lastWrite?_eq_some_iff {w : Write} :
    lastWrite? locale path writes = some w ↔
      ∃ earlier later, writes = earlier ++ w :: later ∧ w.IsUnder locale path ∧
        ∀ w' ∈ later, ¬ w'.IsUnder locale path := by
  rw [lastWrite?, List.find?_eq_some_iff_append]
  simp only [decide_eq_true_eq, Bool.not_eq_true', decide_eq_false_iff_not]
  constructor
  · rintro ⟨hw, after, before, hsplit, hafter⟩
    refine ⟨before.reverse, after.reverse, ?_, hw, fun w' hw' => hafter w' (List.mem_reverse.1 hw')⟩
    rw [List.reverse_eq_iff] at hsplit
    simpa using hsplit
  · rintro ⟨earlier, later, rfl, hw, hlater⟩
    refine ⟨hw, later.reverse, earlier.reverse, by simp, ?_⟩
    exact fun w' hw' => hlater w' (List.mem_reverse.1 hw')

/-- In its own locale, the last write of a call under a path is the last leaf with that path. -/
theorem lastWrite?_writes (call : Call)
    (h : Locale.normalize call.locale = Locale.normalize locale) :
    (lastWrite? locale path call.writes).map (·.leaf.value) =
      Entries.find? path (leafEntries call.entries) := by
  rw [Call.writes, leafEntries, lastWrite?]
  generalize tableLeaves call.entries = written
  induction written with
  | nil => rfl
  | cons leaf rest ih =>
    rw [List.map_cons, List.reverse_cons, List.find?_append, List.map_cons, Entries.find?, ← ih]
    cases (rest.map (Write.mk call.locale)).reverse.find? fun w =>
        decide (w.IsUnder locale path) with
    | some w => rfl
    | none =>
      by_cases hpath : leaf.path = path <;> simp [Write.IsUnder, h, hpath]

/-- In another locale it has none. -/
theorem lastWrite?_writes_of_ne (call : Call)
    (h : Locale.normalize call.locale ≠ Locale.normalize locale) :
    lastWrite? locale path call.writes = none := by
  rw [lastWrite?_eq_none_iff]
  intro w hw hunder
  obtain ⟨leaf, -, rfl⟩ := List.mem_map.1 hw
  exact h hunder.1

end LastWrite

/-! ## Stores without repetitions -/

theorem table?_insert {s : Store} (hn : (Entries.keys s.tables).Nodup) (locale other : String)
    (values : List (String × Value)) :
    (s.insert locale values).table? other =
      if Locale.normalize locale = Locale.normalize other then
        some (Entries.insertAll ((s.table? locale).getD []) values)
      else s.table? other :=
  Entries.find?_insert hn _ _ _

/-- A store that has no locale twice, and no path twice in a locale. -/
structure Tidy (s : Store) : Prop where
  nodup : (Entries.keys s.tables).Nodup
  table_nodup : ∀ locale table, s.table? locale = some table → (Entries.keys table).Nodup

theorem tidy_empty : Tidy empty := ⟨List.nodup_nil, nofun⟩

namespace Tidy

variable {s s' : Store} {locale : String} {entries : List (Value × Value)}

/-- The table that is added to, be it a new one, has no path twice. -/
theorem nodup_getD (h : Tidy s) (locale : String) :
    (Entries.keys ((s.table? locale).getD [])).Nodup := by
  cases htable : s.table? locale with
  | none => exact List.nodup_nil
  | some table => exact h.table_nodup locale table htable

theorem insert (h : Tidy s) (locale : String) (values : List (String × Value)) :
    Tidy (s.insert locale values) where
  nodup := Entries.nodup_keys_insert _ _ h.nodup
  table_nodup other table htable := by
    rw [table?_insert h.nodup] at htable
    split at htable
    · cases htable
      exact Entries.nodup_keys_insertAll _ (h.nodup_getD locale)
    · exact h.table_nodup other table htable

/-- Whatever document is stored, the store stays so. -/
theorem store (h : Tidy s) (hstore : s.store locale entries = .ok s') : Tidy s' := by
  obtain ⟨values, -, rfl⟩ := store_eq_ok_iff.1 hstore
  exact h.insert locale values

theorem storeAll (h : Tidy s) {calls : List Call} (hcalls : s.storeAll calls = .ok s') :
    Tidy s' := by
  induction calls generalizing s with
  | nil =>
    cases hcalls
    exact h
  | cons call rest ih =>
    obtain ⟨s₁, hcall, hrest⟩ := storeAll_cons_eq_ok_iff.1 hcalls
    exact ih (h.store hcall) hrest

end Tidy

/-! ## What a store holds -/

/-- A store that holds what was written last under each path. -/
structure Holds (s : Store) (calls : List Call) : Prop where
  nodup : (Entries.keys s.tables).Nodup
  table_nodup : ∀ locale table, s.table? locale = some table → (Entries.keys table).Nodup
  locales_eq : s.locales = (calls.map fun call => Locale.normalize call.locale).eraseDups
  value?_eq : ∀ locale path,
    s.value? locale path = (lastWrite? locale path (writesOf calls)).map (·.leaf.value)

theorem holds_empty : Holds empty [] where
  nodup := List.nodup_nil
  table_nodup := nofun
  locales_eq := rfl
  value?_eq _ _ := rfl

namespace Holds

variable {s : Store} {calls : List Call}

theorem tidy (h : Holds s calls) : Tidy s := ⟨h.nodup, h.table_nodup⟩

theorem value?_insert (h : Holds s calls) (call : Call) (locale path : String) :
    (s.insert call.locale (Entries.ofPairs (leafEntries call.entries))).value? locale path =
      (lastWrite? locale path (writesOf (calls ++ [call]))).map (·.leaf.value) := by
  have hwrites : writesOf (calls ++ [call]) = writesOf calls ++ call.writes := by
    simp [writesOf]
  rw [hwrites, lastWrite?_append, value?, table?_insert h.nodup]
  by_cases hlocale : Locale.normalize call.locale = Locale.normalize locale
  · have hbefore : Entries.find? path ((s.table? call.locale).getD []) = s.value? locale path := by
      have htable : s.table? call.locale = s.table? locale := by rw [table?, table?, hlocale]
      rw [value?, htable]
      cases s.table? locale <;> rfl
    rw [if_pos hlocale, Option.bind_eq_bind, Option.bind_some,
      Entries.find?_insertAll (h.tidy.nodup_getD _), Entries.find?_ofPairs, hbefore, h.value?_eq,
      ← lastWrite?_writes call hlocale]
    cases lastWrite? locale path call.writes <;> rfl
  · rw [if_neg hlocale, lastWrite?_writes_of_ne call hlocale, Option.none_or, ← h.value?_eq]
    rfl

theorem insert (h : Holds s calls) (call : Call) :
    Holds (s.insert call.locale (Entries.ofPairs (leafEntries call.entries))) (calls ++ [call])
    where
  nodup := (h.tidy.insert _ _).nodup
  table_nodup := (h.tidy.insert _ _).table_nodup
  locales_eq := by
    have hlocales : Entries.keys s.tables = _ := h.locales_eq
    rw [locales, Store.insert, Entries.keys_insert, hlocales, List.map_append, List.map_singleton,
      Entries.eraseDups_append_singleton]
    simp only [List.mem_eraseDups]
  value?_eq := h.value?_insert call

/-- A call whose keys can be parts of paths succeeds and adds its writes. -/
theorem store (h : Holds s calls) {call : Call} (hkeyed : KeyedTable call.entries) :
    ∃ s', s.store call.locale call.entries = .ok s' ∧ Holds s' (calls ++ [call]) := by
  exact ⟨_, store_eq_ok_iff.2 ⟨_, flatten_eq hkeyed, rfl⟩, h.insert call⟩

/-- So does a sequence of calls. -/
theorem storeAll (h : Holds s calls) (more : List Call)
    (hkeyed : ∀ call ∈ more, KeyedTable call.entries) :
    ∃ s', s.storeAll more = .ok s' ∧ Holds s' (calls ++ more) := by
  induction more generalizing s calls with
  | nil => exact ⟨s, rfl, (List.append_nil calls).symm ▸ h⟩
  | cons call rest ih =>
    obtain ⟨s₁, hstore, hholds⟩ := h.store (hkeyed call List.mem_cons_self)
    obtain ⟨s₂, hrest, hall⟩ := ih hholds fun c hc => hkeyed c (List.mem_cons_of_mem _ hc)
    exact ⟨s₂, storeAll_cons_eq_ok_iff.2 ⟨s₁, hstore, hrest⟩, by simpa using hall⟩

/-- A lookup finds the last write under its path. -/
theorem resolve_eq_found_iff (h : Holds s calls) {locale key : String} {scope : Scope}
    {separator : String} {v : Value} :
    s.resolve locale key scope separator = .found v ↔
      ∃ earlier w later, writesOf calls = earlier ++ w :: later ∧
        w.IsUnder locale (joinKey scope key separator) ∧ w.leaf.value = v ∧
          ∀ w' ∈ later, ¬ w'.IsUnder locale (joinKey scope key separator) := by
  have hfound : s.resolve locale key scope separator = .found v ↔
      s.value? locale (joinKey scope key separator) = some v := by
    rw [resolve]
    cases s.value? locale (joinKey scope key separator) <;> simp
  rw [hfound, h.value?_eq, Option.map_eq_some_iff]
  constructor
  · rintro ⟨w, hw, hvalue⟩
    obtain ⟨earlier, later, hsplit, hunder, hlater⟩ := lastWrite?_eq_some_iff.1 hw
    exact ⟨earlier, w, later, hsplit, hunder, hvalue, hlater⟩
  · rintro ⟨earlier, w, later, hsplit, hunder, hvalue, hlater⟩
    exact ⟨w, lastWrite?_eq_some_iff.2 ⟨earlier, later, hsplit, hunder, hlater⟩, hvalue⟩

theorem resolve_eq_missing_iff (h : Holds s calls) {locale key : String} {scope : Scope}
    {separator : String} :
    s.resolve locale key scope separator = .missing locale (joinKey scope key separator) ↔
      ∀ w ∈ writesOf calls, ¬ w.IsUnder locale (joinKey scope key separator) := by
  rw [Store.resolve_eq_missing_iff, h.value?_eq, Option.map_eq_none_iff, lastWrite?_eq_none_iff]

end Holds

/-- What is stored for one locale does not show in another. -/
theorem resolve_of_store {s s' : Store} {locale other : String} {entries : List (Value × Value)}
    (h : s.store locale entries = .ok s')
    (hne : Locale.normalize other ≠ Locale.normalize locale) (key : String) (scope : Scope)
    (separator : String) :
    s'.resolve other key scope separator = s.resolve other key scope separator := by
  obtain ⟨values, -, rfl⟩ := store_eq_ok_iff.1 h
  simp only [resolve, value?, table?_insert_of_ne s hne values]

/-- A store is told by its calls.  Every sequence of calls whose keys can be parts of paths
succeeds.  Then a lookup finds the leaf that was written last under its path in its locale, in
whichever spelling of the locale, and nothing exactly if no leaf was written there.  A further call
for another locale changes no answer.  The locales are those of the calls, each once, in the order
of its first call, be its document empty or not. -/
theorem resolve_along_calls (calls : List Call)
    (hkeyed : ∀ call ∈ calls, KeyedTable call.entries) :
    ∃ s, storeAll empty calls = .ok s ∧
      (∀ locale key scope separator v, s.resolve locale key scope separator = .found v ↔
        ∃ earlier w later, writesOf calls = earlier ++ w :: later ∧
          w.IsUnder locale (joinKey scope key separator) ∧ w.leaf.value = v ∧
            ∀ w' ∈ later, ¬ w'.IsUnder locale (joinKey scope key separator)) ∧
      (∀ locale key scope separator, s.resolve locale key scope separator =
          .missing locale (joinKey scope key separator) ↔
        ∀ w ∈ writesOf calls, ¬ w.IsUnder locale (joinKey scope key separator)) ∧
      (∀ (call : Call) (s' : Store), s.store call.locale call.entries = .ok s' → ∀ other,
        Locale.normalize other ≠ Locale.normalize call.locale → ∀ key scope separator,
          s'.resolve other key scope separator = s.resolve other key scope separator) ∧
      s.locales = (calls.map fun call => Locale.normalize call.locale).eraseDups := by
  obtain ⟨s, hstore, hholds⟩ := holds_empty.storeAll calls hkeyed
  refine ⟨s, hstore, fun _ _ _ _ _ => hholds.resolve_eq_found_iff,
    fun _ _ _ _ => hholds.resolve_eq_missing_iff, ?_, hholds.locales_eq⟩
  intro call s' hcall other hne key scope separator
  exact resolve_of_store hcall hne key scope separator

/-- A nested table and a key with a point in it meet under one path, and a later call in another
spelling of the locale writes there once more, with a number for a key. -/
theorem resolve_along_collision :
    let calls : List Call :=
      [⟨"en-US", [(.text "a", .table [(.text "7", .text "nested")]), (.text "a.7", .text "dotted")]⟩,
        ⟨"de", []⟩, ⟨"en_US", [(.text "a", .table [(.number (.int 7), .bool true)])]⟩]
    ∃ s, storeAll empty calls = .ok s ∧
      s.resolve "en-US" "7" (.path "a") = .found (.bool true) ∧
      s.resolve "de" "a.7" = .missing "de" "a.7" ∧ s.locales = ["en_US", "de"] := by
  intro calls
  have hkeyed : ∀ call ∈ calls, KeyedTable call.entries := by
    have ha : (Value.text "a").Names := ⟨"a", rfl, by decide⟩
    have hseven : (Value.text "7").Names ∧ (Value.number (.int 7)).Names :=
      ⟨⟨"7", rfl, by decide⟩, ⟨"7", by decide +kernel, by decide⟩⟩
    have hdotted : (Value.text "a.7").Names := ⟨"a.7", rfl, by decide⟩
    simp [calls, KeyedTable, Value.Keyed, ha, hseven, hdotted]
  obtain ⟨s, hstore, hfound, hmissing, -, hlocales⟩ := resolve_along_calls calls hkeyed
  refine ⟨s, hstore, ?_, ?_, ?_⟩
  · rw [hfound]
    exact ⟨_, ⟨"en_US", ⟨[.text "a", .number (.int 7)], .bool true⟩⟩, [],
      rfl, by decide +kernel, rfl, nofun⟩
  · refine (hmissing "de" "a.7" .outermost pathSeparator).2 ?_
    decide +kernel
  · rw [hlocales]
    decide +kernel

end Phrasebook.Store
