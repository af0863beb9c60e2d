/-
  What the operations of a cache do to its keys and values.

  Getting and setting can each do only a few things (`get_cases`, `set_cases`),
  and everything else about them is read off there: which keys are left and in
  which order, what is found, what is counted and which entries there are.
-/
import Mathlib.Data.List.Nodup
import Phrasebook.Cache

set_option autoImplicit false

namespace Phrasebook.Cache

variable {α : Type}

/-! ## Looking up -/

theorem find?_eq_none_iff {c : Cache α} {key : String} :
    c.find? key = none ↔ key ∉ c.keys := by
  rw [find?, List.lookup_eq_none_iff, keys, List.mem_map]
  constructor
  · rintro h ⟨e, he, rfl⟩
    exact bne_iff_ne.1 (h e he) rfl
  · intro h e he
    rw [bne_iff_ne]
    rintro rfl
    exact h ⟨e, he, rfl⟩

theorem exists_find?_of_mem {c : Cache α} {key : String} (h : key ∈ c.keys) :
    ∃ value, c.find? key = some value := by
  cases hf : c.find? key with
  | some value => exact ⟨value, rfl⟩
  | none => exact absurd h (find?_eq_none_iff.1 hf)

theorem contains_iff {c : Cache α} {key : String} : c.contains key = true ↔ key ∈ c.keys := by
  rw [contains]
  cases hf : c.find? key with
  | none => simp [find?_eq_none_iff.1 hf]
  | some value =>
    have hmem : key ∈ c.keys := by
      by_contra hnot
      rw [find?_eq_none_iff.2 hnot] at hf
      cases hf
    simp [hmem]

/-- What is found is an entry. -/
theorem mem_entries_of_find? {c : Cache α} {key : String} {value : α}
    (h : c.find? key = some value) : (key, value) ∈ c.entries := by
  rw [find?, List.lookup_eq_some_iff] at h
  obtain ⟨before, after, hentries, -⟩ := h
  rw [hentries]
  exact List.mem_append_right _ List.mem_cons_self

/-! ## Using a key -/

/-- The keys after a use: the key that was used comes last. -/
def touch (key : String) (ks : List String) : List String := ks.filter (· ≠ key) ++ [key]

theorem mem_touch {key other : String} {ks : List String} :
    other ∈ touch key ks ↔ other ∈ ks ∨ other = key := by
  by_cases h : other = key
  · simp [touch, h]
  · simp [touch, h]

theorem filter_ne_of_not_mem {key : String} {ks : List String} (h : key ∉ ks) :
    ks.filter (· ≠ key) = ks := by
  rw [List.filter_eq_self]
  intro other hmem
  have hne : other ≠ key := fun heq => h (heq ▸ hmem)
  simp [hne]

theorem touch_of_not_mem {key : String} {ks : List String} (h : key ∉ ks) :
    touch key ks = ks ++ [key] := by
  rw [touch, filter_ne_of_not_mem h]

/-- A key that is there is moved, so the keys are as many as before. -/
theorem length_touch {ks : List String} (hn : ks.Nodup) {key : String} (h : key ∈ ks) :
    (touch key ks).length = ks.length := by
  have hfilter : ks.filter (· ≠ key) = ks.erase key := by
    rw [hn.erase_eq_filter]
    simp only [ne_eq, decide_not, bne, beq_eq_decide]
  rw [touch, hfilter, List.length_append, List.length_erase_of_mem h, List.length_singleton]
  have hpos : 0 < ks.length := List.length_pos_of_mem h
  omega

theorem lookup_cons_eq_ite (e : String × α) (other : String) (entries : List (String × α)) :
    (e :: entries).lookup other = if other = e.1 then some e.2 else entries.lookup other := by
  rw [List.lookup_cons]
  by_cases h : other = e.1
  · rw [if_pos h, beq_iff_eq.2 h]
  · rw [if_neg h, beq_false_of_ne h]

theorem lookup_append_singleton (key other : String) (value : α)
    (entries : List (String × α)) :
    (entries ++ [(key, value)]).lookup other =
      (entries.lookup other).or (if other = key then some value else none) := by
  rw [List.lookup_append, lookup_cons_eq_ite, List.lookup_nil]

/-- The entries after a use of a key, which gets a value. -/
def used (key : String) (value : α) (entries : List (String × α)) : List (String × α) :=
  without key entries ++ [(key, value)]

theorem map_fst_used (key : String) (value : α) (entries : List (String × α)) :
    (used key value entries).map Prod.fst = touch key (entries.map Prod.fst) := by
  rw [used, touch, List.map_append, without, List.filter_map]
  rfl

theorem lookup_used (key other : String) (value : α) (entries : List (String × α)) :
    (used key value entries).lookup other =
      if other = key then some value else entries.lookup other := by
  have hwithout : (without key entries).lookup other =
      if other = key then none else entries.lookup other := by
    induction entries with
    | nil => simp [without]
    | cons e rest ih =>
      obtain ⟨k, v⟩ := e
      rw [without] at ih ⊢
      by_cases hk : k = key
      · rw [List.filter_cons_of_neg (by simp [hk]), ih, lookup_cons_eq_ite, hk]
        by_cases ho : other = key <;> simp [ho]
      · rw [List.filter_cons_of_pos (by simp [hk]), lookup_cons_eq_ite, lookup_cons_eq_ite, ih]
        by_cases ho : other = k
        · simp [ho, hk]
        · simp [ho]
  rw [used, lookup_append_singleton, hwithout]
  by_cases ho : other = key <;> simp [ho]

theorem mem_of_mem_used {e : String × α} {key : String} {value : α}
    {entries : List (String × α)} (h : e ∈ used key value entries) :
    e ∈ entries ∨ e = (key, value) := by
  rcases List.mem_append.1 h with h | h
  · exact .inl (List.mem_filter.1 h).1
  · exact .inr (List.mem_singleton.1 h)

/-! ## Getting -/

/-- Getting a key either finds and uses it, or changes nothing but a count. -/
theorem get_cases (c : Cache α) (key : String) :
    (∃ value, key ∈ c.keys ∧ c.find? key = some value ∧ c.get key =
      (some value, { c with entries := used key value c.entries, hits := c.hits + 1 })) ∨
    (key ∉ c.keys ∧ c.get key = (none, { c with misses := c.misses + 1 })) := by
  by_cases hmem : key ∈ c.keys
  · obtain ⟨value, hf⟩ := exists_find?_of_mem hmem
    refine .inl ⟨value, hmem, hf, ?_⟩
    rw [get, hf]
    rfl
  · refine .inr ⟨hmem, ?_⟩
    rw [get, find?_eq_none_iff.2 hmem]

theorem keys_get (c : Cache α) (key : String) :
    (c.get key).2.keys = if key ∈ c.keys then touch key c.keys else c.keys := by
  rcases get_cases c key with ⟨value, hmem, -, h⟩ | ⟨hmem, h⟩
  · rw [h, if_pos hmem]
    exact map_fst_used key value c.entries
  · rw [h, if_neg hmem]
    rfl

/-- Getting a key moves keys at most. -/
theorem mem_keys_get {c : Cache α} {key other : String} :
    other ∈ (c.get key).2.keys ↔ other ∈ c.keys := by
  rw [keys_get]
  split
  · rename_i hkey
    rw [mem_touch]
    constructor
    · rintro (hmem | rfl)
      · exact hmem
      · exact hkey
    · exact .inl
  · exact Iff.rfl

theorem length_keys_get {c : Cache α} (hn : c.keys.Nodup) (key : String) :
    (c.get key).2.keys.length = c.keys.length := by
  rw [keys_get]
  split
  · rename_i hkey
    exact length_touch hn hkey
  · rfl

/-- Getting a key changes no value. -/
theorem find?_get (c : Cache α) (key other : String) :
    (c.get key).2.find? other = c.find? other := by
  rcases get_cases c key with ⟨value, -, hf, h⟩ | ⟨-, h⟩
  · rw [h]
    refine (lookup_used key other value c.entries).trans ?_
    split
    · rename_i heq
      rw [heq, ← hf]
    · rfl
  · rw [h]
    rfl

theorem mem_entries_of_get {c : Cache α} {key : String} {e : String × α}
    (h : e ∈ (c.get key).2.entries) : e ∈ c.entries := by
  rcases get_cases c key with ⟨value, -, hf, hget⟩ | ⟨-, hget⟩
  · rw [hget] at h
    rcases mem_of_mem_used h with h | rfl
    · exact h
    · exact mem_entries_of_find? hf
  · rw [hget] at h
    exact h

/-- Every get is counted once. -/
theorem lookups_get (c : Cache α) (key : String) :
    (c.get key).2.hits + (c.get key).2.misses = c.hits + c.misses + 1 := by
  rcases get_cases c key with ⟨value, -, -, h⟩ | ⟨-, h⟩
  · rw [h]
    exact Nat.add_right_comm c.hits 1 c.misses
  · rw [h]
    rfl

theorem capacity_get (c : Cache α) (key : String) : (c.get key).2.capacity = c.capacity := by
  rcases get_cases c key with ⟨value, -, -, h⟩ | ⟨-, h⟩ <;> rw [h]

theorem evictions_get (c : Cache α) (key : String) : (c.get key).2.evictions = c.evictions := by
  rcases get_cases c key with ⟨value, -, -, h⟩ | ⟨-, h⟩ <;> rw [h]

/-! ## Setting -/

/-- Setting a key uses it if it is there.  Else it is entered, in the place of the first entry if
the cache is full. -/
theorem set_cases (c : Cache α) (key : String) (value : α) :
    (key ∈ c.keys ∧ c.set key value = { c with entries := used key value c.entries }) ∨
    (key ∉ c.keys ∧ c.capacity ≤ c.keys.length ∧ c.set key value =
      { c with entries := c.entries.drop 1 ++ [(key, value)], evictions := c.evictions + 1 }) ∨
    (key ∉ c.keys ∧ c.keys.length < c.capacity ∧
      c.set key value = { c with entries := c.entries ++ [(key, value)] }) := by
  have hlength : c.keys.length = c.entries.length := List.length_map Prod.fst
  by_cases hmem : key ∈ c.keys
  · refine .inl ⟨hmem, ?_⟩
    rw [set, if_pos (contains_iff.2 hmem)]
    rfl
  · have hnot : ¬ c.contains key = true := fun h => hmem (contains_iff.1 h)
    by_cases hfull : c.capacity ≤ c.entries.length
    · refine .inr (.inl ⟨hmem, hlength ▸ hfull, ?_⟩)
      rw [set, if_neg hnot, if_pos hfull]
    · refine .inr (.inr ⟨hmem, hlength ▸ Nat.lt_of_not_le hfull, ?_⟩)
      rw [set, if_neg hnot, if_neg hfull]

theorem keys_set (c : Cache α) (key : String) (value : α) :
    (c.set key value).keys =
      if key ∉ c.keys ∧ c.capacity ≤ c.keys.length then c.keys.drop 1 ++ [key]
      else touch key c.keys := by
  rcases set_cases c key value with ⟨hmem, h⟩ | ⟨hmem, hfull, h⟩ | ⟨hmem, hfree, h⟩
  · rw [h, if_neg (fun hnot => hnot.1 hmem)]
    exact map_fst_used key value c.entries
  · rw [h, if_pos ⟨hmem, hfull⟩]
    simp only [keys, List.map_append, List.map_drop, List.map_cons, List.map_nil]
  · rw [h, if_neg (fun hfull => Nat.not_le.2 hfree hfull.2), touch_of_not_mem hmem]
    simp only [keys, List.map_append, List.map_cons, List.map_nil]

theorem find?_set_self (c : Cache α) (key : String) (value : α) :
    (c.set key value).find? key = some value := by
  have hnew : ∀ entries : List (String × α), (∀ e ∈ entries, e ∈ c.entries) → key ∉ c.keys →
      (entries ++ [(key, value)]).lookup key = some value := by
    intro entries hsub hmem
    have hnone : entries.lookup key = none := by
      rw [List.lookup_eq_none_iff]
      intro e he
      rw [bne_iff_ne]
      rintro rfl
      exact hmem (List.mem_map_of_mem (hsub e he))
    rw [lookup_append_singleton, hnone, if_pos rfl]
    rfl
  rcases set_cases c key value with ⟨-, h⟩ | ⟨hmem, -, h⟩ | ⟨hmem, -, h⟩
  · rw [h]
    exact (lookup_used key key value c.entries).trans (if_pos rfl)
  · rw [h]
    exact hnew _ (fun e he => List.mem_of_mem_drop he) hmem
  · rw [h]
    exact hnew _ (fun e he => he) hmem

/-- The other keys that are left keep their values. -/
theorem find?_set_of_ne {c : Cache α} (hn : c.keys.Nodup) {key other : String} (value : α)
    (hne : other ≠ key) (hmem : other ∈ (c.set key value).keys) :
    (c.set key value).find? other = c.find? other := by
  have hlast : ∀ entries : List (String × α),
      (entries ++ [(key, value)]).lookup other = entries.lookup other := by
    intro entries
    rw [lookup_append_singleton, if_neg hne, Option.or_none]
  rcases set_cases c key value with ⟨-, h⟩ | ⟨-, -, h⟩ | ⟨-, -, h⟩
  · rw [h]
    exact (lookup_used key other value c.entries).trans (if_neg hne)
  · -- the first entry is gone, and it was the only one of its key
    rw [h] at hmem ⊢
    refine (hlast (c.entries.drop 1)).trans ?_
    rw [find?]
    rw [keys] at hn hmem
    cases hentries : c.entries with
    | nil => rfl
    | cons e rest =>
      rw [hentries] at hn hmem
      have hrest : other ∈ rest.map Prod.fst := by simpa [hne] using hmem
      have hfirst : other ≠ e.1 := by
        rintro rfl
        exact (List.nodup_cons.1 hn).1 hrest
      rw [lookup_cons_eq_ite, if_neg hfirst]
      rfl
  · rw [h]
    exact hlast c.entries

theorem mem_entries_of_set {c : Cache α} {key : String} {value : α} {e : String × α}
    (h : e ∈ (c.set key value).entries) : e ∈ c.entries ∨ e = (key, value) := by
  rcases set_cases c key value with ⟨-, hset⟩ | ⟨-, -, hset⟩ | ⟨-, -, hset⟩
  · rw [hset] at h
    exact mem_of_mem_used h
  · rw [hset] at h
    rcases List.mem_append.1 h with h | h
    · exact .inl (List.mem_of_mem_drop h)
    · exact .inr (List.mem_singleton.1 h)
  · rw [hset] at h
    rcases List.mem_append.1 h with h | h
    · exact .inl h
    · exact .inr (List.mem_singleton.1 h)

theorem evictions_set (c : Cache α) (key : String) (value : α) :
    (c.set key value).evictions =
      if key ∉ c.keys ∧ c.capacity ≤ c.keys.length then c.evictions + 1 else c.evictions := by
  rcases set_cases c key value with ⟨hmem, h⟩ | ⟨hmem, hfull, h⟩ | ⟨-, hfree, h⟩
  · rw [h, if_neg (fun hnot => hnot.1 hmem)]
  · rw [h, if_pos ⟨hmem, hfull⟩]
  · rw [h, if_neg (fun hfull => Nat.not_le.2 hfree hfull.2)]

/-- Entering a key adds one to the entries, those that were dropped included. -/
theorem size_set {c : Cache α} (hn : c.keys.Nodup) (key : String) (value : α) :
    (c.set key value).keys.length + (c.set key value).evictions =
      c.keys.length + c.evictions + (!c.contains key).toNat := by
  have hpos := c.capacity_pos
  rw [keys_set, evictions_set]
  by_cases hmem : key ∈ c.keys
  · rw [if_neg (fun hnot => hnot.1 hmem), if_neg (fun hnot => hnot.1 hmem),
      length_touch hn hmem, contains_iff.2 hmem]
    rfl
  · have hcontains : c.contains key = false :=
      Bool.eq_false_iff.2 fun hc => hmem (contains_iff.1 hc)
    rw [hcontains, Bool.not_false, Bool.toNat_true]
    by_cases hfull : c.capacity ≤ c.keys.length
    · rw [if_pos ⟨hmem, hfull⟩, if_pos ⟨hmem, hfull⟩, List.length_append, List.length_drop,
        List.length_singleton]
      omega
    · rw [if_neg (fun hnot => hfull hnot.2), if_neg (fun hnot => hfull hnot.2),
        touch_of_not_mem hmem, List.length_append, List.length_singleton]
      omega

/-- A full cache stays full. -/
theorem length_set_of_full {c : Cache α} (hn : c.keys.Nodup)
    (hfull : c.keys.length = c.capacity) (key : String) (value : α) :
    (c.set key value).keys.length = c.capacity := by
  have hpos := c.capacity_pos
  rw [keys_set]
  by_cases hmem : key ∈ c.keys
  · rw [if_neg (fun hnot => hnot.1 hmem), length_touch hn hmem]
    exact hfull
  · rw [if_pos ⟨hmem, Nat.le_of_eq hfull.symm⟩, List.length_append, List.length_drop,
      List.length_singleton]
    omega

theorem lookups_set (c : Cache α) (key : String) (value : α) :
    (c.set key value).hits + (c.set key value).misses = c.hits + c.misses := by
  rcases set_cases c key value with ⟨-, h⟩ | ⟨-, -, h⟩ | ⟨-, -, h⟩ <;> rw [h]

theorem capacity_set (c : Cache α) (key : String) (value : α) :
    (c.set key value).capacity = c.capacity := by
  rcases set_cases c key value with ⟨-, h⟩ | ⟨-, -, h⟩ | ⟨-, -, h⟩ <;> rw [h]

/-- A key that is there after another was set was there before. -/
theorem mem_keys_of_mem_set {c : Cache α} {key other : String} {value : α} (hne : other ≠ key)
    (h : other ∈ (c.set key value).keys) : other ∈ c.keys := by
  rw [keys_set] at h
  split at h
  · rcases List.mem_append.1 h with h | h
    · exact List.mem_of_mem_drop h
    · exact absurd (List.mem_singleton.1 h) hne
  · rcases mem_touch.1 h with h | h
    · exact h
    · exact absurd h hne

/-! ## Fetching -/

/-- A fetch finds its key, or computes and sets it, or fails as its computation does. -/
theorem fetch_cases {ε : Type} (c : Cache α) (key : String)
    (compute : Cache α → Except ε α × Cache α) :
    (∃ value, key ∈ c.keys ∧ c.find? key = some value ∧
      c.fetch key compute = (.ok value, (c.get key).2)) ∨
    (∃ value, key ∉ c.keys ∧ (compute (c.get key).2).1 = .ok value ∧
      c.fetch key compute = (.ok value, (compute (c.get key).2).2.set key value)) ∨
    (∃ e, key ∉ c.keys ∧ (compute (c.get key).2).1 = .error e ∧
      c.fetch key compute = (.error e, (compute (c.get key).2).2)) := by
  rcases get_cases c key with ⟨value, hmem, hf, hget⟩ | ⟨hmem, hget⟩
  · refine .inl ⟨value, hmem, hf, ?_⟩
    rw [fetch, hget]
  · rw [fetch, hget]
    dsimp only
    cases hcompute : compute { c with misses := c.misses + 1 } with
    | mk outcome computed =>
      cases outcome with
      | ok value => exact .inr (.inl ⟨value, hmem, rfl, rfl⟩)
      | error e => exact .inr (.inr ⟨e, hmem, rfl, rfl⟩)

end Phrasebook.Cache
