/-
  Tables of entries, told from the list of pairs they are built from.

  Setting the pairs of a list one after the other gives the table that holds
  each key once, at the place where it came first, with the value it was given
  last.  `tabulate` says this without an insertion, and `ofPairs_eq_tabulate`
  is the equation between the two.

  Two tables without repeated keys are the same if they have the same keys in
  the same order and find the same values.
-/
import Mathlib.Data.List.Induction
import Mathlib.Data.List.Nodup
import Phrasebook.Entries

set_option autoImplicit false

namespace Phrasebook.Entries

variable {κ ν : Type}

theorem keys_append (entries others : List (κ × ν)) :
    keys (entries ++ others) = keys entries ++ keys others := by
  simp [keys]

variable [DecidableEq κ]

/-! ## Looking up -/

theorem find?_append (key : κ) (entries others : List (κ × ν)) :
    find? key (entries ++ others) = (find? key others).or (find? key entries) := by
  induction entries with
  | nil => simp
  | cons e rest ih =>
    obtain ⟨k, v⟩ := e
    rw [List.cons_append, find?, ih, find?]
    cases find? key others with
    | some w => rfl
    | none => simp

theorem find?_singleton (key : κ) (pair : κ × ν) :
    find? key [pair] = if pair.1 = key then some pair.2 else none := rfl

theorem find?_eq_none_iff {key : κ} {entries : List (κ × ν)} :
    find? key entries = none ↔ key ∉ keys entries := by
  induction entries with
  | nil => simp [keys]
  | cons e rest ih =>
    obtain ⟨k, v⟩ := e
    have hkeys : keys ((k, v) :: rest) = k :: keys rest := rfl
    rw [hkeys, List.mem_cons, not_or, ← ih, find?]
    cases find? key rest with
    | some w => simp
    | none =>
      by_cases hk : k = key
      · simp [hk]
      · simp [hk, Ne.symm hk]

/-- What is found stands behind every other entry with its key. -/
theorem find?_eq_some_iff_append {key : κ} {value : ν} {entries : List (κ × ν)} :
    find? key entries = some value ↔
      ∃ earlier later, entries = earlier ++ (key, value) :: later ∧ key ∉ keys later := by
  constructor
  · intro h
    induction entries with
    | nil => cases h
    | cons e rest ih =>
      obtain ⟨k, v⟩ := e
      rw [find?] at h
      cases hf : find? key rest with
      | some w =>
        rw [hf] at h
        obtain ⟨earlier, later, rfl, hlater⟩ := ih (hf.trans h)
        exact ⟨(k, v) :: earlier, later, rfl, hlater⟩
      | none =>
        rw [hf] at h
        by_cases hk : k = key
        · rw [if_pos hk] at h
          cases h
          exact ⟨[], rest, by rw [hk]; rfl, find?_eq_none_iff.1 hf⟩
        · rw [if_neg hk] at h
          cases h
  · rintro ⟨earlier, later, rfl, hlater⟩
    rw [find?_append, find?_cons_self_of_not_mem (find?_eq_none_iff.2 hlater), Option.some_or]

/-- Whatever is found was entered. -/
theorem mem_of_find?_eq_some {key : κ} {value : ν} {entries : List (κ × ν)}
    (h : find? key entries = some value) : (key, value) ∈ entries := by
  obtain ⟨earlier, later, rfl, -⟩ := find?_eq_some_iff_append.1 h
  exact List.mem_append_right _ List.mem_cons_self

/-- Entries with other keys do not matter. -/
theorem find?_filter {p : κ → Bool} {key : κ} (hkey : p key = true) (entries : List (κ × ν)) :
    find? key (entries.filter fun e => p e.1) = find? key entries := by
  induction entries with
  | nil => rfl
  | cons e rest ih =>
    obtain ⟨k, v⟩ := e
    cases hk : p k with
    | true => simp only [List.filter_cons, hk, ↓reduceIte, find?, ih]
    | false =>
      have hne : k ≠ key := by
        rintro rfl
        rw [hkey] at hk
        cases hk
      simp only [List.filter_cons, hk, Bool.false_eq_true, ↓reduceIte, ih, find?, hne]
      cases find? key rest <;> rfl

/-- A table without repeated keys finds exactly its entries. -/
theorem find?_eq_some_iff {key : κ} {value : ν} {entries : List (κ × ν)}
    (hn : (keys entries).Nodup) :
    find? key entries = some value ↔ (key, value) ∈ entries := by
  induction entries with
  | nil => simp
  | cons e rest ih =>
    obtain ⟨k, v⟩ := e
    have hkeys : keys ((k, v) :: rest) = k :: keys rest := rfl
    rw [hkeys, List.nodup_cons] at hn
    obtain ⟨hk, hrest⟩ := hn
    rw [find?, List.mem_cons, ← ih hrest, Prod.mk.injEq]
    cases hf : find? key rest with
    | some w =>
      have hmem : key ∈ keys rest := by
        by_contra hnot
        rw [find?_eq_none_iff.2 hnot] at hf
        cases hf
      have hne : key ≠ k := fun h => hk (h ▸ hmem)
      simp [hne]
    | none =>
      by_cases hk : k = key
      · simp [hk, eq_comm]
      · simp [hk, Ne.symm hk]

/-- What a table finds for a key decides it, together with the order of its keys. -/
theorem eq_of_keys_of_find? {entries others : List (κ × ν)} (hn : (keys entries).Nodup)
    (hkeys : keys entries = keys others)
    (hfind : ∀ key ∈ keys entries, find? key entries = find? key others) :
    entries = others := by
  induction entries generalizing others with
  | nil =>
    cases others with
    | nil => rfl
    | cons e rest => cases hkeys
  | cons e rest ih =>
    cases others with
    | nil => cases hkeys
    | cons e' rest' =>
      obtain ⟨k, v⟩ := e
      obtain ⟨k', v'⟩ := e'
      have hk : k = k' := (List.cons.inj hkeys).1
      have hrest : keys rest = keys rest' := (List.cons.inj hkeys).2
      subst hk
      have hn' : k ∉ keys rest ∧ (keys rest).Nodup := List.nodup_cons.1 hn
      have hv : v = v' := by
        have h := hfind k List.mem_cons_self
        rw [find?_cons_self_of_not_mem (find?_eq_none_iff.2 hn'.1),
          find?_cons_self_of_not_mem (find?_eq_none_iff.2 (hrest ▸ hn'.1))] at h
        exact Option.some.inj h
      have htail : rest = rest' := by
        refine ih hn'.2 hrest ?_
        intro key hmem
        have hne : k ≠ key := fun h => hn'.1 (h ▸ hmem)
        have h := hfind key (List.mem_cons_of_mem k hmem)
        simp only [find?, hne, ↓reduceIte] at h
        revert h
        cases find? key rest <;> cases find? key rest' <;> simp
      rw [hv, htail]

/-! ## Setting every pair -/

theorem insertAll_append (entries pairs others : List (κ × ν)) :
    insertAll entries (pairs ++ others) = insertAll (insertAll entries pairs) others :=
  List.foldl_append

theorem ofPairs_append_singleton (pairs : List (κ × ν)) (pair : κ × ν) :
    ofPairs (pairs ++ [pair]) = insert pair.1 pair.2 (ofPairs pairs) :=
  insertAll_append [] pairs [pair]

/-- Setting a key brings in no pair but that one. -/
theorem mem_insert {key : κ} {value : ν} {entries : List (κ × ν)} {e : κ × ν}
    (h : e ∈ insert key value entries) : e = (key, value) ∨ e ∈ entries := by
  induction entries with
  | nil => exact .inl (List.mem_singleton.1 h)
  | cons first rest ih =>
    rw [insert] at h
    split at h
    · next hkey =>
      rcases List.mem_cons.1 h with rfl | hmem
      · exact .inl (by rw [hkey])
      · exact .inr (List.mem_cons_of_mem first hmem)
    · rcases List.mem_cons.1 h with rfl | hmem
      · exact .inr List.mem_cons_self
      · exact (ih hmem).imp_right (List.mem_cons_of_mem first)

/-- Setting a key brings in no value but its own. -/
theorem mem_values_insert {key : κ} {value other : ν} {entries : List (κ × ν)}
    (h : other ∈ values (insert key value entries)) : other = value ∨ other ∈ values entries := by
  obtain ⟨e, hmem, rfl⟩ := List.mem_map.1 h
  rcases mem_insert hmem with rfl | hmem
  · exact .inl rfl
  · exact .inr (List.mem_map_of_mem hmem)

/-- A table has no values but those of its pairs. -/
theorem mem_values_ofPairs {pairs : List (κ × ν)} {value : ν} (h : value ∈ values (ofPairs pairs)) :
    value ∈ values pairs := by
  induction pairs using List.reverseRecOn with
  | nil => exact h
  | append_singleton pairs pair ih =>
    rw [ofPairs_append_singleton] at h
    rw [values, List.map_append]
    rcases mem_values_insert h with rfl | hmem
    · exact List.mem_append_right _ List.mem_cons_self
    · exact List.mem_append_left _ (ih hmem)

theorem nodup_keys_insert {entries : List (κ × ν)} (key : κ) (value : ν)
    (hn : (keys entries).Nodup) : (keys (insert key value entries)).Nodup := by
  rw [keys_insert]
  split
  · exact hn
  · rename_i hmem
    rw [List.nodup_append]
    refine ⟨hn, List.nodup_singleton key, ?_⟩
    intro a ha b hb
    rw [List.mem_singleton] at hb
    rintro rfl
    exact hmem (hb ▸ ha)

theorem nodup_keys_insertAll {entries : List (κ × ν)} (pairs : List (κ × ν))
    (hn : (keys entries).Nodup) : (keys (insertAll entries pairs)).Nodup := by
  induction pairs generalizing entries with
  | nil => exact hn
  | cons pair rest ih => exact ih (nodup_keys_insert pair.1 pair.2 hn)

theorem nodup_keys_ofPairs (pairs : List (κ × ν)) : (keys (ofPairs pairs)).Nodup :=
  nodup_keys_insertAll pairs List.nodup_nil

theorem find?_insert {entries : List (κ × ν)} (hn : (keys entries).Nodup) (key other : κ)
    (value : ν) :
    find? other (insert key value entries) =
      if key = other then some value else find? other entries := by
  split
  · rename_i h
    subst h
    exact find?_insert_self key value entries hn
  · rename_i h
    exact find?_insert_of_ne (Ne.symm h) value entries

/-- The last of the pairs wins over the table they are set in. -/
theorem find?_insertAll {entries : List (κ × ν)} (hn : (keys entries).Nodup)
    (pairs : List (κ × ν)) (key : κ) :
    find? key (insertAll entries pairs) = (find? key pairs).or (find? key entries) := by
  induction pairs generalizing entries with
  | nil => rfl
  | cons pair rest ih =>
    obtain ⟨k, v⟩ := pair
    have hstep : insertAll entries ((k, v) :: rest) = insertAll (insert k v entries) rest := rfl
    rw [hstep, ih (nodup_keys_insert k v hn), find?_insert hn, find?]
    cases find? key rest with
    | some w => rfl
    | none =>
      by_cases hk : k = key
      · simp [hk]
      · simp [hk]

theorem find?_ofPairs (pairs : List (κ × ν)) (key : κ) :
    find? key (ofPairs pairs) = find? key pairs := by
  have hnil : (keys ([] : List (κ × ν))).Nodup := List.nodup_nil
  rw [ofPairs, find?_insertAll hnil]
  simp

/-- What comes last in a list counts only if it did not come before. -/
theorem eraseDups_append_singleton (ks : List κ) (k : κ) :
    (ks ++ [k]).eraseDups = if k ∈ ks then ks.eraseDups else ks.eraseDups ++ [k] := by
  rw [List.eraseDups_append]
  by_cases hmem : k ∈ ks
  · simp [hmem, List.removeAll]
  · simp [hmem, List.removeAll, List.eraseDups_cons]

/-- A key has its place from its first pair. -/
theorem keys_ofPairs (pairs : List (κ × ν)) : keys (ofPairs pairs) = (keys pairs).eraseDups := by
  induction pairs using List.reverseRecOn with
  | nil => rfl
  | append_singleton pairs pair ih =>
    have hone : keys [pair] = [pair.1] := rfl
    rw [ofPairs_append_singleton, keys_insert, ih, keys_append, hone, eraseDups_append_singleton]
    simp only [List.mem_eraseDups]

/-- A key that comes later in the table came first behind the other. -/
theorem pairwise_idxOf_eraseDups (ks : List κ) :
    ks.eraseDups.Pairwise fun k other => ks.idxOf k < ks.idxOf other := by
  induction ks using List.reverseRecOn with
  | nil => exact .nil
  | append_singleton ks last ih =>
    -- a key that is there already keeps its first place
    have hplace : ∀ k ∈ ks.eraseDups, (ks ++ [last]).idxOf k = ks.idxOf k :=
      fun k hk => List.idxOf_append_of_mem (List.mem_eraseDups.1 hk)
    have hbefore : ks.eraseDups.Pairwise fun k other =>
        (ks ++ [last]).idxOf k < (ks ++ [last]).idxOf other := by
      refine ih.imp_of_mem ?_
      intro k other hk hother hlt
      rwa [hplace k hk, hplace other hother]
    rw [eraseDups_append_singleton]
    split
    · exact hbefore
    · next hlast =>
      refine List.pairwise_append.2 ⟨hbefore, List.pairwise_singleton _ _, ?_⟩
      intro k hk other hother
      rw [List.mem_singleton] at hother
      subst hother
      rw [hplace k hk, List.idxOf_append_of_notMem hlast]
      exact Nat.lt_add_right _ (List.idxOf_lt_length_iff.2 (List.mem_eraseDups.1 hk))

/-! ## Other values in the same places -/

section Map

variable {μ : Type} (f : ν → μ)

theorem insert_map (key : κ) (value : ν) (entries : List (κ × ν)) :
    insert key (f value) (entries.map fun e => (e.1, f e.2)) =
      (insert key value entries).map fun e => (e.1, f e.2) := by
  induction entries with
  | nil => rfl
  | cons e rest ih =>
    rw [List.map_cons, insert, insert, ih]
    split <;> rfl

/-- Values may be mapped before or after the table is made. -/
theorem ofPairs_map (pairs : List (κ × ν)) :
    ofPairs (pairs.map fun e => (e.1, f e.2)) = (ofPairs pairs).map fun e => (e.1, f e.2) := by
  induction pairs using List.reverseRecOn with
  | nil => rfl
  | append_singleton pairs pair ih =>
    rw [List.map_append, List.map_singleton, ofPairs_append_singleton, ofPairs_append_singleton, ih]
    exact insert_map f _ _ _

theorem values_ofPairs_map (pairs : List (κ × ν)) :
    values (ofPairs (pairs.map fun e => (e.1, f e.2))) = (values (ofPairs pairs)).map f := by
  rw [ofPairs_map, values, values, List.map_map, List.map_map]
  rfl

end Map

/-! ## The table of a list of pairs -/

/-- Each key once, where it comes first, with the value it is given last. -/
def tabulate (pairs : List (κ × ν)) : List (κ × ν) :=
  (keys pairs).eraseDups.filterMap fun key => (find? key pairs).map (key, ·)

theorem mem_tabulate_iff {pairs : List (κ × ν)} {key : κ} {value : ν} :
    (key, value) ∈ tabulate pairs ↔ find? key pairs = some value := by
  rw [tabulate, List.mem_filterMap]
  constructor
  · rintro ⟨k, -, hk⟩
    rw [Option.map_eq_some_iff] at hk
    obtain ⟨v, hv, hpair⟩ := hk
    cases hpair
    exact hv
  · intro h
    refine ⟨key, ?_, by rw [h]; rfl⟩
    rw [List.mem_eraseDups]
    by_contra hnot
    rw [find?_eq_none_iff.2 hnot] at h
    cases h

theorem keys_tabulate (pairs : List (κ × ν)) : keys (tabulate pairs) = (keys pairs).eraseDups := by
  have hall : ∀ ks : List κ, (∀ k ∈ ks, k ∈ keys pairs) →
      keys (ks.filterMap fun key => (find? key pairs).map (key, ·)) = ks := by
    intro ks
    induction ks with
    | nil => intro _; rfl
    | cons k rest ih =>
      intro hmem
      have hk : k ∈ keys pairs := hmem k List.mem_cons_self
      obtain ⟨v, hv⟩ : ∃ v, find? k pairs = some v := by
        cases hf : find? k pairs with
        | some v => exact ⟨v, rfl⟩
        | none => exact absurd hk (find?_eq_none_iff.1 hf)
      have hrest := ih fun k' hk' => hmem k' (List.mem_cons_of_mem k hk')
      have hhead : (find? k pairs).map (k, ·) = some (k, v) := by rw [hv]; rfl
      simp only [List.filterMap_cons, hhead]
      exact congrArg (k :: ·) hrest
  refine hall _ ?_
  intro k hk
  rwa [List.mem_eraseDups] at hk

theorem nodup_keys_tabulate (pairs : List (κ × ν)) : (keys (tabulate pairs)).Nodup := by
  rw [keys_tabulate, ← keys_ofPairs]
  exact nodup_keys_ofPairs pairs

theorem find?_tabulate (pairs : List (κ × ν)) (key : κ) :
    find? key (tabulate pairs) = find? key pairs := by
  cases hf : find? key pairs with
  | some v => exact (find?_eq_some_iff (nodup_keys_tabulate pairs)).2 (mem_tabulate_iff.2 hf)
  | none =>
    rw [find?_eq_none_iff] at hf ⊢
    rwa [keys_tabulate, List.mem_eraseDups]

/-- Setting pairs one after the other keeps first places and last values. -/
theorem ofPairs_eq_tabulate (pairs : List (κ × ν)) : ofPairs pairs = tabulate pairs := by
  refine eq_of_keys_of_find? (nodup_keys_ofPairs pairs) ?_ ?_
  · rw [keys_ofPairs, keys_tabulate]
  · intro key _
    rw [find?_ofPairs, find?_tabulate]

example : tabulate [(1, 'a'), (2, 'b'), (1, 'c')] = [(1, 'c'), (2, 'b')] := by decide

theorem eraseDups_of_nodup {ks : List κ} (hn : ks.Nodup) : ks.eraseDups = ks := by
  induction ks with
  | nil => rfl
  | cons k rest ih =>
    obtain ⟨hk, hrest⟩ := List.nodup_cons.1 hn
    have hfilter : rest.filter (fun b => !b == k) = rest := by
      rw [List.filter_eq_self]
      intro b hb
      have hne : b ≠ k := fun h => hk (h ▸ hb)
      simp [hne]
    rw [List.eraseDups_cons, hfilter, ih hrest]

/-- A table has its own entries, unless a key is repeated. -/
theorem tabulate_eq_self {entries : List (κ × ν)} (hn : (keys entries).Nodup) :
    tabulate entries = entries := by
  refine eq_of_keys_of_find? (nodup_keys_tabulate entries) ?_ fun key _ => find?_tabulate _ key
  rw [keys_tabulate, eraseDups_of_nodup hn]

theorem ofPairs_eq_self {entries : List (κ × ν)} (hn : (keys entries).Nodup) :
    ofPairs entries = entries := by
  rw [ofPairs_eq_tabulate, tabulate_eq_self hn]

/-- Further pairs may be set in the table of the first ones. -/
theorem ofPairs_append (pairs others : List (κ × ν)) :
    ofPairs (pairs ++ others) = ofPairs (ofPairs pairs ++ others) := by
  have htwice : ofPairs (ofPairs pairs) = ofPairs pairs :=
    ofPairs_eq_self (nodup_keys_ofPairs pairs)
  calc ofPairs (pairs ++ others)
      = insertAll (ofPairs pairs) others := insertAll_append [] pairs others
    _ = insertAll (ofPairs (ofPairs pairs)) others := by rw [htwice]
    _ = ofPairs (ofPairs pairs ++ others) := (insertAll_append [] (ofPairs pairs) others).symm

/-! ## Exchanging the value of one pair -/

theorem find?_exchange_of_ne {key other : κ} (hne : key ≠ other) (value : ν)
    (earlier later : List (κ × ν)) :
    find? other (earlier ++ (key, value) :: later) = find? other (earlier ++ later) := by
  rw [find?_append, find?_append, find?]
  cases find? other later with
  | some w => rfl
  | none => rw [if_neg hne]

/-- A value does not show in the table if a later pair has the same key. -/
theorem tabulate_exchange_of_mem {key : κ} {later : List (κ × ν)} (h : key ∈ keys later)
    (earlier : List (κ × ν)) (value value' : ν) :
    tabulate (earlier ++ (key, value) :: later) = tabulate (earlier ++ (key, value') :: later) := by
  have hkeys : ∀ v : ν, keys (earlier ++ (key, v) :: later) = keys earlier ++ key :: keys later :=
    fun v => keys_append _ _
  refine eq_of_keys_of_find? (nodup_keys_tabulate _) ?_ ?_
  · rw [keys_tabulate, keys_tabulate, hkeys, hkeys]
  · intro other _
    rw [find?_tabulate, find?_tabulate]
    by_cases hother : key = other
    · subst hother
      cases hf : find? key later with
      | none => exact absurd h (find?_eq_none_iff.1 hf)
      | some w => simp only [find?_append, find?, hf]
    · rw [find?_exchange_of_ne hother, find?_exchange_of_ne hother]

/-- Otherwise it shows in one entry, and the others do not depend on it. -/
theorem exists_tabulate_exchange {key : κ} {later : List (κ × ν)} (h : key ∉ keys later)
    (earlier : List (κ × ν)) :
    ∃ before after, ∀ value,
      tabulate (earlier ++ (key, value) :: later) = before ++ (key, value) :: after := by
  have hkeys : ∀ v : ν, keys (earlier ++ (key, v) :: later) = keys earlier ++ key :: keys later :=
    fun v => keys_append _ _
  have hmem : key ∈ (keys earlier ++ key :: keys later).eraseDups :=
    List.mem_eraseDups.2 (List.mem_append_right _ List.mem_cons_self)
  obtain ⟨left, right, hsplit⟩ := List.append_of_mem hmem
  have hnodup : ∀ v : ν, (left ++ key :: right).Nodup := by
    intro v
    rw [← hsplit, ← hkeys v, ← keys_tabulate]
    exact nodup_keys_tabulate _
  have hsame : ∀ (v : ν) (ks : List κ), (∀ k ∈ ks, key ≠ k) →
      (ks.filterMap fun k => (find? k (earlier ++ (key, v) :: later)).map (k, ·)) =
        ks.filterMap fun k => (find? k (earlier ++ later)).map (k, ·) := by
    intro v ks hks
    refine List.filterMap_congr ?_
    intro k hk
    rw [find?_exchange_of_ne (hks k hk)]
  refine ⟨left.filterMap fun k => (find? k (earlier ++ later)).map (k, ·),
    right.filterMap fun k => (find? k (earlier ++ later)).map (k, ·), ?_⟩
  intro value
  obtain ⟨-, hright, hdisjoint⟩ := List.nodup_append.1 (hnodup value)
  have hleft : ∀ k ∈ left, key ≠ k :=
    fun k hk heq => hdisjoint k hk key List.mem_cons_self heq.symm
  have hfresh : ∀ k ∈ right, key ≠ k :=
    fun k hk heq => (List.nodup_cons.1 hright).1 (heq ▸ hk)
  have hfind : find? key (earlier ++ (key, value) :: later) = some value :=
    find?_eq_some_iff_append.2 ⟨earlier, later, rfl, h⟩
  rw [tabulate, hkeys, hsplit, List.filterMap_append, hsame value left hleft, List.filterMap_cons,
    hsame value right hfresh, hfind]
  rfl

end Phrasebook.Entries
