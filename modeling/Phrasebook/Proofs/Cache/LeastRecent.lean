/-
  A cache holds the keys that were used last.

  The keys of a cache are known from its history alone: of the keys used since
  the last clear, in the order of their last uses, they are the last `capacity`
  ones.  So no key is repeated, there are never too many, the first key is the
  one used least recently, and a new key in a full cache takes its place.

  The rest of the ledger is kept along: each key has the value stored for it
  last, the counts agree with what happened, and an entry is dropped only by a
  new key in a full cache and by a clear.  `Exact.step` shows that one event
  keeps the ledger exact, and `exact_replay` carries it through a history.
-/
import Mathlib.Data.List.Dedup
import Phrasebook.Proofs.Cache.Session
import Phrasebook.Proofs.Entries

set_option autoImplicit false

namespace Phrasebook.Cache

variable {α ε : Type}

/-! ## The keys used last -/

/-- Of the keys used, those used last, in the order of their last uses. -/
def recent (capacity : Nat) (ks : List String) : List String := ks.dedup.rtake capacity

theorem dedup_append_singleton (ks : List String) (key : String) :
    (ks ++ [key]).dedup = touch key ks.dedup := by
  induction ks with
  | nil => rfl
  | cons k rest ih =>
    rw [List.cons_append]
    by_cases hrest : k ∈ rest
    · rw [List.dedup_cons_of_mem (List.mem_append_left _ hrest), List.dedup_cons_of_mem hrest, ih]
    · rw [List.dedup_cons_of_notMem hrest]
      by_cases hk : k = key
      · subst hk
        rw [List.dedup_cons_of_mem (List.mem_append_right _ List.mem_cons_self), ih, touch, touch,
          List.filter_cons_of_neg (by simp)]
      · have hnot : k ∉ rest ++ [key] := by
          intro hmem
          rcases List.mem_append.1 hmem with hmem | hmem
          · exact hrest hmem
          · exact hk (List.mem_singleton.1 hmem)
        rw [List.dedup_cons_of_notMem hnot, ih, touch, touch,
          List.filter_cons_of_pos (by simp [hk]), List.cons_append]

theorem nodup_recent (capacity : Nat) (ks : List String) : (recent capacity ks).Nodup :=
  (List.nodup_dedup ks).sublist (List.drop_sublist _ _)

/-- The keys used last are all keys, unless they are as many as there is capacity. -/
theorem exists_older (capacity : Nat) (ks : List String) :
    ∃ older, ks.dedup = older ++ recent capacity ks ∧
      ((recent capacity ks).length = capacity ∨
        older = [] ∧ (recent capacity ks).length ≤ capacity) := by
  refine ⟨ks.dedup.take (ks.dedup.length - capacity), (List.take_append_drop _ _).symm, ?_⟩
  rw [recent, List.rtake, List.length_drop]
  by_cases h : capacity ≤ ks.dedup.length
  · exact .inl (by omega)
  · have hzero : ks.dedup.length - capacity = 0 := by omega
    exact .inr ⟨by rw [hzero, List.take_zero], by omega⟩

theorem length_recent_le (capacity : Nat) (ks : List String) :
    (recent capacity ks).length ≤ capacity := by
  obtain ⟨older, -, h | ⟨-, h⟩⟩ := exists_older capacity ks
  · exact Nat.le_of_eq h
  · exact h

theorem rtake_append {capacity : Nat} {older newer : List String}
    (h : newer.length = capacity ∨ older = [] ∧ newer.length ≤ capacity) :
    (older ++ newer).rtake capacity = newer := by
  rw [List.rtake, List.length_append]
  rcases h with h | ⟨rfl, h⟩
  · exact List.drop_left' (by omega)
  · have hzero : ([] : List String).length + newer.length - capacity = 0 := by
      rw [List.length_nil]
      omega
    rw [hzero]
    rfl

/-- A further use drops the key used least recently if it is of a new key and there is no room. -/
theorem recent_append_singleton {capacity : Nat} (hpos : 0 < capacity) (ks : List String)
    (key : String) :
    recent capacity (ks ++ [key]) =
      if key ∉ recent capacity ks ∧ capacity ≤ (recent capacity ks).length
      then (recent capacity ks).drop 1 ++ [key] else touch key (recent capacity ks) := by
  obtain ⟨older, hsplit, hlength⟩ := exists_older capacity ks
  have hn : (recent capacity ks).Nodup := nodup_recent capacity ks
  have hall : recent capacity (ks ++ [key]) =
      (older.filter (· ≠ key) ++ touch key (recent capacity ks)).rtake capacity := by
    rw [recent, dedup_append_singleton, hsplit, touch, List.filter_append, List.append_assoc]
    rfl
  rw [hall]
  split
  · rename_i hfull
    obtain ⟨first, rest, hcons⟩ : ∃ first rest, recent capacity ks = first :: rest := by
      refine List.exists_cons_of_ne_nil ?_
      intro hnil
      rw [hnil, List.length_nil] at hfull
      omega
    have hcount : (rest ++ [key]).length = capacity := by
      have hle := length_recent_le capacity ks
      rw [hcons, List.length_cons] at hfull hle
      rw [List.length_append, List.length_singleton]
      omega
    rw [touch_of_not_mem hfull.1, hcons, List.cons_append, List.append_cons]
    exact rtake_append (.inl hcount)
  · rename_i hroom
    refine rtake_append ?_
    by_cases hmem : key ∈ recent capacity ks
    · rw [length_touch hn hmem]
      rcases hlength with h | ⟨rfl, h⟩
      · exact .inl h
      · exact .inr ⟨rfl, h⟩
    · have hfree : (recent capacity ks).length < capacity :=
        Nat.lt_of_not_le fun hfull => hroom ⟨hmem, hfull⟩
      rcases hlength with h | ⟨rfl, -⟩
      · omega
      · rw [touch_of_not_mem hmem, List.length_append, List.length_singleton]
        exact .inr ⟨rfl, hfree⟩

example : recent 2 ["a", "b", "c", "a"] = ["c", "a"] := by decide

/-! ## The ledger -/

/-- What a cache owes to its history since the last clear. -/
structure Exact (capacity : Nat) (history : List (Moment α)) (c : Cache α) : Prop where
  capacity_eq : c.capacity = capacity
  /-- the keys are the last ones used, in the order of their last uses -/
  keys_eq : c.keys = recent capacity (uses history)
  /-- each key has the value stored for it last -/
  find?_eq : ∀ key ∈ c.keys, c.find? key = Entries.find? key (stores history)
  lookups_eq : c.hits + c.misses = looks history
  size_eq : c.keys.length + c.evictions = insertions history
  full : 0 < c.evictions → c.keys.length = capacity

namespace Exact

/-- An empty cache has no history. -/
theorem empty {capacity : Nat} (hpos : 0 < capacity) :
    Exact (α := α) capacity [] { capacity := capacity, capacity_pos := hpos } where
  capacity_eq := rfl
  keys_eq := by
    rw [recent, uses, List.filterMap_nil, List.dedup_nil, List.rtake_nil]
    rfl
  find?_eq _ hmem := nomatch hmem
  lookups_eq := rfl
  size_eq := rfl
  full hpos := nomatch hpos

theorem of_make? {maxsize : Int} {c : Cache α} (h : make? maxsize = .ok c) :
    Exact maxsize.toNat [] c := by
  rw [make?] at h
  split at h
  · cases h
    exact empty _
  · cases h

variable {capacity : Nat} {history : List (Moment α)} {c : Cache α}

/-- A cleared cache has no history either. -/
theorem clear (h : Exact capacity history c) : Exact capacity [] c.clear := by
  rw [← h.capacity_eq]
  exact empty c.capacity_pos

theorem nodup (h : Exact capacity history c) : c.keys.Nodup :=
  h.keys_eq ▸ nodup_recent capacity (uses history)

theorem length_le (h : Exact capacity history c) : c.keys.length ≤ capacity :=
  h.keys_eq ▸ length_recent_le capacity (uses history)

/-- Asking leaves everything as it is. -/
theorem ask (h : Exact capacity history c) (key : String) :
    Exact capacity (history ++ [⟨c, .ask key⟩]) c where
  capacity_eq := h.capacity_eq
  keys_eq := by
    rw [h.keys_eq, uses_append_singleton]
    exact congrArg _ (List.append_nil _).symm
  find?_eq other hmem := by
    rw [h.find?_eq other hmem, stores_append_singleton]
    exact congrArg _ (List.append_nil _).symm
  lookups_eq := by
    rw [h.lookups_eq, looks_append_singleton]
    rfl
  size_eq := by
    rw [h.size_eq, insertions_append_singleton]
    rfl
  full := h.full

/-- A look is counted, and it is a use if it finds its key. -/
theorem look (h : Exact capacity history c) (key : String) :
    Exact capacity (history ++ [⟨c, .look key⟩]) (c.get key).2 where
  capacity_eq := (capacity_get c key).trans h.capacity_eq
  keys_eq := by
    rw [keys_get, uses_append_singleton]
    by_cases hmem : key ∈ c.keys
    · have huse : Moment.use? ⟨c, .look key⟩ = some key := if_pos (contains_iff.2 hmem)
      have hpos : 0 < capacity := h.capacity_eq ▸ c.capacity_pos
      have hstay : ¬ (key ∉ recent capacity (uses history) ∧
          capacity ≤ (recent capacity (uses history)).length) :=
        fun hnot => hnot.1 (h.keys_eq ▸ hmem)
      rw [if_pos hmem, huse, Option.toList_some, recent_append_singleton hpos, if_neg hstay,
        ← h.keys_eq]
    · have huse : Moment.use? ⟨c, .look key⟩ = none :=
        if_neg fun hc => hmem (contains_iff.1 hc)
      rw [if_neg hmem, huse, Option.toList_none, List.append_nil, h.keys_eq]
  find?_eq other hmem := by
    rw [find?_get, h.find?_eq other (mem_keys_get.1 hmem), stores_append_singleton]
    exact congrArg _ (List.append_nil _).symm
  lookups_eq := by
    rw [lookups_get, h.lookups_eq, looks_append_singleton]
    rfl
  size_eq := by
    rw [length_keys_get h.nodup, evictions_get, h.size_eq, insertions_append_singleton]
    rfl
  full hpos := by
    rw [evictions_get] at hpos
    rw [length_keys_get h.nodup]
    exact h.full hpos

/-- A store is a use of its key, and enters the key if it is not there. -/
theorem store (h : Exact capacity history c) (key : String) (value : α) :
    Exact capacity (history ++ [⟨c, .store key value⟩]) (c.set key value) where
  capacity_eq := (capacity_set c key value).trans h.capacity_eq
  keys_eq := by
    have hpos : 0 < capacity := h.capacity_eq ▸ c.capacity_pos
    have huse : Moment.use? ⟨c, .store key value⟩ = some key := rfl
    rw [keys_set, uses_append_singleton, huse, Option.toList_some, recent_append_singleton hpos,
      ← h.keys_eq, h.capacity_eq]
  find?_eq other hmem := by
    have hstore : Moment.store? ⟨c, .store key value⟩ = some (key, value) := rfl
    rw [stores_append_singleton, hstore, Option.toList_some, Entries.find?_append,
      Entries.find?_singleton]
    by_cases hother : other = key
    · rw [hother, if_pos rfl, find?_set_self, Option.some_or]
    · rw [if_neg (Ne.symm hother), Option.none_or, find?_set_of_ne h.nodup value hother hmem]
      exact h.find?_eq other (mem_keys_of_mem_set hother hmem)
  lookups_eq := by
    rw [lookups_set, h.lookups_eq, looks_append_singleton]
    rfl
  size_eq := by
    rw [size_set h.nodup, h.size_eq, insertions_append_singleton]
    rfl
  full hpos := by
    rw [evictions_set] at hpos
    -- an entry is dropped only by a full cache, now or before
    have hfull : c.keys.length = c.capacity := by
      split at hpos
      · rename_i hnew
        exact Nat.le_antisymm (h.capacity_eq ▸ h.length_le) hnew.2
      · exact (h.full hpos).trans h.capacity_eq.symm
    rw [length_set_of_full h.nodup hfull]
    exact h.capacity_eq

/-- One event keeps the ledger. -/
theorem step {past : List (Moment α)} (h : Exact capacity (sinceClear past) c)
    (event : Event α) : Exact capacity (sinceClear (past ++ [⟨c, event⟩])) (c.step event) := by
  rw [sinceClear_append_singleton]
  cases event with
  | look key => exact h.look key
  | store key value => exact h.store key value
  | ask key => exact h.ask key
  | clear => exact h.clear

end Exact

/-- The ledger is exact after every history. -/
theorem exact_replay {capacity : Nat} {c : Cache α} (h : Exact capacity [] c)
    (events : List (Event α)) :
    Exact capacity (sinceClear (moments c events)) (c.replay events) := by
  induction events using List.reverseRecOn with
  | nil => exact h
  | append_singleton events event ih =>
    rw [moments_append, replay_append]
    exact ih.step event

/-! ## What is dropped -/

/-- The keys of a cache that are gone after an event. -/
def dropped (c : Cache α) (event : Event α) : List String :=
  c.keys.filter (· ∉ (c.step event).keys)

/-- The keys that an event may drop: a clear all of them, and a new key in a full cache the one
used least recently. -/
def due (c : Cache α) : Event α → List String
  | .clear => c.keys
  | .store key _ => if key ∉ c.keys ∧ c.keys.length = c.capacity then c.keys.take 1 else []
  | _ => []

theorem filter_not_mem_eq_nil {ks others : List String} (h : ∀ key ∈ ks, key ∈ others) :
    ks.filter (· ∉ others) = [] := by
  rw [List.filter_eq_nil_iff]
  intro key hkey
  simp [h key hkey]

/-- An event drops what is due and nothing else. -/
theorem dropped_eq_due {c : Cache α} (hn : c.keys.Nodup) (hle : c.keys.length ≤ c.capacity)
    (event : Event α) : dropped c event = due c event := by
  cases event with
  | look key => exact filter_not_mem_eq_nil fun other hmem => mem_keys_get.2 hmem
  | ask key => exact filter_not_mem_eq_nil fun other hmem => hmem
  | clear =>
    rw [dropped, due, List.filter_eq_self]
    intro key _
    simp [step, Cache.clear, keys]
  | store key value =>
    rw [dropped, due, step, keys_set]
    by_cases hfull : key ∉ c.keys ∧ c.capacity ≤ c.keys.length
    · have hpos := c.capacity_pos
      rw [if_pos hfull, if_pos ⟨hfull.1, by omega⟩]
      obtain ⟨first, rest, hcons⟩ : ∃ first rest, c.keys = first :: rest := by
        refine List.exists_cons_of_ne_nil ?_
        intro hnil
        rw [hnil, List.length_nil] at hfull
        omega
      rw [hcons] at hn hfull ⊢
      obtain ⟨hfirst, -⟩ := List.nodup_cons.1 hn
      have hgone : first ∉ rest ++ [key] := by
        intro hmem
        rcases List.mem_append.1 hmem with hmem | hmem
        · exact hfirst hmem
        · exact hfull.1 (List.mem_singleton.1 hmem ▸ List.mem_cons_self)
      have hrest : rest.filter (· ∉ rest ++ [key]) = [] :=
        filter_not_mem_eq_nil fun other hmem => List.mem_append_left _ hmem
      rw [List.drop_succ_cons, List.drop_zero, List.filter_cons_of_pos (by simpa using hgone),
        hrest]
      rfl
    · have hroom : ¬ (key ∉ c.keys ∧ c.keys.length = c.capacity) :=
        fun h => hfull ⟨h.1, Nat.le_of_eq h.2.symm⟩
      rw [if_neg hfull, if_neg hroom]
      exact filter_not_mem_eq_nil fun other hmem => mem_touch.2 (.inl hmem)

/-! ## Sessions -/

/-- A fetch whose computation fails stores nothing of its own: it leaves the cache that the
computation left. -/
theorem fetch_snd_of_error {c : Cache α} {key : String}
    {compute : Cache α → Except ε α × Cache α} {e : ε} (h : (c.fetch key compute).1 = .error e) :
    (c.fetch key compute).2 = (compute (c.get key).2).2 := by
  rcases fetch_cases c key compute with ⟨value, -, -, hf⟩ | ⟨value, -, -, hf⟩ | ⟨e, -, -, hf⟩
  · rw [hf] at h
    cases h
  · rw [hf] at h
    cases h
  · rw [hf]

/-- A new cache is exact along every session: after each of its events the keys differ, are no more
than fit and are the last ones used, each with the value stored last, and the counts agree with the
history since the last clear; each event drops what is due and nothing else; and a fetch that fails
stores nothing of its own. -/
theorem exact_along_session {maxsize : Int} {c : Cache α} (hc : make? maxsize = .ok c)
    (session : Session α ε) :
    (∀ events, events <+: session.events c →
      (c.replay events).keys.Nodup ∧ (c.replay events).keys.length ≤ maxsize.toNat ∧
        Exact maxsize.toNat (sinceClear (moments c events)) (c.replay events)) ∧
    (∀ events event, events ++ [event] <+: session.events c →
      dropped (c.replay events) event = due (c.replay events) event) ∧
    (session.run c).2 = c.replay (session.events c) ∧
    (∀ (reached : Cache α) (key : String) (compute : Session α ε) (e : ε),
      (reached.fetch key compute.run).1 = .error e →
        (reached.fetch key compute.run).2 = (compute.run (reached.get key).2).2) := by
  have hexact : ∀ events, Exact maxsize.toNat (sinceClear (moments c events)) (c.replay events) :=
    exact_replay (Exact.of_make? hc)
  refine ⟨?_, ?_, (replay_events session c).symm, ?_⟩
  · intro events _
    exact ⟨(hexact events).nodup, (hexact events).length_le, hexact events⟩
  · intro events event _
    have h := hexact events
    exact dropped_eq_due h.nodup (h.capacity_eq ▸ h.length_le) event
  · intro reached key compute e h
    exact fetch_snd_of_error h

/-- With room for one entry, a fetch that clears the cache and sets its own key before it fails. -/
theorem exact_along_reentrant :
    let c : Cache Nat := { capacity := 1, capacity_pos := Nat.one_pos }
    let session : Session Nat String :=
      .set "a" 1 (.fetch "b" (.clear (.set "b" 2 (.done (.error "no value")))) .done)
    (session.run c).2 = c.replay (session.events c) ∧
      Exact 1 (sinceClear (moments c (session.events c))) (c.replay (session.events c)) := by
  intro c session
  have hc : make? 1 = .ok c := rfl
  obtain ⟨hexact, -, hrun, -⟩ := exact_along_session hc session
  exact ⟨hrun, (hexact (session.events c) (List.prefix_refl _)).2.2⟩

end Phrasebook.Cache
