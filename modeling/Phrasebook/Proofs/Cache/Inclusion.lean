/-
  A larger cache never finds less.

  Two caches are used in the same way from the start, one with more room than
  the other.  Then the smaller one always holds some of the keys of the larger
  one, in the same order of last use, and no lookup succeeds in the smaller one
  only.

  That the keys are among each other is no invariant by itself: with room for a
  further key, the smaller cache would keep a key that the larger one may have
  to drop.  It holds together with a second fact, that a cache with room left
  has not missed anything: its keys are those of the larger cache (`Within`).
  A key that only the larger cache finds moves to the end of its keys, and there
  it stands behind all that the two have in common.
-/
import Phrasebook.Proofs.Cache.Operations

set_option autoImplicit false

namespace Phrasebook.Cache

variable {α ε : Type}

/-! ## Accesses -/

/-- One use of a cache from outside.  The computation of a fetch leaves the cache alone, so all
that matters is its outcome. -/
inductive Access (α ε : Type) where
  | get (key : String)
  | set (key : String) (value : α)
  | contains (key : String)
  | clear
  | fetch (key : String) (outcome : Except ε α)

/-- The cache after an access. -/
def access (c : Cache α) : Access α ε → Cache α
  | .get key => (c.get key).2
  | .set key value => c.set key value
  | .contains _ => c
  | .clear => c.clear
  | .fetch key outcome => (c.fetch key fun cache => (outcome, cache)).2

/-- The cache after some accesses. -/
def perform (c : Cache α) (accesses : List (Access α ε)) : Cache α := accesses.foldl access c

/-! ## What an access does to the keys -/

/-- The keys after a key was looked for. -/
def look (key : String) (ks : List String) : List String := if key ∈ ks then touch key ks else ks

/-- The keys after a key was set. -/
def enter (capacity : Nat) (key : String) (ks : List String) : List String :=
  if key ∉ ks ∧ capacity ≤ ks.length then ks.drop 1 ++ [key] else touch key ks

theorem look_of_not_mem {key : String} {ks : List String} (h : key ∉ ks) : look key ks = ks :=
  if_neg h

/-- For a key that is there, being looked for and being set are the same use. -/
theorem look_eq_enter {key : String} {ks : List String} (h : key ∈ ks) (capacity : Nat) :
    look key ks = enter capacity key ks := by
  rw [look, enter, if_pos h, if_neg fun hnew => hnew.1 h]

/-- A fetch looks for its key, and sets it if that fails and there is a value. -/
theorem keys_fetch (c : Cache α) (key : String) (outcome : Except ε α) :
    (c.fetch key fun cache => (outcome, cache)).2.keys =
      if key ∉ c.keys ∧ outcome.isOk = true then enter c.capacity key c.keys
      else look key c.keys := by
  rcases c.fetch_cases key fun cache => (outcome, cache) with
    ⟨value, hmem, -, h⟩ | ⟨value, hmem, ho, h⟩ | ⟨e, -, ho, h⟩
  · rw [h, if_neg fun hnew => hnew.1 hmem]
    exact keys_get c key
  · dsimp only at ho
    subst ho
    rw [h, if_pos ⟨hmem, rfl⟩]
    have hkeys : (c.get key).2.keys = c.keys := (keys_get c key).trans (if_neg hmem)
    have hset := keys_set (c.get key).2 key value
    rwa [hkeys, capacity_get] at hset
  · dsimp only at ho
    subst ho
    rw [h, if_neg fun hnew => nomatch hnew.2]
    exact keys_get c key

theorem capacity_fetch (c : Cache α) (key : String) (outcome : Except ε α) :
    (c.fetch key fun cache => (outcome, cache)).2.capacity = c.capacity := by
  rcases c.fetch_cases key fun cache => (outcome, cache) with
    ⟨value, -, -, h⟩ | ⟨value, -, -, h⟩ | ⟨e, -, -, h⟩
  · rw [h]
    exact capacity_get c key
  · rw [h]
    exact (capacity_set _ key value).trans (capacity_get c key)
  · rw [h]
    exact capacity_get c key

theorem capacity_access (c : Cache α) (a : Access α ε) :
    (c.access a).capacity = c.capacity := by
  cases a with
  | get key => exact capacity_get c key
  | set key value => exact capacity_set c key value
  | contains key => rfl
  | clear => rfl
  | fetch key outcome => exact capacity_fetch c key outcome

/-! ## What is counted -/

theorem hits_get (c : Cache α) (key : String) :
    (c.get key).2.hits = c.hits + if key ∈ c.keys then 1 else 0 := by
  rcases get_cases c key with ⟨value, hmem, -, h⟩ | ⟨hmem, h⟩
  · rw [h, if_pos hmem]
  · rw [h, if_neg hmem]
    rfl

theorem hits_set (c : Cache α) (key : String) (value : α) : (c.set key value).hits = c.hits := by
  rcases set_cases c key value with ⟨-, h⟩ | ⟨-, -, h⟩ | ⟨-, -, h⟩ <;> rw [h]

theorem hits_fetch (c : Cache α) (key : String) (outcome : Except ε α) :
    (c.fetch key fun cache => (outcome, cache)).2.hits =
      c.hits + if key ∈ c.keys then 1 else 0 := by
  rcases c.fetch_cases key fun cache => (outcome, cache) with
    ⟨value, -, -, h⟩ | ⟨value, -, -, h⟩ | ⟨e, -, -, h⟩
  · rw [h]
    exact hits_get c key
  · rw [h]
    exact (hits_set _ key value).trans (hits_get c key)
  · rw [h]
    exact hits_get c key

/-! ## Keys within keys -/

/-- The keys of a cache with room for `m` within those of a cache with room for `m'`. -/
structure Within (m m' : Nat) (ks ks' : List String) : Prop where
  sublist : ks.Sublist ks'
  nodup : ks'.Nodup
  /-- a cache with room left has missed nothing -/
  full_or_eq : ks.length = m ∨ ks.length < m ∧ ks = ks'

namespace Within

variable {m m' : Nat} {ks ks' : List String}

theorem nil (hm : 0 < m) : Within m m' [] [] :=
  ⟨List.Sublist.refl [], List.nodup_nil, .inr ⟨hm, rfl⟩⟩

theorem mem (h : Within m m' ks ks') {key : String} (hmem : key ∈ ks) : key ∈ ks' :=
  h.sublist.subset hmem

theorem length_le (h : Within m m' ks ks') : ks.length ≤ m := by
  rcases h.full_or_eq with hfull | ⟨hroom, -⟩
  · exact Nat.le_of_eq hfull
  · exact Nat.le_of_lt hroom

theorem nodup_touch {key : String} (hn : ks.Nodup) : (touch key ks).Nodup := by
  rw [touch, List.nodup_append]
  refine ⟨hn.filter _, List.nodup_singleton key, ?_⟩
  intro other hother last hlast
  rw [List.mem_singleton.1 hlast]
  simpa using (List.mem_filter.1 hother).2

theorem nodup_enter {capacity : Nat} {key : String} (hn : ks.Nodup) :
    (enter capacity key ks).Nodup := by
  unfold enter
  split
  · rename_i hnew
    rw [List.nodup_append]
    refine ⟨hn.sublist (List.drop_sublist 1 ks), List.nodup_singleton key, ?_⟩
    intro other hother last hlast
    rw [List.mem_singleton.1 hlast]
    rintro rfl
    exact hnew.1 (List.mem_of_mem_drop hother)
  · exact nodup_touch hn

/-- Setting a key in both caches. -/
theorem sublist_enter (h : Within m m' ks ks') (hle : m ≤ m') (key : String) :
    (enter m key ks).Sublist (enter m' key ks') := by
  by_cases hsmall : key ∉ ks ∧ m ≤ ks.length
  · by_cases hlarge : key ∉ ks' ∧ m' ≤ ks'.length
    · rw [enter, enter, if_pos hsmall, if_pos hlarge]
      exact (h.sublist.drop 1).append (List.Sublist.refl [key])
    · rw [enter, enter, if_pos hsmall, if_neg hlarge, touch]
      have hfilter := h.sublist.filter (· ≠ key)
      rw [filter_ne_of_not_mem hsmall.1] at hfilter
      exact ((List.drop_sublist 1 ks).trans hfilter).append (List.Sublist.refl [key])
  · by_cases hlarge : key ∉ ks' ∧ m' ≤ ks'.length
    · -- the smaller cache had room left, so the larger one is not full either
      have hroom : ks.length < m :=
        Nat.lt_of_not_le fun hfull => hsmall ⟨fun hmem => hlarge.1 (h.mem hmem), hfull⟩
      rcases h.full_or_eq with hfull | ⟨-, rfl⟩
      · omega
      · omega
    · rw [enter, enter, if_neg hsmall, if_neg hlarge, touch, touch]
      exact (h.sublist.filter _).append (List.Sublist.refl [key])

theorem enter_full_or_eq (h : Within m m' ks ks') (hm : 0 < m) (hle : m ≤ m') (key : String) :
    (enter m key ks).length = m ∨
      (enter m key ks).length < m ∧ enter m key ks = enter m' key ks' := by
  have hn : ks.Nodup := h.nodup.sublist h.sublist
  rcases h.full_or_eq with hfull | ⟨hroom, rfl⟩
  · refine .inl ?_
    by_cases hmem : key ∈ ks
    · rw [enter, if_neg fun hnew => hnew.1 hmem, length_touch hn hmem]
      exact hfull
    · rw [enter, if_pos ⟨hmem, Nat.le_of_eq hfull.symm⟩, List.length_append, List.length_drop,
        List.length_singleton]
      omega
  · have hsmall : enter m key ks = touch key ks := if_neg fun hnew => by omega
    have hlarge : enter m' key ks = touch key ks := if_neg fun hnew => by omega
    rw [hsmall, hlarge]
    by_cases hmem : key ∈ ks
    · rw [length_touch hn hmem]
      exact .inr ⟨hroom, rfl⟩
    · rw [touch_of_not_mem hmem, List.length_append, List.length_singleton]
      rcases Nat.lt_or_ge (ks.length + 1) m with hlt | hge
      · exact .inr ⟨hlt, rfl⟩
      · exact .inl (by omega)

theorem enter (h : Within m m' ks ks') (hm : 0 < m) (hle : m ≤ m') (key : String) :
    Within m m' (enter m key ks) (Cache.enter m' key ks') :=
  ⟨h.sublist_enter hle key, nodup_enter h.nodup, h.enter_full_or_eq hm hle key⟩

/-- A key that is only in the larger cache moves behind the keys of both. -/
theorem touch_right (h : Within m m' ks ks') {key : String} (hmem : key ∉ ks) (hmem' : key ∈ ks') :
    Within m m' ks (touch key ks') := by
  refine ⟨?_, nodup_touch h.nodup, ?_⟩
  · have hfilter := h.sublist.filter (· ≠ key)
    rw [filter_ne_of_not_mem hmem] at hfilter
    exact hfilter.trans (List.sublist_append_left _ _)
  · rcases h.full_or_eq with hfull | ⟨-, rfl⟩
    · exact .inl hfull
    · exact absurd hmem' hmem

/-- Looking for a key in both caches. -/
theorem look (h : Within m m' ks ks') (hm : 0 < m) (hle : m ≤ m') (key : String) :
    Within m m' (look key ks) (Cache.look key ks') := by
  by_cases hmem : key ∈ ks
  · rw [look_eq_enter hmem m, look_eq_enter (h.mem hmem) m']
    exact h.enter hm hle key
  · rw [look_of_not_mem hmem]
    by_cases hmem' : key ∈ ks'
    · rw [Cache.look, if_pos hmem']
      exact h.touch_right hmem hmem'
    · rw [look_of_not_mem hmem']
      exact h

/-- Fetching a key in both caches.  The smaller one may have to set what the larger one finds. -/
theorem fetch (h : Within m m' ks ks') (hm : 0 < m) (hle : m ≤ m') (key : String)
    (outcome : Except ε α) :
    Within m m'
      (if key ∉ ks ∧ outcome.isOk = true then Cache.enter m key ks else Cache.look key ks)
      (if key ∉ ks' ∧ outcome.isOk = true then Cache.enter m' key ks' else Cache.look key ks') := by
  by_cases hok : outcome.isOk = true
  · have hset : ∀ (capacity : Nat) (keys : List String),
        (if key ∉ keys ∧ outcome.isOk = true then Cache.enter capacity key keys
          else Cache.look key keys) = Cache.enter capacity key keys := by
      intro capacity keys
      by_cases hmem : key ∈ keys
      · rw [if_neg fun hnew => hnew.1 hmem, look_eq_enter hmem capacity]
      · rw [if_pos ⟨hmem, hok⟩]
    rw [hset, hset]
    exact h.enter hm hle key
  · rw [if_neg fun hnew => hok hnew.2, if_neg fun hnew => hok hnew.2]
    exact h.look hm hle key

end Within

/-! ## Caches within caches -/

/-- A cache that holds nothing that a larger one does not hold, and has found no more. -/
structure Included (small large : Cache α) : Prop where
  capacity_le : small.capacity ≤ large.capacity
  keys : Within small.capacity large.capacity small.keys large.keys
  hits_le : small.hits ≤ large.hits

namespace Included

variable {small large : Cache α}

/-- What the smaller cache finds, the larger one finds. -/
theorem count_le (h : Included small large) (key : String) :
    (small.hits + if key ∈ small.keys then 1 else 0) ≤
      large.hits + if key ∈ large.keys then 1 else 0 := by
  have hhits := h.hits_le
  by_cases hmem : key ∈ small.keys
  · rw [if_pos hmem, if_pos (h.keys.mem hmem)]
    omega
  · rw [if_neg hmem]
    omega

/-- One access keeps a cache within a larger one. -/
theorem access (h : Included small large) (a : Access α ε) :
    Included (small.access a) (large.access a) where
  capacity_le := by
    rw [capacity_access, capacity_access]
    exact h.capacity_le
  keys := by
    have hpos := small.capacity_pos
    rw [capacity_access, capacity_access]
    cases a with
    | get key =>
      rw [Cache.access, Cache.access, keys_get, keys_get]
      exact h.keys.look hpos h.capacity_le key
    | set key value =>
      rw [Cache.access, Cache.access, keys_set, keys_set]
      exact h.keys.enter hpos h.capacity_le key
    | contains key => exact h.keys
    | clear => exact Within.nil hpos
    | fetch key outcome =>
      rw [Cache.access, Cache.access, keys_fetch, keys_fetch]
      exact h.keys.fetch hpos h.capacity_le key outcome
  hits_le := by
    cases a with
    | get key =>
      rw [Cache.access, Cache.access, hits_get, hits_get]
      exact h.count_le key
    | set key value =>
      rw [Cache.access, Cache.access, hits_set, hits_set]
      exact h.hits_le
    | contains key => exact h.hits_le
    | clear => exact Nat.le_refl 0
    | fetch key outcome =>
      rw [Cache.access, Cache.access, hits_fetch, hits_fetch]
      exact h.count_le key

/-- A whole run keeps what one access keeps. -/
theorem perform (h : Included small large) (accesses : List (Access α ε)) :
    Included (small.perform accesses) (large.perform accesses) := by
  induction accesses generalizing small large with
  | nil => exact h
  | cons a rest ih => exact ih (h.access a)

/-- Two new caches. -/
theorem of_make? {m m' : Int} (hle : m ≤ m') (hsmall : make? m = .ok small)
    (hlarge : make? m' = .ok large) : Included small large := by
  rw [make?] at hsmall hlarge
  split at hsmall
  · split at hlarge
    · cases hsmall
      cases hlarge
      have hpos : 0 < m.toNat := Int.pos_iff_toNat_pos.1 ‹0 < m›
      exact ⟨Int.toNat_le_toNat hle, Within.nil hpos, Nat.le_refl 0⟩
    · cases hlarge
  · cases hsmall

end Included

/-- Of two new caches that are used in the same way, the one with less room holds, after any number
of accesses, keys of the other one in the same order, and has found no more. -/
theorem keys_sublist_and_hits_le {m m' : Int} {small large : Cache α} (hle : m ≤ m')
    (hsmall : make? m = .ok small) (hlarge : make? m' = .ok large)
    (accesses : List (Access α ε)) :
    (small.perform accesses).keys.Sublist (large.perform accesses).keys ∧
      (small.perform accesses).hits ≤ (large.perform accesses).hits := by
  have h := (Included.of_make? hle hsmall hlarge).perform accesses
  exact ⟨h.keys.sublist, h.hits_le⟩

/-- With room for one key and for two: the larger cache alone finds the key that is fetched. -/
theorem keys_sublist_of_fetch :
    let small : Cache Nat := { capacity := 1, capacity_pos := Nat.one_pos }
    let large : Cache Nat := { capacity := 2, capacity_pos := Nat.two_pos }
    let accesses : List (Access Nat String) :=
      [.set "a" 1, .set "b" 2, .fetch "a" (.ok 1), .get "b", .fetch "c" (.error "no value")]
    (small.perform accesses).keys.Sublist (large.perform accesses).keys ∧
      (small.perform accesses).hits ≤ (large.perform accesses).hits := by
  intro small large accesses
  have hsmall : make? 1 = .ok small := rfl
  have hlarge : make? 2 = .ok large := rfl
  exact keys_sublist_and_hits_le (by decide) hsmall hlarge accesses

end Phrasebook.Cache
