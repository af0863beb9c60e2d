/-
  A table of branches is an ordered map.

  The table of some pairs has each of their keys once, at the place where the
  key came first, with the body that came with it last (`Collects`).

  An index finds for a key what the entries of its table find, in any table.
  Where the entries repeat no key they are their own index, so a table that was
  made of pairs answers as its entries say (`AnswersByEntries`), and two such
  tables are the same if they have the same keys in the same order and look up
  the same bodies.

  A name and an exact number are never the same key, however they are written.
-/
import Phrasebook.Message.Index
import Phrasebook.Proofs.Entries

set_option autoImplicit false

namespace Phrasebook

/-! ## What an index answers -/

namespace IndexedBranches

variable {β : Type} {t : IndexedBranches β} {key : BranchKey} {body : β}

theorem find?_index (t : IndexedBranches β) (key : BranchKey) :
    Entries.find? key t.index = Entries.find? key t.entries := by
  rw [t.index_eq, Entries.find?_ofPairs]

theorem nodup_index (t : IndexedBranches β) : (Entries.keys t.index).Nodup := by
  rw [t.index_eq]
  exact Entries.nodup_keys_ofPairs _

theorem lookup_eq_ok_iff : t.lookup key = .ok body ↔ Entries.find? key t.entries = some body := by
  rw [lookup, find?_index]
  cases Entries.find? key t.entries <;> simp

/-- A key that is not there is named. -/
theorem lookup_eq_error_iff {missing : BranchKey} :
    t.lookup key = .error missing ↔ missing = key ∧ Entries.find? key t.entries = none := by
  rw [lookup, find?_index]
  cases Entries.find? key t.entries <;> simp [eq_comm]

theorem get?_eq (t : IndexedBranches β) (key : BranchKey) :
    t.get? key = Entries.find? key t.entries := by
  rw [get?, lookup, find?_index]
  cases Entries.find? key t.entries <;> rfl

theorem contains_eq (t : IndexedBranches β) (key : BranchKey) :
    t.contains key = (Entries.find? key t.entries).isSome := by
  rw [contains, lookup, find?_index]
  cases Entries.find? key t.entries <;> rfl

/-- What a key finds does not depend on how the tables were made. -/
theorem lookup_congr {u : IndexedBranches β}
    (h : Entries.find? key t.entries = Entries.find? key u.entries) :
    t.lookup key = u.lookup key := by
  rw [lookup, lookup, find?_index, find?_index, h]

/-- The key of an entry of the index is found there. -/
theorem lookup_of_mem_index {e : BranchKey × β} (he : e ∈ t.index) : t.lookup e.1 = .ok e.2 := by
  rw [lookup_eq_ok_iff, ← find?_index]
  exact (Entries.find?_eq_some_iff t.nodup_index).2 he

/-- Going through keys succeeds if something is looked up for each. -/
theorem mapM_keys_eq_ok {γ : Type} {entries : List (BranchKey × β)}
    {look : BranchKey → Except BranchKey γ} {answer : BranchKey × β → γ}
    (h : ∀ e ∈ entries, look e.1 = .ok (answer e)) :
    (Entries.keys entries).mapM look = .ok (entries.map answer) := by
  induction entries with
  | nil => rfl
  | cons e rest ih =>
    have hkeys : Entries.keys (e :: rest) = e.1 :: Entries.keys rest := rfl
    rw [hkeys, List.mapM_cons, h e List.mem_cons_self,
      ih fun e' he' => h e' (List.mem_cons_of_mem e he')]
    rfl

/-- An index that is gone through gives its entries. -/
theorem items_eq (t : IndexedBranches β) : t.items = .ok t.index := by
  have hlook : ∀ e ∈ t.index, (do return (e.1, ← t.lookup e.1)) = .ok (id e) := by
    intro e he
    rw [lookup_of_mem_index he]
    rfl
  rw [items, keys, mapM_keys_eq_ok hlook, List.map_id]

theorem values_eq (t : IndexedBranches β) : t.values = .ok (Entries.values t.index) :=
  mapM_keys_eq_ok fun _ he => lookup_of_mem_index he

/-- Tables are the same if their entries are, whatever the index. -/
theorem same_iff {t u : IndexedBranches Message} : t.same u = true ↔ t.entries = u.entries :=
  Node.sameEntries_iff t.entries u.entries

end IndexedBranches

/-! ## Tables -/

/-- Whether a key is an exact number. -/
def BranchKey.isExact : BranchKey → Bool
  | .name _ => false
  | .exact _ => true

namespace Branches

variable {β : Type}

/-- A table holds what came of some pairs: each key once, in the order in which the keys came first,
with the body that came with it last. -/
structure Collects (t : Branches β) (pairs : List (BranchKey × β)) : Prop where
  nodup : (Entries.keys t.entries).Nodup
  inOrder : (Entries.keys t.entries).Pairwise fun key other =>
    (Entries.keys pairs).idxOf key < (Entries.keys pairs).idxOf other
  mem_iff : ∀ key body, (key, body) ∈ t.entries ↔
    ∃ earlier later, pairs = earlier ++ (key, body) :: later ∧ key ∉ Entries.keys later

/-- Whatever the index of a table is asked, it answers as the entries of the table say. -/
structure AnswersByEntries (t : Branches β) : Prop where
  lookup_iff : ∀ key body, t.indexed.lookup key = .ok body ↔ (key, body) ∈ t.entries
  missing_iff : ∀ key missing, t.indexed.lookup key = .error missing ↔
    missing = key ∧ ∀ body, (key, body) ∉ t.entries
  contains_iff : ∀ key, t.indexed.contains key = true ↔ ∃ body, (key, body) ∈ t.entries
  keys_eq : t.indexed.keys = Entries.keys t.entries
  size_eq : t.indexed.size = t.entries.length
  values_eq : t.indexed.values = .ok (Entries.values t.entries)
  items_eq : t.indexed.items = .ok t.entries

/-- A table answers as its index does. -/
structure AgreesWithIndex (t : Branches β) : Prop where
  find?_eq : ∀ key, t.find? key = t.indexed.get? key
  keys_eq : t.keys = t.indexed.keys
  size_eq : t.size = t.indexed.size
  values_eq : .ok t.values = t.indexed.values

theorem collects_ofPairs (pairs : List (BranchKey × β)) : (ofPairs pairs).Collects pairs where
  nodup := Entries.nodup_keys_ofPairs pairs
  inOrder := by
    rw [ofPairs, Entries.keys_ofPairs]
    exact Entries.pairwise_idxOf_eraseDups _
  mem_iff key body := by
    rw [ofPairs, ← Entries.find?_eq_some_iff (Entries.nodup_keys_ofPairs pairs),
      Entries.find?_ofPairs, Entries.find?_eq_some_iff_append]

theorem mem_keys_iff {entries : List (BranchKey × β)} {key : BranchKey} :
    key ∈ Entries.keys entries ↔ ∃ body, (key, body) ∈ entries := by
  simp [Entries.keys]

/-- Entries that repeat no key are their own index. -/
theorem index_indexed_of_nodup {t : Branches β} (hn : (Entries.keys t.entries).Nodup) :
    t.indexed.index = t.entries :=
  Entries.ofPairs_eq_self hn

theorem answersByEntries_of_nodup {t : Branches β} (hn : (Entries.keys t.entries).Nodup) :
    t.AnswersByEntries where
  lookup_iff key body :=
    IndexedBranches.lookup_eq_ok_iff.trans (Entries.find?_eq_some_iff hn)
  missing_iff key missing := by
    rw [IndexedBranches.lookup_eq_error_iff, Entries.find?_eq_none_iff, mem_keys_iff, not_exists]
    rfl
  contains_iff key := by
    rw [IndexedBranches.contains_eq, ← mem_keys_iff, Option.isSome_iff_ne_none, ne_eq,
      Entries.find?_eq_none_iff, not_not]
    rfl
  keys_eq := congrArg Entries.keys (index_indexed_of_nodup hn)
  size_eq := congrArg List.length (index_indexed_of_nodup hn)
  values_eq := by rw [IndexedBranches.values_eq, index_indexed_of_nodup hn]
  items_eq := by rw [IndexedBranches.items_eq, index_indexed_of_nodup hn]

theorem agreesWithIndex (t : Branches β) : t.AgreesWithIndex where
  find?_eq key := (t.indexed.get?_eq key).symm
  keys_eq := rfl
  size_eq := by simp [size, keys, Entries.keys, IndexedBranches.size, indexed]
  values_eq := t.indexed.values_eq.symm

/-- Tables that repeat no key are the same if they have the same keys in the same order, and look
up the same bodies for them. -/
theorem same_indexed_iff {t u : Branches Message} (ht : (Entries.keys t.entries).Nodup)
    (hu : (Entries.keys u.entries).Nodup) :
    t.indexed.same u.indexed = true ↔
      t.indexed.keys = u.indexed.keys ∧
      ∀ key ∈ t.indexed.keys, ∃ body other, t.indexed.lookup key = .ok body ∧
        u.indexed.lookup key = .ok other ∧ Node.sameNodes body other = true := by
  have hfinds : ∀ key body other, (t.indexed.lookup key = .ok body ∧
        u.indexed.lookup key = .ok other ∧ Node.sameNodes body other = true) ↔
      Entries.find? key t.entries = some body ∧ Entries.find? key u.entries = some other ∧
        body = other := by
    intro key body other
    rw [IndexedBranches.lookup_eq_ok_iff, IndexedBranches.lookup_eq_ok_iff, Node.sameNodes_iff]
    rfl
  have hentries : t.indexed.same u.indexed = true ↔ t.entries = u.entries :=
    IndexedBranches.same_iff
  simp only [hentries, hfinds, (answersByEntries_of_nodup ht).keys_eq,
    (answersByEntries_of_nodup hu).keys_eq]
  constructor
  · intro heq
    refine ⟨by rw [heq], ?_⟩
    intro key hkey
    obtain ⟨body, hbody⟩ := mem_keys_iff.1 hkey
    have hfind := (Entries.find?_eq_some_iff ht).2 hbody
    exact ⟨body, body, hfind, heq ▸ hfind, rfl⟩
  · rintro ⟨hkeys, hbodies⟩
    refine Entries.eq_of_keys_of_find? ht hkeys ?_
    intro key hkey
    obtain ⟨body, other, hbody, hother, rfl⟩ := hbodies key hkey
    rw [hbody, hother]

/-- The table of some pairs looks a key up among the pairs with keys of its kind. -/
theorem lookup_ofPairs_filter (pairs : List (BranchKey × β)) (key : BranchKey) :
    (ofPairs (pairs.filter fun e => e.1.isExact == key.isExact)).indexed.lookup key =
      (ofPairs pairs).indexed.lookup key := by
  refine IndexedBranches.lookup_congr ?_
  have hfilter := Entries.find?_filter (p := fun k => k.isExact == key.isExact) (beq_self_eq_true _)
    pairs
  exact (Entries.find?_ofPairs _ key).trans (hfilter.trans (Entries.find?_ofPairs pairs key).symm)

/-- The table of some pairs is an ordered map.  It holds each key once, in the order in which the
keys came first, with the body that came with it last; whatever it or its index is asked, the answer
is that of its entries.  Further pairs may be set in the table of the first ones.  Two tables are
the same exactly if they have the same keys in the same order and look up the same bodies.  Names
and exact numbers are keys apart: a key is looked up as if there were no keys of the other kind. -/
theorem ofPairs_orderedMap (pairs others : List (BranchKey × Message)) :
    (ofPairs pairs).Collects pairs ∧
    (ofPairs pairs).AnswersByEntries ∧
    (ofPairs pairs).AgreesWithIndex ∧
    ofPairs (pairs ++ others) = ofPairs ((ofPairs pairs).entries ++ others) ∧
    ((ofPairs pairs).indexed.same (ofPairs others).indexed = true ↔ ofPairs pairs = ofPairs others) ∧
    ((ofPairs pairs).indexed.same (ofPairs others).indexed = true ↔
      (ofPairs pairs).indexed.keys = (ofPairs others).indexed.keys ∧
      ∀ key ∈ (ofPairs pairs).indexed.keys, ∃ body other,
        (ofPairs pairs).indexed.lookup key = .ok body ∧
        (ofPairs others).indexed.lookup key = .ok other ∧ Node.sameNodes body other = true) ∧
    ∀ key, (ofPairs (pairs.filter fun e => e.1.isExact == key.isExact)).indexed.lookup key =
      (ofPairs pairs).indexed.lookup key := by
  have hpairs := Entries.nodup_keys_ofPairs pairs
  have hothers := Entries.nodup_keys_ofPairs others
  have happend : ofPairs (pairs ++ others) = ofPairs ((ofPairs pairs).entries ++ others) :=
    congrArg Branches.mk (Entries.ofPairs_append pairs others)
  have hsame : (ofPairs pairs).indexed.same (ofPairs others).indexed = true ↔
      ofPairs pairs = ofPairs others := by
    rw [IndexedBranches.same_iff, Branches.mk.injEq]
    rfl
  exact ⟨collects_ofPairs pairs, answersByEntries_of_nodup hpairs, agreesWithIndex _, happend, hsame,
    same_indexed_iff hpairs hothers, lookup_ofPairs_filter pairs⟩

/-- A name that is written like an exact number, and the number itself, given again. -/
example :
    ofPairs [(.exact 0, 'a'), (.name "=0", 'b'), (.name "other", 'c'), (.exact 0, 'd')] =
      ⟨[(.exact 0, 'd'), (.name "=0", 'b'), (.name "other", 'c')]⟩ := by decide

end Branches

end Phrasebook
