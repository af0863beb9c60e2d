/-
  Entries: tables as lists of keys with values, in the order of insertion.

  A key that is set again keeps its place and takes the new value.  Looking up a
  key finds the value set last, also in a list that holds a key twice; `ofPairs`
  is the table that results when all pairs of a list are set in order.
-/
set_option autoImplicit false

namespace Phrasebook.Entries

variable {κ ν : Type}

/-- The keys of a table in order. -/
def keys (entries : List (κ × ν)) : List κ := entries.map Prod.fst

/-- The values of a table in order. -/
def values (entries : List (κ × ν)) : List ν := entries.map Prod.snd

variable [DecidableEq κ]

/-- The value set last for a key. -/
def find? (key : κ) : List (κ × ν) → Option ν
  | [] => none
  | (k, v) :: rest =>
    match find? key rest with
    | some w => some w
    | none => if k = key then some v else none

/-- Sets a key: in its place if it is there, else at the end. -/
def insert (key : κ) (value : ν) : List (κ × ν) → List (κ × ν)
  | [] => [(key, value)]
  | (k, v) :: rest => if k = key then (k, value) :: rest else (k, v) :: insert key value rest

/-- Sets every pair of a list, in order. -/
def insertAll (entries pairs : List (κ × ν)) : List (κ × ν) :=
  pairs.foldl (fun table pair => insert pair.1 pair.2 table) entries

/-- The table of a list of pairs. -/
def ofPairs (pairs : List (κ × ν)) : List (κ × ν) := insertAll [] pairs

/-! ## What the operations do to the view `find?` -/

@[simp] theorem find?_nil (key : κ) : find? key ([] : List (κ × ν)) = none := rfl

theorem find?_cons_self_of_not_mem {key : κ} {v : ν} {rest : List (κ × ν)}
    (h : find? key rest = none) : find? key ((key, v) :: rest) = some v := by
  simp [find?, h]

/-- A function that goes on up to the last entry with a key is told by the value that is found. -/
theorem eq_of_find?_eq_some {α : Type} {key : κ} {go : List (κ × ν) → α} {use : ν → α}
    (hcons : ∀ k v rest, go ((k, v) :: rest) =
      if k = key ∧ (find? key rest).isNone then use v else go rest)
    {entries : List (κ × ν)} {value : ν} (h : find? key entries = some value) :
    go entries = use value := by
  induction entries with
  | nil => cases h
  | cons e rest ih =>
    obtain ⟨k, v⟩ := e
    rw [find?] at h
    rw [hcons]
    cases hr : find? key rest with
    | some w =>
      rw [hr] at h
      simp only [Option.isNone_some, Bool.false_eq_true, and_false, ↓reduceIte]
      exact ih (hr.trans h)
    | none =>
      rw [hr] at h
      by_cases hk : k = key
      · rw [if_pos hk] at h
        cases h
        simp [hk]
      · rw [if_neg hk] at h
        cases h

theorem find?_insert_self (key : κ) (value : ν) (entries : List (κ × ν))
    (h : (keys entries).Nodup) : find? key (insert key value entries) = some value := by
  induction entries with
  | nil => simp [insert, find?]
  | cons e rest ih =>
    obtain ⟨k, v⟩ := e
    have hn : k ∉ keys rest ∧ (keys rest).Nodup := by simpa [keys] using h
    by_cases hk : k = key
    · subst hk
      have hf : find? k rest = none := by
        clear ih h
        obtain ⟨hm, -⟩ := hn
        induction rest with
        | nil => rfl
        | cons e' rest' ih' =>
          obtain ⟨k', v'⟩ := e'
          simp only [keys, List.map_cons, List.mem_cons, not_or] at hm
          simp [find?, ih' hm.2, Ne.symm hm.1]
      simp [insert, find?, hf]
    · simp [insert, hk, find?, ih hn.2]

theorem find?_insert_of_ne {key other : κ} (hne : other ≠ key) (value : ν)
    (entries : List (κ × ν)) : find? other (insert key value entries) = find? other entries := by
  induction entries with
  | nil => simp [insert, find?, Ne.symm hne]
  | cons e rest ih =>
    obtain ⟨k, v⟩ := e
    by_cases hk : k = key
    · subst hk; simp [insert, find?, Ne.symm hne]
    · simp [insert, hk, find?, ih]

/-- Setting a key adds it at the end, or leaves the keys as they are. -/
theorem keys_insert (key : κ) (value : ν) (entries : List (κ × ν)) :
    keys (insert key value entries) =
      if key ∈ keys entries then keys entries else keys entries ++ [key] := by
  induction entries with
  | nil => simp [insert, keys]
  | cons e rest ih =>
    obtain ⟨k, v⟩ := e
    by_cases hk : k = key
    · subst hk; simp [insert, keys]
    · have hk' : ¬ key = k := fun h => hk h.symm
      simp only [keys] at ih
      simp only [insert, hk, ↓reduceIte, keys, List.map_cons, List.mem_cons, hk', false_or, ih]
      by_cases hm : key ∈ List.map Prod.fst rest <;> simp [hm]

end Phrasebook.Entries
