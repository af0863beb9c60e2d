/-
  The leaves of nested tables, and the paths under which they are kept.

  A leaf is reached through one key of each table that holds it.  Read in the
  order of the document, each with its keys, the leaves say what a document
  stores (`leafList`); joined by points, the texts of its keys are the path of a
  leaf.  Flattening builds the paths from the outside in, and there the empty
  path stands for the outermost table, so the two agree for keys whose texts are
  not empty (`leaves_eq`).
-/
import Phrasebook.Store

set_option autoImplicit false

namespace Phrasebook

/-! ## Documents -/

/-- The text of a key. -/
def Value.name (key : Value) : String := key.toText.toOption.getD ""

/-- Whether a key can be part of a path: it has a text, and the text is not empty. -/
def Value.Names (key : Value) : Prop := ∃ name, key.toText = .ok name ∧ name ≠ ""

mutual

/-- Whether all keys at and below a value can be parts of paths. -/
def Value.Keyed : Value → Prop
  | .table entries => KeyedTable entries
  | _ => True

/-- Whether all keys of a table, at every level, can be parts of paths. -/
def KeyedTable : List (Value × Value) → Prop
  | [] => True
  | (key, v) :: rest => key.Names ∧ v.Keyed ∧ KeyedTable rest

end

/-- A value that is no table, with the keys that lead to it. -/
structure Leaf where
  keys : List Value
  value : Value

namespace Leaf

/-- A leaf seen from the table around the one it was seen from. -/
def under (key : Value) (leaf : Leaf) : Leaf := ⟨key :: leaf.keys, leaf.value⟩

/-- The texts of the keys that lead to a leaf. -/
def names (leaf : Leaf) : List String := leaf.keys.map Value.name

/-- The path of a leaf: the texts of its keys, joined by points. -/
def path (leaf : Leaf) : String := pathSeparator.intercalate leaf.names

end Leaf

mutual

/-- A value itself if it is no table, else the leaves of the table. -/
def Value.leafList : Value → List Leaf
  | .table entries => tableLeaves entries
  | v => [⟨[], v⟩]

/-- The leaves of a table in the order of the document. -/
def tableLeaves : List (Value × Value) → List Leaf
  | [] => []
  | (key, v) :: rest => v.leafList.map (Leaf.under key) ++ tableLeaves rest

end

/-! ## Paths -/

/-- The path of what is reached from the table at a path by some names. -/
def descend (path : String) (names : List String) : String := names.foldl extendPath path

theorem extendPath_of_ne {path : String} (h : path ≠ "") (name : String) :
    extendPath path name = path ++ pathSeparator ++ name := if_neg h

theorem intercalate_append_cons (separator front first : String) (rest : List String) :
    separator.intercalate ((front ++ first) :: rest) =
      front ++ separator.intercalate (first :: rest) := by
  cases rest with
  | nil => simp
  | cons second more => simp [String.intercalate_cons_cons, String.append_assoc]

/-- Behind a path that is not empty every name is set off by a point. -/
theorem descend_of_ne {path : String} (h : path ≠ "") (names : List String) :
    descend path names = pathSeparator.intercalate (path :: names) := by
  induction names generalizing path with
  | nil => exact String.intercalate_singleton.symm
  | cons name rest ih =>
    have hne : path ++ pathSeparator ++ name ≠ "" := by simp [h]
    calc descend path (name :: rest)
        = descend (path ++ pathSeparator ++ name) rest := by
          rw [descend, List.foldl_cons, extendPath_of_ne h, ← descend]
      _ = pathSeparator.intercalate ((path ++ pathSeparator ++ name) :: rest) := ih hne
      _ = pathSeparator.intercalate (path :: name :: rest) := by
          rw [intercalate_append_cons, String.intercalate_cons_cons]

/-- From the outermost table, names that are not empty make the path that joins them. -/
theorem descend_empty {names : List String} (h : ∀ name ∈ names, name ≠ "") :
    descend "" names = pathSeparator.intercalate names := by
  cases names with
  | nil => rfl
  | cons name rest =>
    have hname : extendPath "" name = name := if_pos rfl
    rw [descend, List.foldl_cons, hname]
    exact descend_of_ne (h name List.mem_cons_self) rest

/-! ## Flattening -/

theorem Value.Names.toText_eq {key : Value} (h : key.Names) : key.toText = .ok key.name := by
  obtain ⟨name, hname, -⟩ := h
  rw [Value.name, hname]
  rfl

theorem Value.Names.name_ne {key : Value} (h : key.Names) : key.name ≠ "" := by
  obtain ⟨name, hname, hne⟩ := h
  rw [Value.name, hname]
  exact hne

/-- What is kept of a leaf in the table at a path. -/
def Leaf.entry (path : String) (leaf : Leaf) : String × Value :=
  (descend path leaf.names, leaf.value)

mutual

theorem leavesAt_eq_entries (path : String) : (v : Value) → v.Keyed →
    leavesAt path v = .ok (v.leafList.map (Leaf.entry path))
  | .table entries, h => by
    rw [leavesAt, Value.leafList]
    exact leaves_eq_entries path entries h
  | .null, _ | .bool _, _ | .number _, _ | .text _, _ | .date _, _ | .dateTime _ _, _ | .time _, _
  | .list _, _ => by
    simp [leavesAt, Value.leafList, Leaf.entry, Leaf.names, descend]

/-- Flattening keeps every leaf, in the order of the document. -/
theorem leaves_eq_entries (path : String) : (entries : List (Value × Value)) →
    KeyedTable entries → leaves path entries = .ok ((tableLeaves entries).map (Leaf.entry path))
  | [], _ => by
    rw [leaves, tableLeaves, List.map_nil]
  | (key, v) :: rest, ⟨hkey, hv, hrest⟩ => by
    have hhere := leavesAt_eq_entries (extendPath path key.name) v hv
    have hothers := leaves_eq_entries path rest hrest
    rw [leaves, hkey.toText_eq, tableLeaves, List.map_append, List.map_map]
    simp only [bind, Except.bind, hhere, hothers]
    rfl

end

mutual

theorem names_ne_of_mem_leafList : (v : Value) → v.Keyed → ∀ leaf ∈ v.leafList,
    ∀ name ∈ leaf.names, name ≠ ""
  | .table entries, h => names_ne_of_mem_tableLeaves entries h
  | .null, _ | .bool _, _ | .number _, _ | .text _, _ | .date _, _ | .dateTime _ _, _ | .time _, _
  | .list _, _ => by
    simp [Value.leafList, Leaf.names]

theorem names_ne_of_mem_tableLeaves : (entries : List (Value × Value)) → KeyedTable entries →
    ∀ leaf ∈ tableLeaves entries, ∀ name ∈ leaf.names, name ≠ ""
  | [], _ => nofun
  | (key, v) :: rest, ⟨hkey, hv, hrest⟩ => by
    intro leaf hleaf
    rw [tableLeaves, List.mem_append, List.mem_map] at hleaf
    rcases hleaf with ⟨inner, hinner, rfl⟩ | hleaf
    · intro name hname
      rcases List.mem_cons.1 hname with rfl | hname
      · exact hkey.name_ne
      · exact names_ne_of_mem_leafList v hv inner hinner name hname
    · exact names_ne_of_mem_tableLeaves rest hrest leaf hleaf

end

/-- The leaves of a document by path, in the order of the document. -/
def leafEntries (entries : List (Value × Value)) : List (String × Value) :=
  (tableLeaves entries).map fun leaf => (leaf.path, leaf.value)

theorem leaves_eq {entries : List (Value × Value)} (h : KeyedTable entries) :
    leaves "" entries = .ok (leafEntries entries) := by
  rw [leaves_eq_entries "" entries h, leafEntries]
  congr 1
  refine List.map_congr_left fun leaf hleaf => ?_
  rw [Leaf.entry, descend_empty (names_ne_of_mem_tableLeaves entries h leaf hleaf), Leaf.path]

/-- A document whose keys can be parts of paths can be flattened. -/
theorem flatten_eq {entries : List (Value × Value)} (h : KeyedTable entries) :
    flatten "" entries = .ok (Entries.ofPairs (leafEntries entries)) := by
  rw [flatten, leaves_eq h]
  rfl

end Phrasebook
