/-
  Tables of branches in use: a table with an index.

  A table that is asked for its branches keeps an index beside its entries.  The
  index is made together with the table, by setting the entries one after the
  other, and is never changed.  Keys are looked up, gone through and counted in
  it; bodies are gone through by looking up one key after the other.  Only
  whether two tables are the same is told by their entries.

  Looking up a key that is not there is an error that names the key.
-/
import Phrasebook.Message

set_option autoImplicit false

namespace Phrasebook

/-- A table of branches with the index that answers for it. -/
structure IndexedBranches (β : Type) where
  entries : List (BranchKey × β)
  index : List (BranchKey × β)
  index_eq : index = Entries.ofPairs entries

/-- A table with its index. -/
def Branches.indexed {β : Type} (b : Branches β) : IndexedBranches β :=
  ⟨b.entries, Entries.ofPairs b.entries, rfl⟩

namespace IndexedBranches

variable {β : Type}

/-- The body of a key; the key itself if it is not there. -/
def lookup (t : IndexedBranches β) (key : BranchKey) : Except BranchKey β :=
  match Entries.find? key t.index with
  | some body => .ok body
  | none => .error key

/-- Whether a key can be looked up. -/
def contains (t : IndexedBranches β) (key : BranchKey) : Bool :=
  match t.lookup key with
  | .ok _ => true
  | .error _ => false

/-- The body of a key, if it can be looked up. -/
def get? (t : IndexedBranches β) (key : BranchKey) : Option β :=
  match t.lookup key with
  | .ok body => some body
  | .error _ => none

/-- The keys in order. -/
def keys (t : IndexedBranches β) : List BranchKey := Entries.keys t.index

/-- The number of keys. -/
def size (t : IndexedBranches β) : Nat := t.index.length

/-- The keys in order, each with the body that is looked up for it. -/
def items (t : IndexedBranches β) : Except BranchKey (List (BranchKey × β)) :=
  t.keys.mapM fun key => do return (key, ← t.lookup key)

/-- The bodies that are looked up for the keys in order. -/
def values (t : IndexedBranches β) : Except BranchKey (List β) := t.keys.mapM t.lookup

/-- Whether two tables have the same entries in the same order. -/
def same (t u : IndexedBranches Message) : Bool := Node.sameEntries t.entries u.entries

end IndexedBranches

end Phrasebook
