/-
  Messages: the tree that a pattern stands for.

  A message is a list of nodes.  A node is a text, a bare argument, an argument
  with a number, date or time format, or a selector with a table of branches: a
  plural or ordinal number, or a keyword.  Each branch has a key and a message
  of its own.

  A list of nodes that was built by hand may also hold something that is no
  node.  It has no meaning, and rendering it is an error that names its kind.
-/
import Phrasebook.Entries

set_option autoImplicit false

namespace Phrasebook

/-! ## Branches -/

/-- The key of a branch: a category or keyword, or an exact number. -/
inductive BranchKey where
  | name (s : String)
  | exact (n : Int)
  deriving DecidableEq, Repr, Inhabited

namespace BranchKey

/-- A key as a pattern writes it. -/
def text : BranchKey → String
  | .name s => s
  | .exact n => "=" ++ toString n

/-- The key of the branch for everything else. -/
def other : BranchKey := .name "other"

end BranchKey

/-- A table of branches.  Its entries are kept as they were given; of entries with the same key
the last one counts, at the place of the first. -/
structure Branches (β : Type) where
  entries : List (BranchKey × β)
  deriving DecidableEq, Repr, Inhabited

namespace Branches

variable {β : Type}

/-- The table of a list of pairs, with one entry for each key. -/
def ofPairs (pairs : List (BranchKey × β)) : Branches β := ⟨Entries.ofPairs pairs⟩

/-- The body of a key. -/
def find? (b : Branches β) (key : BranchKey) : Option β := Entries.find? key b.entries

/-- The keys in order, each once. -/
def keys (b : Branches β) : List BranchKey := Entries.keys (Entries.ofPairs b.entries)

/-- The bodies in the order of their keys. -/
def values (b : Branches β) : List β := Entries.values (Entries.ofPairs b.entries)

/-- The number of keys. -/
def size (b : Branches β) : Nat := b.keys.length

end Branches

/-! ## Nodes -/

/-- The kinds of value that are written by the rules of a locale. -/
inductive FormatKind where
  | number
  | date
  | time
  deriving DecidableEq, Repr, Inhabited

/-- The keyword of a format. -/
def FormatKind.name : FormatKind → String
  | .number => "number"
  | .date => "date"
  | .time => "time"

/-- Every format. -/
def FormatKind.all : List FormatKind := [.number, .date, .time]

/-- The format with a keyword. -/
def FormatKind.ofName? (s : String) : Option FormatKind := FormatKind.all.find? (·.name == s)

/-- The two ways to sort numbers into categories: by how many, and by which in a row. -/
inductive PluralKind where
  | cardinal
  | ordinal
  deriving DecidableEq, Repr, Inhabited

/-- The keyword of a plural selector. -/
def PluralKind.name : PluralKind → String
  | .cardinal => "plural"
  | .ordinal => "selectordinal"

/-- The keyword of a selector that compares texts. -/
def selectName : String := "select"

/-- A part of a message. -/
inductive Node where
  | text (value : String)
  | argument (name : String)
  | formatted (kind : FormatKind) (name : String) (style : Option String)
  | plural (kind : PluralKind) (name : String) (offset : Int) (branches : Branches (List Node))
  | select (name : String) (branches : Branches (List Node))
  /-- something that is no node, known by the name of its kind -/
  | foreign (kindName : String)
  deriving Repr, Inhabited

/-- A message: the nodes of a pattern or of the body of a branch. -/
abbrev Message : Type := List Node

/-! ## Equality -/

namespace Node

mutual

/-- Whether two nodes are the same. -/
def same : Node → Node → Bool
  | .text a, .text b => a == b
  | .argument a, .argument b => a == b
  | .formatted k n s, .formatted k' n' s' => k == k' && n == n' && s == s'
  | .plural k n o ⟨es⟩, .plural k' n' o' ⟨es'⟩ =>
    k == k' && n == n' && o == o' && sameEntries es es'
  | .select n ⟨es⟩, .select n' ⟨es'⟩ => n == n' && sameEntries es es'
  | .foreign a, .foreign b => a == b
  | _, _ => false

/-- Whether two messages are the same. -/
def sameNodes : List Node → List Node → Bool
  | [], [] => true
  | a :: as, b :: bs => same a b && sameNodes as bs
  | _, _ => false

/-- Whether two tables of branches are the same, entry for entry. -/
def sameEntries : List (BranchKey × List Node) → List (BranchKey × List Node) → Bool
  | [], [] => true
  | (k, body) :: es, (k', body') :: es' => k == k' && sameNodes body body' && sameEntries es es'
  | _, _ => false

end

mutual

theorem same_iff : (a b : Node) → (same a b = true ↔ a = b)
  | .text a, b => by cases b <;> simp [same]
  | .argument a, b => by cases b <;> simp [same]
  | .formatted k n s, b => by cases b <;> simp [same, and_assoc]
  | .plural k n o ⟨es⟩, b => by
    cases b with
    | plural k' n' o' bs =>
      obtain ⟨es'⟩ := bs
      simp [same, sameEntries_iff es es', and_assoc]
    | _ => simp [same]
  | .select n ⟨es⟩, b => by
    cases b with
    | select n' bs =>
      obtain ⟨es'⟩ := bs
      simp [same, sameEntries_iff es es']
    | _ => simp [same]
  | .foreign a, b => by cases b <;> simp [same]

theorem sameNodes_iff : (as bs : List Node) → (sameNodes as bs = true ↔ as = bs)
  | [], bs => by cases bs <;> simp [sameNodes]
  | a :: as, bs => by
    cases bs with
    | nil => simp [sameNodes]
    | cons b bs => simp [sameNodes, same_iff a b, sameNodes_iff as bs]

theorem sameEntries_iff : (es es' : List (BranchKey × List Node)) →
    (sameEntries es es' = true ↔ es = es')
  | [], es' => by cases es' <;> simp [sameEntries]
  | (k, body) :: es, es' => by
    cases es' with
    | nil => simp [sameEntries]
    | cons e' es' =>
      obtain ⟨k', body'⟩ := e'
      simp [sameEntries, sameNodes_iff body body', sameEntries_iff es es']

end

instance : DecidableEq Node := fun a b => decidable_of_iff _ (same_iff a b)

end Node

end Phrasebook
