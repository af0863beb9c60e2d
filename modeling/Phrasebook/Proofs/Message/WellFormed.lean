/-
  Well-formed messages.

  Every list of nodes is a message, but not every message has a pattern.  A
  message that has one is normal at every depth; its names and styles are
  words, its numbers have no more digits than are read, and its tables hold at
  least one branch and no key twice.  Its arguments are nested no deeper than
  there is room for.
-/
import Phrasebook.Number.Fault
import Phrasebook.Pattern.Token
import Phrasebook.Proofs.Message.Atoms

set_option autoImplicit false

namespace Phrasebook

/-! ## Names, numbers and keys -/

/-- A word: at least one ASCII letter, digit or underscore, and nothing else. -/
def IsWord (s : String) : Prop := s ≠ "" ∧ ∀ c ∈ s.toList, Pattern.isIdentifierChar c = true

/-- A number with no more decimal digits than are read. -/
def IsShort (n : Int) : Prop := (Nat.toDigits 10 n.natAbs).length ≤ Number.maxIntegerDigits

theorem isShort_zero : IsShort 0 := by
  rw [IsShort, Int.natAbs_zero, Nat.toDigits_zero]
  decide

/-- A key that a pattern can write. -/
def BranchKey.WellFormed : BranchKey → Prop
  | .name s => IsWord s
  | .exact n => IsShort n

/-- A table with at least one branch, whose keys are written by patterns and differ. -/
structure ProperKeys (entries : List (BranchKey × Message)) : Prop where
  ne_nil : entries ≠ []
  nodup : (Entries.keys entries).Nodup
  wellFormed : ∀ key ∈ Entries.keys entries, key.WellFormed

/-! ## Nodes and messages -/

/-- A node that may stand where `room` more arguments may be open at once: no argument lies inside
`room` or more others. -/
inductive Node.WellFormed : Nat → Node → Prop where
  | text (room : Nat) (value : String) : WellFormed room (.text value)
  | argument (room : Nat) {name : String} (word : IsWord name) :
    WellFormed (room + 1) (.argument name)
  | formatted (room : Nat) (kind : FormatKind) {name : String} {style : Option String}
    (word : IsWord name) (styleWord : ∀ s ∈ style, IsWord s) :
    WellFormed (room + 1) (.formatted kind name style)
  | plural {room : Nat} (kind : PluralKind) {name : String} {offset : Int}
    {entries : List (BranchKey × Message)} (word : IsWord name) (short : IsShort offset)
    (proper : ProperKeys entries) (normal : ∀ e ∈ entries, Normal e.2)
    (bodies : ∀ e ∈ entries, ∀ node ∈ e.2, WellFormed room node) :
    WellFormed (room + 1) (.plural kind name offset ⟨entries⟩)
  | select {room : Nat} {name : String} {entries : List (BranchKey × Message)}
    (word : IsWord name) (proper : ProperKeys entries) (normal : ∀ e ∈ entries, Normal e.2)
    (bodies : ∀ e ∈ entries, ∀ node ∈ e.2, WellFormed room node) :
    WellFormed (room + 1) (.select name ⟨entries⟩)

/-- A message of well-formed nodes, without empty texts and without neighbouring texts. -/
structure WellFormed (room : Nat) (nodes : Message) : Prop where
  normal : Normal nodes
  nodes : ∀ node ∈ nodes, node.WellFormed room

end Phrasebook
