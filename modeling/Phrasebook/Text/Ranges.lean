/-
  Character classes given as tables of code point ranges.

  A class of characters is a finite list of closed ranges, first and last code
  point.  `covers` is the membership test, and `covers_iff` is its meaning: some
  range of the table holds the character's code point.
-/
set_option autoImplicit false

namespace Phrasebook.Text

/-- Whether a code point lies in one of the closed ranges of a table. -/
def covers (table : List (Nat × Nat)) (c : Char) : Bool :=
  table.any fun range => range.1 ≤ c.toNat && c.toNat ≤ range.2

theorem covers_iff {table : List (Nat × Nat)} {c : Char} :
    covers table c = true ↔ ∃ range ∈ table, range.1 ≤ c.toNat ∧ c.toNat ≤ range.2 := by
  simp [covers]

end Phrasebook.Text
