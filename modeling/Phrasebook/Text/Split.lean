/-
  Splitting texts and replacing parts of them.
-/
set_option autoImplicit false

namespace Phrasebook.Text

/-- The pieces of a text between the occurrences of a character: one piece more than the text has
occurrences. -/
def splitOn (separator : Char) : List Char → List (List Char)
  | [] => [[]]
  | c :: rest =>
    if c = separator then [] :: splitOn separator rest
    else
      match splitOn separator rest with
      | [] => [[c]]
      | piece :: others => (c :: piece) :: others

theorem splitOn_ne_nil (separator : Char) (s : List Char) : splitOn separator s ≠ [] := by
  cases s with
  | nil => simp [splitOn]
  | cons c rest =>
    simp only [splitOn]
    split
    · simp
    · split <;> simp

/-- The pieces of a text with the character between them again are the text. -/
theorem intercalate_splitOn (separator : Char) (s : List Char) :
    [separator].intercalate (splitOn separator s) = s := by
  induction s with
  | nil => rfl
  | cons c rest ih =>
    have hne := splitOn_ne_nil separator rest
    simp only [splitOn]
    split
    · rename_i h
      cases hp : splitOn separator rest with
      | nil => exact absurd hp hne
      | cons piece others =>
        rw [hp] at ih
        simp [List.intercalate, List.intersperse] at ih ⊢
        exact ⟨h.symm, ih⟩
    · cases hp : splitOn separator rest with
      | nil => exact absurd hp hne
      | cons piece others =>
        rw [hp] at ih
        cases others with
        | nil => simp_all [List.intercalate, List.intersperse]
        | cons q qs => simp_all [List.intercalate, List.intersperse]

/-- Passes over a text of at least one character at the front of another, or finds where it stands
next; what stands in between is kept. -/
def replaceFrom (old new : List Char) : Nat → List Char → List Char
  | 0, s => s
  | n + 1, s =>
    match old.isPrefixOf? s with
    | some rest => new ++ replaceFrom old new n rest
    | none =>
      match s with
      | [] => []
      | c :: rest => c :: replaceFrom old new n rest

/-- Puts one text in the place of every occurrence of another.  Occurrences are found from the
left and do not overlap.  The empty text occurs in front of every character and at the end. -/
def replace (old new s : List Char) : List Char :=
  if old.isEmpty then s.foldr (fun c rest => new ++ c :: rest) new
  else replaceFrom old new s.length s

end Phrasebook.Text
