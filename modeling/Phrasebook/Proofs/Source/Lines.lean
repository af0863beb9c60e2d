/-
  Lines of a text, and where in them a position stands.

  The lines of a text are its pieces between line feeds.  The text in front of a
  position is some whole lines and the beginning of one more, and whatever comes
  behind the position goes on with that one (`exists_linesBefore`).  The number
  of the whole lines is the number of line feeds, and the beginning is what
  follows the last of them, so the line and the column of a position say how many
  characters are in front of it.
-/
import Mathlib.Algebra.GroupWithZero.Nat
import Mathlib.Data.List.Induction
import Mathlib.Data.List.TakeWhile
import Phrasebook.Source.Position

set_option autoImplicit false

namespace Phrasebook.Source

/-! ## The first line and the rest -/

/-- The first line of a text goes up to the first line feed, and the others are those of the text
behind it. -/
theorem splitOn_newline (s : List Char) :
    s.splitOn '\n' = s.takeWhile (· ≠ '\n') ::
      (if '\n' ∈ s then ((s.dropWhile (· ≠ '\n')).drop 1).splitOn '\n' else []) := by
  induction s with
  | nil => rfl
  | cons c rest ih =>
    rw [List.splitOn_cons_eq_if_modifyHead]
    by_cases hc : c = '\n'
    · subst hc
      simp
    · have hne : ¬ '\n' = c := fun heq => hc heq.symm
      rw [ih]
      simp [hc, hne]

/-- Lines may be counted off from the front. -/
theorem lineText_eq (s : List Char) (n : Nat) : lineText s n = ((s.splitOn '\n')[n]?).getD [] := by
  induction n generalizing s with
  | zero =>
    rw [splitOn_newline]
    rfl
  | succ n ih =>
    have hrest : lineText s (n + 1) = lineText ((s.dropWhile (· ≠ '\n')).drop 1) n := rfl
    rw [hrest, splitOn_newline s, List.getElem?_cons_succ]
    split
    · exact ih _
    · next hnone =>
      have hend : (s.dropWhile (· ≠ '\n')).drop 1 = [] := by
        have hdrop : s.dropWhile (· ≠ '\n') = [] := by
          rw [List.dropWhile_eq_nil_iff]
          intro c hc
          simpa using fun heq : c = '\n' => hnone (heq ▸ hc)
        rw [hdrop, List.drop_nil]
      rw [hend, ih]
      cases n <;> rfl

/-! ## The rest of a line -/

section Rest

variable {s : List Char} {k : Nat}

/-- Behind a character that is no line feed a line goes on with it. -/
theorem takeWhile_drop_of_getElem? {c : Char} (h : s[k]? = some c) (hc : c ≠ '\n') :
    ∃ rest, (s.drop k).takeWhile (· ≠ '\n') = c :: rest := by
  rw [← List.head?_drop] at h
  obtain ⟨rest, hrest⟩ := List.head?_eq_some_iff.1 h
  refine ⟨rest.takeWhile (· ≠ '\n'), ?_⟩
  simp [hrest, hc]

/-- At a line feed, and at the end of a text, a line does not go on. -/
theorem takeWhile_drop_eq_nil (h : s[k]? = none ∨ s[k]? = some '\n') :
    (s.drop k).takeWhile (· ≠ '\n') = [] := by
  rw [← List.head?_drop] at h
  cases hdrop : s.drop k with
  | nil => rfl
  | cons c rest =>
    rw [hdrop] at h
    rcases h with hnone | hnewline
    · cases hnone
    · cases hnewline
      rfl

end Rest

/-! ## Lines in front of a position -/

theorem tailLength_append_singleton (s : List Char) (c : Char) :
    tailLength (s ++ [c]) = if c = '\n' then 0 else tailLength s + 1 := by
  by_cases hc : c = '\n' <;> simp [tailLength, hc]

/-- A text is some whole lines, as many as it has line feeds, and the beginning of one more, which
is what follows its last line feed and goes on in whatever comes behind. -/
theorem exists_linesBefore (front : List Char) :
    ∃ whole start, whole.length = front.count '\n' ∧ start.length = tailLength front ∧
      '\n' ∉ start ∧ front.length = (whole.map fun line => line.length + 1).sum + start.length ∧
      ∀ back, (front ++ back).splitOn '\n' = whole ++ (start ++ back).splitOn '\n' := by
  induction front using List.reverseRecOn with
  | nil => exact ⟨[], [], rfl, rfl, by simp, rfl, fun back => rfl⟩
  | append_singleton front c ih =>
    obtain ⟨whole, start, hwhole, hstart, hfree, hlength, hsplit⟩ := ih
    by_cases hc : c = '\n'
    · subst hc
      refine ⟨whole ++ [start], [], ?_, ?_, by simp, ?_, fun back => ?_⟩
      · simp [hwhole]
      · simp [tailLength_append_singleton]
      · simp [hlength]; omega
      · rw [List.append_assoc, List.singleton_append, hsplit,
          List.splitOn_append_cons_self_of_not_mem hfree, List.append_assoc]
        rfl
    · refine ⟨whole, start ++ [c], ?_, ?_, ?_, ?_, fun back => ?_⟩
      · simp [hwhole, hc]
      · simp [tailLength_append_singleton, hc, hstart]
      · simp [hfree, Ne.symm hc]
      · simp [hlength]; omega
      · rw [List.append_assoc, List.append_assoc, hsplit]

end Phrasebook.Source
