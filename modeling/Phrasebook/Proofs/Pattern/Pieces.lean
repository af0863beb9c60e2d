/-
  Derivations one behind the other.

  What a derivation spells and what it stands for, how deep it is and whether it
  fits are all told piece by piece, so they follow the pieces of two
  derivations in a row.  Only the fit of the first looks at the second, and only
  at its first character.
-/
import Phrasebook.Proofs.Pattern.Derivation

set_option autoImplicit false

namespace Phrasebook.Pattern

/-! ## Messages -/

section Messages

variable (pieces others : List Piece)

theorem charsOf_append : charsOf (pieces ++ others) = charsOf pieces ++ charsOf others := by
  induction pieces with
  | nil => rfl
  | cons piece rest ih => rw [List.cons_append, charsOf, charsOf, ih, List.append_assoc]

theorem atomsOf_append : atomsOf (pieces ++ others) = atomsOf pieces ++ atomsOf others := by
  induction pieces with
  | nil => rfl
  | cons piece rest ih => rw [List.cons_append, atomsOf, atomsOf, ih, List.append_assoc]

theorem depthOf_append : depthOf (pieces ++ others) = max (depthOf pieces) (depthOf others) := by
  induction pieces with
  | nil => exact (Nat.zero_max _).symm
  | cons piece rest ih => rw [List.cons_append, depthOf, depthOf, ih, Nat.max_assoc]

theorem fitAll_append (next : Option Char) :
    FitAll next (pieces ++ others) ↔
      FitAll ((charsOf others).head?.or next) pieces ∧ FitAll next others := by
  induction pieces with
  | nil => exact ⟨fun h => ⟨trivial, h⟩, And.right⟩
  | cons piece rest ih =>
    rw [List.cons_append, FitAll, FitAll, ih, charsOf_append, List.head?_append, Option.or_assoc,
      and_assoc]

end Messages

/-- Pieces that fit a brace fit everything: a brace behind an apostrophe would be quoted, and a
quotation that is not closed would go on. -/
theorem FitAll.of_quotable {c : Char} (hc : isQuotable c = true) {pieces : List Piece}
    (h : FitAll (some c) pieces) (next : Option Char) : FitAll next pieces := by
  induction pieces with
  | nil => trivial
  | cons piece rest ih =>
    obtain ⟨hpiece, hrest⟩ := h
    refine ⟨?_, ih hrest⟩
    cases hhead : (charsOf rest).head? with
    | some d =>
      rw [hhead] at hpiece
      exact hpiece
    | none =>
      rw [hhead, Option.none_or] at hpiece
      cases piece with
      | lone =>
        have hquotable := (hpiece c rfl).2
        rw [hc] at hquotable
        cases hquotable
      | quoted span closed =>
        intro hopen
        cases hpiece hopen
      | argument source => exact hpiece
      | _ => trivial

theorem Piece.chars_ne_nil (piece : Piece) : piece.chars ≠ [] := by
  cases piece with
  | argument source => cases source <;> exact List.cons_ne_nil _ _
  | _ => exact List.cons_ne_nil _ _

/-- A derivation that ends with the text can be made to end in front of a brace: a quotation is
closed, and an apostrophe in the end is doubled. -/
theorem exists_closed {pieces : List Piece} (h : FitAll none pieces) :
    ∃ closed w, charsOf closed = charsOf pieces ++ w ∧ FitAll (some '}') closed ∧
      depthOf closed = depthOf pieces := by
  induction pieces with
  | nil => exact ⟨[], [], rfl, trivial, rfl⟩
  | cons piece rest ih =>
    obtain ⟨hpiece, hrest⟩ := h
    cases rest with
    | nil =>
      -- only the last piece is in touch with what follows
      cases piece with
      | lone => exact ⟨[.doubled], ['\''], rfl, ⟨trivial, trivial⟩, rfl⟩
      | quoted span closed =>
        cases closed with
        | true => exact ⟨[.quoted span true], [], by simp, ⟨nofun, trivial⟩, rfl⟩
        | false =>
          exact ⟨[.quoted span true], ['\''], by simp [charsOf, Piece.chars],
            ⟨nofun, trivial⟩, rfl⟩
      | argument source => exact ⟨[.argument source], [], by simp, ⟨hpiece, trivial⟩, rfl⟩
      | _ => exact ⟨[_], [], (List.append_nil _).symm, ⟨trivial, trivial⟩, rfl⟩
    | cons next more =>
      obtain ⟨closed, w, hspell, hfit, hdepth⟩ := ih hrest
      obtain ⟨c, t, hcons⟩ : ∃ c t, charsOf (next :: more) = c :: t :=
        List.exists_cons_of_ne_nil fun hnil => next.chars_ne_nil (List.append_eq_nil_iff.1 hnil).1
      refine ⟨piece :: closed, w, ?_, ⟨?_, hfit⟩, ?_⟩
      · rw [charsOf, hspell, charsOf.eq_def (piece :: next :: more), List.append_assoc]
      · rw [hspell, hcons]
        rw [hcons] at hpiece
        exact hpiece
      · rw [depthOf, hdepth, depthOf.eq_def (piece :: next :: more)]

/-! ## Branches -/

section Branches

variable (entries others : List (BranchHead × List Piece))

theorem branchChars_append :
    branchChars (entries ++ others) = branchChars entries ++ branchChars others := by
  induction entries with
  | nil => rfl
  | cons entry rest ih =>
    obtain ⟨head, body⟩ := entry
    simp [branchChars, ih]

theorem branchPairs_append :
    branchPairs (entries ++ others) = branchPairs entries ++ branchPairs others := by
  induction entries with
  | nil => rfl
  | cons entry rest ih =>
    obtain ⟨head, body⟩ := entry
    simp [branchPairs, ih]

theorem branchDepth_append :
    branchDepth (entries ++ others) = max (branchDepth entries) (branchDepth others) := by
  induction entries with
  | nil => exact (Nat.zero_max _).symm
  | cons entry rest ih =>
    obtain ⟨head, body⟩ := entry
    rw [List.cons_append, branchDepth, branchDepth, ih, Nat.max_assoc]

theorem branchesFit_append :
    BranchesFit (entries ++ others) ↔ BranchesFit entries ∧ BranchesFit others := by
  induction entries with
  | nil => exact ⟨fun h => ⟨trivial, h⟩, And.right⟩
  | cons entry rest ih =>
    obtain ⟨head, body⟩ := entry
    rw [List.cons_append, BranchesFit, BranchesFit, ih, and_assoc]

end Branches

end Phrasebook.Pattern
