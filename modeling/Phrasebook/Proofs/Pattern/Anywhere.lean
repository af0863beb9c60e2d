/-
  An argument reads the same wherever it stands.

  What is read of an argument is spelled by a derivation, and a derivation is
  read in front of any text.  So an argument is read exactly if a derivation that
  fits into the room of its context spells it (`Walk.argumentIn_eq_ok_iff`):
  neither what stands in front of it nor what stands behind it takes part.

  For the same reason no argument begins another one
  (`ArgumentSource.chars_eq_of_prefix`).
-/
import Phrasebook.Proofs.Pattern.Context

set_option autoImplicit false

namespace Phrasebook.Pattern

open Phrasebook.Source

theorem soundArgument_bodyWithin (limit : Int) (room : Nat) :
    SoundArgument limit room (bodyWithin limit room) := by
  cases room with
  | zero =>
    intro s node rest h
    cases h
  | succ room => exact argument_sound limit (message_sound limit room true)

/-- No argument that is derived begins another one: it would be read in front of what is left of
the other, which is read to its end. -/
theorem ArgumentSource.chars_eq_of_prefix {a b : ArgumentSource} (ha : a.Fits) (hb : b.Fits)
    (h : a.chars <+: b.chars) : a.chars = b.chars := by
  obtain ⟨rest, hrest⟩ := h
  have hcomplete := completeArgument_bodyWithin 0 (max a.depth b.depth)
  have hread := hcomplete a rest ha (Nat.le_max_left _ _)
  have hread' := hcomplete b [] hb (Nat.le_max_right _ _)
  rw [hrest, ← List.append_nil b.chars, hread', Except.ok.injEq, Prod.mk.injEq] at hread
  rw [← hrest, ← hread.2, List.append_nil]

namespace Walk

/-- From a brace up to a position an argument is read in a context exactly if what stands there
derives it, with no more arguments inside one another than fit into the context. -/
theorem argumentIn_eq_ok_iff {ctx : Context} {u v w : List Char} {node : Node}
    (hopen : v.head? = some '{') :
    argumentIn ctx ⟨u ++ v ++ w, u.length⟩ =
        .ok (node, ⟨u ++ v ++ w, (u.length + v.length : Nat)⟩) ↔
      ∃ source : ArgumentSource, source.chars = v ∧ source.Fits ∧ source.depth ≤ ctx.room ∧
        source.node = node := by
  have hwalk := argumentWithin_cursorAt (Nat.le_refl ctx.room) (List.suffix_append u (v ++ w))
  rw [cursorAt_append, ← List.append_assoc] at hwalk
  rw [argumentIn, hwalk]
  constructor
  · intro h
    obtain ⟨t, rfl⟩ := List.head?_eq_some_iff.1 hopen
    cases hread : Pattern.argument ctx.limit (Pattern.bodyWithin ctx.limit ctx.room)
        ('{' :: t ++ w) with
    | error fault =>
      rw [hread] at h
      cases h
    | ok r =>
      obtain ⟨found, rest⟩ := r
      obtain ⟨source, hspell, hfit, hdepth, rfl⟩ := soundArgument_bodyWithin _ _ _ _ _ hread
      rw [hread, tell_ok, placed, cursorAt, Except.ok.injEq, Prod.mk.injEq, Cursor.mk.injEq] at h
      obtain ⟨rfl, -, hstop⟩ := h
      -- the position tells how much is left, so what was read is what stands in front of it
      have hlen := congrArg List.length hspell
      simp only [List.length_append, List.length_cons] at hlen hstop
      have hrest : rest.length = w.length := by omega
      exact ⟨source, (List.append_inj' hspell hrest.symm).1.symm, hfit, hdepth, rfl⟩
  · rintro ⟨source, rfl, hfit, hdepth, rfl⟩
    rw [completeArgument_bodyWithin ctx.limit ctx.room source w hfit hdepth, tell_ok, placed,
      ← List.length_append, ← cursorAt_append]

/-- The text of an argument: what is read as one, in some context and at some place of a text. -/
def IsArgument (v : List Char) : Prop :=
  v.head? = some '{' ∧ ∃ ctx u w node, argumentIn ctx ⟨u ++ v ++ w, u.length⟩ =
    .ok (node, ⟨u ++ v ++ w, (u.length + v.length : Nat)⟩)

/-- What is read as an argument somewhere is read as the same argument everywhere, in the same
context; and the text of an argument neither begins the text of another one nor is begun by
it. -/
theorem argument_read_anywhere {ctx : Context} {u v w : List Char} {node : Node}
    (hopen : v.head? = some '{')
    (h : argumentIn ctx ⟨u ++ v ++ w, u.length⟩ =
      .ok (node, ⟨u ++ v ++ w, (u.length + v.length : Nat)⟩)) :
    (∀ u' w', argumentIn ctx ⟨u' ++ v ++ w', u'.length⟩ =
      .ok (node, ⟨u' ++ v ++ w', (u'.length + v.length : Nat)⟩)) ∧
    ∀ v', IsArgument v' → v <+: v' ∨ v' <+: v → v = v' := by
  have hsource := (argumentIn_eq_ok_iff hopen).1 h
  refine ⟨fun u' w' => (argumentIn_eq_ok_iff hopen).2 hsource, ?_⟩
  rintro v' ⟨hopen', ctx', u', w', node', h'⟩ hprefix
  obtain ⟨a, rfl, ha, -, -⟩ := hsource
  obtain ⟨b, rfl, hb, -, -⟩ := (argumentIn_eq_ok_iff hopen').1 h'
  rcases hprefix with h | h
  · exact ArgumentSource.chars_eq_of_prefix ha hb h
  · exact (ArgumentSource.chars_eq_of_prefix hb ha h).symm

/-- Behind an apostrophe and in front of a brace a select argument is the one that it is on its
own. -/
theorem argument_read_behind_apostrophe :
    argumentIn ⟨2, 1⟩ ⟨"It's ".toList ++ "\x7bg, select, a \x7b'\x7d'\x7d b \x7b\x7d\x7d".toList ++
        "\x7d".toList, 5⟩ =
      .ok (.select "g" ⟨[(.name "a", [.text "\x7d"]), (.name "b", [])]⟩,
        ⟨"It's ".toList ++ "\x7bg, select, a \x7b'\x7d'\x7d b \x7b\x7d\x7d".toList ++
          "\x7d".toList, 30⟩) :=
  (argument_read_anywhere (u := []) (w := []) (by decide) (by decide +kernel)).1 _ _

end Walk

end Phrasebook.Pattern
