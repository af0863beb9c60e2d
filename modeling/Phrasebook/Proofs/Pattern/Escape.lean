/-
  Escaped text is inert.

  Every text can be written so that it stands for itself: apostrophes doubled
  and braces in quotations of their own.  What is written so is read as that
  text wherever an argument can stand, whatever the neighbours are, because no
  piece of it looks at what follows and nothing that stands in front of an
  argument looks at more than a brace.  So a bare argument may be exchanged for
  an escaped text, and the pattern that comes of it renders as the old one does
  with the text for the argument's value.
-/
import Phrasebook.Proofs.Pattern.Place
import Phrasebook.Proofs.Render.Arguments

set_option autoImplicit false

namespace Phrasebook.Pattern

/-! ## Escaping -/

/-- A text as it is written to stand for itself. -/
def escape (s : String) : List Char := s.toList.flatMap escapeChar

example : escape "it's \x7bso\x7d" = "it''s '\x7b'so'\x7d'".toList := by decide

/-- An escaped text is derived as itself, and fits everything. -/
theorem exists_pieces_of_escape (s : String) :
    ∃ pieces, charsOf pieces = escape s ∧ atomsOf pieces = (Node.text s).atoms ∧
      (∀ next, FitAll next pieces) ∧ depthOf pieces = 0 := by
  rw [escape, Node.atoms]
  induction s.toList with
  | nil => exact ⟨[], rfl, rfl, fun _ => trivial, rfl⟩
  | cons c rest ih =>
    obtain ⟨piece, hchars, hatoms, hfit, hdepth⟩ := exists_piece_of_char c
    obtain ⟨pieces, hchars', hatoms', hfit', hdepth'⟩ := ih
    refine ⟨piece :: pieces, ?_, ?_, fun next => ⟨hfit _, hfit' next⟩, ?_⟩
    · rw [charsOf, hchars, hchars', List.flatMap_cons]
    · rw [atomsOf, hatoms, hatoms', List.map_cons, List.singleton_append]
    · rw [depthOf, hdepth, hdepth', Nat.max_self]

/-! ## Patterns with a place -/

/-- The pattern with a text at a place. -/
def Place.pattern (place : Place) (text : List Char) : String :=
  String.ofList (place.left ++ (text ++ place.right))

/-- A derivation with pieces at a place is read. -/
theorem Parser.parse_fill {p : Parser} (hsize : p.maxSourceSize ≤ 0) {place : Place}
    {pieces : List Piece} (hfit : FitAll none (place.fill pieces))
    (hdepth : depthOf (place.fill pieces) ≤ p.maxNestingDepth.toNat) :
    p.parse (place.pattern (charsOf pieces)) = .ok (messageOf (place.fill pieces)) := by
  rw [Parser.parse_eq_ok_iff_run hsize, Parser.rule]
  refine ⟨[], message_run_eq_ok_iff.2 ⟨rfl, place.fill pieces, ?_, hfit, hdepth, rfl⟩⟩
  rw [Place.pattern, String.toList_ofList, Place.charsOf_fill]

/-- Wherever an argument stands, an escaped text may stand too, and is read as itself. -/
theorem Parser.parse_escape {p : Parser} (hsize : p.maxSourceSize ≤ 0) {place : Place}
    {source : ArgumentSource} (hfit : FitAll none (place.fill [.argument source]))
    (hdepth : depthOf (place.fill [.argument source]) ≤ p.maxNestingDepth.toNat) (s : String) :
    ∃ pieces, atomsOf pieces = (Node.text s).atoms ∧
      p.parse (place.pattern (escape s)) = .ok (messageOf (place.fill pieces)) := by
  obtain ⟨pieces, hchars, hatoms, hfits, hzero⟩ := exists_pieces_of_escape s
  have hle : depthOf pieces ≤ depthOf [.argument source] := hzero ▸ Nat.zero_le _
  refine ⟨pieces, hatoms, ?_⟩
  rw [← hchars]
  exact parse_fill hsize (Place.fitAll_fill hfit hfits)
    (Nat.le_trans (Place.depthOf_fill_le hle) hdepth)

/-- In a pattern that is read, an escaped text may take the place of any bare argument.  The new
pattern is read; its message has the text in the slot of the argument, and is the same as before
if the argument is in the body of a key that comes again.  If the text has no number sign, the new
message renders as the old one does with the text for the value of the argument, also for other
arguments, as long as they have the same values where the new message uses them. -/
theorem Parser.escape_inert (p : Parser) (hsize : p.maxSourceSize ≤ 0) (place : Place)
    (head : Head) (hfit : FitAll none (place.fill [.argument (.bare head)]))
    (hdepth : depthOf (place.fill [.argument (.bare head)]) ≤ p.maxNestingDepth.toNat) :
    ∃ message, p.parse (place.pattern (ArgumentSource.bare head).chars) = .ok message ∧
      (¬ place.Shadowed → ∃ slot : Slot, message = slot.fill (.argument head.word.name) ∧
        ∀ s, p.parse (place.pattern (escape s)) = .ok (slot.fill (.text s))) ∧
      (place.Shadowed → ∀ s, p.parse (place.pattern (escape s)) = .ok message) ∧
      ∀ (s : String) (setting : Setting) (arguments : Arguments), '#' ∉ s.toList →
        setting.value head.word.name = .ok (.text s) →
          ∃ message', p.parse (place.pattern (escape s)) = .ok message' ∧
            ((∀ name, requiresArgument message' name = true →
                ({ setting with arguments } : Setting).value name = setting.value name) →
              render { setting with arguments } message' = render setting message) := by
  have hchars : charsOf [.argument (.bare head)] = (ArgumentSource.bare head).chars :=
    List.append_nil _
  have hparse := parse_fill hsize hfit hdepth
  rw [hchars] at hparse
  refine ⟨_, hparse, ?_, ?_, ?_⟩
  · intro hopen
    obtain ⟨slot, hslot⟩ := Place.exists_slot hopen
    refine ⟨slot, hslot _ _ rfl, ?_⟩
    intro s
    obtain ⟨pieces, hatoms, hescape⟩ := parse_escape hsize hfit hdepth s
    rw [hescape, hslot pieces _ hatoms]
  · intro hshadowed s
    obtain ⟨pieces, -, hescape⟩ := parse_escape hsize hfit hdepth s
    rw [hescape, Place.messageOf_fill_of_shadowed hshadowed pieces]
  · intro s setting arguments hpound hvalue
    obtain ⟨pieces, hatoms, hescape⟩ := parse_escape hsize hfit hdepth s
    refine ⟨_, hescape, ?_⟩
    intro hagree
    have hsame : render { setting with arguments } (messageOf (place.fill pieces)) =
        render setting (messageOf (place.fill pieces)) := render_congr rfl rfl rfl hagree
    rw [hsame]
    exact Place.render_fill hatoms hpound hvalue

/-- An argument in a body, between two apostrophes and a quoted brace, gives way to an apostrophe
and a brace. -/
theorem Parser.escape_inert_in_body :
    ∃ slot : Slot,
      (⟨0, 2, by decide⟩ : Parser).parse "\x7bg,select,a\x7b''\x7bx\x7d'\x7d'\x7d\x7d" =
          .ok (slot.fill (.argument "x")) ∧
        (⟨0, 2, by decide⟩ : Parser).parse "\x7bg,select,a\x7b'''''\x7b''\x7d'\x7d\x7d" =
          .ok (slot.fill (.text "'\x7b")) := by
  let x : Head := ⟨.none, ⟨['x'], by decide, List.all_eq_true.1 (by decide)⟩, .none⟩
  let g : Head := ⟨.none, ⟨['g'], by decide, List.all_eq_true.1 (by decide)⟩, .none⟩
  let a : Word := ⟨['a'], by decide, List.all_eq_true.1 (by decide)⟩
  let place : Place := .inside []
    (.select g .none .none ⟨[], ⟨.none, .word a, .none⟩, []⟩ .none)
    (.here [.doubled] [.quoted ⟨['\x7d'], ⟨'\x7d', [], rfl, rfl⟩, by decide⟩ true]) []
  let p : Parser := ⟨0, 2, by decide⟩
  have hfit : FitAll none (place.fill [.argument (.bare x)]) := by
    simp [place, Place.fill, Opening.source, Gap.fill, FitAll, Piece.Fits, ArgumentSource.Fits,
      BranchesFit]
  have hdepth : depthOf (place.fill [.argument (.bare x)]) ≤ p.maxNestingDepth.toNat := by
    decide
  have hopen : ¬ place.Shadowed := by
    simp [place, Place.Shadowed, Opening.gap, Gap.Shadowed, branchPairs, Entries.keys]
  obtain ⟨message, hparse, hslot, -, -⟩ :=
    Parser.escape_inert p (by decide) place x hfit hdepth
  obtain ⟨slot, rfl, hescape⟩ := hslot hopen
  exact ⟨slot, hparse, hescape "'\x7b"⟩

end Phrasebook.Pattern
