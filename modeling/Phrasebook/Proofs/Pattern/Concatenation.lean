/-
  Patterns one behind the other.

  A pattern that is read may end in the middle of a token.  An apostrophe in the
  end stands for itself, but with a second one behind it the two are one
  apostrophe, and with a brace behind it a quotation begins; and a quotation
  that lacks its closing apostrophe goes on with whatever comes behind it.  Any
  other pattern ends where a token ends (`EndsOpen`), so what comes behind it is
  read as it is read alone: the messages are put one behind the other, texts
  that meet are joined, and a fault lies further on by the length of what stands
  in front.

  The exception is exact.  One more apostrophe changes nothing behind a pattern
  that ends in the middle of a token, and is an apostrophe behind any other
  (`Parser.endsOpen_iff`).
-/
import Phrasebook.Proofs.Pattern.Grammar
import Phrasebook.Proofs.Pattern.Place
import Phrasebook.Proofs.Pattern.Site

set_option autoImplicit false

namespace Phrasebook.Pattern

/-! ## Pieces that may go on -/

/-- A piece that may go on: an apostrophe for itself, or a quotation that is not closed. -/
def Piece.IsOpen : Piece → Prop
  | .lone => True
  | .quoted _ closed => closed = false
  | _ => False

/-- Whether a pattern, with no more than `room` arguments open at once, ends in such a piece. -/
def EndsOpen (room : Nat) (pattern : List Char) : Prop :=
  ∃ pieces last, charsOf (pieces ++ [last]) = pattern ∧ FitAll none (pieces ++ [last]) ∧
    depthOf (pieces ++ [last]) ≤ room ∧ last.IsOpen

theorem Piece.Fits.of_not_isOpen {piece : Piece} {next : Option Char} (h : piece.Fits next)
    (hopen : ¬ piece.IsOpen) (next' : Option Char) : piece.Fits next' := by
  cases piece with
  | lone => exact absurd trivial hopen
  | quoted span closed => exact fun hclosed => absurd hclosed hopen
  | argument source => exact h
  | _ => trivial

/-- Only an apostrophe makes a pattern end so. -/
theorem EndsOpen.apostrophe_mem {room : Nat} {pattern : List Char} (h : EndsOpen room pattern) :
    '\'' ∈ pattern := by
  obtain ⟨pieces, last, rfl, -, -, hopen⟩ := h
  rw [charsOf_append]
  refine List.mem_append_right _ ?_
  cases last with
  | lone => exact List.mem_cons_self
  | quoted span closed => exact List.mem_cons_self
  | _ => exact absurd hopen id

theorem head?_charsOf_singleton (piece : Piece) (next next' : Option Char) :
    (charsOf [piece]).head?.or next = (charsOf [piece]).head?.or next' := by
  obtain ⟨c, t, hpiece⟩ := List.exists_cons_of_ne_nil piece.chars_ne_nil
  rw [charsOf, hpiece]
  rfl

/-- A derivation that ends where a token ends fits whatever comes behind it. -/
theorem FitAll.of_not_endsOpen {room : Nat} {pieces : List Piece} (h : FitAll none pieces)
    (hdepth : depthOf pieces ≤ room) (hopen : ¬ EndsOpen room (charsOf pieces))
    (next : Option Char) : FitAll next pieces := by
  rcases List.eq_nil_or_concat pieces with rfl | ⟨front, last, rfl⟩
  · trivial
  · rw [List.concat_eq_append] at h hdepth hopen ⊢
    have hclosed : ¬ last.IsOpen := fun hlast => hopen ⟨front, last, rfl, h, hdepth, hlast⟩
    rw [fitAll_append, head?_charsOf_singleton last _ none] at h ⊢
    exact ⟨h.1, h.2.1.of_not_isOpen hclosed _, trivial⟩

/-! ## Messages behind a derivation -/

/-- The atoms that are read of a text are those of nodes, so what is made of them has them. -/
theorem atoms_ofAtoms_of_scan {limit : Int} {body : Option (Reader Message)} {inBranch : Bool}
    {s rest : List Char} {as : List Atom} (h : scan limit body inBranch s = .ok (as, rest)) :
    atoms (ofAtoms as) = as := by
  obtain ⟨⟨nodes, _⟩, -, hpair⟩ := map_eq_ok.1 h
  cases hpair
  exact atoms_ofAtoms fun _ hnode => isText_of_mem_atoms hnode

theorem message_behind (limit : Int) {room : Nat} (inBranch : Bool) {pieces : List Piece}
    {s : List Char} (hfit : FitAll s.head? pieces) (hdepth : depthOf pieces ≤ room) :
    (message limit room inBranch).run (charsOf pieces ++ s) =
      ((message limit room inBranch).run s).map fun r =>
        (mergeText (messageOf pieces ++ r.1), r.2) := by
  rw [message_eq, messageOver_run, messageOver_run,
    scan_behind (completeArgument_bodyWithin limit room) inBranch pieces hfit hdepth]
  cases hscan : scan limit (bodyWithin limit room) inBranch s with
  | error fault => rfl
  | ok r =>
    obtain ⟨as, rest⟩ := r
    have hmessage : mergeText (messageOf pieces ++ ofAtoms as) = ofAtoms (atomsOf pieces ++ as) := by
      rw [mergeText_eq, atoms_append, Place.atoms_messageOf, atoms_ofAtoms_of_scan hscan]
    rw [putAtoms_ok]
    simp only [Except.map, hmessage]

/-- One more apostrophe ends such a piece, and adds nothing to it. -/
theorem Piece.exists_close {last : Piece} (hopen : last.IsOpen) :
    ∃ closed : Piece, closed.chars = last.chars ++ ['\''] ∧ closed.atoms = last.atoms ∧
      closed.Fits none ∧ closed.depth = 0 := by
  cases last with
  | lone => exact ⟨.doubled, rfl, rfl, trivial, rfl⟩
  | quoted span closed =>
    obtain rfl : closed = false := hopen
    exact ⟨.quoted span true, by simp [Piece.chars], rfl, nofun, rfl⟩
  | _ => exact absurd hopen id

theorem EndsOpen.derives_apostrophe {room : Nat} {pattern : List Char} {nodes : Message}
    (h : EndsOpen room pattern) (hnodes : Derives room pattern nodes) :
    Derives room (pattern ++ ['\'']) nodes := by
  obtain ⟨pieces, last, hspell, hfit, hdepth, hopen⟩ := h
  obtain ⟨closed, hchars, hatoms, hfits, hclosed⟩ := Piece.exists_close hopen
  have hmessage : messageOf (pieces ++ [last]) = nodes :=
    Derives.unique ⟨_, hspell, hfit, hdepth, rfl⟩ hnodes
  have hhead : (charsOf [closed]).head?.or none = (charsOf [last]).head?.or none := by
    obtain ⟨c, t, hlast⟩ := List.exists_cons_of_ne_nil last.chars_ne_nil
    simp [charsOf, hchars, hlast]
  rw [fitAll_append] at hfit
  refine ⟨pieces ++ [closed], ?_, (fitAll_append _ _ _).2 ⟨hhead ▸ hfit.1, hfits, trivial⟩, ?_, ?_⟩
  · rw [← hspell, charsOf_append, charsOf_append]
    simp [charsOf, hchars]
  · rw [depthOf_append, Nat.max_le] at hdepth ⊢
    rw [depthOf, hclosed]
    exact ⟨hdepth.1, Nat.zero_le _⟩
  · rw [← hmessage, messageOf, messageOf, atomsOf_append, atomsOf_append]
    simp [atomsOf, hatoms]

/-! ## Parsers -/

section Parser

variable {p : Parser} {front : String} {nodes : Message}

/-- Behind a pattern that ends where a token ends, the rule of a parser goes on as it begins. -/
theorem Parser.run_append (hsize : p.maxSourceSize ≤ 0) (hfront : p.parse front = .ok nodes)
    (hopen : ¬ EndsOpen p.maxNestingDepth.toNat front.toList) (back : String) :
    p.rule.run (front ++ back).toList =
      (p.rule.run back.toList).map fun r => (mergeText (nodes ++ r.1), r.2) := by
  obtain ⟨pieces, hspell, hfit, hdepth, rfl⟩ :=
    (Parser.parse_eq_ok_iff_derives p hsize front nodes).1 hfront
  rw [← hspell] at hopen
  rw [String.toList_append, ← hspell]
  exact message_behind _ false (hfit.of_not_endsOpen hdepth hopen _) hdepth

/-- A pattern ends in the middle of a token exactly if one more apostrophe changes nothing. -/
theorem Parser.endsOpen_iff (hsize : p.maxSourceSize ≤ 0) (hfront : p.parse front = .ok nodes) :
    EndsOpen p.maxNestingDepth.toNat front.toList ↔ p.parse (front ++ "'") = .ok nodes := by
  have hderives := (Parser.parse_eq_ok_iff_derives p hsize front nodes).1 hfront
  constructor
  · intro hopen
    rw [Parser.parse_eq_ok_iff_derives p hsize, String.toList_append]
    exact hopen.derives_apostrophe hderives
  · intro h
    by_contra hopen
    have hlone : p.rule.run "'".toList = .ok ([.text "'"], []) :=
      message_run_eq_ok_iff.2 ⟨rfl, [.lone], rfl, ⟨nofun, trivial⟩, Nat.zero_le _, rfl⟩
    obtain ⟨rest, hrun⟩ := (Parser.parse_eq_ok_iff_run hsize).1 h
    rw [Parser.run_append hsize hfront hopen, hlone] at hrun
    have hmerge : mergeText (nodes ++ [.text "'"]) = nodes :=
      congrArg Prod.fst (Except.ok.inj hrun)
    -- told by atoms, the message would have one more than it has
    have hatoms : atoms (nodes ++ [.text "'"]) = atoms nodes := by
      rw [mergeText_eq] at hmerge
      rw [← atoms_ofAtoms fun _ => isText_of_mem_atoms, hmerge]
    rw [atoms_append] at hatoms
    exact absurd (List.append_right_eq_self.1 hatoms) (List.cons_ne_nil _ _)

/-- Behind a pattern that ends where a token ends, any other is read as it is alone.  The messages
are put one behind the other and the texts that meet are joined; a fault has the same cause, and
lies further on by the length of what stands in front.  A pattern without apostrophes always ends
where a token ends. -/
theorem Parser.parse_append (p : Parser) (hsize : p.maxSourceSize ≤ 0) (front : String)
    (nodes : Message) (hfront : p.parse front = .ok nodes) :
    ('\'' ∉ front.toList → ¬ EndsOpen p.maxNestingDepth.toNat front.toList) ∧
      (¬ EndsOpen p.maxNestingDepth.toNat front.toList → ∀ back : String,
        (∀ message, p.parse back = .ok message →
          p.parse (front ++ back) = .ok (mergeText (nodes ++ message))) ∧
        (∀ e, p.parse back = .error (.malformed e) →
          p.parse (front ++ back) = .error (.malformed
            ⟨front ++ back, front.toList.length + e.position, e.cause⟩)) ∧
        (p.parse back = .error .integerTooLong →
          p.parse (front ++ back) = .error .integerTooLong)) := by
  refine ⟨fun hnot hopen => hnot hopen.apostrophe_mem, ?_⟩
  intro hopen back
  have hrun := Parser.run_append hsize hfront hopen back
  refine ⟨?_, ?_, ?_⟩
  · intro message hback
    obtain ⟨rest, hback⟩ := (Parser.parse_eq_ok_iff_run hsize).1 hback
    rw [hback] at hrun
    exact (Parser.parse_eq_ok_iff_run hsize).2 ⟨rest, hrun⟩
  · intro e hback
    obtain ⟨-, cause, rest, hfault, rfl⟩ := Parser.parse_eq_malformed_iff.1 hback
    obtain ⟨before, hspell, -⟩ := message_failsIn back.toList _ _ _ _ (List.suffix_refl _) _ hfault
    rw [hfault] at hrun
    refine Parser.parse_eq_malformed_iff.2 ⟨Parser.rejects_eq_false hsize _, cause, rest, hrun, ?_⟩
    have hlength : back.toList.length = before.length + rest.length := by
      rw [hspell, List.length_append]
    have hposition : (front ++ back).toList.length - rest.length =
        front.toList.length + (back.toList.length - rest.length) := by
      rw [String.toList_append, List.length_append]
      omega
    rw [hposition]
  · intro hback
    obtain ⟨-, hfault⟩ := Parser.parse_eq_integerTooLong_iff_run.1 hback
    rw [hfault] at hrun
    exact Parser.parse_eq_integerTooLong_iff_run.2 ⟨Parser.rejects_eq_false hsize _, hrun⟩

end Parser

/-- The apostrophe of the second pattern is read as its own, also behind the one that closes the
quotation in front, and the style that is missing is missed behind both. -/
theorem Parser.parse_append_quotation :
    (⟨0, 2, by decide⟩ : Parser).parse ("it''s '\x7b'" ++ "'\x7d' \x7bn, number, \x7d") =
      .error (.malformed
        ⟨"it''s '\x7b'" ++ "'\x7d' \x7bn, number, \x7d", 25, .expectedIdentifier⟩) := by
  have hfront : (⟨0, 2, by decide⟩ : Parser).parse "it''s '\x7b'" =
      .ok [.text "it's \x7b"] := by
    decide +kernel
  have hback : (⟨0, 2, by decide⟩ : Parser).parse "'\x7d' \x7bn, number, \x7d" =
      .error (.malformed ⟨"'\x7d' \x7bn, number, \x7d", 16, .expectedIdentifier⟩) := by
    decide +kernel
  have hopen := (Parser.endsOpen_iff (by decide) hfront).not.2 (by decide +kernel)
  exact ((Parser.parse_append _ (by decide) _ _ hfront).2 hopen _).2.1 _ hback

end Phrasebook.Pattern
