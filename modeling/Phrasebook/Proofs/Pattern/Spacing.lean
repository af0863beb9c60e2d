/-
  Blanks between the tokens of an argument do not matter.

  The text of a derivation is a row of lexemes.  A lexeme is kept together; in
  front of it there is a gap, which holds blanks or nothing, or there is none
  (`lexemesOf`).  The gaps of an argument are behind its opening brace, its name,
  its keyword and its style, behind each comma, before and behind `offset:` and
  behind its number, before and behind the key of a branch, behind the closing
  brace of a body, and before the closing brace.  The places of a pattern are the
  positions in its gaps (`placesOf`).

  Blanks that are put in at places widen the gaps and leave the lexemes
  (`spell_widened`).  Lexemes with wider gaps are those of a derivation again, of
  the same depth and for the same message (`exists_respaced`), so the pattern
  still derives it.
-/
import Mathlib.Data.List.Forall2
import Phrasebook.Proofs.Pattern.Grammar
import Phrasebook.Proofs.Pattern.Pieces

set_option autoImplicit false

namespace Phrasebook.Pattern

open Phrasebook.Text

/-! ## Lexemes -/

/-- A stretch of text that is kept together, and the gap in front of it, if there is one. -/
structure Lexeme where
  gap : Option Blanks
  chars : List Char
  ne_nil : chars ≠ []

namespace Lexeme

/-- A lexeme that no blanks may stand before. -/
def tight (chars : List Char) (h : chars ≠ []) : Lexeme := ⟨none, chars, h⟩

/-- A lexeme behind a gap. -/
def spaced (b : Blanks) (chars : List Char) (h : chars ≠ []) : Lexeme := ⟨some b, chars, h⟩

/-- A word behind a gap. -/
def word (b : Blanks) (w : Word) : Lexeme := spaced b w.chars w.ne_nil

/-- A single character behind a gap. -/
def sign (b : Blanks) (c : Char) : Lexeme := spaced b [c] (List.cons_ne_nil c [])

/-- The gap and what stands behind it. -/
def text (x : Lexeme) : List Char := (x.gap.map Blanks.chars).getD [] ++ x.chars

@[simp] theorem text_tight (chars : List Char) (h : chars ≠ []) :
    (tight chars h).text = chars := rfl

@[simp] theorem text_spaced (b : Blanks) (chars : List Char) (h : chars ≠ []) :
    (spaced b chars h).text = b.chars ++ chars := rfl

@[simp] theorem text_word (b : Blanks) (w : Word) : (word b w).text = b.chars ++ w.chars := rfl

@[simp] theorem text_sign (b : Blanks) (c : Char) : (sign b c).text = b.chars ++ [c] := rfl

end Lexeme

/-- The text of some lexemes. -/
def spell (xs : List Lexeme) : List Char := xs.flatMap Lexeme.text

@[simp] theorem spell_nil : spell [] = [] := rfl

theorem spell_cons (x : Lexeme) (xs : List Lexeme) : spell (x :: xs) = x.text ++ spell xs :=
  List.flatMap_cons

theorem spell_append (xs ys : List Lexeme) : spell (xs ++ ys) = spell xs ++ spell ys :=
  List.flatMap_append

/-! ## The lexemes of a derivation -/

theorem KeySource.chars_ne_nil (source : KeySource) : source.chars ≠ [] := by
  obtain ⟨c, rest, hsource, -⟩ := source.exists_chars_eq_cons
  exact hsource ▸ List.cons_ne_nil c rest

theorem Numeral.chars_ne_nil (n : Numeral) : n.chars ≠ [] := List.length_pos_iff.1 n.length_pos

/-- The opening brace of an argument, its name, and the sign that follows. -/
def Head.lexemes (head : Head) (c : Char) : List Lexeme :=
  [.tight ['{'] (List.cons_ne_nil _ _), .word head.before head.word, .sign head.after c]

/-- The front of an argument with a type, and what follows its keyword. -/
def typedLexemes (head : Head) (lead : Blanks) (type : ArgumentType) (inner : List Lexeme) :
    List Lexeme :=
  head.lexemes ',' ++ .word lead type.word :: inner

/-- What follows the keyword of a formatted argument. -/
def styleLexemes (trail : Blanks) : Option StyleSource → List Lexeme
  | none => [.sign trail '}']
  | some style => [.sign trail ',', .word style.before style.word, .sign style.after '}']

/-- The word `offset:` and its number, or nothing. -/
def offsetLexemes : Option OffsetSource → List Lexeme
  | none => []
  | some source =>
    [.spaced source.before offsetWord (by decide),
      .spaced source.between source.amount.chars source.amount.chars_ne_nil]

mutual

/-- The lexemes of a piece.  Outside of arguments there are no gaps. -/
def Piece.lexemes : Piece → List Lexeme
  | .argument source => source.lexemes
  | piece => [.tight piece.chars piece.chars_ne_nil]

/-- The lexemes of an argument. -/
def ArgumentSource.lexemes : ArgumentSource → List Lexeme
  | .bare head => head.lexemes '}'
  | .formatted head lead kind trail style =>
    typedLexemes head lead (.formatted kind) (styleLexemes trail style)
  | .plural head lead kind trail offset branches last =>
    typedLexemes head lead (.plural kind)
      (.sign trail ',' :: (offsetLexemes offset ++ (branchLexemes branches ++ [.sign last '}'])))
  | .select head lead trail branches last =>
    typedLexemes head lead .select (.sign trail ',' :: (branchLexemes branches ++ [.sign last '}']))

/-- The lexemes of a message. -/
def lexemesOf : List Piece → List Lexeme
  | [] => []
  | piece :: rest => piece.lexemes ++ lexemesOf rest

/-- The lexemes of some branches. -/
def branchLexemes : List (BranchHead × List Piece) → List Lexeme
  | [] => []
  | (head, body) :: rest =>
    .spaced head.before head.source.chars head.source.chars_ne_nil :: .sign head.after '{' ::
      (lexemesOf body ++ .tight ['}'] (List.cons_ne_nil _ _) :: branchLexemes rest)

end

/-! ## What lexemes spell -/

theorem spell_typedLexemes (head : Head) (lead : Blanks) (type : ArgumentType)
    (inner : List Lexeme) (v : List Char) (h : spell inner = v ++ ['}']) :
    spell (typedLexemes head lead type inner) = typedChars head lead type v := by
  simp [typedLexemes, Head.lexemes, typedChars, Head.chars, spell_cons, h, ArgumentType.word]

theorem spell_styleLexemes (trail : Blanks) (style : Option StyleSource) :
    spell (styleLexemes trail style) = trail.chars ++ styleChars style ++ ['}'] := by
  cases style <;> simp [styleLexemes, spell_cons, styleChars, StyleSource.chars]

theorem spell_offsetLexemes (offset : Option OffsetSource) :
    spell (offsetLexemes offset) = offsetChars offset := by
  cases offset <;> simp [offsetLexemes, spell_cons, offsetChars, OffsetSource.chars]

mutual

theorem Piece.spell_lexemes : (piece : Piece) → spell piece.lexemes = piece.chars
  | .argument source => source.spell_lexemes
  | .literal _ => List.append_nil _
  | .doubled => List.append_nil _
  | .quoted _ _ => List.append_nil _
  | .lone => List.append_nil _

theorem ArgumentSource.spell_lexemes :
    (source : ArgumentSource) → spell source.lexemes = source.chars
  | .bare head => by
    simp [ArgumentSource.lexemes, ArgumentSource.chars, Head.lexemes, Head.chars, spell_cons]
  | .formatted head lead kind trail style => by
    rw [ArgumentSource.lexemes, ArgumentSource.formatted_chars]
    exact spell_typedLexemes _ _ _ _ _ (spell_styleLexemes trail style)
  | .plural head lead kind trail offset branches last => by
    rw [ArgumentSource.lexemes, ArgumentSource.plural_chars]
    refine spell_typedLexemes _ _ _ _ _ ?_
    simp [spell_cons, spell_append, spell_offsetLexemes, spell_branchLexemes branches]
  | .select head lead trail branches last => by
    rw [ArgumentSource.lexemes, ArgumentSource.select_chars]
    refine spell_typedLexemes _ _ _ _ _ ?_
    simp [spell_cons, spell_append, spell_branchLexemes branches]

theorem spell_lexemesOf : (pieces : List Piece) → spell (lexemesOf pieces) = charsOf pieces
  | [] => rfl
  | piece :: rest => by
    rw [lexemesOf, charsOf, spell_append, piece.spell_lexemes, spell_lexemesOf rest]

theorem spell_branchLexemes : (entries : List (BranchHead × List Piece)) →
    spell (branchLexemes entries) = branchChars entries
  | [] => rfl
  | (head, body) :: rest => by
    simp [branchLexemes, branchChars, BranchHead.chars, spell_cons, spell_append,
      spell_lexemesOf body, spell_branchLexemes rest]

end

/-! ## Places -/

/-- The positions in a gap that begins at a position. -/
def gapPlaces (pos : Nat) : Option Blanks → List Nat
  | none => []
  | some b => List.range' pos (b.chars.length + 1)

/-- The positions in the gaps of lexemes of which the first begins at a position. -/
def places (pos : Nat) : List Lexeme → List Nat
  | [] => []
  | x :: rest => gapPlaces pos x.gap ++ places (pos + x.text.length) rest

/-- The positions of a pattern at which blanks may stand. -/
def placesOf (pieces : List Piece) : List Nat := places 0 (lexemesOf pieces)

/-- A text with blanks put in, `extra k` before the character at `k`; the text begins at `pos`. -/
def insertBlanks (extra : Nat → Blanks) (pos : Nat) : List Char → List Char
  | [] => (extra pos).chars
  | c :: s => (extra pos).chars ++ c :: insertBlanks extra (pos + 1) s

theorem le_of_mem_places {k pos : Nat} {xs : List Lexeme} (h : k ∈ places pos xs) : pos ≤ k := by
  induction xs generalizing pos with
  | nil => cases h
  | cons x rest ih =>
    rw [places, List.mem_append] at h
    rcases h with hgap | hrest
    · cases hx : x.gap with
      | none =>
        rw [hx] at hgap
        cases hgap
      | some b =>
        rw [hx, gapPlaces, List.mem_range'_1] at hgap
        exact hgap.1
    · exact (Nat.le_add_right _ _).trans (ih hrest)

/-- A gap ends before its lexeme does. -/
theorem lt_of_mem_gapPlaces {k pos : Nat} {x : Lexeme} (h : k ∈ gapPlaces pos x.gap) :
    k < pos + x.text.length := by
  obtain ⟨gap, chars, hne⟩ := x
  have hpos : 0 < chars.length := List.length_pos_iff.2 hne
  cases gap with
  | none => cases h
  | some b =>
    have hplace := List.mem_range'_1.1 h
    simp only [Lexeme.text, Option.map_some, Option.getD_some, List.length_append]
    omega

section Insert

variable {extra : Nat → Blanks}

theorem insertBlanks_append_cons (pos : Nat) (w : List Char) (c : Char) (s : List Char) :
    insertBlanks extra pos (w ++ c :: s) =
      insertBlanks extra pos w ++ c :: insertBlanks extra (pos + w.length + 1) s := by
  induction w generalizing pos with
  | nil => rfl
  | cons d w ih =>
    rw [List.cons_append, insertBlanks, insertBlanks, ih, List.append_assoc, List.cons_append,
      List.length_cons, Nat.add_right_comm pos 1]
    rfl

/-- Where nothing is put in the text stays. -/
theorem insertBlanks_append (pos : Nat) (w s : List Char)
    (h : ∀ k, pos ≤ k → k < pos + w.length → (extra k).chars = []) :
    insertBlanks extra pos (w ++ s) = w ++ insertBlanks extra (pos + w.length) s := by
  induction w generalizing pos with
  | nil => rfl
  | cons c w ih =>
    rw [List.length_cons] at h ⊢
    have hfirst : (extra pos).chars = [] := h pos (Nat.le_refl pos) (by omega)
    rw [List.cons_append, insertBlanks, hfirst, List.nil_append,
      ih (pos + 1) fun k hle hlt => h k (by omega) (by omega), List.cons_append,
      Nat.add_right_comm pos 1]
    rfl

theorem sublist_insertBlanks (pos : Nat) (s : List Char) :
    s.Sublist (insertBlanks extra pos s) := by
  induction s generalizing pos with
  | nil => exact List.nil_sublist _
  | cons c s ih => exact ((ih (pos + 1)).cons_cons c).trans (List.sublist_append_right _ _)

/-- Blanks with further blanks among them. -/
def Blanks.widen (extra : Nat → Blanks) (pos : Nat) (b : Blanks) : Blanks where
  chars := insertBlanks extra pos b.chars
  blank := by
    obtain ⟨s, hs⟩ := b
    induction s generalizing pos with
    | nil => exact (extra pos).blank
    | cons d s ih =>
      intro c hc
      rw [insertBlanks, List.mem_append, List.mem_cons] at hc
      rcases hc with hextra | rfl | hrest
      · exact (extra pos).blank c hextra
      · exact hs c List.mem_cons_self
      · exact ih (pos + 1) (fun c hc => hs c (List.mem_cons_of_mem _ hc)) c hrest

/-- A lexeme that begins at a position, its gap widened. -/
def Lexeme.widen (extra : Nat → Blanks) (pos : Nat) (x : Lexeme) : Lexeme :=
  ⟨x.gap.map (·.widen extra pos), x.chars, x.ne_nil⟩

/-- Lexemes of which the first begins at a position, their gaps widened. -/
def widened (extra : Nat → Blanks) (pos : Nat) : List Lexeme → List Lexeme
  | [] => []
  | x :: rest => x.widen extra pos :: widened extra (pos + x.text.length) rest

/-- Blanks that are put in in the gap of a lexeme widen it. -/
theorem Lexeme.text_widen {x : Lexeme} {pos : Nat} (s : List Char)
    (h : ∀ k, pos ≤ k → k < pos + x.text.length → (extra k).chars ≠ [] → k ∈ gapPlaces pos x.gap) :
    insertBlanks extra pos (x.text ++ s) =
      (x.widen extra pos).text ++ insertBlanks extra (pos + x.text.length) s := by
  obtain ⟨gap, chars, hne⟩ := x
  cases gap with
  | none =>
    refine insertBlanks_append pos chars s fun k hle hlt => ?_
    exact Decidable.byContradiction fun hextra => nomatch h k hle hlt hextra
  | some b =>
    obtain ⟨c, rest, rfl⟩ := List.exists_cons_of_ne_nil hne
    have hlength : (b.chars ++ c :: rest).length = b.chars.length + 1 + rest.length := by
      simp only [List.length_append, List.length_cons]
      omega
    have hrest : ∀ k, pos + b.chars.length + 1 ≤ k → k < pos + b.chars.length + 1 + rest.length →
        (extra k).chars = [] := by
      intro k hle hlt
      refine Decidable.byContradiction fun hextra => ?_
      have hlt' : k < pos + (b.chars ++ c :: rest).length := by omega
      have hplace := List.mem_range'_1.1 (h k (by omega) hlt' hextra)
      omega
    have htext : Lexeme.text ⟨some b, c :: rest, hne⟩ = b.chars ++ c :: rest := rfl
    have hwiden : (Lexeme.widen extra pos ⟨some b, c :: rest, hne⟩).text =
      insertBlanks extra pos b.chars ++ c :: rest := rfl
    rw [htext, hwiden, List.append_assoc, List.cons_append, insertBlanks_append_cons,
      insertBlanks_append _ _ _ hrest, hlength, ← Nat.add_assoc, ← Nat.add_assoc,
      List.append_assoc, List.cons_append]

/-- Blanks that are put in at places widen the gaps. -/
theorem spell_widened {xs : List Lexeme} {pos : Nat}
    (h : ∀ k, pos ≤ k → (extra k).chars ≠ [] → k ∈ places pos xs) :
    spell (widened extra pos xs) = insertBlanks extra pos (spell xs) := by
  induction xs generalizing pos with
  | nil =>
    have hnone : (extra pos).chars = [] :=
      Decidable.byContradiction fun hne => nomatch h pos (Nat.le_refl pos) hne
    exact hnone.symm
  | cons x rest ih =>
    have hfirst : ∀ k, pos ≤ k → k < pos + x.text.length → (extra k).chars ≠ [] →
        k ∈ gapPlaces pos x.gap := by
      intro k hle hlt hextra
      refine (List.mem_append.1 (h k hle hextra)).resolve_right fun hmem => ?_
      exact absurd (le_of_mem_places hmem) (Nat.not_le.2 hlt)
    have hrest : ∀ k, pos + x.text.length ≤ k → (extra k).chars ≠ [] →
        k ∈ places (pos + x.text.length) rest := by
      intro k hle hextra
      refine (List.mem_append.1 (h k (by omega) hextra)).resolve_left fun hmem => ?_
      exact absurd hle (Nat.not_le.2 (lt_of_mem_gapPlaces hmem))
    rw [widened, spell_cons, spell_cons, ih hrest, x.text_widen _ hfirst]

end Insert

/-! ## Wider gaps -/

/-- A lexeme with the same text behind a gap that holds the same blanks and perhaps others. -/
inductive Lexeme.Wider : Lexeme → Lexeme → Prop
  | tight (chars : List Char) (h : chars ≠ []) : Wider (tight chars h) (tight chars h)
  | spaced {b wide : Blanks} (hb : b.chars.Sublist wide.chars) (chars : List Char)
    (h : chars ≠ []) : Wider (spaced b chars h) (spaced wide chars h)

theorem Lexeme.wider_widen (extra : Nat → Blanks) (pos : Nat) (x : Lexeme) :
    x.Wider (x.widen extra pos) := by
  obtain ⟨gap, chars, hne⟩ := x
  cases gap with
  | none => exact .tight chars hne
  | some b => exact .spaced (sublist_insertBlanks pos b.chars) chars hne

theorem wider_widened (extra : Nat → Blanks) (pos : Nat) (xs : List Lexeme) :
    List.Forall₂ Lexeme.Wider xs (widened extra pos xs) := by
  induction xs generalizing pos with
  | nil => exact .nil
  | cons x rest ih => exact .cons (x.wider_widen extra pos) (ih _)

theorem exists_of_forall₂_append {α β : Type} {R : α → β → Prop} {xs ys : List α} {zs : List β}
    (h : List.Forall₂ R (xs ++ ys) zs) :
    ∃ us vs, List.Forall₂ R xs us ∧ List.Forall₂ R ys vs ∧ zs = us ++ vs := by
  induction xs generalizing zs with
  | nil => exact ⟨[], zs, .nil, h, rfl⟩
  | cons x xs ih =>
    obtain ⟨z, rest, hz, hrest, rfl⟩ := List.forall₂_cons_left_iff.1 h
    obtain ⟨us, vs, hus, hvs, rfl⟩ := ih hrest
    exact ⟨z :: us, vs, .cons hz hus, hvs, rfl⟩

/-! ## Derivations with wider gaps -/

/-- Pieces that stand for the same, read alike in front of everything. -/
structure Respaced (pieces others : List Piece) : Prop where
  atoms_eq : atomsOf others = atomsOf pieces
  depth_eq : depthOf others = depthOf pieces
  fits : ∀ next, FitAll next pieces → FitAll next others
  head?_eq : (charsOf others).head? = (charsOf pieces).head?

/-- Arguments that stand for the same. -/
structure ArgumentSource.Respaced (source other : ArgumentSource) : Prop where
  node_eq : other.node = source.node
  depth_eq : other.depth = source.depth
  fits : source.Fits → other.Fits

/-- Branches that stand for the same, with no digit in front that was not there. -/
structure BranchesRespaced (entries others : List (BranchHead × List Piece)) : Prop where
  pairs_eq : branchPairs others = branchPairs entries
  depth_eq : branchDepth others = branchDepth entries
  fits : BranchesFit entries → BranchesFit others
  ne_nil : entries ≠ [] → others ≠ []
  stops : Stops isAsciiDigit (branchChars entries) → Stops isAsciiDigit (branchChars others)

theorem Respaced.refl (pieces : List Piece) : Respaced pieces pieces :=
  ⟨rfl, rfl, fun _ => id, rfl⟩

theorem Respaced.append {pieces others pieces' others' : List Piece}
    (h : Respaced pieces pieces') (h' : Respaced others others') :
    Respaced (pieces ++ others) (pieces' ++ others') where
  atoms_eq := by rw [atomsOf_append, atomsOf_append, h.atoms_eq, h'.atoms_eq]
  depth_eq := by rw [depthOf_append, depthOf_append, h.depth_eq, h'.depth_eq]
  fits next hfit := by
    rw [fitAll_append] at hfit ⊢
    rw [h'.head?_eq]
    exact ⟨h.fits _ hfit.1, h'.fits _ hfit.2⟩
  head?_eq := by
    rw [charsOf_append, charsOf_append, List.head?_append, List.head?_append, h.head?_eq,
      h'.head?_eq]

/-- An argument begins with its opening brace. -/
theorem ArgumentSource.Respaced.singleton {source other : ArgumentSource}
    (h : source.Respaced other) : Pattern.Respaced [.argument source] [.argument other] where
  atoms_eq := by simp only [atomsOf, Piece.atoms, h.node_eq]
  depth_eq := by simp only [depthOf, Piece.depth, h.depth_eq]
  fits next hfit := ⟨h.fits hfit.1, trivial⟩
  head?_eq := by
    have hbrace : ∀ source : ArgumentSource,
        (charsOf [.argument source]).head? = some '{' := by
      intro source
      cases source <;> rfl
    rw [hbrace, hbrace]

section Clauses

variable {ys : List Lexeme}

theorem exists_of_wider_spaced {b : Blanks} {chars : List Char} {hne : chars ≠ []}
    {rest : List Lexeme} (h : List.Forall₂ Lexeme.Wider (.spaced b chars hne :: rest) ys) :
    ∃ (wide : Blanks) (zs : List Lexeme), b.chars.Sublist wide.chars ∧
      List.Forall₂ Lexeme.Wider rest zs ∧ ys = .spaced wide chars hne :: zs := by
  obtain ⟨y, zs, hy, hrest, rfl⟩ := List.forall₂_cons_left_iff.1 h
  cases hy with
  | spaced hb => exact ⟨_, zs, hb, hrest, rfl⟩

theorem exists_of_wider_tight {chars : List Char} {hne : chars ≠ []} {rest : List Lexeme}
    (h : List.Forall₂ Lexeme.Wider (.tight chars hne :: rest) ys) :
    ∃ zs, List.Forall₂ Lexeme.Wider rest zs ∧ ys = .tight chars hne :: zs := by
  obtain ⟨y, zs, hy, hrest, rfl⟩ := List.forall₂_cons_left_iff.1 h
  cases hy
  exact ⟨zs, hrest, rfl⟩

theorem exists_of_wider_head {head : Head} {c : Char} {rest : List Lexeme}
    (h : List.Forall₂ Lexeme.Wider (head.lexemes c ++ rest) ys) :
    ∃ (head' : Head) (zs : List Lexeme), head'.word = head.word ∧
      List.Forall₂ Lexeme.Wider rest zs ∧ ys = head'.lexemes c ++ zs := by
  obtain ⟨_, hname, rfl⟩ := exists_of_wider_tight h
  obtain ⟨before, _, -, hnext, rfl⟩ := exists_of_wider_spaced hname
  obtain ⟨after, zs, -, hrest, rfl⟩ := exists_of_wider_spaced hnext
  exact ⟨⟨before, head.word, after⟩, zs, rfl, hrest, rfl⟩

theorem exists_of_wider_typed {head : Head} {lead : Blanks} {type : ArgumentType}
    {inner : List Lexeme} (h : List.Forall₂ Lexeme.Wider (typedLexemes head lead type inner) ys) :
    ∃ (head' : Head) (lead' : Blanks) (zs : List Lexeme), head'.word = head.word ∧
      List.Forall₂ Lexeme.Wider inner zs ∧ ys = typedLexemes head' lead' type zs := by
  obtain ⟨head', _, hword, hkeyword, rfl⟩ := exists_of_wider_head h
  obtain ⟨lead', zs, -, hinner, rfl⟩ := exists_of_wider_spaced hkeyword
  exact ⟨head', lead', zs, hword, hinner, rfl⟩

theorem exists_of_wider_style {trail : Blanks} {style : Option StyleSource}
    (h : List.Forall₂ Lexeme.Wider (styleLexemes trail style) ys) :
    ∃ trail' style', style'.map (·.word) = style.map (·.word) ∧
      ys = styleLexemes trail' style' := by
  cases style with
  | none =>
    obtain ⟨trail', _, -, hend, rfl⟩ := exists_of_wider_spaced h
    cases hend
    exact ⟨trail', none, rfl, rfl⟩
  | some style =>
    obtain ⟨trail', _, -, hstyle, rfl⟩ := exists_of_wider_spaced h
    obtain ⟨before, _, -, hclose, rfl⟩ := exists_of_wider_spaced hstyle
    obtain ⟨after, _, -, hend, rfl⟩ := exists_of_wider_spaced hclose
    cases hend
    exact ⟨trail', some ⟨before, style.word, after⟩, rfl, rfl⟩

theorem exists_of_wider_offset {offset : Option OffsetSource}
    (h : List.Forall₂ Lexeme.Wider (offsetLexemes offset) ys) :
    ∃ offset', offset'.map (·.amount) = offset.map (·.amount) ∧ ys = offsetLexemes offset' := by
  cases offset with
  | none =>
    cases h
    exact ⟨none, rfl, rfl⟩
  | some source =>
    obtain ⟨before, _, -, hnumber, rfl⟩ := exists_of_wider_spaced h
    obtain ⟨between, _, -, hend, rfl⟩ := exists_of_wider_spaced hnumber
    cases hend
    exact ⟨some ⟨before, between, source.amount⟩, rfl, rfl⟩

/-- The brace that closes a selector. -/
theorem eq_of_wider_last {last : Blanks} (h : List.Forall₂ Lexeme.Wider [.sign last '}'] ys) :
    ∃ last' : Blanks, ys = [.sign last' '}'] := by
  obtain ⟨last', _, -, hend, rfl⟩ := exists_of_wider_spaced h
  cases hend
  exact ⟨last', rfl⟩

/-- Without a gap there is nothing to widen. -/
theorem eq_of_wider_piece {chars : List Char} {hne : chars ≠ []}
    (h : List.Forall₂ Lexeme.Wider [.tight chars hne] ys) : ys = [.tight chars hne] := by
  obtain ⟨_, hend, rfl⟩ := exists_of_wider_tight h
  cases hend
  rfl

end Clauses

/-- Blanks in front of a key are no digits, and where there were some there are some. -/
theorem stops_widen {b wide : Blanks} (hb : b.chars.Sublist wide.chars) {s t : List Char}
    (hhead : t.head? = s.head?) (h : Stops isAsciiDigit (b.chars ++ s)) :
    Stops isAsciiDigit (wide.chars ++ t) := by
  cases hwide : wide.chars with
  | nil =>
    rw [hwide, List.sublist_nil] at hb
    rw [hb] at h
    exact h.congr_head? hhead
  | cons c rest =>
    have hblank : isBlank c = true := wide.blank c (hwide ▸ List.mem_cons_self)
    exact (stops_cons.2 (isIdentifierChar_of_isBlank hblank)).digit

mutual

theorem Piece.exists_respaced : (piece : Piece) → {ys : List Lexeme} →
    List.Forall₂ Lexeme.Wider piece.lexemes ys →
      ∃ piece', Piece.lexemes piece' = ys ∧ Respaced [piece] [piece']
  | .argument source, _, h => by
    obtain ⟨source', rfl, hsource⟩ := source.exists_respaced h
    exact ⟨.argument source', rfl, hsource.singleton⟩
  | .literal c, _, h => ⟨.literal c, (eq_of_wider_piece h).symm, .refl _⟩
  | .doubled, _, h => ⟨.doubled, (eq_of_wider_piece h).symm, .refl _⟩
  | .quoted span closed, _, h => ⟨.quoted span closed, (eq_of_wider_piece h).symm, .refl _⟩
  | .lone, _, h => ⟨.lone, (eq_of_wider_piece h).symm, .refl _⟩

theorem ArgumentSource.exists_respaced : (source : ArgumentSource) → {ys : List Lexeme} →
    List.Forall₂ Lexeme.Wider source.lexemes ys →
      ∃ source', ArgumentSource.lexemes source' = ys ∧ source.Respaced source'
  | .bare head, ys, h => by
    have hhead : List.Forall₂ Lexeme.Wider (head.lexemes '}' ++ []) ys := h
    obtain ⟨head', _, hword, hend, rfl⟩ := exists_of_wider_head hhead
    cases hend
    refine ⟨.bare head', rfl, ?_, rfl, id⟩
    rw [ArgumentSource.node, ArgumentSource.node, hword]
  | .formatted head lead kind trail style, _, h => by
    obtain ⟨head', lead', _, hword, hinner, rfl⟩ := exists_of_wider_typed h
    obtain ⟨trail', style', hstyle, rfl⟩ := exists_of_wider_style hinner
    have hname := congrArg (Option.map Word.name) hstyle
    simp only [Option.map_map, Function.comp_def] at hname
    refine ⟨.formatted head' lead' kind trail' style', rfl, ?_, rfl, id⟩
    rw [ArgumentSource.node, ArgumentSource.node, hword, hname]
  | .plural head lead kind trail offset branches last, _, h => by
    obtain ⟨head', lead', _, hword, hinner, rfl⟩ := exists_of_wider_typed h
    obtain ⟨trail', _, -, hcontent, rfl⟩ := exists_of_wider_spaced hinner
    obtain ⟨_, _, hoffset, hrest, rfl⟩ := exists_of_forall₂_append hcontent
    obtain ⟨_, _, hbranches, hlast, rfl⟩ := exists_of_forall₂_append hrest
    obtain ⟨offset', hamount, rfl⟩ := exists_of_wider_offset hoffset
    obtain ⟨branches', rfl, hsame⟩ := exists_branchesRespaced branches hbranches
    obtain ⟨last', rfl⟩ := eq_of_wider_last hlast
    have hvalue := congrArg (Option.map Numeral.value) hamount
    simp only [Option.map_map, Function.comp_def] at hvalue
    have hsome := congrArg Option.isSome hamount
    simp only [Option.isSome_map] at hsome
    refine ⟨.plural head' lead' kind trail' offset' branches' last', rfl, ?_, ?_, ?_⟩
    · rw [ArgumentSource.node, ArgumentSource.node, hword, hvalue, hsame.pairs_eq]
    · rw [ArgumentSource.depth, ArgumentSource.depth, hsame.depth_eq]
    · rintro ⟨hne, hstops, hfit⟩
      exact ⟨hsame.ne_nil hne, fun h => hsame.stops (hstops (hsome ▸ h)), hsame.fits hfit⟩
  | .select head lead trail branches last, _, h => by
    obtain ⟨head', lead', _, hword, hinner, rfl⟩ := exists_of_wider_typed h
    obtain ⟨trail', _, -, hcontent, rfl⟩ := exists_of_wider_spaced hinner
    obtain ⟨_, _, hbranches, hlast, rfl⟩ := exists_of_forall₂_append hcontent
    obtain ⟨branches', rfl, hsame⟩ := exists_branchesRespaced branches hbranches
    obtain ⟨last', rfl⟩ := eq_of_wider_last hlast
    refine ⟨.select head' lead' trail' branches' last', rfl, ?_, ?_, ?_⟩
    · rw [ArgumentSource.node, ArgumentSource.node, hword, hsame.pairs_eq]
    · rw [ArgumentSource.depth, ArgumentSource.depth, hsame.depth_eq]
    · exact fun hfit => ⟨hsame.ne_nil hfit.1, hsame.fits hfit.2⟩

theorem exists_respaced : (pieces : List Piece) → {ys : List Lexeme} →
    List.Forall₂ Lexeme.Wider (lexemesOf pieces) ys →
      ∃ pieces', lexemesOf pieces' = ys ∧ Respaced pieces pieces'
  | [], _, h => by
    cases h
    exact ⟨[], rfl, .refl []⟩
  | piece :: rest, _, h => by
    obtain ⟨_, _, hpiece, hrest, rfl⟩ := exists_of_forall₂_append h
    obtain ⟨piece', rfl, hfirst⟩ := piece.exists_respaced hpiece
    obtain ⟨rest', rfl, hothers⟩ := exists_respaced rest hrest
    exact ⟨piece' :: rest', rfl, hfirst.append hothers⟩

theorem exists_branchesRespaced : (entries : List (BranchHead × List Piece)) →
    {ys : List Lexeme} → List.Forall₂ Lexeme.Wider (branchLexemes entries) ys →
      ∃ entries', branchLexemes entries' = ys ∧ BranchesRespaced entries entries'
  | [], _, h => by
    cases h
    exact ⟨[], rfl, rfl, rfl, id, id, id⟩
  | (head, body) :: rest, _, h => by
    obtain ⟨before, _, hbefore, hbrace, rfl⟩ := exists_of_wider_spaced h
    obtain ⟨after, _, -, hcontent, rfl⟩ := exists_of_wider_spaced hbrace
    obtain ⟨_, _, hbody, hclose, rfl⟩ := exists_of_forall₂_append hcontent
    obtain ⟨_, hrest, rfl⟩ := exists_of_wider_tight hclose
    obtain ⟨body', rfl, hsame⟩ := exists_respaced body hbody
    obtain ⟨rest', rfl, hothers⟩ := exists_branchesRespaced rest hrest
    refine ⟨(⟨before, head.source, after⟩, body') :: rest', rfl, ?_, ?_, ?_, ?_, ?_⟩
    · rw [branchPairs, branchPairs, hsame.atoms_eq, hothers.pairs_eq]
    · rw [branchDepth, branchDepth, hsame.depth_eq, hothers.depth_eq]
    · exact fun hfit => ⟨hsame.fits _ hfit.1, hothers.fits hfit.2⟩
    · exact fun _ => List.cons_ne_nil _ _
    · obtain ⟨c, t, hkey⟩ := List.exists_cons_of_ne_nil head.source.chars_ne_nil
      simp only [branchChars, BranchHead.chars, List.append_assoc, hkey]
      exact stops_widen hbefore rfl

end

/-! ## Patterns -/

/-- A derivation of a pattern with no more than `room` arguments open at once. -/
structure IsDerivation (room : Nat) (pieces : List Piece) (pattern : List Char) : Prop where
  spells : charsOf pieces = pattern
  fits : FitAll none pieces
  depth_le : depthOf pieces ≤ room

/-- Blanks that are put in at places leave a derivation of the same message. -/
theorem IsDerivation.exists_insertBlanks {room : Nat} {pieces : List Piece} {pattern : List Char}
    (h : IsDerivation room pieces pattern) {extra : Nat → Blanks}
    (hplaces : ∀ k, (extra k).chars ≠ [] → k ∈ placesOf pieces) :
    Derives room (insertBlanks extra 0 pattern) (messageOf pieces) := by
  obtain ⟨pieces', hlexemes, hsame⟩ := exists_respaced pieces (wider_widened extra 0 _)
  refine ⟨pieces', ?_, hsame.fits none h.fits, hsame.depth_eq ▸ h.depth_le, ?_⟩
  · rw [← spell_lexemesOf, hlexemes, spell_widened fun k _ => hplaces k, spell_lexemesOf, h.spells]
  · rw [messageOf, hsame.atoms_eq, messageOf]

/-- A pattern that is parsed has a derivation, and whatever blanks are put in at places of one, any
number of them at any number of places, it is parsed as the same message. -/
theorem Parser.parse_insertBlanks (p : Parser) (hsize : p.maxSourceSize ≤ 0) {pattern : String}
    {nodes : Message} (hparse : p.parse pattern = .ok nodes) :
    (∃ pieces, IsDerivation p.maxNestingDepth.toNat pieces pattern.toList) ∧
      ∀ pieces, IsDerivation p.maxNestingDepth.toNat pieces pattern.toList →
        ∀ extra : Nat → Blanks, (∀ k, (extra k).chars ≠ [] → k ∈ placesOf pieces) →
          p.parse (String.ofList (insertBlanks extra 0 pattern.toList)) = .ok nodes := by
  have hderives := (p.parse_eq_ok_iff_derives hsize pattern nodes).1 hparse
  refine ⟨?_, fun pieces hpieces extra hplaces => ?_⟩
  · obtain ⟨pieces, hspell, hfit, hdepth, -⟩ := hderives
    exact ⟨pieces, hspell, hfit, hdepth⟩
  · have hmessage : messageOf pieces = nodes :=
      Derives.unique ⟨pieces, hpieces.spells, hpieces.fits, hpieces.depth_le, rfl⟩ hderives
    rw [p.parse_eq_ok_iff_derives hsize, String.toList_ofList, ← hmessage]
    exact hpieces.exists_insertBlanks hplaces

/-- A blank at every place, around every token of two arguments, one inside the other. -/
theorem Parser.parse_insertBlanks_everywhere :
    let p : Parser := ⟨0, 2, by decide⟩
    let space : Blanks := ⟨[' '], List.forall_mem_singleton.2 (by decide)⟩
    let word (c : Char) (h : isIdentifierChar c = true) : Word :=
      ⟨[c], List.cons_ne_nil c [], List.forall_mem_singleton.2 h⟩
    let one : Numeral :=
      ⟨false, ['1'], List.cons_ne_nil _ _, List.forall_mem_singleton.2 (by decide), by decide⟩
    let inner : Piece := .argument (.bare ⟨.none, word 'g' (by decide), .none⟩)
    let offset : OffsetSource := ⟨.none, .none, one⟩
    let branch : BranchHead := ⟨.none, .word (word 'x' (by decide)), .none⟩
    let pieces : List Piece := [.argument (.plural ⟨.none, word 'n' (by decide), .none⟩ .none
      .cardinal .none (some offset) [(branch, [inner])] .none)]
    let extra (k : Nat) : Blanks := if k ∈ placesOf pieces then space else .none
    IsDerivation 2 pieces "{n,plural,offset:1x{{g}}}".toList ∧
      p.parse "{n,plural,offset:1x{{g}}}" =
        .ok [.plural .cardinal "n" 1 ⟨[(.name "x", [.argument "g"])]⟩] ∧
      insertBlanks extra 0 "{n,plural,offset:1x{{g}}}".toList =
        "{ n , plural , offset: 1 x {{ g }} }".toList ∧
      p.parse "{ n , plural , offset: 1 x {{ g }} }" =
        .ok [.plural .cardinal "n" 1 ⟨[(.name "x", [.argument "g"])]⟩] := by
  intro p space word one inner offset branch pieces extra
  have hderivation : IsDerivation 2 pieces "{n,plural,offset:1x{{g}}}".toList := by
    have hstops : Stops isAsciiDigit (branchChars [(branch, [inner])]) := stops_cons.2 (by decide)
    have hbranches : BranchesFit [(branch, [inner])] := ⟨⟨trivial, trivial⟩, trivial⟩
    exact ⟨by decide +kernel, ⟨⟨List.cons_ne_nil _ _, fun _ => hstops, hbranches⟩, trivial⟩,
      by decide⟩
  have hparse : p.parse "{n,plural,offset:1x{{g}}}" =
      .ok [.plural .cardinal "n" 1 ⟨[(.name "x", [.argument "g"])]⟩] := by
    decide +kernel
  have hinsert : insertBlanks extra 0 "{n,plural,offset:1x{{g}}}".toList =
      "{ n , plural , offset: 1 x {{ g }} }".toList := by
    decide +kernel
  refine ⟨hderivation, hparse, hinsert, ?_⟩
  have hplaces : ∀ k, (extra k).chars ≠ [] → k ∈ placesOf pieces := by
    intro k hextra
    refine Decidable.byContradiction fun hmem => hextra ?_
    rw [show extra k = .none from if_neg hmem]
    rfl
  have hsame := (p.parse_insertBlanks (by decide) hparse).2 pieces hderivation extra hplaces
  rwa [hinsert, String.ofList_toList] at hsame

end Phrasebook.Pattern
