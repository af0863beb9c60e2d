/-
  What was derived is read.

  The rules read a derivation from its text whatever text stands behind it, as
  long as the message ends there.  As for soundness, arguments come first, over
  any complete rule for the bodies of their branches, and the bound on nesting
  carries the induction (`message_complete`).

  A rule takes the longest token.  Inside an argument the character behind a
  token is never one that would go on with it: blanks, commas and braces are in
  no token.  The one exception is the numeral of an offset, for which
  derivations have a condition.
-/
import Phrasebook.Proofs.Pattern.Pieces
import Phrasebook.Proofs.Pattern.Soundness

set_option autoImplicit false

namespace Phrasebook.Pattern

open Phrasebook.Text

/-! ## What completeness says -/

/-- A rule for messages that reads every derivation in front of every end. -/
def CompleteMessage (room : Nat) (inBranch : Bool) (rule : Reader Message) : Prop :=
  ∀ (pieces : List Piece) (rest : List Char), Ends inBranch rest → FitAll rest.head? pieces →
    depthOf pieces ≤ room → rule.run (charsOf pieces ++ rest) = .ok (messageOf pieces, rest)

/-- The same of the rule for arguments, in front of every text. -/
def CompleteArgument (limit : Int) (room : Nat) (body : Option (Reader Message)) : Prop :=
  ∀ (source : ArgumentSource) (rest : List Char), source.Fits → source.depth ≤ room →
    argument limit body (source.chars ++ rest) = .ok (source.node, rest)

/-! ## Tokens between blanks -/

theorem skipBlanks_of_stops {opened s : List Char} (b : Blanks) (hne : s ≠ [])
    (hs : Stops isBlank s) : skipBlanks opened (b.chars ++ s) = .ok s :=
  skipBlanks_eq_ok_iff.2 ⟨b, rfl, hne, hs⟩

theorem skipBlanks_cons {opened : List Char} (b : Blanks) {c : Char} (hc : isBlank c = false)
    (s : List Char) : skipBlanks opened (b.chars ++ c :: s) = .ok (c :: s) :=
  skipBlanks_of_stops b (List.cons_ne_nil c s) (stops_cons.2 hc)

theorem skipBlanks_self {opened : List Char} {c : Char} (hc : isBlank c = false)
    (s : List Char) : skipBlanks opened (c :: s) = .ok (c :: s) :=
  skipBlanks_cons ⟨[], nofun⟩ hc s

theorem skipBlanks_word {opened : List Char} (b : Blanks) (w : Word) (s : List Char) :
    skipBlanks opened (b.chars ++ (w.chars ++ s)) = .ok (w.chars ++ s) :=
  skipBlanks_of_stops b (fun h => w.ne_nil (List.append_eq_nil_iff.1 h).1) (w.stops_blank s)

theorem skipBlanks_numeral {opened : List Char} (b : Blanks) (n : Numeral) (s : List Char) :
    skipBlanks opened (b.chars ++ (n.chars ++ s)) = .ok (n.chars ++ s) := by
  obtain ⟨c, rest, hn, -⟩ := n.exists_chars_eq_cons
  exact skipBlanks_of_stops b (fun h => by simp [hn] at h) (n.stops_blank s)

theorem identifier_word (w : Word) (b : Blanks) {s : List Char}
    (hs : Stops isIdentifierChar s) :
    identifier (w.chars ++ (b.chars ++ s)) = .ok (w.name, b.chars ++ s) :=
  identifier_eq_ok_iff.2 ⟨w, rfl, rfl, b.stops_identifier hs⟩

/-! ## Keys -/

/-- A key begins with no blank and no brace. -/
theorem KeySource.exists_chars_eq_cons (source : KeySource) :
    ∃ c rest, source.chars = c :: rest ∧ isBlank c = false ∧ c ≠ '}' := by
  cases source with
  | word w =>
    obtain ⟨c, rest, hw, hc⟩ := w.exists_chars_eq_cons
    refine ⟨c, rest, hw, isBlank_of_isIdentifierChar hc, ?_⟩
    rintro rfl
    revert hc
    decide
  | exact n => exact ⟨'=', n.chars, rfl, by decide, by decide⟩

theorem branchChars_ne_nil {entries : List (BranchHead × List Piece)} (h : entries ≠ []) :
    branchChars entries ≠ [] := by
  obtain ⟨⟨head, pieces⟩, more, rfl⟩ := List.exists_cons_of_ne_nil h
  obtain ⟨c, t, hsource, -, -⟩ := head.source.exists_chars_eq_cons
  simp [branchChars, BranchHead.chars, hsource]

theorem KeySource.stops_blank (source : KeySource) (s : List Char) :
    Stops isBlank (source.chars ++ s) := by
  obtain ⟨c, rest, hsource, hc, -⟩ := source.exists_chars_eq_cons
  rw [hsource]
  exact stops_cons.2 hc

theorem KeySource.stops_letters (source : KeySource) {s : List Char}
    (h : Stops isIdentifierChar s) : Stops source.letters s := by
  cases source with
  | word w => exact h
  | exact n => exact h.digit

theorem branchKey_source (source : KeySource) (b : Blanks) {c : Char}
    (hc : isIdentifierChar c = false) (s : List Char) :
    branchKey (source.chars ++ (b.chars ++ c :: s)) = .ok (source.key, b.chars ++ c :: s) :=
  branchKey_eq_ok_iff.2
    ⟨source, rfl, rfl, source.stops_letters (b.stops_identifier (stops_cons.2 hc))⟩

/-- No key is read as the word of an offset. -/
theorem isPrefixOf?_offsetWord_source (source : KeySource) (b : Blanks) (s : List Char) :
    offsetWord.isPrefixOf? (source.chars ++ (b.chars ++ '{' :: s)) = none := by
  cases hp : offsetWord.isPrefixOf? (source.chars ++ (b.chars ++ '{' :: s)) with
  | none => rfl
  | some rest =>
    have heq := isPrefixOf?_eq_some_iff.1 hp
    cases source with
    | exact n => exact absurd (List.cons.inj heq).1 (by decide)
    | word w =>
      -- the colon would have to stand behind the longest word
      have hbrace : Stops isIdentifierChar ('{' :: s) := stops_cons.2 (by decide)
      have hstop := b.stops_identifier hbrace
      have hdrop := dropWhile_append_of_stops w.letters hstop
      rw [show w.chars = (KeySource.word w).chars from rfl, heq] at hdrop
      have hcolon : (offsetWord ++ rest).dropWhile isIdentifierChar = ':' :: rest := by
        simp only [offsetWord, List.cons_append, List.nil_append]
        repeat rw [List.dropWhile_cons_of_pos (by decide)]
        rw [List.dropWhile_cons_of_neg (by decide)]
      rw [hcolon] at hdrop
      cases hb : b.chars with
      | nil =>
        rw [hb] at hdrop
        exact absurd (List.cons.inj hdrop).1 (by decide)
      | cons c t =>
        rw [hb] at hdrop
        have hblank := b.blank c (hb ▸ List.mem_cons_self)
        rw [← (List.cons.inj hdrop).1] at hblank
        exact absurd hblank (by decide)

/-! ## Clauses -/

theorem styleClause_complete (opened : List Char) (trail : Blanks) (style : Option StyleSource)
    (rest : List Char) :
    styleClause opened (trail.chars ++ (styleChars style ++ '}' :: rest)) =
      .ok (style.map (·.word.name), '}' :: rest) := by
  simp only [styleClause, bind_eq_ok]
  cases style with
  | none =>
    exact ⟨'}' :: rest, skipBlanks_cons trail (by decide) rest, rfl⟩
  | some source =>
    obtain ⟨before, w, after⟩ := source
    have hspell : styleChars (some ⟨before, w, after⟩) ++ '}' :: rest =
        ',' :: (before.chars ++ (w.chars ++ (after.chars ++ '}' :: rest))) := by
      simp [styleChars, StyleSource.chars]
    rw [hspell]
    refine ⟨_, skipBlanks_cons trail (by decide) _, ?_⟩
    simp only [afterComma?, ↓reduceIte, bind_eq_ok, Prod.exists]
    exact ⟨_, skipBlanks_word before w _, _, _, identifier_word w after (stops_cons.2 (by decide)),
      _, skipBlanks_cons after (by decide) rest, rfl⟩

/-- An offset is read, and the blanks behind it are skipped; without one the text stays. -/
theorem offsetClause_complete {s : List Char} (opened : List Char) (source : Option OffsetSource)
    (gap : Blanks) (hne : s ≠ []) (hblank : Stops isBlank s)
    (hnone : offsetWord.isPrefixOf? s = none)
    (hstop : source.isSome = true → Stops isAsciiDigit (gap.chars ++ s)) :
    ∃ t, skipBlanks opened (offsetChars source ++ (gap.chars ++ s)) = .ok t ∧
      offsetClause opened t = .ok ((source.map (·.amount.value)).getD 0, s) := by
  cases source with
  | none =>
    refine ⟨s, skipBlanks_of_stops gap hne hblank, ?_⟩
    simp [offsetClause, hnone]
  | some source =>
    obtain ⟨before, between, amount⟩ := source
    have hspell : offsetChars (some ⟨before, between, amount⟩) ++ (gap.chars ++ s) =
        before.chars ++ (offsetWord ++ (between.chars ++ (amount.chars ++ (gap.chars ++ s)))) := by
      simp [offsetChars, OffsetSource.chars]
    rw [hspell]
    refine ⟨_, skipBlanks_of_stops before (List.cons_ne_nil _ _) (stops_cons.2 (by decide)), ?_⟩
    simp only [offsetClause, isPrefixOf?_eq_some_iff.2 rfl, bind_eq_ok, Prod.exists]
    exact ⟨_, skipBlanks_numeral between amount _, _, _,
      integer_eq_ok_iff.2 ⟨amount, rfl, rfl, hstop rfl⟩, _,
      skipBlanks_of_stops gap hne hblank, rfl⟩

/-! ## Branches -/

section Body

variable {room : Nat} {body : Reader Message}

theorem branch_complete (hbody : CompleteMessage room true body) (opened : List Char)
    (source : KeySource) (after : Blanks) {pieces : List Piece}
    (hfit : FitAll (some '}') pieces) (hdepth : depthOf pieces ≤ room) (rest : List Char) :
    branch body opened
        (source.chars ++ (after.chars ++ '{' :: (charsOf pieces ++ '}' :: rest))) =
      .ok ((source.key, messageOf pieces), rest) := by
  have hend : Ends true ('}' :: rest) := .inr ⟨rfl, rest, rfl⟩
  simp only [branch, bind_eq_ok, Prod.exists]
  exact ⟨_, _, branchKey_source source after (by decide) _, _,
    skipBlanks_cons after (by decide) _, _, expect_eq_ok_iff.2 rfl, _, _,
    hbody pieces ('}' :: rest) hend hfit hdepth, _, rfl, rfl⟩

theorem branchesFrom_cons (typeName : String) (opened : List Char)
    (read : List (BranchKey × Message)) (before : Blanks) {c : Char} (hblank : isBlank c = false)
    (hc : c ≠ '}') (s : List Char) :
    branchesFrom body typeName opened read (before.chars ++ c :: s) =
      match branch body opened (c :: s) with
      | .error e => .error e
      | .ok (pair, rest) => branchesFrom body typeName opened (pair :: read) rest := by
  have hhead : ¬ (some c = some '}') := fun h => hc (Option.some.inj h)
  rw [branchesFrom_append, branchesFrom_step, skipBlanks_self hblank]
  cases hbranch : branch body opened (c :: s) <;>
    simp only [List.head?_cons, hhead, ↓reduceIte, hbranch]

/-- A branch that was derived is read, whatever comes behind it. -/
theorem branchesFrom_entry (hbody : CompleteMessage room true body) (typeName : String)
    (opened : List Char) (read : List (BranchKey × Message)) (head : BranchHead)
    {pieces : List Piece} (hfit : FitAll (some '}') pieces) (hdepth : depthOf pieces ≤ room)
    (s : List Char) :
    branchesFrom body typeName opened read (branchChars [(head, pieces)] ++ s) =
      branchesFrom body typeName opened ((head.source.key, messageOf pieces) :: read) s := by
  obtain ⟨before, source, after⟩ := head
  have hspell : branchChars [(⟨before, source, after⟩, pieces)] ++ s =
      before.chars ++ (source.chars ++ (after.chars ++ '{' :: (charsOf pieces ++ '}' :: s))) := by
    simp [branchChars, BranchHead.chars]
  have hbranch := branch_complete hbody opened source after hfit hdepth s
  obtain ⟨c, t, hsource, hblank, hclose⟩ := source.exists_chars_eq_cons
  rw [hsource, List.cons_append] at hbranch
  rw [hspell, hsource, List.cons_append,
    branchesFrom_cons typeName opened read before hblank hclose, hbranch]

theorem branchesFrom_complete (hbody : CompleteMessage room true body) (typeName : String)
    (opened : List Char) (last : Blanks) (rest : List Char)
    (entries : List (BranchHead × List Piece)) (read : List (BranchKey × Message))
    (hfit : BranchesFit entries) (hdepth : branchDepth entries ≤ room)
    (hne : read = [] → entries ≠ []) :
    branchesFrom body typeName opened read
        (branchChars entries ++ (last.chars ++ '}' :: rest)) =
      .ok (Branches.ofPairs (read.reverse ++ branchPairs entries), '}' :: rest) := by
  induction entries generalizing read with
  | nil =>
    have hread : read.isEmpty = false := by
      rw [Bool.eq_false_iff]
      intro hempty
      exact hne (List.isEmpty_iff.1 hempty) rfl
    rw [branchChars, List.nil_append, branchesFrom_append, branchesFrom_step,
      skipBlanks_self (by decide) rest]
    simp [hread, branchPairs]
  | cons entry more ih =>
    obtain ⟨head, pieces⟩ := entry
    obtain ⟨hfit₁, hfit₂⟩ := hfit
    rw [branchDepth, Nat.max_le] at hdepth
    have hmore := ih ((head.source.key, messageOf pieces) :: read) hfit₂ hdepth.2
      (fun h => absurd h (List.cons_ne_nil _ _))
    rw [← List.singleton_append, branchChars_append, List.append_assoc,
      branchesFrom_entry hbody typeName opened read head hfit₁ hdepth.1, hmore]
    simp [branchPairs, messageOf]

theorem branches_complete (hbody : CompleteMessage room true body) (typeName : String)
    (opened : List Char) (last : Blanks) (rest : List Char)
    {entries : List (BranchHead × List Piece)} (hne : entries ≠ [])
    (hfit : BranchesFit entries) (hdepth : branchDepth entries ≤ room) :
    branches body typeName opened (branchChars entries ++ (last.chars ++ '}' :: rest)) =
      .ok (⟨Entries.tabulate (branchPairs entries)⟩, '}' :: rest) := by
  rw [branches, branchesFrom_complete hbody typeName opened last rest entries [] hfit hdepth
    fun _ => hne]
  rw [List.reverse_nil, List.nil_append, Branches.ofPairs, Entries.ofPairs_eq_tabulate]

/-! ## Arguments -/

/-- The keyword of a type, as a word. -/
def ArgumentType.word (type : ArgumentType) : Word where
  chars := type.keyword.toList
  ne_nil := by
    cases type with
    | formatted kind => cases kind <;> decide
    | plural kind => cases kind <;> decide
    | select => decide
  letters := by
    refine List.all_eq_true.1 ?_
    cases type with
    | formatted kind => cases kind <;> decide
    | plural kind => cases kind <;> decide
    | select => decide

theorem ArgumentType.name_word (type : ArgumentType) : type.word.name = type.keyword :=
  String.ofList_toList

/-- The part of an argument up to the blanks behind its keyword. -/
theorem typedArgument_of_content {opened s rest : List Char} {name : String} {node : Node}
    (lead trail : Blanks) (type : ArgumentType) (hs : Stops isIdentifierChar s)
    (h : content body opened name type (trail.chars ++ s) = .ok (node, '}' :: rest)) :
    typedArgument body opened name
      (lead.chars ++ (type.keyword.toList ++ (trail.chars ++ s))) = .ok (node, rest) := by
  simp only [typedArgument, bind_eq_ok, Prod.exists]
  refine ⟨_, skipBlanks_word lead type.word _, _, _, identifier_word type.word trail hs, ?_⟩
  rw [ArgumentType.name_word, ofKeyword?_keyword]
  simp only [bind_eq_ok, Prod.exists]
  exact ⟨_, _, h, _, closeArgument_eq_ok_iff.2 rfl, rfl⟩

theorem content_formatted_complete (opened : List Char) (name : String) (kind : FormatKind)
    (trail : Blanks) (style : Option StyleSource) (rest : List Char) :
    content body opened name (.formatted kind)
        (trail.chars ++ (styleChars style ++ '}' :: rest)) =
      .ok (.formatted kind name (style.map (·.word.name)), '}' :: rest) := by
  simp only [content, bind_eq_ok, Prod.exists]
  exact ⟨_, _, styleClause_complete opened trail style rest, rfl⟩

theorem content_select_complete (hbody : CompleteMessage room true body) (opened : List Char)
    (name : String) (trail last : Blanks) {entries : List (BranchHead × List Piece)}
    (hne : entries ≠ []) (hfit : BranchesFit entries) (hdepth : branchDepth entries ≤ room)
    (rest : List Char) :
    content body opened name .select
        (trail.chars ++ ',' :: (branchChars entries ++ (last.chars ++ '}' :: rest))) =
      .ok (.select name ⟨Entries.tabulate (branchPairs entries)⟩, '}' :: rest) := by
  simp only [content, bind_eq_ok, Prod.exists]
  exact ⟨_, comma_eq_ok_iff.2 ⟨trail, rfl⟩, _, _,
    branches_complete hbody selectName opened last rest hne hfit hdepth, rfl⟩

theorem content_plural_complete (hbody : CompleteMessage room true body) (opened : List Char)
    (name : String) (kind : PluralKind) (trail last : Blanks) (offset : Option OffsetSource)
    {entries : List (BranchHead × List Piece)} (hne : entries ≠ [])
    (hstop : offset.isSome = true → Stops isAsciiDigit (branchChars entries))
    (hfit : BranchesFit entries) (hdepth : branchDepth entries ≤ room) (rest : List Char) :
    content body opened name (.plural kind)
        (trail.chars ++ ',' :: (offsetChars offset ++
          (branchChars entries ++ (last.chars ++ '}' :: rest)))) =
      .ok (.plural kind name ((offset.map (·.amount.value)).getD 0)
        ⟨Entries.tabulate (branchPairs entries)⟩, '}' :: rest) := by
  have htable := branches_complete hbody kind.name opened last rest hne hfit hdepth
  obtain ⟨entry, more, rfl⟩ := List.exists_cons_of_ne_nil hne
  obtain ⟨⟨before, source, after⟩, pieces⟩ := entry
  -- what follows the offset are the blanks of the first branch and its key
  obtain ⟨s, hs⟩ : ∃ s, branchChars ((⟨before, source, after⟩, pieces) :: more) ++
      (last.chars ++ '}' :: rest) = before.chars ++ (source.chars ++ (after.chars ++ '{' :: s)) :=
    ⟨charsOf pieces ++ '}' :: (branchChars more ++ (last.chars ++ '}' :: rest)),
      by simp [branchChars, BranchHead.chars]⟩
  have hdigit : offset.isSome = true →
      Stops isAsciiDigit (before.chars ++ (source.chars ++ (after.chars ++ '{' :: s))) := by
    intro hsome
    rw [← hs]
    exact (hstop hsome).append (branchChars_ne_nil hne) _
  have hnil : source.chars ++ (after.chars ++ '{' :: s) ≠ [] := by
    obtain ⟨d, t, hsource, -, -⟩ := source.exists_chars_eq_cons
    simp [hsource]
  obtain ⟨t, hskip, hclause⟩ := offsetClause_complete opened offset before hnil
    (source.stops_blank _) (isPrefixOf?_offsetWord_source source after s) hdigit
  rw [hs] at htable ⊢
  rw [branches, branchesFrom_append] at htable
  simp only [content, bind_eq_ok, Prod.exists]
  exact ⟨_, comma_eq_ok_iff.2 ⟨trail, rfl⟩, t, hskip, _, _, hclause, _, _, htable, rfl⟩

/-- The name of an argument is read up to the character behind it. -/
theorem argument_of_head {limit : Int} {head : Head} {s rest : List Char} {c : Char} {node : Node}
    (hblank : isBlank c = false) (hid : isIdentifierChar c = false)
    (h : (match afterComma? (c :: s) with
      | some t => typedArgument body (head.chars ++ c :: s) head.word.name t
      | none => do
        let r ← closeArgument (head.chars ++ c :: s) (c :: s)
        return (.argument head.word.name, r)) = .ok (node, rest)) :
    argument limit (some body) (head.chars ++ c :: s) = .ok (node, rest) := by
  have hdrop : (head.chars ++ c :: s).drop 1 =
      head.before.chars ++ (head.word.chars ++ (head.after.chars ++ c :: s)) := by
    simp [Head.chars]
  simp only [argument, hdrop, bind_eq_ok, Prod.exists]
  exact ⟨_, skipBlanks_word head.before head.word _, _, _,
    identifier_word head.word head.after (stops_cons.2 hid), _,
    skipBlanks_cons head.after hblank s, h⟩

/-- An argument with a type is read if what belongs to the type is. -/
theorem argument_of_content {limit : Int} {head : Head} {lead trail : Blanks}
    {type : ArgumentType} {s rest : List Char} {node : Node} (hs : Stops isIdentifierChar s)
    (h : ∀ opened, content body opened head.word.name type (trail.chars ++ s) =
      .ok (node, '}' :: rest)) :
    argument limit (some body)
      (head.chars ++ ',' :: (lead.chars ++ (type.keyword.toList ++ (trail.chars ++ s)))) =
        .ok (node, rest) := by
  refine argument_of_head (by decide) (by decide) ?_
  simp only [afterComma?, ↓reduceIte]
  exact typedArgument_of_content lead trail type hs (h _)

theorem argument_complete (limit : Int) (hbody : CompleteMessage room true body) :
    CompleteArgument limit (room + 1) (some body) := by
  intro source rest hfit hdepth
  cases source with
  | bare head =>
    have hspell : (ArgumentSource.bare head).chars ++ rest = head.chars ++ '}' :: rest := by
      simp [ArgumentSource.chars]
    rw [hspell]
    refine argument_of_head (by decide) (by decide) ?_
    rw [afterComma?_eq_none_of_head (by decide)]
    simp [closeArgument, expect, ArgumentSource.node, bind, Except.bind, pure, Except.pure]
  | formatted head lead kind trail style =>
    have hspell : (ArgumentSource.formatted head lead kind trail style).chars ++ rest =
        head.chars ++ ',' :: (lead.chars ++ ((ArgumentType.formatted kind).keyword.toList ++
          (trail.chars ++ (styleChars style ++ '}' :: rest)))) := by
      simp [ArgumentSource.chars, ArgumentType.keyword]
    have hstyle : Stops isIdentifierChar (styleChars style ++ '}' :: rest) := by
      cases style with
      | none => exact stops_cons.2 (by decide)
      | some source => exact stops_cons.2 (by decide)
    rw [hspell]
    exact argument_of_content hstyle fun opened =>
      content_formatted_complete opened head.word.name kind trail style rest
  | plural head lead kind trail offset entries last =>
    obtain ⟨hne, hstop, hfits⟩ := hfit
    have hspell : (ArgumentSource.plural head lead kind trail offset entries last).chars ++ rest =
        head.chars ++ ',' :: (lead.chars ++ ((ArgumentType.plural kind).keyword.toList ++
          (trail.chars ++ ',' :: (offsetChars offset ++
            (branchChars entries ++ (last.chars ++ '}' :: rest)))))) := by
      simp [ArgumentSource.chars, ArgumentType.keyword]
    rw [hspell]
    exact argument_of_content (stops_cons.2 (by decide)) fun opened =>
      content_plural_complete hbody opened head.word.name kind trail last offset hne hstop hfits
        (Nat.le_of_succ_le_succ hdepth) rest
  | select head lead trail entries last =>
    obtain ⟨hne, hfits⟩ := hfit
    have hspell : (ArgumentSource.select head lead trail entries last).chars ++ rest =
        head.chars ++ ',' :: (lead.chars ++ (ArgumentType.select.keyword.toList ++
          (trail.chars ++ ',' :: (branchChars entries ++ (last.chars ++ '}' :: rest))))) := by
      simp [ArgumentSource.chars, ArgumentType.keyword]
    rw [hspell]
    exact argument_of_content (stops_cons.2 (by decide)) fun opened =>
      content_select_complete hbody opened head.word.name trail last hne hfits
        (Nat.le_of_succ_le_succ hdepth) rest

end Body

/-! ## Messages -/

/-- An apostrophe with what belongs to it is read as the piece it is meant as. -/
theorem scan_quoted {limit : Int} {body : Option (Reader Message)} {inBranch closed : Bool}
    (span : Quoted) {s : List Char} (hs : closed = false → s = []) :
    scan limit body inBranch ((Piece.quoted span closed).chars ++ s) =
      putAtoms (Piece.quoted span closed).atoms (scan limit body inBranch s) := by
  obtain ⟨c, rest, hspan, hc⟩ := span.opens
  have hne : c ≠ '\'' := by
    rintro rfl
    revert hc
    decide
  have hall : ∀ d ∈ span.chars, (fun x => decide (x ≠ '\'')) d = true := by
    intro d hd
    exact decide_eq_true fun h => span.closes (h ▸ hd)
  have hquot : ∀ t : List Char, Stops (fun x => decide (x ≠ '\'')) t →
      quotation (span.chars ++ t) = (String.ofList span.chars, t.drop 1) := by
    intro t ht
    have htake := takeWhile_append_of_stops hall ht
    have hdrop := dropWhile_append_of_stops hall ht
    rw [hspan, List.cons_append] at htake hdrop ⊢
    simp only [quotation, hne, hc, ↓reduceIte, htake, hdrop]
  cases closed with
  | true =>
    have hspell : (Piece.quoted span true).chars ++ s =
        '\'' :: (span.chars ++ '\'' :: s) := by
      simp [Piece.chars]
    rw [hspell, scan_apostrophe, hquot ('\'' :: s) (stops_cons.2 (by decide))]
    simp [Piece.atoms]
  | false =>
    have hspell : (Piece.quoted span false).chars ++ s = '\'' :: (span.chars ++ []) := by
      simp [Piece.chars, hs rfl]
    rw [hspell, scan_apostrophe, hquot [] (stops_nil _), hs rfl]
    simp [Piece.atoms]

theorem scan_piece {limit : Int} {room : Nat} {body : Option (Reader Message)}
    (harg : CompleteArgument limit room body) (inBranch : Bool) {piece : Piece} {s : List Char}
    (hfit : piece.Fits s.head?) (hdepth : piece.depth ≤ room) :
    scan limit body inBranch (piece.chars ++ s) =
      putAtoms piece.atoms (scan limit body inBranch s) := by
  cases piece with
  | literal c => exact scan_plain c.plain s
  | doubled =>
    have hquot : quotation ('\'' :: s) = ("'", s) := by simp [quotation]
    have hscan := scan_apostrophe limit body inBranch ('\'' :: s)
    rw [hquot] at hscan
    simpa [Piece.chars, Piece.atoms] using hscan
  | quoted span closed =>
    refine scan_quoted span ?_
    intro hopen
    exact List.head?_eq_none_iff.1 (hfit hopen)
  | lone =>
    have hquot : quotation s = ("'", s) := by
      cases s with
      | nil => rfl
      | cons c t =>
        obtain ⟨hne, hc⟩ := hfit c rfl
        simp [quotation, hne, hc]
    have hscan := scan_apostrophe limit body inBranch s
    rw [hquot] at hscan
    simpa [Piece.chars, Piece.atoms] using hscan
  | argument source =>
    have hread := harg source s hfit hdepth
    have hopen : ∃ t, (Piece.argument source).chars ++ s = '{' :: t := by
      cases source <;> exact ⟨_, rfl⟩
    obtain ⟨t, ht⟩ := hopen
    rw [← show (Piece.argument source).chars = source.chars from rfl, ht] at hread
    rw [ht, scan_open_of_ok hread]
    cases source <;> rfl

/-- Behind a derivation that fits what follows, a message goes on as the message that follows. -/
theorem scan_behind {limit : Int} {room : Nat} {body : Option (Reader Message)}
    (harg : CompleteArgument limit room body) (inBranch : Bool) {s : List Char}
    (pieces : List Piece) (hfit : FitAll s.head? pieces) (hdepth : depthOf pieces ≤ room) :
    scan limit body inBranch (charsOf pieces ++ s) =
      putAtoms (atomsOf pieces) (scan limit body inBranch s) := by
  induction pieces with
  | nil =>
    rw [charsOf, List.nil_append, atomsOf]
    cases scan limit body inBranch s <;> rfl
  | cons piece more ih =>
    obtain ⟨hpiece, hmore⟩ := hfit
    rw [← List.head?_append] at hpiece
    rw [depthOf] at hdepth
    rw [charsOf, List.append_assoc,
      scan_piece harg inBranch hpiece (Nat.le_trans (Nat.le_max_left _ _) hdepth),
      ih hmore (Nat.le_trans (Nat.le_max_right _ _) hdepth), atomsOf, putAtoms_append]

theorem scan_complete {limit : Int} {room : Nat} {body : Option (Reader Message)}
    (harg : CompleteArgument limit room body) {inBranch : Bool} {rest : List Char}
    (hend : Ends inBranch rest) (pieces : List Piece) (hfit : FitAll rest.head? pieces)
    (hdepth : depthOf pieces ≤ room) :
    scan limit body inBranch (charsOf pieces ++ rest) = .ok (atomsOf pieces, rest) := by
  have hrest : scan limit body inBranch rest = .ok ([], rest) := by
    rcases hend with rfl | ⟨rfl, r, rfl⟩
    · exact scan_nil
    · exact scan_close r
  rw [scan_behind harg inBranch pieces hfit hdepth, hrest, putAtoms_ok, List.append_nil]

theorem messageOver_complete {limit : Int} {room : Nat} {body : Option (Reader Message)}
    (harg : CompleteArgument limit room body) (inBranch : Bool) :
    CompleteMessage room inBranch (messageOver limit body inBranch) := by
  intro pieces rest hend hfit hdepth
  rw [messageOver_run, scan_complete harg hend pieces hfit hdepth]
  rfl

/-- No argument is so shallow that nothing is open in it. -/
theorem completeArgument_zero (limit : Int) (body : Option (Reader Message)) :
    CompleteArgument limit 0 body := by
  intro source rest _ hdepth
  cases source <;> cases hdepth

/-- Every derivation is read, within the same bound on nesting. -/
theorem message_complete (limit : Int) (room : Nat) (inBranch : Bool) :
    CompleteMessage room inBranch (message limit room inBranch) := by
  induction room generalizing inBranch with
  | zero =>
    rw [message_eq]
    exact messageOver_complete (completeArgument_zero limit none) inBranch
  | succ room ih =>
    rw [message_eq]
    exact messageOver_complete (argument_complete limit (ih true)) inBranch

theorem completeArgument_bodyWithin (limit : Int) (room : Nat) :
    CompleteArgument limit room (bodyWithin limit room) := by
  cases room with
  | zero => exact completeArgument_zero limit none
  | succ room => exact argument_complete limit (message_complete limit room true)

end Phrasebook.Pattern
