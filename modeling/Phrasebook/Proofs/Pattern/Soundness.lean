/-
  What is read was derived.

  Whatever a rule of the grammar accepts at the front of a text is spelled by a
  derivation, and the value it gives is what the derivation stands for.  The
  rules for arguments are shown sound over any sound rule for the bodies of
  their branches; the bound on nesting then carries the induction
  (`message_sound`).
-/
import Phrasebook.Proofs.Pattern.Derivation
import Phrasebook.Proofs.Pattern.Scan

set_option autoImplicit false

namespace Phrasebook.Pattern

open Phrasebook.Text

/-! ## What soundness says -/

/-- Where a message ends: at the end of the text, or inside a branch at a closing brace. -/
def Ends (inBranch : Bool) (rest : List Char) : Prop :=
  rest = [] ∨ inBranch = true ∧ ∃ r, rest = '}' :: r

/-- A rule for messages that reads what derivations spell, and nothing else. -/
def SoundMessage (room : Nat) (inBranch : Bool) (rule : Reader Message) : Prop :=
  ∀ (s : List Char) (message : Message) (rest : List Char), rule.run s = .ok (message, rest) →
    Ends inBranch rest ∧ ∃ pieces, s = charsOf pieces ++ rest ∧ FitAll rest.head? pieces ∧
      depthOf pieces ≤ room ∧ messageOf pieces = message

/-- The same of the rule for arguments, over a rule for the bodies of their branches. -/
def SoundArgument (limit : Int) (room : Nat) (body : Option (Reader Message)) : Prop :=
  ∀ (s : List Char) (node : Node) (rest : List Char),
    argument limit body ('{' :: s) = .ok (node, rest) →
      ∃ source : ArgumentSource, '{' :: s = source.chars ++ rest ∧ source.Fits ∧
        source.depth ≤ room ∧ source.node = node

/-! ## Keys and clauses -/

/-- The characters that would go on a key. -/
def KeySource.letters : KeySource → Char → Bool
  | .word _ => isIdentifierChar
  | .exact _ => isAsciiDigit

theorem branchKey_exact (s : List Char) :
    branchKey ('=' :: s) = (integer s).map fun r => (.exact r.1, r.2) := by
  unfold branchKey
  rfl

theorem branchKey_of_head?_ne {s : List Char} (hs : s.head? ≠ some '=') :
    branchKey s = (identifier s).map fun r => (.name r.1, r.2) := by
  unfold branchKey
  cases s with
  | nil => rfl
  | cons c t =>
    have hc : c ≠ '=' := fun h => hs (congrArg some h)
    exact if_neg hc

theorem Word.head?_append_ne (w : Word) (s : List Char) : (w.chars ++ s).head? ≠ some '=' := by
  obtain ⟨c, t, hw, hc⟩ := w.exists_chars_eq_cons
  rw [hw]
  intro h
  cases Option.some.inj h
  revert hc
  decide

/-- A key is read as far as its characters go. -/
theorem branchKey_eq_ok_iff {s rest : List Char} {key : BranchKey} :
    branchKey s = .ok (key, rest) ↔
      ∃ source : KeySource, s = source.chars ++ rest ∧ source.key = key ∧
        Stops source.letters rest := by
  constructor
  · intro h
    by_cases hs : s.head? = some '='
    · obtain ⟨t, rfl⟩ : ∃ t, s = '=' :: t := by
        cases s with
        | nil => cases hs
        | cons c t => cases Option.some.inj hs; exact ⟨t, rfl⟩
      rw [branchKey_exact] at h
      obtain ⟨⟨n, r⟩, hn, hr⟩ := map_eq_ok.1 h
      cases hr
      obtain ⟨m, rfl, hv, hstop⟩ := integer_eq_ok_iff.1 hn
      exact ⟨.exact m, rfl, congrArg BranchKey.exact hv, hstop⟩
    · rw [branchKey_of_head?_ne hs] at h
      obtain ⟨⟨name, r⟩, hn, hr⟩ := map_eq_ok.1 h
      cases hr
      obtain ⟨w, rfl, hv, hstop⟩ := identifier_eq_ok_iff.1 hn
      exact ⟨.word w, rfl, congrArg BranchKey.name hv, hstop⟩
  · rintro ⟨source, rfl, rfl, hstop⟩
    cases source with
    | word w =>
      have hid : identifier (w.chars ++ rest) = .ok (w.name, rest) :=
        identifier_eq_ok_iff.2 ⟨w, rfl, rfl, hstop⟩
      rw [KeySource.chars, branchKey_of_head?_ne (w.head?_append_ne rest), hid]
      rfl
    | exact m =>
      have hint : integer (m.chars ++ rest) = .ok (m.value, rest) :=
        integer_eq_ok_iff.2 ⟨m, rfl, rfl, hstop⟩
      rw [KeySource.chars, List.cons_append, branchKey_exact, hint]
      rfl

theorem styleClause_sound {opened s rest : List Char} {style : Option String}
    (h : styleClause opened s = .ok (style, rest)) :
    ∃ (trail : Blanks) (source : Option StyleSource),
      s = trail.chars ++ (styleChars source ++ rest) ∧ source.map (·.word.name) = style := by
  simp only [styleClause, bind_eq_ok] at h
  obtain ⟨s₁, h₁, h⟩ := h
  obtain ⟨trail, rfl, -, -⟩ := skipBlanks_eq_ok_iff.1 h₁
  split at h
  · cases h
    exact ⟨trail, none, rfl, rfl⟩
  · rename_i s₂ h₂
    simp only [bind_eq_ok, Prod.exists, pure, Except.pure, Except.ok.injEq, Prod.mk.injEq] at h
    obtain ⟨s₃, h₃, name, s₄, h₄, r, h₅, rfl, rfl⟩ := h
    obtain ⟨before, rfl, -, -⟩ := skipBlanks_eq_ok_iff.1 h₃
    obtain ⟨w, rfl, rfl, -⟩ := identifier_eq_ok_iff.1 h₄
    obtain ⟨after, rfl, -, -⟩ := skipBlanks_eq_ok_iff.1 h₅
    rw [afterComma?_eq_some_iff.1 h₂]
    refine ⟨trail, some ⟨before, w, after⟩, ?_, rfl⟩
    simp [styleChars, StyleSource.chars]

/-- The offset in front of branches, with all blanks that stand in front of the branches given
back to them. -/
theorem offsetClause_sound {opened s rest : List Char} {offset : Int} (before : Blanks)
    (h : offsetClause opened s = .ok (offset, rest)) :
    ∃ (source : Option OffsetSource) (gap : Blanks),
      before.chars ++ s = offsetChars source ++ (gap.chars ++ rest) ∧
        (source.map (·.amount.value)).getD 0 = offset ∧
        (source.isSome = true → Stops isAsciiDigit (gap.chars ++ rest)) := by
  simp only [offsetClause] at h
  split at h
  · cases h
    exact ⟨none, before, rfl, rfl, fun h => by cases h⟩
  · rename_i s₁ h₁
    simp only [bind_eq_ok, Prod.exists, pure, Except.pure, Except.ok.injEq, Prod.mk.injEq] at h
    obtain ⟨s₂, h₂, n, s₃, h₃, r, h₄, rfl, rfl⟩ := h
    obtain ⟨between, rfl, -, -⟩ := skipBlanks_eq_ok_iff.1 h₂
    obtain ⟨amount, rfl, rfl, hstop⟩ := integer_eq_ok_iff.1 h₃
    obtain ⟨gap, rfl, -, -⟩ := skipBlanks_eq_ok_iff.1 h₄
    rw [isPrefixOf?_eq_some_iff.1 h₁]
    refine ⟨some ⟨before, between, amount⟩, gap, ?_, rfl, fun _ => hstop⟩
    simp [offsetChars, OffsetSource.chars]

/-! ## Branches -/

section Body

variable {room : Nat} {body : Reader Message}

/-- One branch, behind the blanks in front of it. -/
theorem branch_sound (hbody : SoundMessage room true body) {opened s rest : List Char}
    {pair : BranchKey × Message} (h : branch body opened s = .ok (pair, rest)) (before : Blanks) :
    ∃ entry : BranchHead × List Piece,
      before.chars ++ s = branchChars [entry] ++ rest ∧ FitAll (some '}') entry.2 ∧
        depthOf entry.2 ≤ room ∧ (entry.1.source.key, messageOf entry.2) = pair := by
  simp only [branch, bind_eq_ok, Prod.exists, pure, Except.pure, Except.ok.injEq,
    Prod.mk.injEq] at h
  obtain ⟨key, s₁, h₁, s₂, h₂, s₃, h₃, message, s₄, h₄, r, h₅, hpair, rfl⟩ := h
  obtain ⟨source, rfl, rfl, -⟩ := branchKey_eq_ok_iff.1 h₁
  obtain ⟨after, rfl, -, -⟩ := skipBlanks_eq_ok_iff.1 h₂
  rw [expect_eq_ok h₃]
  obtain ⟨hend, pieces, rfl, hfit, hdepth, hmessage⟩ := hbody _ _ _ h₄
  cases s₄ with
  | nil => simp [closeBody] at h₅
  | cons c t =>
    simp only [closeBody, Except.ok.injEq] at h₅
    subst h₅
    have hc : c = '}' := by
      rcases hend with hnil | ⟨-, r, hr⟩
      · cases hnil
      · exact (List.cons.inj hr).1
    subst hc
    refine ⟨(⟨before, source, after⟩, pieces), ?_, hfit, hdepth, ?_⟩
    · simp [branchChars, BranchHead.chars]
    · rw [← hpair, ← hmessage]

theorem branchesFrom_sound (hbody : SoundMessage room true body) {typeName : String}
    {opened : List Char} (read : List (BranchKey × Message)) (s : List Char)
    {table : Branches Message} {rest : List Char}
    (h : branchesFrom body typeName opened read s = .ok (table, rest)) :
    ∃ (branches : List (BranchHead × List Piece)) (last : Blanks),
      s = branchChars branches ++ (last.chars ++ rest) ∧ BranchesFit branches ∧
        branchDepth branches ≤ room ∧
        table = Branches.ofPairs (read.reverse ++ branchPairs branches) ∧
        (read = [] → branches ≠ []) := by
  fun_induction branchesFrom body typeName opened read s with
  | case1 => cases h
  | case2 => cases h
  | case3 read s s₁ h₁ hclose hread =>
    cases h
    obtain ⟨last, rfl, -, -⟩ := skipBlanks_eq_ok_iff.1 h₁
    refine ⟨[], last, rfl, trivial, Nat.zero_le room, by simp [branchPairs], ?_⟩
    rintro rfl
    exact absurd rfl hread
  | case4 => cases h
  | case5 read s s₁ h₁ hclose pair s₂ h₂ ih =>
    obtain ⟨before, rfl, -, -⟩ := skipBlanks_eq_ok_iff.1 h₁
    obtain ⟨entry, hspell, hfit, hdepth, hpair⟩ := branch_sound hbody h₂ before
    obtain ⟨branches, last, hrest, hfits, hdepths, htable, -⟩ := ih h
    obtain ⟨head, pieces⟩ := entry
    refine ⟨(head, pieces) :: branches, last, ?_, ⟨hfit, hfits⟩, ?_, ?_, ?_⟩
    · rw [hspell, hrest]
      simp [branchChars]
    · rw [branchDepth]
      exact Nat.max_le.2 ⟨hdepth, hdepths⟩
    · rw [htable, branchPairs, List.reverse_cons, List.append_assoc, List.singleton_append,
        ← hpair]
      rfl
    · intro _
      exact List.cons_ne_nil _ _

/-- The table that the rule for branches builds is the one that its pairs tabulate. -/
theorem branches_sound (hbody : SoundMessage room true body) {typeName : String}
    {opened s rest : List Char} {table : Branches Message}
    (h : branches body typeName opened s = .ok (table, rest)) :
    ∃ (branches : List (BranchHead × List Piece)) (last : Blanks),
      s = branchChars branches ++ (last.chars ++ rest) ∧ branches ≠ [] ∧ BranchesFit branches ∧
        branchDepth branches ≤ room ∧ table = ⟨Entries.tabulate (branchPairs branches)⟩ := by
  obtain ⟨branches, last, hspell, hfit, hdepth, htable, hne⟩ := branchesFrom_sound hbody [] s h
  refine ⟨branches, last, hspell, hne rfl, hfit, hdepth, ?_⟩
  rw [htable, List.reverse_nil, List.nil_append, Branches.ofPairs, Entries.ofPairs_eq_tabulate]

/-! ## Arguments -/

/-- The keyword of a type. -/
def ArgumentType.keyword : ArgumentType → String
  | .formatted kind => kind.name
  | .plural kind => kind.name
  | .select => selectName

theorem ofKeyword?_keyword (type : ArgumentType) :
    ArgumentType.ofKeyword? type.keyword = some type := by
  cases type with
  | formatted kind => cases kind <;> decide
  | plural kind => cases kind <;> decide
  | select => decide

theorem keyword_of_ofKeyword? {keyword : String} {type : ArgumentType}
    (h : ArgumentType.ofKeyword? keyword = some type) : type.keyword = keyword := by
  unfold ArgumentType.ofKeyword? at h
  split_ifs at h <;> (cases h; simp_all [ArgumentType.keyword, FormatKind.name, PluralKind.name,
    selectName])

/-- The text of an argument with a type, given what stands behind the keyword, up to the closing
brace. -/
def typedChars (head : Head) (lead : Blanks) (type : ArgumentType) (v : List Char) : List Char :=
  head.chars ++ ',' :: (lead.chars ++ (type.keyword.toList ++ (v ++ ['}'])))

section Typed

variable (head : Head) (lead trail last : Blanks) (branches : List (BranchHead × List Piece))

theorem ArgumentSource.formatted_chars (kind : FormatKind) (style : Option StyleSource) :
    (ArgumentSource.formatted head lead kind trail style).chars =
      typedChars head lead (.formatted kind) (trail.chars ++ styleChars style) := by
  simp [ArgumentSource.chars, typedChars, ArgumentType.keyword]

theorem ArgumentSource.plural_chars (kind : PluralKind) (offset : Option OffsetSource) :
    (ArgumentSource.plural head lead kind trail offset branches last).chars =
      typedChars head lead (.plural kind)
        (trail.chars ++ ',' :: (offsetChars offset ++ (branchChars branches ++ last.chars))) := by
  simp [ArgumentSource.chars, typedChars, ArgumentType.keyword]

theorem ArgumentSource.select_chars :
    (ArgumentSource.select head lead trail branches last).chars =
      typedChars head lead .select
        (trail.chars ++ ',' :: (branchChars branches ++ last.chars)) := by
  simp [ArgumentSource.chars, typedChars, ArgumentType.keyword]

end Typed

/-- What belongs to a type makes an argument, together with what stands in front of it and the
brace behind it. -/
theorem content_sound (hbody : SoundMessage room true body) {opened s rest : List Char}
    {head : Head} {lead : Blanks} {type : ArgumentType} {node : Node}
    (h : content body opened head.word.name type s = .ok (node, '}' :: rest)) :
    ∃ source : ArgumentSource,
      head.chars ++ ',' :: (lead.chars ++ (type.keyword.toList ++ s)) = source.chars ++ rest ∧
        source.Fits ∧ source.depth ≤ room + 1 ∧ source.node = node := by
  cases type with
  | formatted kind =>
    simp only [content, bind_eq_ok, Prod.exists, pure, Except.pure, Except.ok.injEq,
      Prod.mk.injEq] at h
    obtain ⟨style, r, h₁, rfl, rfl⟩ := h
    obtain ⟨trail, source, rfl, rfl⟩ := styleClause_sound h₁
    refine ⟨.formatted head lead kind trail source, ?_, trivial, Nat.le_add_left 1 room, rfl⟩
    simp [ArgumentSource.chars, ArgumentType.keyword]
  | plural kind =>
    simp only [content, bind_eq_ok, Prod.exists, pure, Except.pure, Except.ok.injEq,
      Prod.mk.injEq] at h
    obtain ⟨s₁, h₁, s₂, h₂, offset, s₃, h₃, table, r, h₄, rfl, rfl⟩ := h
    obtain ⟨trail, rfl⟩ := comma_eq_ok_iff.1 h₁
    obtain ⟨before, rfl, -, -⟩ := skipBlanks_eq_ok_iff.1 h₂
    obtain ⟨osource, gap, hspell, rfl, hstop⟩ := offsetClause_sound before h₃
    -- the blanks behind the offset belong to the first branch
    rw [branches, ← branchesFrom_append body kind.name opened [] gap] at h₄
    obtain ⟨entries, last, hrest, hne, hfit, hdepth, rfl⟩ := branches_sound hbody h₄
    refine ⟨.plural head lead kind trail osource entries last, ?_, ⟨hne, ?_, hfit⟩,
      Nat.succ_le_succ hdepth, rfl⟩
    · rw [hspell, hrest]
      simp [ArgumentSource.chars, ArgumentType.keyword]
    · intro hsome
      have hstops := hstop hsome
      rw [hrest] at hstops
      obtain ⟨entry, more, rfl⟩ := List.exists_cons_of_ne_nil hne
      intro c hc
      refine hstops c ?_
      rw [List.head?_append, Option.mem_def.1 hc]
      rfl
  | select =>
    simp only [content, bind_eq_ok, Prod.exists, pure, Except.pure, Except.ok.injEq,
      Prod.mk.injEq] at h
    obtain ⟨s₁, h₁, table, r, h₂, rfl, rfl⟩ := h
    obtain ⟨trail, rfl⟩ := comma_eq_ok_iff.1 h₁
    obtain ⟨entries, last, rfl, hne, hfit, hdepth, rfl⟩ := branches_sound hbody h₂
    refine ⟨.select head lead trail entries last, ?_, ⟨hne, hfit⟩, Nat.succ_le_succ hdepth, rfl⟩
    simp [ArgumentSource.chars, ArgumentType.keyword]

theorem typedArgument_sound (hbody : SoundMessage room true body) {opened s rest : List Char}
    (head : Head) {node : Node}
    (h : typedArgument body opened head.word.name s = .ok (node, rest)) :
    ∃ source : ArgumentSource, head.chars ++ ',' :: s = source.chars ++ rest ∧ source.Fits ∧
      source.depth ≤ room + 1 ∧ source.node = node := by
  simp only [typedArgument, bind_eq_ok, Prod.exists] at h
  obtain ⟨s₁, h₁, keyword, s₂, h₂, h⟩ := h
  split at h
  · cases h
  · rename_i type htype
    simp only [bind_eq_ok, Prod.exists, pure, Except.pure, Except.ok.injEq, Prod.mk.injEq] at h
    obtain ⟨n, s₃, h₃, r, h₄, rfl, rfl⟩ := h
    obtain ⟨lead, rfl, -, -⟩ := skipBlanks_eq_ok_iff.1 h₁
    obtain ⟨w, rfl, hw, -⟩ := identifier_eq_ok_iff.1 h₂
    rw [closeArgument_eq_ok h₄] at h₃
    have hkeyword : w.chars = type.keyword.toList := by
      rw [keyword_of_ofKeyword? htype, ← hw, Word.name, String.toList_ofList]
    rw [hkeyword]
    exact content_sound hbody h₃

theorem argument_sound (limit : Int) (hbody : SoundMessage room true body) :
    SoundArgument limit (room + 1) (some body) := by
  intro s node rest h
  simp only [argument, bind_eq_ok, Prod.exists, List.drop_succ_cons, List.drop_zero] at h
  obtain ⟨s₁, h₁, name, s₂, h₂, s₃, h₃, h⟩ := h
  obtain ⟨before, rfl, -, -⟩ := skipBlanks_eq_ok_iff.1 h₁
  obtain ⟨w, rfl, rfl, -⟩ := identifier_eq_ok_iff.1 h₂
  obtain ⟨after, rfl, -, -⟩ := skipBlanks_eq_ok_iff.1 h₃
  have hhead : '{' :: (before.chars ++ (w.chars ++ (after.chars ++ s₃))) =
      (Head.mk before w after).chars ++ s₃ := by
    simp [Head.chars]
  rw [hhead]
  split at h
  · rename_i s₄ h₄
    rw [afterComma?_eq_some_iff.1 h₄]
    exact typedArgument_sound hbody ⟨before, w, after⟩ h
  · simp only [bind_eq_ok, pure, Except.pure, Except.ok.injEq, Prod.mk.injEq] at h
    obtain ⟨r, h₄, rfl, rfl⟩ := h
    rw [closeArgument_eq_ok h₄]
    refine ⟨.bare ⟨before, w, after⟩, ?_, trivial, Nat.le_add_left 1 room, rfl⟩
    simp [ArgumentSource.chars]

end Body

/-! ## Messages -/

/-- An apostrophe in front of a brace opens a quotation. -/
theorem quotation_quoted_sound {c : Char} (hc : c ≠ '\'') (hq : isQuotable c = true)
    (s : List Char) :
    ∃ (span : Quoted) (closed : Bool),
      '\'' :: c :: s = (Piece.quoted span closed).chars ++ (quotation (c :: s)).2 ∧
        (closed = false → (quotation (c :: s)).2 = []) ∧
        span.chars = (quotation (c :: s)).1.toList := by
  have hspan : (c :: s).takeWhile (· ≠ '\'') ++ (c :: s).dropWhile (· ≠ '\'') = c :: s :=
    List.takeWhile_append_dropWhile
  have hopens : ∃ d t, (c :: s).takeWhile (· ≠ '\'') = d :: t ∧ isQuotable d = true := by
    rw [List.takeWhile_cons_of_pos (by simpa using hc)]
    exact ⟨c, _, rfl, hq⟩
  have hfree : '\'' ∉ (c :: s).takeWhile (· ≠ '\'') := by
    intro hm
    have hne := mem_takeWhile hm
    simp at hne
  have hquot : quotation (c :: s) =
      (String.ofList ((c :: s).takeWhile (· ≠ '\'')),
        ((c :: s).dropWhile (· ≠ '\'')).drop 1) := by
    simp only [quotation, hc, hq, ↓reduceIte]
  have hstop := stops_dropWhile (· ≠ '\'') (c :: s)
  rw [hquot]
  generalize (c :: s).takeWhile (· ≠ '\'') = span at hspan hopens hfree
  generalize (c :: s).dropWhile (· ≠ '\'') = left at hspan hstop
  cases left with
  | nil =>
    refine ⟨⟨span, hopens, hfree⟩, false, ?_, fun _ => rfl, String.toList_ofList.symm⟩
    rw [← hspan]
    simp [Piece.chars]
  | cons d t =>
    have hd : d = '\'' := by simpa using stops_cons.1 hstop
    subst hd
    refine ⟨⟨span, hopens, hfree⟩, true, ?_, (fun h => by cases h), String.toList_ofList.symm⟩
    rw [← hspan]
    simp [Piece.chars]

/-- An apostrophe, with what is quoted behind it, is a piece. -/
theorem quotation_sound (s : List Char) :
    ∃ piece : Piece, '\'' :: s = piece.chars ++ (quotation s).2 ∧
      piece.Fits (quotation s).2.head? ∧ piece.depth = 0 ∧
      piece.atoms = (quotation s).1.toList.map .char := by
  have hone : ("'" : String).toList.map Atom.char = [.char '\''] := by simp
  cases s with
  | nil =>
    refine ⟨.lone, rfl, ?_, rfl, hone.symm⟩
    intro c hc
    cases hc
  | cons c rest =>
    by_cases hc : c = '\''
    · subst hc
      have hquot : quotation ('\'' :: rest) = ("'", rest) := by simp [quotation]
      rw [hquot]
      exact ⟨.doubled, rfl, trivial, rfl, hone.symm⟩
    · cases hq : isQuotable c with
      | true =>
        obtain ⟨span, closed, hspell, hopen, hchars⟩ := quotation_quoted_sound hc hq rest
        refine ⟨.quoted span closed, hspell, ?_, rfl, congrArg (List.map Atom.char) hchars⟩
        intro hclosed
        rw [hopen hclosed]
        rfl
      | false =>
        have hquot : quotation (c :: rest) = ("'", c :: rest) := by simp [quotation, hc, hq]
        rw [hquot]
        refine ⟨.lone, rfl, ?_, rfl, hone.symm⟩
        intro d hd
        cases hd
        exact ⟨hc, hq⟩

/-- What scanning a text means for derivations. -/
def Spelled (room : Nat) (inBranch : Bool) (s : List Char) (as : List Atom)
    (rest : List Char) : Prop :=
  Ends inBranch rest ∧ ∃ pieces, s = charsOf pieces ++ rest ∧ FitAll rest.head? pieces ∧
    depthOf pieces ≤ room ∧ atomsOf pieces = as

theorem spelled_nil {room : Nat} {inBranch : Bool} {rest : List Char} (h : Ends inBranch rest) :
    Spelled room inBranch rest [] rest :=
  ⟨h, [], rfl, trivial, Nat.zero_le room, rfl⟩

/-- A piece goes in front of a derivation that it fits. -/
theorem Spelled.cons {room : Nat} {inBranch : Bool} {left rest : List Char} {as : List Atom}
    (h : Spelled room inBranch left as rest) (piece : Piece) (hfit : piece.Fits left.head?)
    (hdepth : piece.depth ≤ room) :
    Spelled room inBranch (piece.chars ++ left) (piece.atoms ++ as) rest := by
  obtain ⟨hend, pieces, rfl, hfits, hdepths, rfl⟩ := h
  rw [List.head?_append] at hfit
  refine ⟨hend, piece :: pieces, ?_, ⟨hfit, hfits⟩, Nat.max_le.2 ⟨hdepth, hdepths⟩, rfl⟩
  rw [charsOf, List.append_assoc]

theorem scan_sound {limit : Int} {room : Nat} {body : Option (Reader Message)}
    (harg : SoundArgument limit room body) (inBranch : Bool) (s : List Char) {as : List Atom}
    {rest : List Char} (h : scan limit body inBranch s = .ok (as, rest)) :
    Spelled room inBranch s as rest := by
  -- by strong induction on the text: each step below leaves a shorter one
  induction hn : s.length using Nat.strongRecOn generalizing s as with
  | ind n ih =>
    cases s with
    | nil =>
      rw [scan_nil] at h
      cases h
      exact spelled_nil (.inl rfl)
    | cons c t =>
      rw [List.length_cons] at hn
      rcases char_cases c with rfl | rfl | rfl | hc
      · rw [scan_close] at h
        cases inBranch with
        | false => cases h
        | true =>
          cases h
          exact spelled_nil (.inr ⟨rfl, t, rfl⟩)
      · cases ha : argument limit body ('{' :: t) with
        | error e =>
          rw [scan_open_of_error ha] at h
          cases h
        | ok r =>
          obtain ⟨node, left⟩ := r
          rw [scan_open_of_ok ha] at h
          obtain ⟨bs, hbs, rfl⟩ := putAtoms_eq_ok h
          obtain ⟨source, hspell, hfit, hdepth, rfl⟩ := harg t node left ha
          have hlen := (argument_suffix ha).length_le
          rw [List.drop_succ_cons, List.drop_zero] at hlen
          have htail := ih left.length (by omega) left hbs rfl
          have hnode : source.node.atoms = (Piece.argument source).atoms := by
            cases source <;> rfl
          rw [hspell, hnode]
          exact htail.cons (.argument source) hfit hdepth
      · rw [scan_apostrophe] at h
        obtain ⟨bs, hbs, rfl⟩ := putAtoms_eq_ok h
        obtain ⟨piece, hspell, hfit, hdepth, hatoms⟩ := quotation_sound t
        have hlen := (quotation_suffix t).length_le
        have htail := ih (quotation t).2.length (by omega) _ hbs rfl
        rw [hspell, ← hatoms]
        exact htail.cons piece hfit (hdepth ▸ Nat.zero_le room)
      · rw [scan_plain hc] at h
        obtain ⟨bs, hbs, rfl⟩ := putAtoms_eq_ok h
        have htail := ih t.length (by omega) t hbs rfl
        exact htail.cons (.literal ⟨c, hc⟩) trivial (Nat.zero_le room)

theorem messageOver_sound {limit : Int} {room : Nat} {body : Option (Reader Message)}
    (harg : SoundArgument limit room body) (inBranch : Bool) :
    SoundMessage room inBranch (messageOver limit body inBranch) := by
  intro s message rest h
  rw [messageOver_run] at h
  obtain ⟨⟨as, r⟩, hscan, hr⟩ := map_eq_ok.1 h
  cases hr
  obtain ⟨hend, pieces, hspell, hfit, hdepth, rfl⟩ := scan_sound harg inBranch s hscan
  exact ⟨hend, pieces, hspell, hfit, hdepth, rfl⟩

/-- Every message that is read was derived, within the same bound on nesting. -/
theorem message_sound (limit : Int) (room : Nat) (inBranch : Bool) :
    SoundMessage room inBranch (message limit room inBranch) := by
  induction room generalizing inBranch with
  | zero =>
    rw [message_eq]
    refine messageOver_sound ?_ inBranch
    intro s node rest h
    cases h
  | succ room ih =>
    rw [message_eq]
    exact messageOver_sound (argument_sound limit (ih true)) inBranch

end Phrasebook.Pattern
