/-
  How the rules fail.

  A rule fails at a character, at the end of the text, or inside a numeral or a
  keyword (`Failure`).  A character at which a rule fails belongs to no text
  with the same front: whatever comes behind it, the rule fails there again.
  What stands in front of it can be completed, and so can a text that only ends
  too early.  To complete a text means to write the rest of something that is
  derived: of a clause, of branches, of an argument, of a message.

  Failures are shown rule by rule.  What a rule has read before it fails was
  derived, so it is read again in front of every other text that begins alike,
  and a failure of what is left is a failure of the whole (`Failure.after`).
-/
import Phrasebook.Proofs.Pattern.Pieces
import Phrasebook.Proofs.Pattern.Steps

set_option autoImplicit false

namespace Phrasebook.Pattern

open Phrasebook.Text

/-! ## Failures -/

/-- A fault of one character: the pattern could have gone on in front of it, but not with it. -/
def Cause.AtCharacter : Cause → Prop
  | .unexpectedCloseBrace => True
  | .expectedIdentifier => True
  | .expectedInteger => False
  | .expectedCharacter _ => True
  | .unterminatedArgument => False
  | .emptyBranchList _ => True
  | .nestingDepthExceeded _ => True
  | .unknownArgumentType _ => False

/-- A fault of a numeral or of a keyword, which lies where the token begins. -/
def Fault.InToken : Fault → Prop
  | .malformed .expectedInteger _ => True
  | .malformed (.unknownArgumentType _) _ => True
  | .integerTooLong => True
  | _ => False

/-- How a rule fails that reads texts of a kind, inside an argument opened somewhere. -/
inductive Failure {α : Type} (rule : List Char → List Char → Except Fault α)
    (Kind : List Char → Prop) (s : List Char) : Fault → Prop
  /-- at a character, with every text behind it, while what is in front can be completed -/
  | atCharacter {cause : Cause} {u t : List Char} {c : Char} (hcause : cause.AtCharacter)
      (hspell : s = u ++ c :: t)
      (hagain : ∀ opened t', rule opened (u ++ c :: t') = .error (.malformed cause (c :: t')))
      (hmend : ∃ w, Kind (u ++ w)) : Failure rule Kind s (.malformed cause (c :: t))
  /-- at the end of a text that can be completed -/
  | atEnd {opened : List Char} (hmend : ∃ w, Kind (s ++ w)) :
      Failure rule Kind s (.malformed .unterminatedArgument opened)
  | inToken {fault : Fault} (htoken : fault.InToken) : Failure rule Kind s fault

section Failure

variable {α β : Type} {rule : List Char → List Char → Except Fault α}
  {rule' : List Char → List Char → Except Fault β} {Kind Kind' : List Char → Prop}
  {s : List Char} {fault : Fault}

/-- A rule that goes on as another one behind what it has read fails as that one does.  It need
go on so only where the other one fails. -/
theorem Failure.behind (h : Failure rule Kind s fault) (u : List Char)
    (hrule : ∀ v c t t' cause, s = v ++ c :: t → ∀ opened', ∃ opened,
      rule opened (v ++ c :: t') = .error (.malformed cause (c :: t')) →
        rule' opened' (u ++ (v ++ c :: t')) = .error (.malformed cause (c :: t')))
    (hkind : ∀ v, Kind v → ∃ w, Kind' (u ++ (v ++ w))) : Failure rule' Kind' (u ++ s) fault := by
  cases h with
  | @atCharacter cause v t c hcause hspell hagain hmend =>
    refine .atCharacter (u := u ++ v) hcause (by rw [hspell, List.append_assoc]) ?_ ?_
    · intro opened' t'
      obtain ⟨opened, himp⟩ := hrule v c t t' cause hspell opened'
      rw [List.append_assoc]
      exact himp (hagain opened t')
    · obtain ⟨w, hw⟩ := hmend
      obtain ⟨w', hw'⟩ := hkind _ hw
      exact ⟨w ++ w', by simpa using hw'⟩
  | atEnd hmend =>
    obtain ⟨w, hw⟩ := hmend
    obtain ⟨w', hw'⟩ := hkind _ hw
    exact .atEnd ⟨w ++ w', by simpa using hw'⟩
  | inToken htoken => exact .inToken htoken

/-- The same where the rule goes on so in front of every text that begins alike. -/
theorem Failure.after {u : List Char} (h : Failure rule Kind s fault)
    (hrule : FailsAs rule' rule u s) (hkind : ∀ v, Kind v → ∃ w, Kind' (u ++ (v ++ w))) :
    Failure rule' Kind' (u ++ s) fault := by
  refine h.behind u ?_ hkind
  intro v c t t' cause hspell opened'
  have hhead : (v ++ c :: t').head? = s.head? := hspell ▸ head?_append_cons v c t t'
  obtain ⟨opened, himp⟩ := hrule _ hhead opened'
  exact ⟨opened, himp _⟩

/-- A rule that begins with another one fails as that one does. -/
theorem Failure.first (h : Failure rule Kind s fault)
    (hrule : ∀ s' opened f, rule opened s' = .error f → rule' opened s' = .error f)
    (hkind : ∀ v, Kind v → ∃ w, Kind' (v ++ w)) : Failure rule' Kind' s fault := by
  have hfails : FailsAs rule' rule [] s := fun s' _ opened => ⟨opened, hrule s' opened⟩
  exact h.after hfails hkind

theorem Failure.mono (h : Failure rule Kind s fault) (hkind : ∀ v, Kind v → Kind' v) :
    Failure rule Kind' s fault :=
  h.first (fun _ _ _ hf => hf) fun v hv => ⟨[], (List.append_nil v).symm ▸ hkind v hv⟩

end Failure

theorem integer_inToken {s : List Char} {fault : Fault} (h : integer s = .error fault) :
    fault.InToken := by
  simp only [integer] at h
  split at h
  · cases h
    trivial
  · split at h
    · cases h
      trivial
    · cases h

/-! ## What rules read -/

/-- The text of a style clause. -/
def StyleText (v : List Char) : Prop :=
  ∃ (trail : Blanks) (style : Option StyleSource), trail.chars ++ styleChars style = v

/-- The text of a branch, without the blanks in front. -/
def BranchText (room : Nat) (v : List Char) : Prop :=
  ∃ (source : KeySource) (after : Blanks) (pieces : List Piece),
    source.chars ++ (after.chars ++ '{' :: (charsOf pieces ++ ['}'])) = v ∧
      FitAll (some '}') pieces ∧ depthOf pieces ≤ room

/-- The text of a body behind the brace that opens it. -/
def BodyText (room : Nat) (v : List Char) : Prop :=
  ∃ pieces, charsOf pieces ++ ['}'] = v ∧ FitAll (some '}') pieces ∧ depthOf pieces ≤ room

/-- The text of branches, with the blanks behind the last. -/
def BranchesText (room : Nat) (v : List Char) : Prop :=
  ∃ (entries : List (BranchHead × List Piece)) (last : Blanks),
    branchChars entries ++ last.chars = v ∧ entries ≠ [] ∧ BranchesFit entries ∧
      branchDepth entries ≤ room

/-- The text of an offset, if there is one, and of branches. -/
def OffsetBranchesText (room : Nat) (v : List Char) : Prop :=
  ∃ (offset : Option OffsetSource) (entries : List (BranchHead × List Piece)) (last : Blanks),
    offsetChars offset ++ (branchChars entries ++ last.chars) = v ∧ entries ≠ [] ∧
      (offset.isSome = true → Stops isAsciiDigit (branchChars entries)) ∧ BranchesFit entries ∧
      branchDepth entries ≤ room

/-- The text of an argument. -/
def ArgumentText (room : Nat) (v : List Char) : Prop :=
  ∃ source : ArgumentSource, source.chars = v ∧ source.Fits ∧ source.depth ≤ room

/-- The text of what belongs to a type, without the closing brace. -/
def ContentText (room : Nat) (type : ArgumentType) (v : List Char) : Prop :=
  ∀ (head : Head) (lead : Blanks), ArgumentText (room + 1) (typedChars head lead type v)

/-- The text of what stands behind the first comma of an argument. -/
def TypedText (room : Nat) (v : List Char) : Prop :=
  ∀ head : Head, ArgumentText (room + 1) (head.chars ++ ',' :: v)

/-- The text of a message that stands in front of a closing brace. -/
def MessageText (room : Nat) (v : List Char) : Prop :=
  ∃ pieces, charsOf pieces = v ∧ FitAll (some '}') pieces ∧ depthOf pieces ≤ room

/-! ## Clauses -/

/-- The word that completes what lacks a word. -/
def Word.one : Word := ⟨['a'], by decide, List.all_eq_true.1 (by decide)⟩

/-- The numeral that completes what lacks a numeral. -/
def Numeral.zero : Numeral :=
  ⟨false, ['0'], by decide, List.all_eq_true.1 (by decide), by decide⟩

theorem comma_failure {opened s : List Char} {fault : Fault}
    (h : comma opened s = .error fault) :
    Failure comma (fun v => ∃ b : Blanks, b.chars ++ [','] = v) s fault := by
  rw [comma, bind_eq_error] at h
  rcases h with h | ⟨s₁, h₁, h⟩
  · obtain ⟨⟨b, rfl⟩, rfl⟩ := skipBlanks_eq_error_iff.1 h
    exact .atEnd ⟨_, b, rfl⟩
  · obtain ⟨b, rfl, hne, hblank⟩ := skipBlanks_eq_ok_iff.1 h₁
    obtain ⟨c, t, rfl⟩ := List.exists_cons_of_ne_nil hne
    obtain ⟨hc, rfl⟩ := expect_cons_eq_error_iff.1 h
    refine .atCharacter trivial rfl ?_ ⟨_, b, rfl⟩
    intro opened' t'
    rw [comma_cons opened' b (stops_cons.1 hblank)]
    exact expect_cons_eq_error_iff.2 ⟨hc, rfl⟩

theorem styleClause_failure {opened s : List Char} {fault : Fault}
    (h : styleClause opened s = .error fault) : Failure styleClause StyleText s fault := by
  have hfirst := h
  rw [styleClause, bind_eq_error] at hfirst
  rcases hfirst with hfirst | ⟨s₁, h₁, -⟩
  · obtain ⟨⟨trail, rfl⟩, rfl⟩ := skipBlanks_eq_error_iff.1 hfirst
    exact .atEnd ⟨[], trail, none, rfl⟩
  · obtain ⟨trail, rfl, hne, hblank⟩ := skipBlanks_eq_ok_iff.1 h₁
    obtain ⟨c, t, rfl⟩ := List.exists_cons_of_ne_nil hne
    by_cases hc : c = ','
    · subst hc
      rw [styleClause_comma, bind_eq_error] at h
      rcases h with h | ⟨s₂, h₂, h⟩
      · obtain ⟨⟨before, rfl⟩, rfl⟩ := skipBlanks_eq_error_iff.1 h
        refine .atEnd ⟨Word.one.chars, trail, some ⟨before, .one, .none⟩, ?_⟩
        simp [styleChars, StyleSource.chars, Blanks.none]
      · obtain ⟨before, rfl, hne, hblank⟩ := skipBlanks_eq_ok_iff.1 h₂
        rw [bind_eq_error] at h
        rcases h with h | ⟨⟨name, s₃⟩, h₃, h⟩
        · obtain ⟨c, t, rfl⟩ := List.exists_cons_of_ne_nil hne
          obtain ⟨hc, rfl⟩ := identifier_cons_eq_error_iff.1 h
          refine .atCharacter (u := trail.chars ++ ',' :: before.chars) trivial (by simp) ?_ ?_
          · intro opened' t'
            rw [List.append_assoc, List.cons_append, styleClause_comma,
              skipBlanks_cons before (stops_cons.1 hblank), ok_bind,
              identifier_cons_eq_error_iff.2 ⟨hc, rfl⟩, error_bind]
          · refine ⟨Word.one.chars, trail, some ⟨before, .one, .none⟩, ?_⟩
            simp [styleChars, StyleSource.chars, Blanks.none]
        · obtain ⟨w, rfl, rfl, -⟩ := identifier_eq_ok_iff.1 h₃
          rw [bind_eq_error] at h
          rcases h with h | ⟨rest, -, h⟩
          · obtain ⟨⟨after, rfl⟩, rfl⟩ := skipBlanks_eq_error_iff.1 h
            refine .atEnd ⟨[], trail, some ⟨before, w, after⟩, ?_⟩
            simp [styleChars, StyleSource.chars]
          · cases h
    · rw [styleClause_of_ne opened trail (stops_cons.1 hblank) hc] at h
      cases h

/-- What a style clause leaves does not matter to it, as long as it begins alike. -/
theorem styleClause_again {opened s rest : List Char} {style : Option String}
    (h : styleClause opened s = .ok (style, rest)) :
    ∃ u c t, s = u ++ c :: t ∧ rest = c :: t ∧ StyleText u ∧
      ∀ opened' t', styleClause opened' (u ++ c :: t') = .ok (style, c :: t') := by
  have hstart := h
  rw [styleClause, bind_eq_ok] at h
  obtain ⟨s₁, h₁, h⟩ := h
  obtain ⟨trail, rfl, hne, hblank⟩ := skipBlanks_eq_ok_iff.1 h₁
  obtain ⟨c, t, rfl⟩ := List.exists_cons_of_ne_nil hne
  by_cases hc : c = ','
  · subst hc
    rw [styleClause_comma] at hstart
    simp only [bind_eq_ok, Prod.exists, pure, Except.pure, Except.ok.injEq, Prod.mk.injEq] at hstart
    obtain ⟨s₂, h₂, name, s₃, h₃, r, h₄, rfl, rfl⟩ := hstart
    obtain ⟨before, rfl, -, -⟩ := skipBlanks_eq_ok_iff.1 h₂
    obtain ⟨w, rfl, rfl, hid⟩ := identifier_eq_ok_iff.1 h₃
    obtain ⟨after, rfl, hne, hblank⟩ := skipBlanks_eq_ok_iff.1 h₄
    obtain ⟨c, t, rfl⟩ := List.exists_cons_of_ne_nil hne
    refine ⟨trail.chars ++ styleChars (some ⟨before, w, after⟩), c, t, ?_, rfl,
      ⟨trail, some ⟨before, w, after⟩, rfl⟩, ?_⟩
    · simp [styleChars, StyleSource.chars]
    · intro opened' t'
      have hspell : trail.chars ++ styleChars (some ⟨before, w, after⟩) ++ c :: t' =
          trail.chars ++ ',' :: (before.chars ++ (w.chars ++ (after.chars ++ c :: t'))) := by
        simp [styleChars, StyleSource.chars]
      have hname : identifier (w.chars ++ (after.chars ++ c :: t')) =
          .ok (w.name, after.chars ++ c :: t') :=
        identifier_eq_ok_iff.2 ⟨w, rfl, rfl, hid.congr_head? (head?_append_cons _ _ _ _)⟩
      rw [hspell, styleClause_comma, skipBlanks_word]
      simp only [ok_bind, hname, skipBlanks_cons after (stops_cons.1 hblank)]
      rfl
  · rw [styleClause_of_ne opened trail (stops_cons.1 hblank) hc] at hstart
    cases hstart
    refine ⟨trail.chars, c, t, rfl, rfl, ⟨trail, none, List.append_nil _⟩, ?_⟩
    intro opened' t'
    exact styleClause_of_ne opened' trail (stops_cons.1 hblank) hc t'

/-! ## Branches -/

/-- A rule for messages that fails as `Failure` says. -/
def FailMessage (room : Nat) (rule : Reader Message) : Prop :=
  ∀ (s : List Char) (fault : Fault), rule.run s = .error fault →
    Failure (fun _ => rule.run) (MessageText room) s fault

/-- A rule for messages that is sound and complete, and fails as `Failure` says. -/
structure Reads (room : Nat) (rule : Reader Message) : Prop where
  sound : SoundMessage room true rule
  complete : CompleteMessage room true rule
  fails : FailMessage room rule

section Body

variable {room : Nat} {body : Reader Message}

/-- The branch that completes branches, behind some blanks. -/
def oneBranch (b : Blanks) : List (BranchHead × List Piece) :=
  [(⟨b, .word .one, .none⟩, [])]

theorem branchChars_oneBranch (b : Blanks) :
    branchChars (oneBranch b) = b.chars ++ ['a', '{', '}'] := by
  simp [oneBranch, branchChars, BranchHead.chars, KeySource.chars, Word.one, Blanks.none, charsOf]

theorem stops_digit_oneBranch (b : Blanks) :
    Stops isAsciiDigit (b.chars ++ ['a', '{', '}']) := by
  refine stops_append ?_ (stops_cons.2 (by decide))
  intro c hc
  exact isAsciiDigit_of_isIdentifierChar_eq_false (isIdentifierChar_of_isBlank (b.blank c hc))

theorem branchesText_one (room : Nat) (b : Blanks) :
    BranchesText room (b.chars ++ ['a', '{', '}']) :=
  ⟨oneBranch b, .none, (List.append_nil _).trans (branchChars_oneBranch b), List.cons_ne_nil _ _,
    ⟨trivial, trivial⟩, Nat.zero_le _⟩

theorem offsetBranchesText_one (room : Nat) (offset : Option OffsetSource) (b : Blanks) :
    OffsetBranchesText room (offsetChars offset ++ (b.chars ++ ['a', '{', '}'])) := by
  refine ⟨offset, oneBranch b, .none, ?_, List.cons_ne_nil _ _, ?_, ⟨trivial, trivial⟩,
    Nat.zero_le _⟩
  · rw [branchChars_oneBranch]
    exact congrArg _ (List.append_nil _)
  · intro _
    rw [branchChars_oneBranch]
    exact stops_digit_oneBranch b

/-- A text with something in front begins as it does, whatever stands behind. -/
theorem stops_append_congr {p : Char → Bool} {u s v : List Char} (h : Stops p s → Stops p v) :
    Stops p (u ++ s) → Stops p (u ++ v) := by
  cases u with
  | nil => exact h
  | cons c t => exact fun hs => stops_cons.2 (stops_cons.1 hs)

theorem branchKey_failure {s : List Char} {fault : Fault} (hne : s ≠ [])
    (h : branchKey s = .error fault) :
    Failure (fun _ => branchKey) (fun v => v = Word.one.chars) s fault := by
  obtain ⟨c, t, rfl⟩ := List.exists_cons_of_ne_nil hne
  by_cases hc : c = '='
  · subst hc
    rw [branchKey_exact, map_eq_error] at h
    exact .inToken (integer_inToken h)
  · have hhead : ∀ t', (c :: t').head? ≠ some '=' := fun t' heq => hc (Option.some.inj heq)
    rw [branchKey_of_head?_ne (hhead t), map_eq_error] at h
    obtain ⟨hid, rfl⟩ := identifier_cons_eq_error_iff.1 h
    refine .atCharacter (u := []) trivial rfl ?_ ⟨_, rfl⟩
    intro _ t'
    rw [List.nil_append, branchKey_of_head?_ne (hhead t'),
      identifier_cons_eq_error_iff.2 ⟨hid, rfl⟩]
    rfl

/-- A body fails where its message does, or it is read to the end of the text, where its brace is
missing. -/
theorem branchBody_failure (hbody : Reads room body) {key : BranchKey} {s : List Char}
    {fault : Fault} (h : branchBody body key s = .error fault) :
    Failure (fun _ => branchBody body key) (BodyText room) s fault := by
  rw [branchBody, bind_eq_error] at h
  rcases h with h | ⟨⟨message, s₁⟩, h₁, h⟩
  · refine (hbody.fails _ _ h).first ?_ ?_
    · intro s' _ f hf
      have hrun : body.run s' = .error f := hf
      rw [branchBody, hrun, error_bind]
    · rintro v ⟨pieces, rfl, hfit, hdepth⟩
      exact ⟨['}'], pieces, rfl, hfit, hdepth⟩
  · obtain ⟨hend, pieces, rfl, hfit, hdepth, -⟩ := hbody.sound _ _ _ h₁
    cases s₁ with
    | cons c t => cases h
    | nil =>
      cases h
      obtain ⟨closed, w, hclosed, hfits, hsame⟩ := exists_closed hfit
      refine .atEnd ⟨w ++ ['}'], closed, ?_, hfits, hsame ▸ hdepth⟩
      rw [hclosed]
      simp

/-- A branch with its key goes on from there. -/
theorem branchText_body (source : KeySource) (after : Blanks) {v : List Char}
    (h : BodyText room v) : BranchText room (source.chars ++ (after.chars ++ '{' :: v)) := by
  obtain ⟨pieces, rfl, hfit, hdepth⟩ := h
  exact ⟨source, after, pieces, rfl, hfit, hdepth⟩

theorem branchText_empty (room : Nat) (source : KeySource) (after : Blanks) :
    BranchText room (source.chars ++ (after.chars ++ ['{', '}'])) :=
  branchText_body source after ⟨[], rfl, trivial, Nat.zero_le room⟩

/-- A text begins with a key as another one does. -/
theorem stops_key_congr {p : Char → Bool} (source : KeySource) (s v : List Char) :
    Stops p (source.chars ++ s) → Stops p (source.chars ++ v) := by
  obtain ⟨c, t, hsource, -, -⟩ := source.exists_chars_eq_cons
  rw [hsource]
  exact fun hs => stops_cons.2 (stops_cons.1 hs)

theorem branch_failure (hbody : Reads room body) {opened s : List Char} {fault : Fault}
    (hne : s ≠ []) (h : branch body opened s = .error fault) :
    Failure (branch body)
      (fun v => BranchText room v ∧ (Stops isAsciiDigit s → Stops isAsciiDigit v)) s fault := by
  have hfirst := h
  rw [branch, bind_eq_error] at hfirst
  rcases hfirst with hfirst | ⟨⟨key, s₁⟩, h₁, hfirst⟩
  · refine (branchKey_failure hne hfirst).first ?_ ?_
    · intro s' _ f hf
      rw [branch, hf, error_bind]
    · rintro v rfl
      exact ⟨['{', '}'], branchText_empty room (.word .one) .none,
        fun _ => stops_cons.2 (by decide)⟩
  · obtain ⟨source, rfl, rfl, hstop⟩ := branchKey_eq_ok_iff.1 h₁
    dsimp only at hfirst
    rw [bind_eq_error] at hfirst
    rcases hfirst with hfirst | ⟨s₂, h₂, hfirst⟩
    · obtain ⟨⟨after, rfl⟩, rfl⟩ := skipBlanks_eq_error_iff.1 hfirst
      refine .atEnd ⟨['{', '}'], ?_⟩
      rw [List.append_assoc]
      exact ⟨branchText_empty room source after, stops_key_congr source _ _⟩
    · obtain ⟨after, rfl, hne, hblank⟩ := skipBlanks_eq_ok_iff.1 h₂
      obtain ⟨c, t, rfl⟩ := List.exists_cons_of_ne_nil hne
      rw [bind_eq_error] at hfirst
      rcases hfirst with hfirst | ⟨s₃, h₃, -⟩
      · obtain ⟨hc, rfl⟩ := expect_cons_eq_error_iff.1 hfirst
        refine .atCharacter (u := source.chars ++ after.chars) trivial
          (List.append_assoc _ _ _).symm ?_ ⟨['{', '}'], ?_⟩
        · intro opened' t'
          have hkey : branchKey (source.chars ++ (after.chars ++ c :: t')) =
              .ok (source.key, after.chars ++ c :: t') :=
            branchKey_eq_ok_iff.2
              ⟨source, rfl, rfl, hstop.congr_head? (head?_append_cons _ _ _ _)⟩
          rw [List.append_assoc, branch, hkey]
          simp only [ok_bind, skipBlanks_cons after (stops_cons.1 hblank),
            expect_cons_eq_error_iff.2 ⟨hc, rfl⟩, error_bind]
        · rw [List.append_assoc]
          exact ⟨branchText_empty room source after, stops_key_congr source _ _⟩
      · cases expect_eq_ok h₃
        have hspell : ∀ v, source.chars ++ (after.chars ++ '{' :: v) =
            (source.chars ++ (after.chars ++ ['{'])) ++ v := by
          intro v
          simp
        rw [branch_step] at h
        rw [hspell]
        refine (branchBody_failure hbody h).after (branch_failsAs source after _) ?_
        intro v hv
        refine ⟨[], ?_⟩
        rw [List.append_nil, ← hspell, ← hspell]
        exact ⟨branchText_body source after hv, stops_key_congr source _ _⟩

theorem branchesFrom_failure (hbody : Reads room body) {typeName : String} {opened : List Char}
    (read : List (BranchKey × Message)) (s : List Char) {fault : Fault}
    (h : branchesFrom body typeName opened read s = .error fault) :
    Failure (fun o => branchesFrom body typeName o read)
      (fun v => BranchesText room v ∧ (Stops isAsciiDigit s → Stops isAsciiDigit v)) s fault := by
  fun_induction branchesFrom body typeName opened read s with
  | case1 read s e h₁ =>
    cases h
    obtain ⟨⟨b, rfl⟩, rfl⟩ := skipBlanks_eq_error_iff.1 h₁
    exact .atEnd ⟨_, branchesText_one room b, fun _ => stops_digit_oneBranch b⟩
  | case2 read s s₁ h₁ hclose hread =>
    cases h
    obtain ⟨b, rfl, -, -⟩ := skipBlanks_eq_ok_iff.1 h₁
    obtain ⟨t, rfl⟩ : ∃ t, s₁ = '}' :: t := List.head?_eq_some_iff.1 hclose
    refine .atCharacter trivial rfl ?_
      ⟨_, branchesText_one room b, fun _ => stops_digit_oneBranch b⟩
    intro opened' t'
    rw [branchesFrom_append, branchesFrom_step, skipBlanks_self (by decide)]
    simp [hread]
  | case3 => cases h
  | case4 read s s₁ h₁ hclose e h₂ =>
    cases h
    obtain ⟨b, rfl, hne, hblank⟩ := skipBlanks_eq_ok_iff.1 h₁
    refine (branch_failure hbody hne h₂).after
      (branchesFrom_failsAs_branch typeName read b hne hblank hclose) ?_
    rintro v ⟨⟨source, after, pieces, rfl, hfit, hdepth⟩, hdigit⟩
    refine ⟨[], ⟨[(⟨b, source, after⟩, pieces)], .none, ?_, List.cons_ne_nil _ _,
      ⟨hfit, trivial⟩, Nat.max_le.2 ⟨hdepth, Nat.zero_le _⟩⟩, ?_⟩
    · simp [branchChars, BranchHead.chars, Blanks.none]
    · rw [List.append_nil]
      exact stops_append_congr hdigit
  | case5 read s s₁ h₁ hclose pair s₂ h₂ ih =>
    obtain ⟨before, rfl, -, -⟩ := skipBlanks_eq_ok_iff.1 h₁
    obtain ⟨⟨head, pieces⟩, hspell, hfit, hdepth, rfl⟩ := branch_sound hbody.sound h₂ before
    rw [hspell]
    refine (ih h).after
      (branchesFrom_failsAs_rest hbody.complete typeName read head hfit hdepth s₂) ?_
    rintro v ⟨⟨entries, last, rfl, -, hfits, hdepths⟩, hdigit⟩
    refine ⟨[], ⟨(head, pieces) :: entries, last, ?_, List.cons_ne_nil _ _, ⟨hfit, hfits⟩,
      Nat.max_le.2 ⟨hdepth, hdepths⟩⟩, ?_⟩
    · simp [branchChars]
    · rw [List.append_nil]
      exact stops_append_congr hdigit

theorem branches_failure (hbody : Reads room body) {typeName : String} {opened s : List Char}
    {fault : Fault} (h : branches body typeName opened s = .error fault) :
    Failure (branches body typeName)
      (fun v => BranchesText room v ∧ (Stops isAsciiDigit s → Stops isAsciiDigit v)) s fault :=
  branchesFrom_failure hbody [] s h

/-- Where branches fail at a character and the word of an offset stands in front of them, that
character is the last of the word. -/
theorem skipBlanks_of_branches_error {typeName : String} {opened v t' r : List Char} {c : Char}
    {cause : Cause}
    (h : branches body typeName opened (v ++ c :: t') = .error (.malformed cause (c :: t')))
    (hskip : skipBlanks opened (v ++ c :: t') = .ok (offsetWord ++ r)) (opened' t : List Char) :
    skipBlanks opened' (v ++ c :: t) = .ok (offsetWord ++ t) := by
  rw [branches_of_skipBlanks hskip, branches_offsetWord] at h
  cases h
  obtain ⟨b, hb, -, -⟩ := skipBlanks_eq_ok_iff.1 hskip
  have hcolon : ∀ w, offsetWord ++ w = offsetName.chars ++ ':' :: w := fun _ => rfl
  have hfront : v = b.chars ++ offsetName.chars := by
    rw [hcolon, ← List.append_assoc] at hb
    exact List.append_cancel_right hb
  rw [hfront, List.append_assoc]
  exact skipBlanks_of_stops b (List.cons_ne_nil _ _) (stops_cons.2 (by decide))

/-! ## Arguments with branches -/

/-- Without an offset the branches fail, and they have no word of an offset in front. -/
theorem offsetBranches_failure_branches (hbody : Reads room body) {typeName : String}
    {opened s s₁ : List Char} {fault : Fault} (hskip : skipBlanks opened s = .ok s₁)
    (hword : offsetWord.isPrefixOf? s₁ = none)
    (h : branches body typeName opened s = .error fault) :
    Failure (offsetBranches body typeName) (OffsetBranchesText room) s fault := by
  refine (branches_failure hbody h).behind [] ?_ ?_
  · intro v c t t' cause hspell opened'
    refine ⟨opened', fun hf => offsetBranches_error ?_ hf⟩
    intro s₂ hskip'
    cases hword' : offsetWord.isPrefixOf? s₂ with
    | none => rfl
    | some r =>
      -- with the word of an offset the fault is its colon, and so the word stands in the text that
      -- failed, too
      obtain rfl := isPrefixOf?_eq_some_iff.1 hword'
      have hsame := skipBlanks_of_branches_error hf hskip' opened t
      rw [← hspell, hskip] at hsame
      rw [Except.ok.inj hsame, isPrefixOf?_eq_some_iff.2 rfl] at hword
      cases hword
  · rintro v ⟨⟨entries, last, rfl, hne, hfit, hdepth⟩, -⟩
    exact ⟨[], none, entries, last, by simp [offsetChars], hne, nofun, hfit, hdepth⟩

/-- Behind its word an offset fails in its numeral, or what fails are the branches. -/
theorem offsetBranches_failure_numeral (hbody : Reads room body) {typeName : String}
    {opened s : List Char} {fault : Fault} (before : Blanks)
    (h : offsetBranches body typeName opened (before.chars ++ (offsetWord ++ s)) = .error fault) :
    Failure (offsetBranches body typeName) (OffsetBranchesText room)
      (before.chars ++ (offsetWord ++ s)) fault := by
  rw [offsetBranches_offsetWord, bind_eq_error] at h
  rcases h with h | ⟨s₁, h₁, h⟩
  · obtain ⟨⟨between, rfl⟩, rfl⟩ := skipBlanks_eq_error_iff.1 h
    have hone := offsetBranchesText_one room (some ⟨before, between, .zero⟩) .none
    refine .atEnd ⟨['0', 'a', '{', '}'], ?_⟩
    simpa [offsetChars, OffsetSource.chars, Numeral.zero, Numeral.chars, Blanks.none] using hone
  · obtain ⟨between, rfl, hne, hblank⟩ := skipBlanks_eq_ok_iff.1 h₁
    rw [bind_eq_error] at h
    rcases h with h | ⟨⟨offset, s₂⟩, h₂, h⟩
    · exact .inToken (integer_inToken h)
    · obtain ⟨amount, rfl, rfl, hstop⟩ := integer_eq_ok_iff.1 h₂
      have hspell : ∀ v, before.chars ++ (offsetWord ++ (between.chars ++ (amount.chars ++ v))) =
          offsetChars (some ⟨before, between, amount⟩) ++ v := by
        intro v
        simp [offsetChars, OffsetSource.chars]
      rw [hspell]
      dsimp only at h
      rw [bind_eq_error] at h
      rcases h with h | ⟨s₃, h₃, h⟩
      · obtain ⟨⟨gap, rfl⟩, rfl⟩ := skipBlanks_eq_error_iff.1 h
        refine .atEnd ⟨['a', '{', '}'], ?_⟩
        rw [List.append_assoc]
        exact offsetBranchesText_one room _ gap
      · rw [bind_eq_error] at h
        rcases h with h | ⟨found, -, h⟩
        · rw [← branches_of_skipBlanks h₃] at h
          refine (branches_failure hbody h).after (offsetBranches_failsAs typeName _ hstop) ?_
          rintro v ⟨⟨entries, last, rfl, hne, hfit, hdepth⟩, hdigit⟩
          refine ⟨[], some ⟨before, between, amount⟩, entries, last, by simp, hne, ?_, hfit,
            hdepth⟩
          exact fun _ => (hdigit hstop).left
        · cases h

theorem offsetBranches_failure (hbody : Reads room body) {typeName : String}
    {opened s : List Char} {fault : Fault}
    (h : offsetBranches body typeName opened s = .error fault) :
    Failure (offsetBranches body typeName) (OffsetBranchesText room) s fault := by
  have hfirst := h
  rw [offsetBranches, bind_eq_error] at hfirst
  rcases hfirst with hfirst | ⟨s₁, h₁, -⟩
  · obtain ⟨⟨before, rfl⟩, rfl⟩ := skipBlanks_eq_error_iff.1 hfirst
    exact .atEnd ⟨_, offsetBranchesText_one room none before⟩
  · obtain ⟨before, rfl, hne, hblank⟩ := skipBlanks_eq_ok_iff.1 h₁
    cases hword : offsetWord.isPrefixOf? s₁ with
    | none =>
      rw [offsetBranches_of_isPrefixOf? opened before hne hblank hword, bind_eq_error] at h
      rcases h with h | ⟨found, -, h⟩
      · rw [← branches_of_skipBlanks h₁] at h
        exact offsetBranches_failure_branches hbody h₁ hword h
      · cases h
    | some s₂ =>
      obtain rfl := isPrefixOf?_eq_some_iff.1 hword
      exact offsetBranches_failure_numeral hbody before h

/-! ## Arguments -/

theorem contentText_formatted (room : Nat) (kind : FormatKind) {v : List Char} (h : StyleText v) :
    ContentText room (.formatted kind) v := by
  obtain ⟨trail, style, rfl⟩ := h
  intro head lead
  exact ⟨.formatted head lead kind trail style, ArgumentSource.formatted_chars .., trivial,
    Nat.le_add_left 1 room⟩

theorem contentText_select {v : List Char} (trail : Blanks) (h : BranchesText room v) :
    ContentText room .select (trail.chars ++ ',' :: v) := by
  obtain ⟨entries, last, rfl, hne, hfit, hdepth⟩ := h
  intro head lead
  exact ⟨.select head lead trail entries last, ArgumentSource.select_chars .., ⟨hne, hfit⟩,
    Nat.succ_le_succ hdepth⟩

theorem contentText_plural (kind : PluralKind) {v : List Char} (trail : Blanks)
    (h : OffsetBranchesText room v) :
    ContentText room (.plural kind) (trail.chars ++ ',' :: v) := by
  obtain ⟨offset, entries, last, rfl, hne, hstop, hfit, hdepth⟩ := h
  intro head lead
  exact ⟨.plural head lead kind trail offset entries last, ArgumentSource.plural_chars ..,
    ⟨hne, hstop, hfit⟩, Nat.succ_le_succ hdepth⟩

/-- What completes an argument behind its first comma is a type that needs no more. -/
theorem typedText_number (room : Nat) (lead : Blanks) :
    TypedText room (lead.chars ++ ("number".toList ++ ['}'])) := by
  intro head
  refine ⟨.formatted head lead .number .none none, ?_, trivial, Nat.le_add_left 1 room⟩
  simp [ArgumentSource.chars, FormatKind.name, Blanks.none, styleChars]

/-- A rule that goes on behind a comma fails as the comma does, or as what is behind it. -/
theorem Failure.behindComma {α β : Type} {rule : List Char → List Char → Except Fault α}
    {rest : List Char → List Char → Except Fault β} {k : β → Except Fault α}
    {Kind Kind' : List Char → Prop} {opened s : List Char} {fault : Fault}
    (hrule : ∀ o s, rule o s = (comma o s >>= fun s₁ => rest o s₁ >>= k))
    (hrest : ∀ s₁, rest opened s₁ = .error fault → Failure rest Kind s₁ fault)
    (hk : ∀ x, k x ≠ .error fault) (hempty : ∃ w, Kind w)
    (hkind : ∀ (b : Blanks) v, Kind v → Kind' (b.chars ++ ',' :: v))
    (h : rule opened s = .error fault) : Failure rule Kind' s fault := by
  rw [hrule, bind_eq_error] at h
  rcases h with h | ⟨s₁, h₁, h⟩
  · refine (comma_failure h).first ?_ ?_
    · intro s' o f hf
      rw [hrule, hf, error_bind]
    · rintro v ⟨b, rfl⟩
      obtain ⟨w, hw⟩ := hempty
      exact ⟨w, by simpa using hkind b w hw⟩
  · obtain ⟨b, rfl⟩ := comma_eq_ok_iff.1 h₁
    rw [bind_eq_error] at h
    rcases h with h | ⟨x, -, h⟩
    · rw [← List.singleton_append, ← List.append_assoc]
      refine (hrest s₁ h).after (failsAs_behindComma hrule b s₁) ?_
      intro v hv
      exact ⟨[], by simpa using hkind b v hv⟩
    · exact absurd h (hk x)

theorem content_failure (hbody : Reads room body) {opened s : List Char} {name : String}
    {type : ArgumentType} {fault : Fault} (h : content body opened name type s = .error fault) :
    Failure (fun o => content body o name type) (ContentText room type) s fault := by
  cases type with
  | formatted kind =>
    simp only [content] at h
    rw [bind_eq_error] at h
    rcases h with h | ⟨found, -, h⟩
    · refine (styleClause_failure h).first ?_ fun v hv => ⟨[], ?_⟩
      · intro s' o f hf
        simp only [content, hf, error_bind]
      · rw [List.append_nil]
        exact contentText_formatted room kind hv
    · cases h
  | plural kind =>
    exact Failure.behindComma (content_plural · name kind ·)
      (fun _ h => offsetBranches_failure hbody h) (fun _ h => by cases h)
      ⟨_, offsetBranchesText_one room none .none⟩ (fun b _ => contentText_plural kind b) h
  | select =>
    exact Failure.behindComma (fun _ _ => rfl)
      (fun _ h => (branches_failure hbody h).mono fun _ => And.left) (fun _ h => by cases h)
      ⟨_, branchesText_one room .none⟩ (fun b _ => contentText_select b) h

/-- What is read for a type is left in front of a character, and is read again in front of it. -/
theorem content_again {opened s rest : List Char} {name : String}
    {type : ArgumentType} {node : Node}
    (room : Nat) (h : content body opened name type s = .ok (node, rest)) :
    (∃ t, rest = '}' :: t) ∨ ∃ u c t, s = u ++ c :: t ∧ rest = c :: t ∧ ContentText room type u ∧
      ∀ opened' t', content body opened' name type (u ++ c :: t') = .ok (node, c :: t') := by
  cases type with
  | formatted kind =>
    simp only [content, bind_eq_ok, Prod.exists, pure, Except.pure, Except.ok.injEq,
      Prod.mk.injEq] at h
    obtain ⟨style, r, h₁, rfl, rfl⟩ := h
    obtain ⟨u, c, t, rfl, rfl, htext, hagain⟩ := styleClause_again h₁
    refine .inr ⟨u, c, t, rfl, rfl, contentText_formatted room kind htext, ?_⟩
    intro opened' t'
    simp only [content, hagain opened' t', ok_bind]
    rfl
  | plural kind =>
    simp only [content, bind_eq_ok, Prod.exists, pure, Except.pure, Except.ok.injEq,
      Prod.mk.injEq] at h
    obtain ⟨s₁, -, s₂, -, offset, s₃, -, table, r, h₄, -, rfl⟩ := h
    exact .inl (branchesFrom_closes _ _ h₄)
  | select =>
    simp only [content, bind_eq_ok, Prod.exists, pure, Except.pure, Except.ok.injEq,
      Prod.mk.injEq] at h
    obtain ⟨s₁, -, table, r, h₂, -, rfl⟩ := h
    exact .inl (branchesFrom_closes _ _ h₂)

/-- Behind its keyword an argument fails in what belongs to its type, or for want of its closing
brace. -/
theorem typedArgument_failure_keyword (hbody : Reads room body) {opened s : List Char}
    {name : String} {fault : Fault} (lead : Blanks) (w : Word) (hid : Stops isIdentifierChar s)
    {type : ArgumentType} (htype : ArgumentType.ofKeyword? w.name = some type)
    (h : typedArgument body opened name (lead.chars ++ (w.chars ++ s)) = .error fault) :
    Failure (fun o => typedArgument body o name) (TypedText room) (lead.chars ++ (w.chars ++ s))
      fault := by
  have hword : w.chars = type.keyword.toList := by
    rw [keyword_of_ofKeyword? htype, Word.name, String.toList_ofList]
  have htext : ∀ v, ContentText room type v →
      TypedText room (lead.chars ++ (type.keyword.toList ++ (v ++ ['}']))) :=
    fun v hv head => hv head lead
  rw [typedArgument_step lead w hid, htype] at h
  dsimp only at h
  rw [bind_eq_error] at h
  rcases h with h | ⟨⟨node, s₁⟩, h₁, h⟩
  · rw [← List.append_assoc]
    refine (content_failure hbody h).after (typedArgument_failsAs name lead w htype hid) ?_
    intro v hv
    refine ⟨['}'], ?_⟩
    rw [List.append_assoc, hword]
    exact htext v hv
  · rw [bind_eq_error] at h
    rcases h with h | ⟨r, -, h⟩
    · rcases content_again room h₁ with ⟨t, rfl⟩ | ⟨u, c, t, rfl, rfl, hcontent, hagain⟩
      · rw [closeArgument_eq_ok_iff.2 rfl] at h
        cases h
      · rw [closeArgument_cons] at h
        obtain ⟨hc, rfl⟩ := expect_cons_eq_error_iff.1 h
        refine .atCharacter (u := (lead.chars ++ w.chars) ++ u) trivial (by simp) ?_ ⟨['}'], ?_⟩
        · intro opened' t'
          rw [List.append_assoc, List.append_assoc, typedArgument_step lead w
            (hid.congr_head? (head?_append_cons _ _ _ _)), htype]
          simp only [hagain opened' t', ok_bind, closeArgument_cons,
            expect_cons_eq_error_iff.2 ⟨hc, rfl⟩, error_bind]
        · rw [List.append_assoc, List.append_assoc, hword]
          exact htext u hcontent
    · cases h

theorem typedArgument_failure (hbody : Reads room body) {opened s : List Char} {name : String}
    {fault : Fault} (h : typedArgument body opened name s = .error fault) :
    Failure (fun o => typedArgument body o name) (TypedText room) s fault := by
  have hfirst := h
  rw [typedArgument, bind_eq_error] at hfirst
  rcases hfirst with hfirst | ⟨s₁, h₁, hfirst⟩
  · obtain ⟨⟨lead, rfl⟩, rfl⟩ := skipBlanks_eq_error_iff.1 hfirst
    exact .atEnd ⟨_, typedText_number room lead⟩
  · obtain ⟨lead, rfl, hne, hblank⟩ := skipBlanks_eq_ok_iff.1 h₁
    rw [bind_eq_error] at hfirst
    rcases hfirst with hfirst | ⟨⟨keyword, s₂⟩, h₂, -⟩
    · obtain ⟨c, t, rfl⟩ := List.exists_cons_of_ne_nil hne
      obtain ⟨hc, rfl⟩ := identifier_cons_eq_error_iff.1 hfirst
      refine .atCharacter trivial rfl ?_ ⟨_, typedText_number room lead⟩
      intro opened' t'
      rw [typedArgument, skipBlanks_cons lead (stops_cons.1 hblank), ok_bind,
        identifier_cons_eq_error_iff.2 ⟨hc, rfl⟩, error_bind]
    · obtain ⟨w, rfl, rfl, hid⟩ := identifier_eq_ok_iff.1 h₂
      cases htype : ArgumentType.ofKeyword? w.name with
      | none =>
        rw [typedArgument_step lead w hid, htype] at h
        cases h
        exact .inToken trivial
      | some type => exact typedArgument_failure_keyword hbody lead w hid htype h

theorem messageText_argument {v : List Char} (h : ArgumentText room v) : MessageText room v := by
  obtain ⟨source, rfl, hfit, hdepth⟩ := h
  exact ⟨[.argument source], List.append_nil _, ⟨hfit, trivial⟩,
    Nat.max_le.2 ⟨hdepth, Nat.zero_le _⟩⟩

/-- What completes an argument behind its name is its closing brace. -/
theorem argumentText_bare (room : Nat) (head : Head) :
    ArgumentText (room + 1) (head.chars ++ ['}']) :=
  ⟨.bare head, rfl, trivial, Nat.le_add_left 1 room⟩

/-- Behind its opening brace it lacks a name, too. -/
theorem argumentText_one (room : Nat) (before : Blanks) :
    ArgumentText (room + 1) ('{' :: (before.chars ++ ['a', '}'])) := by
  simpa [Head.chars, Word.one, Blanks.none] using argumentText_bare room ⟨before, .one, .none⟩

/-- Behind its name an argument closes, or it fails as what is behind its comma. -/
theorem argument_failure_head (limit : Int) (hbody : Reads room body) (head : Head) {c : Char}
    {t : List Char} {fault : Fault} (hblank : isBlank c = false)
    (hid : Stops isIdentifierChar (head.after.chars ++ c :: t))
    (h : argument limit (some body) (head.chars ++ c :: t) = .error fault) :
    Failure (fun _ => argument limit (some body)) (ArgumentText (room + 1)) (head.chars ++ c :: t)
      fault := by
  by_cases hc : c = ','
  · subst hc
    rw [argument_comma] at h
    rw [← List.singleton_append, ← List.append_assoc]
    refine (typedArgument_failure hbody h).after (argument_failsAs head t) ?_
    intro v hv
    refine ⟨[], ?_⟩
    simpa using hv head
  · have hstep : ∀ t', argument limit (some body) (head.chars ++ c :: t') = (do
        let rest ← expect '}' (c :: t')
        return (.argument head.word.name, rest)) := by
      intro t'
      rw [argument_step (List.cons_ne_nil _ _) (stops_cons.2 hblank)
        (hid.congr_head? (head?_append_cons _ _ _ _)), afterComma?_eq_none_of_head hc]
      simp only [closeArgument_cons]
    rw [hstep, bind_eq_error] at h
    rcases h with h | ⟨r, -, h⟩
    · obtain ⟨hclose, rfl⟩ := expect_cons_eq_error_iff.1 h
      refine .atCharacter trivial rfl ?_ ⟨['}'], argumentText_bare room _⟩
      intro _ t'
      rw [hstep, expect_cons_eq_error_iff.2 ⟨hclose, rfl⟩, error_bind]
    · cases h

theorem argument_failure (limit : Int) (hbody : Reads room body) {s : List Char} {fault : Fault}
    (h : argument limit (some body) ('{' :: s) = .error fault) :
    Failure (fun _ => argument limit (some body)) (MessageText (room + 1)) ('{' :: s) fault := by
  suffices hargument : Failure (fun _ => argument limit (some body)) (ArgumentText (room + 1))
      ('{' :: s) fault from hargument.mono fun _ => messageText_argument
  have hfirst := h
  simp only [argument, List.drop_succ_cons, List.drop_zero] at hfirst
  rw [bind_eq_error] at hfirst
  rcases hfirst with hfirst | ⟨s₁, h₁, hfirst⟩
  · obtain ⟨⟨before, rfl⟩, rfl⟩ := skipBlanks_eq_error_iff.1 hfirst
    exact .atEnd ⟨['a', '}'], argumentText_one room before⟩
  · obtain ⟨before, rfl, hne, hblank⟩ := skipBlanks_eq_ok_iff.1 h₁
    rw [bind_eq_error] at hfirst
    rcases hfirst with hfirst | ⟨⟨name, s₂⟩, h₂, hfirst⟩
    · obtain ⟨c, t, rfl⟩ := List.exists_cons_of_ne_nil hne
      obtain ⟨hc, rfl⟩ := identifier_cons_eq_error_iff.1 hfirst
      refine .atCharacter (u := '{' :: before.chars) trivial rfl ?_
        ⟨['a', '}'], argumentText_one room before⟩
      intro opened' t'
      simp only [argument, List.cons_append, List.drop_succ_cons, List.drop_zero,
        skipBlanks_cons before (stops_cons.1 hblank), ok_bind,
        identifier_cons_eq_error_iff.2 ⟨hc, rfl⟩, error_bind]
    · obtain ⟨w, rfl, rfl, hid⟩ := identifier_eq_ok_iff.1 h₂
      dsimp only at hfirst
      rw [bind_eq_error] at hfirst
      rcases hfirst with hfirst | ⟨s₃, h₃, -⟩
      · obtain ⟨⟨after, rfl⟩, rfl⟩ := skipBlanks_eq_error_iff.1 hfirst
        refine .atEnd ⟨['}'], ?_⟩
        simpa [Head.chars] using argumentText_bare room ⟨before, w, after⟩
      · obtain ⟨after, rfl, hne, hblank⟩ := skipBlanks_eq_ok_iff.1 h₃
        obtain ⟨c, t, rfl⟩ := List.exists_cons_of_ne_nil hne
        have hspell : '{' :: (before.chars ++ (w.chars ++ (after.chars ++ c :: t))) =
            (Head.mk before w after).chars ++ c :: t := by
          simp [Head.chars]
        rw [hspell] at h ⊢
        exact argument_failure_head limit hbody ⟨before, w, after⟩ (stops_cons.1 hblank) hid h

end Body

/-! ## Messages -/

/-- A rule for arguments that fails as `Failure` says. -/
def FailArgument (limit : Int) (room : Nat) (body : Option (Reader Message)) : Prop :=
  ∀ (s : List Char) (fault : Fault), argument limit body ('{' :: s) = .error fault →
    Failure (fun _ => argument limit body) (MessageText room) ('{' :: s) fault

section Messages

variable {limit : Int} {room : Nat} {body : Option (Reader Message)} {inBranch : Bool}

/-- A message fails at a closing brace outside of every argument, or where an argument fails.  In
front of both stands a derivation. -/
theorem scan_error_split (hsound : SoundArgument limit room body) (s : List Char) {fault : Fault}
    (h : scan limit body inBranch s = .error fault) :
    ∃ pieces c t, s = charsOf pieces ++ c :: t ∧ isQuotable c = true ∧
      FitAll (some c) pieces ∧ depthOf pieces ≤ room ∧
      (c = '}' ∧ inBranch = false ∧ fault = .malformed .unexpectedCloseBrace (c :: t) ∨
        c = '{' ∧ argument limit body (c :: t) = .error fault) := by
  -- by strong induction on the text: each step below leaves a shorter one
  induction hn : s.length using Nat.strongRecOn generalizing s with
  | ind n ih =>
    have hcons : ∀ (piece : Piece) (left : List Char), s = piece.chars ++ left →
        piece.Fits left.head? → piece.depth ≤ room → left.length < n →
        (putAtoms piece.atoms (scan limit body inBranch left)) = .error fault →
        ∃ pieces c t, s = charsOf pieces ++ c :: t ∧ isQuotable c = true ∧
          FitAll (some c) pieces ∧ depthOf pieces ≤ room ∧
          (c = '}' ∧ inBranch = false ∧ fault = .malformed .unexpectedCloseBrace (c :: t) ∨
            c = '{' ∧ argument limit body (c :: t) = .error fault) := by
      intro piece left hspell hfit hdepth hlt hscan
      obtain ⟨pieces, c, t, rfl, hquotable, hfits, hdepths, hor⟩ :=
        ih left.length hlt left (map_eq_error.1 hscan) rfl
      refine ⟨piece :: pieces, c, t, ?_, hquotable, ⟨?_, hfits⟩, Nat.max_le.2 ⟨hdepth, hdepths⟩,
        hor⟩
      · rw [hspell, charsOf, List.append_assoc]
      · rwa [List.head?_append] at hfit
    cases s with
    | nil =>
      rw [scan_nil] at h
      cases h
    | cons c t =>
      rw [List.length_cons] at hn
      rcases char_cases c with rfl | rfl | rfl | hc
      · rw [scan_close] at h
        cases inBranch with
        | false =>
          cases h
          exact ⟨[], '}', t, rfl, rfl, trivial, Nat.zero_le _, .inl ⟨rfl, rfl, rfl⟩⟩
        | true => cases h
      · cases ha : argument limit body ('{' :: t) with
        | error e =>
          rw [scan_open_of_error ha] at h
          cases h
          exact ⟨[], '{', t, rfl, rfl, trivial, Nat.zero_le _, .inr ⟨rfl, ha⟩⟩
        | ok r =>
          obtain ⟨node, left⟩ := r
          rw [scan_open_of_ok ha] at h
          obtain ⟨source, hspell, hfit, hdepth, rfl⟩ := hsound t node left ha
          have hlen := (argument_suffix ha).length_le
          rw [List.drop_succ_cons, List.drop_zero] at hlen
          have hnode : source.node.atoms = (Piece.argument source).atoms := by
            cases source <;> rfl
          rw [hnode] at h
          exact hcons (.argument source) left hspell hfit hdepth (by omega) h
      · rw [scan_apostrophe] at h
        obtain ⟨piece, hspell, hfit, hdepth, hatoms⟩ := quotation_sound t
        have hlen := (quotation_suffix t).length_le
        rw [← hatoms] at h
        exact hcons piece _ hspell hfit (hdepth ▸ Nat.zero_le room) (by omega) h
      · rw [scan_plain hc] at h
        exact hcons (.literal ⟨c, hc⟩) t rfl trivial (Nat.zero_le room) (by omega) h

theorem messageOver_failure (hsound : SoundArgument limit room body)
    (hcomplete : CompleteArgument limit room body) (hfail : FailArgument limit room body) :
    FailMessage room (messageOver limit body inBranch) := by
  intro s fault h
  rw [messageOver_run, map_eq_error] at h
  obtain ⟨pieces, c, t, rfl, hquotable, hfit, hdepth, hor⟩ := scan_error_split hsound s h
  have hclosed : MessageText room (charsOf pieces) :=
    ⟨pieces, rfl, hfit.of_quotable hquotable _, hdepth⟩
  rcases hor with ⟨rfl, rfl, rfl⟩ | ⟨rfl, ha⟩
  · refine .atCharacter trivial rfl ?_ ⟨[], (List.append_nil _).symm ▸ hclosed⟩
    intro _ t'
    have hclose : scan limit body false ('}' :: t') =
        .error (.malformed .unexpectedCloseBrace ('}' :: t')) := scan_close t'
    rw [messageOver_run, scan_error_behind hcomplete hclose pieces hfit hdepth]
    rfl
  · refine (hfail t fault ha).after (messageOver_failsAs hcomplete inBranch hfit hdepth t) ?_
    rintro v ⟨others, rfl, hfits, hdepths⟩
    refine ⟨[], pieces ++ others, ?_, ?_, ?_⟩
    · rw [charsOf_append, List.append_nil]
    · exact (fitAll_append _ _ _).2 ⟨hfit.of_quotable hquotable _, hfits⟩
    · rw [depthOf_append]
      exact Nat.max_le.2 ⟨hdepth, hdepths⟩

end Messages

/-- Every message fails so, within the same bound on nesting. -/
theorem message_failure (limit : Int) (room : Nat) (inBranch : Bool) :
    FailMessage room (message limit room inBranch) := by
  induction room generalizing inBranch with
  | zero =>
    rw [message_eq]
    refine messageOver_failure nofun (completeArgument_zero limit none) ?_
    intro s fault h
    cases h
    exact .atCharacter (u := []) trivial rfl (fun _ _ => rfl)
      ⟨[], [], rfl, trivial, Nat.zero_le _⟩
  | succ room ih =>
    have hbody : Reads room (message limit room true) :=
      ⟨message_sound limit room true, message_complete limit room true, ih true⟩
    rw [message_eq]
    exact messageOver_failure (argument_sound limit hbody.sound)
      (argument_complete limit hbody.complete) fun _ _ => argument_failure limit hbody

end Phrasebook.Pattern
