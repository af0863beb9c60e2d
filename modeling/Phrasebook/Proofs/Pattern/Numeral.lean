/-
  Numerals with too many digits.

  A pattern has a message, or a fault with a place, or it fails on a numeral
  with more digits than are read, which is a failure without a place.  The last
  happens exactly where a numeral is due: where a closing brace, put there in
  place of what follows, would be found to be none.

  A rule reaches a numeral over what it has read before, and that was derived.
  So it reaches the same place in front of every other text, and fails there as
  the reader of numerals does (`NumeralFailure`).
-/
import Phrasebook.Proofs.Pattern.Failure
import Phrasebook.Proofs.Pattern.Truncation

set_option autoImplicit false

namespace Phrasebook.Pattern

open Phrasebook.Text

/-! ## Faults of numerals -/

/-- A fault that lies in a numeral: there is none where one is due, or it has too many digits. -/
def Fault.OfNumeral : Fault → Prop
  | .malformed .expectedInteger _ => True
  | .integerTooLong => True
  | _ => False

/-- A text that begins with a numeral of more digits than are read. -/
def LongNumeral (s : List Char) : Prop :=
  ∃ (negative : Bool) (digits rest : List Char),
    s = (if negative then ['-'] else []) ++ (digits ++ rest) ∧
      (∀ c ∈ digits, isAsciiDigit c = true) ∧ Number.maxIntegerDigits < digits.length

theorem splitMinus_digits (negative : Bool) {digits : List Char} (hne : digits ≠ [])
    (hdigits : ∀ c ∈ digits, isAsciiDigit c = true) (rest : List Char) :
    splitMinus ((if negative then ['-'] else []) ++ (digits ++ rest)) =
      (negative, digits ++ rest) := by
  cases negative with
  | true => simp [splitMinus]
  | false =>
    obtain ⟨c, t, rfl⟩ := List.exists_cons_of_ne_nil hne
    have hc : c ≠ '-' := by
      rintro rfl
      exact absurd (hdigits '-' List.mem_cons_self) (by decide)
    simp [splitMinus, hc]

/-- The reader of numerals gives up exactly on the long ones. -/
theorem integer_eq_tooLong_iff {s : List Char} :
    integer s = .error .integerTooLong ↔ LongNumeral s := by
  constructor
  · intro h
    simp only [integer] at h
    split at h
    · cases h
    · split at h
      · rename_i hlong
        refine ⟨(splitMinus s).1, (splitMinus s).2.takeWhile isAsciiDigit,
          (splitMinus s).2.dropWhile isAsciiDigit, ?_, fun c hc => mem_takeWhile hc, hlong⟩
        rw [List.takeWhile_append_dropWhile]
        exact splitMinus_eq s
      · cases h
  · rintro ⟨negative, digits, rest, rfl, hdigits, hlong⟩
    have hne : digits ≠ [] := List.ne_nil_of_length_pos (Nat.zero_lt_of_lt hlong)
    have htake : (digits ++ rest).takeWhile isAsciiDigit = digits ++ rest.takeWhile isAsciiDigit :=
      List.takeWhile_append_of_pos hdigits
    have hlength : Number.maxIntegerDigits < digits.length + (rest.takeWhile isAsciiDigit).length :=
      Nat.lt_add_right _ hlong
    simp [integer, splitMinus_digits negative hne hdigits, htake, hne, hlength]

theorem LongNumeral.ne_nil {s : List Char} (h : LongNumeral s) : s ≠ [] := by
  rintro rfl
  cases integer_eq_tooLong_iff.2 h

theorem LongNumeral.stops_blank {s : List Char} (h : LongNumeral s) : Stops isBlank s := by
  obtain ⟨negative, digits, rest, rfl, hdigits, hlong⟩ := h
  obtain ⟨c, t, rfl⟩ :=
    List.exists_cons_of_ne_nil (List.ne_nil_of_length_pos (Nat.zero_lt_of_lt hlong))
  cases negative with
  | true => exact stops_cons.2 (by decide)
  | false =>
    have hdigit := hdigits c List.mem_cons_self
    exact stops_cons.2 (isBlank_of_isIdentifierChar (isIdentifierChar_of_isAsciiDigit hdigit))

/-- If the reader of numerals fails otherwise, it is because there is none. -/
theorem integer_eq_expected {s rest : List Char} {cause : Cause}
    (h : integer s = .error (.malformed cause rest)) : cause = .expectedInteger ∧ rest = s := by
  simp only [integer] at h
  split at h
  · cases h
    exact ⟨rfl, rfl⟩
  · split at h <;> cases h

theorem integer_ofNumeral {s : List Char} {fault : Fault} (h : integer s = .error fault) :
    fault.OfNumeral := by
  cases fault with
  | integerTooLong => trivial
  | malformed cause rest =>
    obtain ⟨rfl, -⟩ := integer_eq_expected h
    trivial

/-! ## Readers that meet no numeral -/

/-- A result that is no fault of a numeral. -/
def MeetsNone {α : Type} (result : Except Fault α) : Prop :=
  ∀ fault, result = .error fault → ¬ fault.OfNumeral

section MeetsNone

variable {α β : Type}

theorem MeetsNone.bind {first : Except Fault α} {next : α → Except Fault β}
    (hfirst : MeetsNone first) (hnext : ∀ x, MeetsNone (next x)) : MeetsNone (first >>= next) := by
  intro fault h
  rcases bind_eq_error.1 h with h | ⟨x, -, h⟩
  · exact hfirst fault h
  · exact hnext x fault h

theorem meetsNone_ok (x : α) : MeetsNone (.ok x) := by
  intro fault h
  cases h

theorem meetsNone_skipBlanks (opened s : List Char) : MeetsNone (skipBlanks opened s) := by
  intro fault h
  obtain ⟨-, rfl⟩ := skipBlanks_eq_error_iff.1 h
  exact id

theorem meetsNone_identifier (s : List Char) : MeetsNone (identifier s) := by
  intro fault h
  simp only [identifier] at h
  split at h
  · cases h
    exact id
  · cases h

theorem meetsNone_expect (expected : Char) (s : List Char) : MeetsNone (expect expected s) := by
  intro fault h
  cases s with
  | nil =>
    cases h
    exact id
  | cons c t =>
    obtain ⟨-, rfl⟩ := expect_cons_eq_error_iff.1 h
    exact id

theorem meetsNone_comma (opened s : List Char) : MeetsNone (comma opened s) :=
  (meetsNone_skipBlanks opened s).bind fun _ => meetsNone_expect _ _

theorem meetsNone_closeArgument (opened s : List Char) : MeetsNone (closeArgument opened s) := by
  rw [closeArgument]
  split
  · intro fault h
    cases h
    exact id
  · exact meetsNone_expect _ _

theorem meetsNone_styleClause (opened s : List Char) : MeetsNone (styleClause opened s) := by
  rw [styleClause]
  refine (meetsNone_skipBlanks opened s).bind fun s₁ => ?_
  split
  · exact meetsNone_ok _
  · refine (meetsNone_skipBlanks _ _).bind fun s₂ => (meetsNone_identifier s₂).bind fun r => ?_
    exact (meetsNone_skipBlanks _ _).bind fun _ => meetsNone_ok _

end MeetsNone

/-! ## Rules that reach a numeral -/

/-- A rule that fails as the reader of numerals does behind some front of its text.  With every
other text there that begins no blanks it fails as that reader does with that text. -/
def NumeralFailure {α : Type} (rule : List Char → List Char → Except Fault α) (s : List Char)
    (fault : Fault) : Prop :=
  ∃ u v, u ≠ [] ∧ s = u ++ v ∧ integer v = .error fault ∧
    ∀ opened w f, w ≠ [] → Stops isBlank w → integer w = .error f →
      rule opened (u ++ w) = .error f

section NumeralFailure

variable {α β : Type} {rule : List Char → List Char → Except Fault α}
  {rule' : List Char → List Char → Except Fault β} {s : List Char} {fault : Fault}

/-- A rule that fails as another one behind what it has read reaches the numerals of that one. -/
theorem NumeralFailure.after {front : List Char} (h : NumeralFailure rule s fault)
    (hrule : FailsAs rule' rule front s) : NumeralFailure rule' (front ++ s) fault := by
  obtain ⟨u, v, hne, rfl, hv, hagain⟩ := h
  refine ⟨front ++ u, v, by simp [hne], (List.append_assoc _ _ _).symm, hv, ?_⟩
  intro opened' w f hw hblank hf
  obtain ⟨c, t, rfl⟩ := List.exists_cons_of_ne_nil hne
  obtain ⟨opened, himp⟩ := hrule ((c :: t) ++ w) rfl opened'
  rw [List.append_assoc]
  exact himp f (hagain opened w f hw hblank hf)

/-- So does a rule that fails as another one on the same text, if only in its numerals. -/
theorem NumeralFailure.first (h : NumeralFailure rule s fault)
    (hrule : ∀ s' opened f, f.OfNumeral → rule opened s' = .error f → rule' opened s' = .error f) :
    NumeralFailure rule' s fault := by
  obtain ⟨u, v, hne, rfl, hv, hagain⟩ := h
  refine ⟨u, v, hne, rfl, hv, ?_⟩
  intro opened w f hw hblank hf
  exact hrule _ opened f (integer_ofNumeral hf) (hagain opened w f hw hblank hf)

end NumeralFailure

/-- A rule for messages whose failures in numerals are as `NumeralFailure` says. -/
def ReachesNumerals (rule : Reader Message) : Prop :=
  ∀ (s : List Char) (fault : Fault), rule.run s = .error fault → fault.OfNumeral →
    NumeralFailure (fun _ => rule.run) s fault

section Body

variable {room : Nat} {body : Reader Message} {s : List Char} {fault : Fault}

theorem branchKey_numeral (h : branchKey s = .error fault) (hfault : fault.OfNumeral) :
    NumeralFailure (fun _ => branchKey) s fault := by
  by_cases hs : s.head? = some '='
  · obtain ⟨t, rfl⟩ := List.head?_eq_some_iff.1 hs
    rw [branchKey_exact, map_eq_error] at h
    refine ⟨['='], t, List.cons_ne_nil _ _, rfl, h, ?_⟩
    intro _ w f _ _ hf
    have hkey : branchKey ('=' :: w) = .error f := by
      rw [branchKey_exact, map_eq_error]
      exact hf
    exact hkey
  · rw [branchKey_of_head?_ne hs, map_eq_error] at h
    exact absurd hfault (meetsNone_identifier s fault h)

theorem branchBody_numeral (hbody : ReachesNumerals body) {key : BranchKey}
    (h : branchBody body key s = .error fault) (hfault : fault.OfNumeral) :
    NumeralFailure (fun _ => branchBody body key) s fault := by
  rw [branchBody, bind_eq_error] at h
  rcases h with h | ⟨⟨message, s₁⟩, -, h⟩
  · refine (hbody _ _ h hfault).first ?_
    intro s' _ f _ hf
    have hrun : body.run s' = .error f := hf
    rw [branchBody, hrun, error_bind]
  · cases s₁ with
    | cons c t => cases h
    | nil =>
      cases h
      exact absurd hfault id

theorem branch_numeral (hbody : ReachesNumerals body) {opened : List Char}
    (h : branch body opened s = .error fault) (hfault : fault.OfNumeral) :
    NumeralFailure (branch body) s fault := by
  have hfirst := h
  rw [branch, bind_eq_error] at hfirst
  rcases hfirst with hfirst | ⟨⟨key, s₁⟩, h₁, hfirst⟩
  · refine (branchKey_numeral hfirst hfault).first ?_
    intro s' _ f _ hf
    rw [branch, hf, error_bind]
  · obtain ⟨source, rfl, rfl, -⟩ := branchKey_eq_ok_iff.1 h₁
    dsimp only at hfirst
    rw [bind_eq_error] at hfirst
    rcases hfirst with hfirst | ⟨s₂, h₂, hfirst⟩
    · exact absurd hfault (meetsNone_skipBlanks _ _ _ hfirst)
    · obtain ⟨after, rfl, -, -⟩ := skipBlanks_eq_ok_iff.1 h₂
      rw [bind_eq_error] at hfirst
      rcases hfirst with hfirst | ⟨s₃, h₃, -⟩
      · exact absurd hfault (meetsNone_expect _ _ _ hfirst)
      · cases expect_eq_ok h₃
        have hspell : ∀ v, source.chars ++ (after.chars ++ '{' :: v) =
            (source.chars ++ (after.chars ++ ['{'])) ++ v := by
          intro v
          simp
        rw [branch_step] at h
        rw [hspell]
        exact (branchBody_numeral hbody h hfault).after (branch_failsAs source after _)

theorem branchesFrom_numeral (hreads : Reads room body) (hbody : ReachesNumerals body)
    {typeName : String} {opened : List Char} (read : List (BranchKey × Message)) (s : List Char)
    (h : branchesFrom body typeName opened read s = .error fault) (hfault : fault.OfNumeral) :
    NumeralFailure (fun o => branchesFrom body typeName o read) s fault := by
  fun_induction branchesFrom body typeName opened read s with
  | case1 read s e h₁ =>
    cases h
    exact absurd hfault (meetsNone_skipBlanks _ _ _ h₁)
  | case2 =>
    cases h
    exact absurd hfault id
  | case3 => cases h
  | case4 read s s₁ h₁ hclose e h₂ =>
    cases h
    obtain ⟨b, rfl, hne, hblank⟩ := skipBlanks_eq_ok_iff.1 h₁
    exact (branch_numeral hbody h₂ hfault).after
      (branchesFrom_failsAs_branch typeName read b hne hblank hclose)
  | case5 read s s₁ h₁ hclose pair s₂ h₂ ih =>
    obtain ⟨before, rfl, -, -⟩ := skipBlanks_eq_ok_iff.1 h₁
    obtain ⟨⟨head, pieces⟩, hspell, hfit, hdepth, rfl⟩ := branch_sound hreads.sound h₂ before
    rw [hspell]
    exact (ih h).after
      (branchesFrom_failsAs_rest hreads.complete typeName read head hfit hdepth s₂)

theorem branches_numeral (hreads : Reads room body) (hbody : ReachesNumerals body)
    {typeName : String} {opened : List Char} (h : branches body typeName opened s = .error fault)
    (hfault : fault.OfNumeral) : NumeralFailure (branches body typeName) s fault :=
  branchesFrom_numeral hreads hbody [] s h hfault

/-- Branches that fail in a numeral have no word of an offset in front. -/
theorem isPrefixOf?_of_branches_numeral {typeName : String} {opened s₁ : List Char}
    (h : branches body typeName opened s = .error fault) (hfault : fault.OfNumeral)
    (hskip : skipBlanks opened s = .ok s₁) : offsetWord.isPrefixOf? s₁ = none := by
  cases hword : offsetWord.isPrefixOf? s₁ with
  | none => rfl
  | some r =>
    obtain rfl := isPrefixOf?_eq_some_iff.1 hword
    rw [branches_of_skipBlanks hskip, branches_offsetWord] at h
    cases h
    exact absurd hfault id

/-- Behind its word an offset reaches its own numeral, or one of the branches. -/
theorem offsetBranches_numeral_offset (hreads : Reads room body) (hbody : ReachesNumerals body)
    {typeName : String} {opened : List Char} (before : Blanks)
    (h : offsetBranches body typeName opened (before.chars ++ (offsetWord ++ s)) = .error fault)
    (hfault : fault.OfNumeral) :
    NumeralFailure (offsetBranches body typeName) (before.chars ++ (offsetWord ++ s)) fault := by
  rw [offsetBranches_offsetWord, bind_eq_error] at h
  rcases h with h | ⟨s₁, h₁, h⟩
  · exact absurd hfault (meetsNone_skipBlanks _ _ _ h)
  · obtain ⟨between, rfl, -, -⟩ := skipBlanks_eq_ok_iff.1 h₁
    rw [bind_eq_error] at h
    rcases h with h | ⟨⟨offset, s₂⟩, h₂, h⟩
    · refine ⟨before.chars ++ (offsetWord ++ between.chars), s₁, ?_, by simp, h, ?_⟩
      · simp [offsetWord]
      · intro opened' w f hw hblank hf
        rw [List.append_assoc, List.append_assoc, offsetBranches_offsetWord,
          skipBlanks_of_stops between hw hblank, ok_bind, hf, error_bind]
    · obtain ⟨amount, rfl, rfl, hstop⟩ := integer_eq_ok_iff.1 h₂
      dsimp only at h
      rw [bind_eq_error] at h
      rcases h with h | ⟨s₃, h₃, h⟩
      · exact absurd hfault (meetsNone_skipBlanks _ _ _ h)
      · rw [bind_eq_error] at h
        rcases h with h | ⟨found, -, h⟩
        · rw [← branches_of_skipBlanks h₃] at h
          have hspell : ∀ v, before.chars ++ (offsetWord ++ (between.chars ++ (amount.chars ++ v)))
              = offsetChars (some ⟨before, between, amount⟩) ++ v := by
            intro v
            simp [offsetChars, OffsetSource.chars]
          rw [hspell]
          exact (branches_numeral hreads hbody h hfault).after
            (offsetBranches_failsAs typeName _ hstop)
        · cases h

theorem offsetBranches_numeral (hreads : Reads room body) (hbody : ReachesNumerals body)
    {typeName : String} {opened : List Char}
    (h : offsetBranches body typeName opened s = .error fault) (hfault : fault.OfNumeral) :
    NumeralFailure (offsetBranches body typeName) s fault := by
  have hfirst := h
  rw [offsetBranches, bind_eq_error] at hfirst
  rcases hfirst with hfirst | ⟨s₁, h₁, -⟩
  · exact absurd hfault (meetsNone_skipBlanks _ _ _ hfirst)
  · obtain ⟨before, rfl, hne, hblank⟩ := skipBlanks_eq_ok_iff.1 h₁
    cases hword : offsetWord.isPrefixOf? s₁ with
    | none =>
      rw [offsetBranches_of_isPrefixOf? opened before hne hblank hword, bind_eq_error] at h
      rcases h with h | ⟨found, -, h⟩
      · rw [← branches_of_skipBlanks h₁] at h
        refine (branches_numeral hreads hbody h hfault).first ?_
        intro s' opened' f hof hf
        exact offsetBranches_error
          (fun s₂ hskip => isPrefixOf?_of_branches_numeral hf hof hskip) hf
      · cases h
    | some s₂ =>
      obtain rfl := isPrefixOf?_eq_some_iff.1 hword
      exact offsetBranches_numeral_offset hreads hbody before h hfault

/-! ## Arguments -/

/-- A rule that goes on behind a comma reaches the numerals of what is behind it. -/
theorem NumeralFailure.behindComma {α β : Type} {rule : List Char → List Char → Except Fault α}
    {rest : List Char → List Char → Except Fault β} {k : β → Except Fault α} {opened : List Char}
    (hrule : ∀ o s, rule o s = (comma o s >>= fun s₁ => rest o s₁ >>= k))
    (hrest : ∀ s₁, rest opened s₁ = .error fault → NumeralFailure rest s₁ fault)
    (hk : ∀ x, k x ≠ .error fault) (h : rule opened s = .error fault) (hfault : fault.OfNumeral) :
    NumeralFailure rule s fault := by
  rw [hrule, bind_eq_error] at h
  rcases h with h | ⟨s₁, h₁, h⟩
  · exact absurd hfault (meetsNone_comma _ _ _ h)
  · obtain ⟨b, rfl⟩ := comma_eq_ok_iff.1 h₁
    rw [bind_eq_error] at h
    rcases h with h | ⟨x, -, h⟩
    · rw [← List.singleton_append, ← List.append_assoc]
      exact (hrest s₁ h).after (failsAs_behindComma hrule b s₁)
    · exact absurd h (hk x)

theorem content_numeral (hreads : Reads room body) (hbody : ReachesNumerals body)
    {opened : List Char} {name : String} {type : ArgumentType}
    (h : content body opened name type s = .error fault) (hfault : fault.OfNumeral) :
    NumeralFailure (fun o => content body o name type) s fault := by
  cases type with
  | formatted kind =>
    simp only [content] at h
    rw [bind_eq_error] at h
    rcases h with h | ⟨found, -, h⟩
    · exact absurd hfault (meetsNone_styleClause _ _ _ h)
    · cases h
  | plural kind =>
    exact NumeralFailure.behindComma (content_plural · name kind ·)
      (fun _ h => offsetBranches_numeral hreads hbody h hfault) (fun _ h => by cases h) h hfault
  | select =>
    exact NumeralFailure.behindComma (fun _ _ => rfl)
      (fun _ h => branches_numeral hreads hbody h hfault) (fun _ h => by cases h) h hfault

theorem typedArgument_numeral (hreads : Reads room body) (hbody : ReachesNumerals body)
    {opened : List Char} {name : String} (h : typedArgument body opened name s = .error fault)
    (hfault : fault.OfNumeral) : NumeralFailure (fun o => typedArgument body o name) s fault := by
  have hfirst := h
  rw [typedArgument, bind_eq_error] at hfirst
  rcases hfirst with hfirst | ⟨s₁, h₁, hfirst⟩
  · exact absurd hfault (meetsNone_skipBlanks _ _ _ hfirst)
  · obtain ⟨lead, rfl, -, -⟩ := skipBlanks_eq_ok_iff.1 h₁
    rw [bind_eq_error] at hfirst
    rcases hfirst with hfirst | ⟨⟨keyword, s₂⟩, h₂, -⟩
    · exact absurd hfault (meetsNone_identifier _ _ hfirst)
    · obtain ⟨w, rfl, rfl, hid⟩ := identifier_eq_ok_iff.1 h₂
      cases htype : ArgumentType.ofKeyword? w.name with
      | none =>
        rw [typedArgument_step lead w hid, htype] at h
        cases h
        exact absurd hfault id
      | some type =>
        rw [typedArgument_step lead w hid, htype] at h
        dsimp only at h
        rw [bind_eq_error] at h
        rcases h with h | ⟨⟨node, s₃⟩, -, h⟩
        · rw [← List.append_assoc]
          exact (content_numeral hreads hbody h hfault).after
            (typedArgument_failsAs name lead w htype hid)
        · rw [bind_eq_error] at h
          rcases h with h | ⟨r, -, h⟩
          · exact absurd hfault (meetsNone_closeArgument _ _ _ h)
          · cases h

theorem argument_numeral (limit : Int) (hreads : Reads room body) (hbody : ReachesNumerals body)
    (h : argument limit (some body) ('{' :: s) = .error fault) (hfault : fault.OfNumeral) :
    NumeralFailure (fun _ => argument limit (some body)) ('{' :: s) fault := by
  have hfirst := h
  simp only [argument, List.drop_succ_cons, List.drop_zero] at hfirst
  rw [bind_eq_error] at hfirst
  rcases hfirst with hfirst | ⟨s₁, h₁, hfirst⟩
  · exact absurd hfault (meetsNone_skipBlanks _ _ _ hfirst)
  · obtain ⟨before, rfl, -, -⟩ := skipBlanks_eq_ok_iff.1 h₁
    rw [bind_eq_error] at hfirst
    rcases hfirst with hfirst | ⟨⟨name, s₂⟩, h₂, hfirst⟩
    · exact absurd hfault (meetsNone_identifier _ _ hfirst)
    · obtain ⟨w, rfl, rfl, hid⟩ := identifier_eq_ok_iff.1 h₂
      dsimp only at hfirst
      rw [bind_eq_error] at hfirst
      rcases hfirst with hfirst | ⟨s₃, h₃, -⟩
      · exact absurd hfault (meetsNone_skipBlanks _ _ _ hfirst)
      · obtain ⟨after, rfl, hne, hblank⟩ := skipBlanks_eq_ok_iff.1 h₃
        have hspell : '{' :: (before.chars ++ (w.chars ++ (after.chars ++ s₃))) =
            (Head.mk before w after).chars ++ s₃ := by
          simp [Head.chars]
        rw [hspell] at h ⊢
        cases hcomma : afterComma? s₃ with
        | none =>
          rw [argument_step hne hblank hid, hcomma] at h
          dsimp only at h
          rw [bind_eq_error] at h
          rcases h with h | ⟨r, -, h⟩
          · exact absurd hfault (meetsNone_closeArgument _ _ _ h)
          · cases h
        | some t =>
          obtain rfl := afterComma?_eq_some_iff.1 hcomma
          rw [argument_comma] at h
          rw [← List.singleton_append, ← List.append_assoc]
          exact (typedArgument_numeral hreads hbody h hfault).after (argument_failsAs _ t)

end Body

/-! ## Messages -/

theorem messageOver_numeral {limit : Int} (room : Nat) {body : Option (Reader Message)}
    {inBranch : Bool} (hsound : SoundArgument limit room body)
    (hcomplete : CompleteArgument limit room body)
    (hreach : ∀ (s : List Char) (fault : Fault), argument limit body ('{' :: s) = .error fault →
      fault.OfNumeral → NumeralFailure (fun _ => argument limit body) ('{' :: s) fault) :
    ReachesNumerals (messageOver limit body inBranch) := by
  intro s fault h hfault
  rw [messageOver_run, map_eq_error] at h
  obtain ⟨pieces, c, t, rfl, -, hfit, hdepth, hor⟩ := scan_error_split hsound s h
  rcases hor with ⟨-, -, rfl⟩ | ⟨rfl, ha⟩
  · exact absurd hfault id
  · exact (hreach t fault ha hfault).after (messageOver_failsAs hcomplete inBranch hfit hdepth t)

/-- Every message reaches its numerals so, however deep they stand. -/
theorem message_numeral (limit : Int) (room : Nat) (inBranch : Bool) :
    ReachesNumerals (message limit room inBranch) := by
  induction room generalizing inBranch with
  | zero =>
    rw [message_eq]
    refine messageOver_numeral 0 nofun (completeArgument_zero limit none) ?_
    intro s fault h hfault
    cases h
    exact absurd hfault id
  | succ room ih =>
    have hreads : Reads room (message limit room true) :=
      ⟨message_sound limit room true, message_complete limit room true,
        message_failure limit room true⟩
    rw [message_eq]
    exact messageOver_numeral (room + 1) (argument_sound limit hreads.sound)
      (argument_complete limit hreads.complete) fun _ _ =>
        argument_numeral limit hreads (ih true)

/-! ## Parsers -/

/-- A parser awaits a numeral behind a text if it reports there that a closing brace is none. -/
def Parser.AwaitsNumeral (p : Parser) (u : List Char) : Prop :=
  p.parse (String.ofList (u ++ ['}'])) =
    .error (.malformed ⟨String.ofList (u ++ ['}']), u.length, .expectedInteger⟩)

theorem Parser.awaitsNumeral_iff {p : Parser} {u : List Char} :
    p.AwaitsNumeral u ↔ p.rejects (u.length + 1) = false ∧
      p.rule.run (u ++ ['}']) = .error (.malformed .expectedInteger ['}']) := by
  rw [Parser.AwaitsNumeral, Parser.parse_eq_malformed_iff, String.toList_ofList,
    List.length_append, List.length_singleton]
  refine and_congr_right fun _ => ⟨?_, ?_⟩
  · rintro ⟨cause, rest, hrun, he⟩
    obtain ⟨-, hposition, rfl⟩ := ParseError.mk.inj he
    obtain ⟨front, v, -, hspell, hv, -⟩ := message_numeral _ _ _ _ _ hrun trivial
    obtain ⟨-, rfl⟩ := integer_eq_expected hv
    -- what the fault leaves is one character, and so it is the brace
    have hlength := congrArg List.length hspell
    simp only [List.length_append, List.length_singleton] at hlength
    obtain ⟨-, rfl⟩ := List.append_inj hspell (by omega)
    exact hrun
  · intro hrun
    exact ⟨_, _, hrun, by simp⟩

/-- A parser gives up on a pattern exactly if a long numeral stands where it awaits one. -/
theorem Parser.parse_eq_integerTooLong_iff {p : Parser} {pattern : String}
    (hsize : p.rejects pattern.toList.length = false) :
    p.parse pattern = .error .integerTooLong ↔
      ∃ u v, pattern.toList = u ++ v ∧ p.AwaitsNumeral u ∧ LongNumeral v := by
  rw [Parser.parse_eq_integerTooLong_iff_run, and_iff_right hsize]
  constructor
  · intro h
    obtain ⟨u, v, -, hspell, hv, hagain⟩ := message_numeral _ _ _ _ _ h trivial
    have hlong := integer_eq_tooLong_iff.1 hv
    refine ⟨u, v, hspell, Parser.awaitsNumeral_iff.2 ⟨?_, ?_⟩, hlong⟩
    · refine Parser.rejects_of_le hsize ?_
      have hpos := List.length_pos_iff.2 hlong.ne_nil
      rw [hspell, List.length_append]
      omega
    · exact hagain [] ['}'] _ (List.cons_ne_nil _ _) (stops_cons.2 (by decide)) rfl
  · rintro ⟨u, v, hspell, hawaits, hlong⟩
    obtain ⟨-, hrun⟩ := Parser.awaitsNumeral_iff.1 hawaits
    obtain ⟨front, w, -, hfront, hw, hagain⟩ := message_numeral _ _ _ _ _ hrun trivial
    obtain ⟨-, rfl⟩ := integer_eq_expected hw
    obtain ⟨rfl, -⟩ := List.append_inj' hfront rfl
    rw [hspell]
    exact hagain [] v _ hlong.ne_nil hlong.stops_blank (integer_eq_tooLong_iff.2 hlong)

/-- A pattern that is not too long for a parser has a message or a fault with a place, unless a
numeral of more digits than are read stands where one is awaited: as an exact key or an offset. -/
theorem Parser.parse_ok_or_malformed_iff (p : Parser) (pattern : String)
    (hsize : p.maxSourceSize ≤ 0 ∨ (pattern.toList.length : Int) ≤ p.maxSourceSize) :
    ((∃ message, p.parse pattern = .ok message) ∨
        ∃ e, p.parse pattern = .error (.malformed e)) ↔
      ¬ ∃ u v, pattern.toList = u ++ v ∧ p.AwaitsNumeral u ∧ LongNumeral v := by
  have htakes : p.rejects pattern.toList.length = false := by
    simp only [Parser.rejects, Bool.and_eq_false_iff, decide_eq_false_iff_not]
    omega
  rw [← Parser.parse_eq_integerTooLong_iff htakes]
  cases h : p.parse pattern with
  | ok message => simp
  | error failure =>
    cases failure with
    | malformed e => simp
    | integerTooLong => simp
    | tooLong size limit =>
      -- a parser says so only of a pattern that it rejects
      simp only [Parser.parse, htakes, Bool.false_eq_true, if_false] at h
      split at h <;> cases h

/-- A pattern as long as the parser allows, with a brace for an exact key. -/
theorem Parser.parse_ok_or_malformed_brace :
    (14 : Int) ≤ 14 ∧ ((∃ message, (⟨14, 1, by decide⟩ : Parser).parse "\x7bn, plural, =\x7d" =
        .ok message) ∨
      ∃ e, (⟨14, 1, by decide⟩ : Parser).parse "\x7bn, plural, =\x7d" = .error (.malformed e)) := by
  refine ⟨by decide, (Parser.parse_ok_or_malformed_iff _ _ (.inr (by decide))).2 ?_⟩
  rintro ⟨u, v, hspell, -, negative, digits, rest, rfl, -, hlong⟩
  have hlength := congrArg List.length hspell
  simp only [List.length_append] at hlength
  have hsize : "\x7bn, plural, =\x7d".toList.length = 14 := by decide
  rw [Number.maxIntegerDigits] at hlong
  omega

/-- An exact key of one digit too many has neither a message nor a fault with a place. -/
theorem Parser.parse_longKey :
    ¬ ∀ (p : Parser) (pattern : String),
      (p.maxSourceSize ≤ 0 ∨ (pattern.toList.length : Int) ≤ p.maxSourceSize) →
        (∃ message, p.parse pattern = .ok message) ∨
          ∃ e, p.parse pattern = .error (.malformed e) := by
  intro hall
  let p : Parser := ⟨0, 1, by decide⟩
  let front := "\x7bn, plural, =".toList
  let key := List.replicate 4301 '1' ++ " \x7bx\x7d\x7d".toList
  have hawaits : p.AwaitsNumeral front := by
    rw [Parser.AwaitsNumeral]
    decide +kernel
  have hlong : LongNumeral key :=
    ⟨false, List.replicate 4301 '1', _, rfl, fun c hc => List.eq_of_mem_replicate hc ▸ rfl,
      by rw [List.length_replicate, Number.maxIntegerDigits]; decide⟩
  have hparse : p.parse (String.ofList (front ++ key)) = .error .integerTooLong :=
    (Parser.parse_eq_integerTooLong_iff (Parser.rejects_eq_false (Int.le_refl 0) _)).2
      ⟨front, key, String.toList_ofList, hawaits, hlong⟩
  rcases hall p (String.ofList (front ++ key)) (.inl (Int.le_refl 0)) with ⟨message, h⟩ | ⟨e, h⟩
  · rw [hparse] at h
    cases h
  · rw [hparse] at h
    cases h

end Phrasebook.Pattern
