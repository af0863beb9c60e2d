/-
  What stands where a fault is reported.

  The text that a fault leaves is an end of the pattern, and it begins with what
  the fault is about: an argument that is never closed with its opening brace, a
  closing brace out of place with that brace, a character that is not the one
  needed with that character, a keyword that is none with the longest identifier
  there is (`Cause.StandsAt`).  Only a missing number may be missed at the end of
  the pattern: wherever anything else is looked for, the end of the text was
  ruled out before, as a fault of the argument.

  This is shown for a pattern and all of its ends at once.  A rule that is run
  on an end of the pattern, inside an argument that was opened in the pattern,
  fails in the pattern (`FailsIn`).
-/
import Phrasebook.Proofs.Pattern.Steps

set_option autoImplicit false

namespace Phrasebook.Pattern

open Phrasebook.Text

/-! ## Faults and what they are about -/

/-- Whether a text that a fault leaves, behind the part of the pattern in front of it, begins with
what the fault is about. -/
def Cause.StandsAt (front rest : List Char) : Cause → Prop
  | .unexpectedCloseBrace => rest.head? = some '}'
  | .expectedIdentifier => ∃ c, rest.head? = some c ∧ isIdentifierChar c = false
  | .expectedInteger => Stops isAsciiDigit rest ∧ ∀ t, rest = '-' :: t → Stops isAsciiDigit t
  | .expectedCharacter text =>
    ∃ expected c, text = String.singleton expected ∧ rest.head? = some c ∧ c ≠ expected
  | .unterminatedArgument => rest.head? = some '{'
  | .emptyBranchList _ => rest.head? = some '}'
  | .nestingDepthExceeded _ => rest.head? = some '{'
  | .unknownArgumentType keyword =>
    ArgumentType.ofKeyword? keyword = none ∧
      ∃ (w : Word) (t : List Char), rest = w.chars ++ t ∧ w.name = keyword ∧
        Stops isIdentifierChar t ∧ Stops isIdentifierChar front.reverse

/-- Whether a fault leaves an end of a pattern that begins with what the fault is about. -/
def Fault.StandsIn (source : List Char) : Fault → Prop
  | .malformed cause rest => ∃ front, source = front ++ rest ∧ cause.StandsAt front rest
  | .integerTooLong => True

/-- A result whose fault, if it has one, stands in a pattern. -/
def FailsIn (source : List Char) {α : Type} (result : Except Fault α) : Prop :=
  ∀ fault, result = .error fault → fault.StandsIn source

/-- The text from the opening brace of an argument on, as an end of a pattern. -/
def OpenedIn (source opened : List Char) : Prop := (∃ t, opened = '{' :: t) ∧ opened <:+ source

section FailsIn

variable {α β : Type} {source : List Char}

theorem failsIn_ok (a : α) : FailsIn source (.ok a) := nofun

theorem FailsIn.bind {x : Except Fault α} {f : α → Except Fault β} (hx : FailsIn source x)
    (hf : ∀ a, x = .ok a → FailsIn source (f a)) : FailsIn source (x >>= f) := by
  intro fault h
  rcases bind_eq_error.1 h with h | ⟨a, ha, h⟩
  · exact hx fault h
  · exact hf a ha fault h

theorem FailsIn.map {x : Except Fault α} (hx : FailsIn source x) (f : α → β) :
    FailsIn source (x.map f) :=
  fun fault h => hx fault (map_eq_error.1 h)

end FailsIn

/-! ## Tokens -/

section Tokens

variable {source opened s : List Char}

theorem identifier_failsIn (hs : s <:+ source) (hne : s ≠ []) : FailsIn source (identifier s) := by
  intro fault h
  obtain ⟨c, t, rfl⟩ := List.exists_cons_of_ne_nil hne
  obtain ⟨hc, rfl⟩ := identifier_cons_eq_error_iff.1 h
  obtain ⟨front, hspell⟩ := hs
  exact ⟨front, hspell.symm, c, rfl, hc⟩

/-- Without digits behind its sign, if it has one, a text begins with no number. -/
theorem stops_of_splitMinus (h : Stops isAsciiDigit (splitMinus s).2) :
    Stops isAsciiDigit s ∧ ∀ t, s = '-' :: t → Stops isAsciiDigit t := by
  cases s with
  | nil => exact ⟨stops_nil _, nofun⟩
  | cons c rest =>
    by_cases hc : c = '-'
    · subst hc
      refine ⟨stops_cons.2 (by decide), ?_⟩
      rintro t ht
      cases ht
      simpa [splitMinus] using h
    · refine ⟨by simpa [splitMinus, hc] using h, ?_⟩
      rintro t ht
      exact absurd (List.cons.inj ht).1 hc

theorem integer_failsIn (hs : s <:+ source) : FailsIn source (integer s) := by
  intro fault h
  simp only [integer] at h
  split at h
  · rename_i hempty
    cases h
    obtain ⟨front, hspell⟩ := hs
    have hdrop := stops_dropWhile isAsciiDigit (splitMinus s).2
    have hsplit := List.takeWhile_append_dropWhile (p := isAsciiDigit) (l := (splitMinus s).2)
    rw [List.isEmpty_iff.1 hempty, List.nil_append] at hsplit
    rw [hsplit] at hdrop
    exact ⟨front, hspell.symm, stops_of_splitMinus hdrop⟩
  · split at h
    · cases h
      trivial
    · cases h

theorem expect_failsIn (expected : Char) (hs : s <:+ source) (hne : s ≠ []) :
    FailsIn source (expect expected s) := by
  intro fault h
  obtain ⟨c, t, rfl⟩ := List.exists_cons_of_ne_nil hne
  obtain ⟨hc, rfl⟩ := expect_cons_eq_error_iff.1 h
  obtain ⟨front, hspell⟩ := hs
  exact ⟨front, hspell.symm, expected, c, rfl, rfl, hc⟩

/-- An argument that is never closed is one that was opened. -/
theorem unterminated_failsIn {α : Type} (hopened : OpenedIn source opened) :
    FailsIn source (.error (.malformed .unterminatedArgument opened) : Except Fault α) := by
  intro fault h
  cases h
  obtain ⟨⟨t, rfl⟩, front, hspell⟩ := hopened
  exact ⟨front, hspell.symm, rfl⟩

theorem skipBlanks_failsIn (hopened : OpenedIn source opened) :
    FailsIn source (skipBlanks opened s) := by
  intro fault h
  obtain ⟨-, rfl⟩ := skipBlanks_eq_error_iff.1 h
  exact unterminated_failsIn (α := Unit) hopened _ rfl

theorem skipBlanks_ne_nil {rest : List Char} (h : skipBlanks opened s = .ok rest) : rest ≠ [] := by
  obtain ⟨-, -, hne, -⟩ := skipBlanks_eq_ok_iff.1 h
  exact hne

theorem closeArgument_failsIn (hopened : OpenedIn source opened)
    (hs : s <:+ source) : FailsIn source (closeArgument opened s) := by
  cases s with
  | nil => exact unterminated_failsIn hopened
  | cons c t =>
    rw [closeArgument_cons]
    exact expect_failsIn '}' hs (List.cons_ne_nil _ _)

end Tokens

/-! ## Clauses -/

section Argument

variable {source opened s : List Char}
  (hopened : OpenedIn source opened) (hs : s <:+ source)

include hopened hs

theorem comma_failsIn : FailsIn source (comma opened s) :=
  (skipBlanks_failsIn hopened).bind fun _ h₁ =>
    expect_failsIn ',' ((skipBlanks_suffix h₁).trans hs) (skipBlanks_ne_nil h₁)

theorem styleClause_failsIn : FailsIn source (styleClause opened s) := by
  refine (skipBlanks_failsIn hopened).bind ?_
  intro s₁ h₁
  have hs₁ := (skipBlanks_suffix h₁).trans hs
  cases hcomma : afterComma? s₁ with
  | none => exact failsIn_ok _
  | some s₂ =>
    have hs₂ := (afterComma?_suffix hcomma).trans hs₁
    refine (skipBlanks_failsIn hopened).bind ?_
    intro s₃ h₃
    refine (identifier_failsIn ((skipBlanks_suffix h₃).trans hs₂) (skipBlanks_ne_nil h₃)).bind ?_
    rintro ⟨style, s₄⟩ -
    exact (skipBlanks_failsIn hopened).bind fun _ _ => failsIn_ok _

theorem offsetClause_failsIn : FailsIn source (offsetClause opened s) := by
  rw [offsetClause]
  cases hword : offsetWord.isPrefixOf? s with
  | none => exact failsIn_ok _
  | some s₁ =>
    have hs₁ := (isPrefixOf?_suffix hword).trans hs
    refine (skipBlanks_failsIn hopened).bind ?_
    intro s₂ h₂
    refine (integer_failsIn ((skipBlanks_suffix h₂).trans hs₁)).bind ?_
    rintro ⟨offset, s₃⟩ -
    exact (skipBlanks_failsIn hopened).bind fun _ _ => failsIn_ok _

end Argument

/-! ## Branches -/

/-- A rule for messages that fails in the pattern wherever it is run on one of its ends. -/
def MessageFailsIn (source : List Char) (rule : Reader Message) : Prop :=
  ∀ s, s <:+ source → FailsIn source (rule.run s)

section Body

variable {source opened s : List Char} {body : Reader Message}

theorem branchKey_failsIn (hs : s <:+ source) (hne : s ≠ []) : FailsIn source (branchKey s) := by
  obtain ⟨c, t, rfl⟩ := List.exists_cons_of_ne_nil hne
  by_cases hc : c = '='
  · subst hc
    exact (integer_failsIn ((List.suffix_cons _ _).trans hs)).map _
  · have hkey : branchKey (c :: t) = (identifier (c :: t)).map fun r => (.name r.1, r.2) := by
      rw [branchKey, if_neg hc]
    rw [hkey]
    exact (identifier_failsIn hs hne).map _

variable (hbody : MessageFailsIn source body)
  (hopened : OpenedIn source opened)

include hbody hopened

theorem branch_failsIn (hs : s <:+ source) (hne : s ≠ []) :
    FailsIn source (branch body opened s) := by
  refine (branchKey_failsIn hs hne).bind ?_
  rintro ⟨key, s₁⟩ h₁
  have hs₁ := (branchKey_suffix h₁).trans hs
  refine (skipBlanks_failsIn hopened).bind ?_
  intro s₂ h₂
  have hs₂ := (skipBlanks_suffix h₂).trans hs₁
  refine (expect_failsIn '{' hs₂ (skipBlanks_ne_nil h₂)).bind ?_
  intro s₃ h₃
  -- the body was opened at the brace in front of it
  obtain rfl := expect_eq_ok h₃
  refine (hbody s₃ ((List.suffix_cons _ _).trans hs₂)).bind ?_
  rintro ⟨message, s₄⟩ -
  refine FailsIn.bind ?_ fun _ _ => failsIn_ok _
  cases s₄ with
  | nil => exact unterminated_failsIn ⟨⟨s₃, rfl⟩, hs₂⟩
  | cons c t => exact failsIn_ok t

theorem branchesFrom_failsIn (typeName : String) (read : List (BranchKey × Message))
    (hs : s <:+ source) : FailsIn source (branchesFrom body typeName opened read s) := by
  intro fault h
  fun_induction branchesFrom body typeName opened read s with
  | case1 read s e h₁ =>
    cases h
    exact skipBlanks_failsIn hopened _ h₁
  | case2 read s s₁ h₁ hclose hempty =>
    cases h
    obtain ⟨front, hspell⟩ := (skipBlanks_suffix h₁).trans hs
    exact ⟨front, hspell.symm, hclose⟩
  | case3 => cases h
  | case4 read s s₁ h₁ hclose e h₂ =>
    cases h
    exact branch_failsIn hbody hopened ((skipBlanks_suffix h₁).trans hs) (skipBlanks_ne_nil h₁) _ h₂
  | case5 read s s₁ h₁ hclose pair s₂ h₂ ih =>
    exact ih ((branch_length_lt h₂).2.trans ((skipBlanks_suffix h₁).trans hs)) h

/-! ## Arguments -/

theorem content_failsIn (hs : s <:+ source) (name : String) (type : ArgumentType) :
    FailsIn source (content body opened name type s) := by
  cases type with
  | formatted kind => exact (styleClause_failsIn hopened hs).bind fun _ _ => failsIn_ok _
  | plural kind =>
    refine (comma_failsIn hopened hs).bind ?_
    intro s₁ h₁
    have hs₁ := (comma_suffix h₁).trans hs
    refine (skipBlanks_failsIn hopened).bind ?_
    intro s₂ h₂
    have hs₂ := (skipBlanks_suffix h₂).trans hs₁
    refine (offsetClause_failsIn hopened hs₂).bind ?_
    rintro ⟨offset, s₃⟩ h₃
    exact (branchesFrom_failsIn hbody hopened kind.name [] ((offsetClause_suffix h₃).trans hs₂)).bind
      fun _ _ => failsIn_ok _
  | select =>
    refine (comma_failsIn hopened hs).bind ?_
    intro s₁ h₁
    exact (branchesFrom_failsIn hbody hopened selectName [] ((comma_suffix h₁).trans hs)).bind
      fun _ _ => failsIn_ok _

/-- The keyword of an argument stands behind a comma, with nothing but blanks between, so what is
in front of it does not belong to it. -/
theorem typedArgument_failsIn (hs : ',' :: s <:+ source) (name : String) :
    FailsIn source (typedArgument body opened name s) := by
  have hs₀ := (List.suffix_cons ',' s).trans hs
  refine (skipBlanks_failsIn hopened).bind ?_
  intro s₁ h₁
  have hs₁ := (skipBlanks_suffix h₁).trans hs₀
  refine (identifier_failsIn hs₁ (skipBlanks_ne_nil h₁)).bind ?_
  rintro ⟨keyword, s₂⟩ h₂
  dsimp only
  cases htype : ArgumentType.ofKeyword? keyword with
  | none =>
    intro fault h
    cases h
    obtain ⟨b, rfl, -, -⟩ := skipBlanks_eq_ok_iff.1 h₁
    obtain ⟨w, rfl, rfl, hstop⟩ := identifier_eq_ok_iff.1 h₂
    obtain ⟨front, hspell⟩ := hs
    refine ⟨front ++ ',' :: b.chars, by simp [← hspell], htype, w, s₂, rfl, rfl, hstop, ?_⟩
    have hcomma : Stops isIdentifierChar (',' :: front.reverse) := stops_cons.2 (by decide)
    have hrev : (front ++ ',' :: b.chars).reverse = b.chars.reverse ++ ',' :: front.reverse := by
      simp
    rw [hrev]
    exact stops_append (fun c hc => isIdentifierChar_of_isBlank (b.blank c (List.mem_reverse.1 hc)))
      hcomma
  | some type =>
    have hs₂ := (identifier_suffix h₂).trans hs₁
    refine (content_failsIn hbody hopened hs₂ name type).bind ?_
    rintro ⟨node, s₃⟩ h₃
    exact (closeArgument_failsIn hopened ((content_suffix h₃).trans hs₂)).bind
      fun _ _ => failsIn_ok _

omit hbody hopened

/-- Without a rule for bodies no argument may be opened at all, and each is one too many. -/
theorem argument_failsIn (limit : Int) {body : Option (Reader Message)}
    (hbody : ∀ rule ∈ body, MessageFailsIn source rule) (hs : '{' :: s <:+ source) :
    FailsIn source (argument limit body ('{' :: s)) := by
  cases body with
  | none =>
    intro fault h
    cases h
    obtain ⟨front, hspell⟩ := hs
    exact ⟨front, hspell.symm, rfl⟩
  | some rule =>
    have hopened : OpenedIn source ('{' :: s) := ⟨⟨s, rfl⟩, hs⟩
    refine (skipBlanks_failsIn hopened).bind ?_
    intro s₁ h₁
    have hs₁ := (skipBlanks_suffix h₁).trans ((List.suffix_cons _ _).trans hs)
    refine (identifier_failsIn hs₁ (skipBlanks_ne_nil h₁)).bind ?_
    rintro ⟨name, s₂⟩ h₂
    have hs₂ := (identifier_suffix h₂).trans hs₁
    refine (skipBlanks_failsIn hopened).bind ?_
    intro s₃ h₃
    have hs₃ := (skipBlanks_suffix h₃).trans hs₂
    cases hcomma : afterComma? s₃ with
    | none =>
      exact (closeArgument_failsIn hopened hs₃).bind fun _ _ => failsIn_ok _
    | some s₄ =>
      obtain rfl := afterComma?_eq_some hcomma
      exact typedArgument_failsIn (hbody rule rfl) hopened hs₃ name

/-! ## Messages -/

theorem messageOver_failsIn (limit : Int) {body : Option (Reader Message)} (inBranch : Bool)
    (hbody : ∀ rule ∈ body, MessageFailsIn source rule) :
    MessageFailsIn source (messageOver limit body inBranch) := by
  have hnodes : ∀ (read : List Node) (s : List Char), s <:+ source →
      FailsIn source (nodesFrom limit body inBranch read s) := by
    intro read s hs fault h
    fun_induction nodesFrom limit body inBranch read s with
    | case1 => cases h
    | case2 => cases h
    | case3 read t hinner =>
      cases h
      obtain ⟨front, hspell⟩ := hs
      exact ⟨front, hspell.symm, rfl⟩
    | case4 read t hc e h₁ =>
      cases h
      exact argument_failsIn limit hbody hs _ h₁
    | case5 read t hc node left h₁ ih =>
      exact ih (((argument_suffix h₁).trans (List.drop_suffix 1 _)).trans hs) h
    | case6 read t hc hc' ih =>
      exact ih (((quotation_suffix t).trans (List.suffix_cons _ _)).trans hs) h
    | case7 read c t hc hc' hc'' ih =>
      exact ih (((List.dropWhile_suffix _).trans (List.suffix_cons _ _)).trans hs) h
  exact fun s hs => (hnodes [] s hs).map _

/-- However many arguments may be open, a message fails in the pattern. -/
theorem message_failsIn (source : List Char) (limit : Int) (room : Nat) (inBranch : Bool) :
    MessageFailsIn source (message limit room inBranch) := by
  induction room generalizing inBranch with
  | zero =>
    rw [message_eq]
    exact messageOver_failsIn limit inBranch nofun
  | succ room ih =>
    rw [message_eq]
    refine messageOver_failsIn limit inBranch ?_
    rintro rule hrule
    cases hrule
    exact ih true

end Body

end Phrasebook.Pattern
