/-
  The rules, one token at a time.

  Behind the tokens that it has read, a rule goes on as the rule for what is
  left.  Each equation below says so for one rule.  It holds for every text
  behind the tokens, as long as the last of them ends there, and so it tells
  what the rule does with texts that are not derived as well: those that end too
  early, and those that go on with a character that does not belong there.

  So a rule fails behind what it has read as the rule for what is left does
  there, and does so in front of every text that begins alike (`FailsAs`).
-/
import Phrasebook.Proofs.Pattern.Completeness

set_option autoImplicit false

namespace Phrasebook.Pattern

open Phrasebook.Text

/-! ## Steps and faults -/

section Bind

variable {α β : Type}

theorem bind_eq_error {x : Except Fault α} {f : α → Except Fault β} {e : Fault} :
    (x >>= f) = .error e ↔ x = .error e ∨ ∃ a, x = .ok a ∧ f a = .error e := by
  cases x with
  | error e' => simp [bind, Except.bind]
  | ok a => simp [bind, Except.bind]

theorem map_eq_error {x : Except Fault α} {f : α → β} {e : Fault} :
    x.map f = .error e ↔ x = .error e := by
  cases x with
  | error e' => simp [Except.map]
  | ok a => simp [Except.map]

@[simp] theorem ok_bind {ε : Type} (a : α) (f : α → Except ε β) :
    (Except.ok a >>= f) = f a := rfl

@[simp] theorem error_bind {ε : Type} (e : ε) (f : α → Except ε β) :
    (Except.error e >>= f) = .error e := rfl

end Bind

/-! ## What the readers of tokens refuse -/

/-- Blanks that run to the end of the text are a fault of the argument. -/
theorem skipBlanks_blanks (opened : List Char) (b : Blanks) :
    skipBlanks opened b.chars = .error (.malformed .unterminatedArgument opened) := by
  have hdrop : skipBlank (b.chars ++ []) = [] := dropWhile_append_of_stops b.blank (stops_nil _)
  rw [List.append_nil] at hdrop
  simp only [skipBlanks, hdrop]

theorem skipBlanks_eq_error_iff {opened s : List Char} {fault : Fault} :
    skipBlanks opened s = .error fault ↔
      (∃ b : Blanks, s = b.chars) ∧ fault = .malformed .unterminatedArgument opened := by
  constructor
  · intro h
    simp only [skipBlanks] at h
    split at h
    · rename_i hs
      cases h
      refine ⟨⟨⟨s.takeWhile isBlank, fun c hc => mem_takeWhile hc⟩, ?_⟩, rfl⟩
      have hsplit := List.takeWhile_append_dropWhile (p := isBlank) (l := s)
      rw [show s.dropWhile isBlank = [] from hs, List.append_nil] at hsplit
      exact hsplit.symm
    · cases h
  · rintro ⟨⟨b, rfl⟩, rfl⟩
    exact skipBlanks_blanks opened b

theorem identifier_cons_eq_error_iff {c : Char} {s : List Char} {fault : Fault} :
    identifier (c :: s) = .error fault ↔
      isIdentifierChar c = false ∧ fault = .malformed .expectedIdentifier (c :: s) := by
  cases hc : isIdentifierChar c with
  | false => simp [identifier, hc, eq_comm]
  | true => simp [identifier, hc]

theorem expect_cons_eq_error_iff {expected c : Char} {s : List Char} {fault : Fault} :
    expect expected (c :: s) = .error fault ↔
      c ≠ expected ∧
        fault = .malformed (.expectedCharacter (String.singleton expected)) (c :: s) := by
  by_cases hc : c = expected
  · simp [expect, hc]
  · simp [expect, hc, eq_comm]

theorem closeArgument_cons (opened : List Char) (c : Char) (s : List Char) :
    closeArgument opened (c :: s) = expect '}' (c :: s) := by
  simp [closeArgument]

/-! ## Clauses -/

theorem comma_cons (opened : List Char) (b : Blanks) {c : Char} (hc : isBlank c = false)
    (s : List Char) : comma opened (b.chars ++ c :: s) = expect ',' (c :: s) := by
  rw [comma, skipBlanks_cons b hc, ok_bind]

theorem styleClause_of_ne (opened : List Char) (trail : Blanks) {c : Char}
    (hblank : isBlank c = false) (hc : c ≠ ',') (s : List Char) :
    styleClause opened (trail.chars ++ c :: s) = .ok (none, c :: s) := by
  rw [styleClause, skipBlanks_cons trail hblank, ok_bind, afterComma?_eq_none_of_head hc]
  rfl

theorem styleClause_comma (opened : List Char) (trail : Blanks) (s : List Char) :
    styleClause opened (trail.chars ++ ',' :: s) = (do
      let s₁ ← skipBlanks opened s
      let (style, s₂) ← identifier s₁
      let rest ← skipBlanks opened s₂
      return (some style, rest)) := by
  rw [styleClause, skipBlanks_cons trail (by decide), ok_bind, afterComma?_eq_some_iff.2 rfl]

/-! ## Branches -/

section Body

variable {room : Nat} {body : Reader Message}

/-- What is read of a branch behind the brace that opens its body. -/
def branchBody (body : Reader Message) (key : BranchKey) : Step (BranchKey × Message) := fun s => do
  let (message, s₁) ← body.run s
  let rest ← closeBody ('{' :: s) s₁
  return ((key, message), rest)

theorem branch_step (opened : List Char) (source : KeySource) (after : Blanks) (s : List Char) :
    branch body opened (source.chars ++ (after.chars ++ '{' :: s)) =
      branchBody body source.key s := by
  have hblanks : skipBlanks opened (after.chars ++ '{' :: s) = .ok ('{' :: s) :=
    skipBlanks_cons after (by decide) s
  simp only [branch, branchBody,
    branchKey_source source after (show isIdentifierChar '{' = false by decide), ok_bind, hblanks,
    expect_eq_ok_iff.2 rfl]

/-- Branches are read up to a closing brace. -/
theorem branchesFrom_closes {typeName : String} {opened : List Char}
    (read : List (BranchKey × Message)) (s : List Char) {table : Branches Message}
    {rest : List Char} (h : branchesFrom body typeName opened read s = .ok (table, rest)) :
    ∃ t, rest = '}' :: t := by
  fun_induction branchesFrom body typeName opened read s with
  | case1 => cases h
  | case2 => cases h
  | case3 read s s₁ h₁ hclose =>
    cases h
    exact List.head?_eq_some_iff.1 hclose
  | case4 => cases h
  | case5 read s s₁ h₁ hclose pair s₂ h₂ ih => exact ih h

/-- The branches skip the blanks in front of them, and fail with the blanks as without. -/
theorem branches_of_skipBlanks {typeName : String} {opened s s₁ : List Char}
    (h : skipBlanks opened s = .ok s₁) :
    branches body typeName opened s = branches body typeName opened s₁ := by
  obtain ⟨b, rfl, -, -⟩ := skipBlanks_eq_ok_iff.1 h
  exact branchesFrom_append body typeName opened [] b s₁

theorem branches_of_skipBlanks_error {typeName : String} {opened s : List Char} {fault : Fault}
    (h : skipBlanks opened s = .error fault) :
    branches body typeName opened s = .error fault := by
  rw [branches, branchesFrom_step, h]

theorem skipBlanks_branches_error {α : Type} {typeName : String} {opened s : List Char}
    {fault : Fault} (k : Branches Message × List Char → Except Fault α)
    (h : branches body typeName opened s = .error fault) :
    (skipBlanks opened s >>= fun s₁ => branches body typeName opened s₁ >>= k) =
      .error fault := by
  cases hskip : skipBlanks opened s with
  | error e =>
    rw [branches_of_skipBlanks_error hskip] at h
    cases h
    rfl
  | ok s₁ =>
    rw [branches_of_skipBlanks hskip] at h
    rw [ok_bind, h, error_bind]

/-! ## Plural arguments -/

/-- What belongs to a plural argument behind its second comma: an offset, if there is one, and
branches. -/
def offsetBranches (body : Reader Message) (typeName : String) (opened : List Char) :
    Step (Int × Branches Message) := fun s => do
  let s₁ ← skipBlanks opened s
  let (offset, s₂) ← offsetClause opened s₁
  let (table, rest) ← branches body typeName opened s₂
  return ((offset, table), rest)

theorem content_plural (opened : List Char) (name : String) (kind : PluralKind) (s : List Char) :
    content body opened name (.plural kind) s = (do
      let s₁ ← comma opened s
      let (found, rest) ← offsetBranches body kind.name opened s₁
      return (.plural kind name found.1 found.2, rest)) := by
  simp only [content, offsetBranches, bind_assoc, pure_bind]

/-- Without an offset the branches begin at once, and skip their own blanks. -/
theorem offsetBranches_of_isPrefixOf? {typeName : String} (opened : List Char) (before : Blanks)
    {s : List Char} (hne : s ≠ []) (hblank : Stops isBlank s)
    (hnone : offsetWord.isPrefixOf? s = none) :
    offsetBranches body typeName opened (before.chars ++ s) = (do
      let (table, rest) ← branches body typeName opened s
      return ((0, table), rest)) := by
  rw [offsetBranches, skipBlanks_of_stops before hne hblank, ok_bind, offsetClause]
  simp only [hnone, ok_bind]

/-- Without an offset in front, what fails are the branches. -/
theorem offsetBranches_error {typeName : String} {opened s : List Char} {fault : Fault}
    (hnone : ∀ s₁, skipBlanks opened s = .ok s₁ → offsetWord.isPrefixOf? s₁ = none)
    (h : branches body typeName opened s = .error fault) :
    offsetBranches body typeName opened s = .error fault := by
  rw [offsetBranches]
  cases hskip : skipBlanks opened s with
  | error e =>
    rw [branches_of_skipBlanks_error hskip] at h
    cases h
    rfl
  | ok s₁ =>
    rw [branches_of_skipBlanks hskip] at h
    rw [ok_bind, offsetClause]
    simp only [hnone s₁ hskip, ok_bind, h, error_bind]

/-- Behind the word of an offset its numeral is read. -/
theorem offsetBranches_offsetWord {typeName : String} (opened : List Char) (before : Blanks)
    (s : List Char) :
    offsetBranches body typeName opened (before.chars ++ (offsetWord ++ s)) = (do
      let s₁ ← skipBlanks opened s
      let (offset, s₂) ← integer s₁
      let s₃ ← skipBlanks opened s₂
      let (table, rest) ← branches body typeName opened s₃
      return ((offset, table), rest)) := by
  have hskip : skipBlanks opened (before.chars ++ (offsetWord ++ s)) = .ok (offsetWord ++ s) :=
    skipBlanks_of_stops before (List.cons_ne_nil _ _) (stops_cons.2 (by decide))
  rw [offsetBranches, hskip, ok_bind, offsetClause]
  simp only [isPrefixOf?_eq_some_iff.2 rfl, bind_assoc, pure_bind]

/-- The word of an offset without its colon. -/
def offsetName : Word :=
  ⟨['o', 'f', 'f', 's', 'e', 't'], by decide, List.all_eq_true.1 (by decide)⟩

/-- The word of an offset begins no branch: its colon is none of a key. -/
theorem branches_offsetWord (typeName : String) (opened s : List Char) :
    branches body typeName opened (offsetWord ++ s) =
      .error (.malformed (.expectedCharacter "\x7b") (':' :: s)) := by
  have hkey : branchKey (offsetName.chars ++ ':' :: s) = .ok (.name offsetName.name, ':' :: s) :=
    branchKey_eq_ok_iff.2 ⟨.word offsetName, rfl, rfl, stops_cons.2 (by decide)⟩
  have hbranch : branch body opened (offsetWord ++ s) =
      .error (.malformed (.expectedCharacter "\x7b") (':' :: s)) := by
    have hcolon : skipBlanks opened (':' :: s) = .ok (':' :: s) := skipBlanks_self (by decide) s
    have hbrace := expect_cons_eq_error_iff.2 (And.intro (show ':' ≠ '{' by decide) (Eq.refl
      (Fault.malformed (.expectedCharacter (String.singleton '{')) (':' :: s))))
    rw [branch, show offsetWord ++ s = offsetName.chars ++ ':' :: s from rfl, hkey]
    simp only [ok_bind, hcolon, hbrace, error_bind]
    rfl
  have hcons : branches body typeName opened (offsetWord ++ s) = _ :=
    branchesFrom_cons typeName opened [] .none (show isBlank 'o' = false by decide) (by decide)
      ("ffset:".toList ++ s)
  rw [hcons, show 'o' :: ("ffset:".toList ++ s) = offsetWord ++ s from rfl, hbranch]

/-! ## Arguments -/

/-- Behind its name an argument closes, or goes on with a comma. -/
theorem argument_step {limit : Int} {head : Head} {s : List Char} (hne : s ≠ [])
    (hblank : Stops isBlank s) (hid : Stops isIdentifierChar (head.after.chars ++ s)) :
    argument limit (some body) (head.chars ++ s) =
      match afterComma? s with
      | some t => typedArgument body (head.chars ++ s) head.word.name t
      | none => do
        let rest ← closeArgument (head.chars ++ s) s
        return (.argument head.word.name, rest) := by
  have hdrop : (head.chars ++ s).drop 1 =
      head.before.chars ++ (head.word.chars ++ (head.after.chars ++ s)) := by
    simp [Head.chars]
  have hname : identifier (head.word.chars ++ (head.after.chars ++ s)) =
      .ok (head.word.name, head.after.chars ++ s) :=
    identifier_eq_ok_iff.2 ⟨head.word, rfl, rfl, hid⟩
  cases hcomma : afterComma? s <;>
    simp only [argument, hdrop, skipBlanks_word, ok_bind, hname,
      skipBlanks_of_stops head.after hne hblank, hcomma]

theorem argument_comma {limit : Int} (head : Head) (s : List Char) :
    argument limit (some body) (head.chars ++ ',' :: s) =
      typedArgument body (head.chars ++ ',' :: s) head.word.name s := by
  rw [argument_step (List.cons_ne_nil _ _) (stops_cons.2 (by decide))
    (head.after.stops_identifier (stops_cons.2 (by decide))), afterComma?_eq_some_iff.2 rfl]

/-- Behind its keyword an argument goes on as its type says. -/
theorem typedArgument_step {opened : List Char} {name : String} (lead : Blanks) (w : Word)
    {s : List Char} (hid : Stops isIdentifierChar s) :
    typedArgument body opened name (lead.chars ++ (w.chars ++ s)) =
      match ArgumentType.ofKeyword? w.name with
      | none => .error (.malformed (.unknownArgumentType w.name) (w.chars ++ s))
      | some type => do
        let (node, s₁) ← content body opened name type s
        let rest ← closeArgument opened s₁
        return (node, rest) := by
  have hname : identifier (w.chars ++ s) = .ok (w.name, s) :=
    identifier_eq_ok_iff.2 ⟨w, rfl, rfl, hid⟩
  cases htype : ArgumentType.ofKeyword? w.name <;>
    simp only [typedArgument, skipBlanks_word, ok_bind, hname, htype]

end Body

/-! ## Messages -/

/-- What fails to be scanned fails behind a derivation, too. -/
theorem scan_error_behind {limit : Int} {room : Nat} {body : Option (Reader Message)}
    (harg : CompleteArgument limit room body) {inBranch : Bool} {s : List Char} {fault : Fault}
    (h : scan limit body inBranch s = .error fault) (pieces : List Piece)
    (hfit : FitAll s.head? pieces) (hdepth : depthOf pieces ≤ room) :
    scan limit body inBranch (charsOf pieces ++ s) = .error fault := by
  rw [scan_behind harg inBranch pieces hfit hdepth, h]
  rfl

/-! ## Rules that fail as others -/

/-- A rule that fails, behind a text that it has read, as another one fails on what is left.  What
is left may be any text that begins as the given one does. -/
def FailsAs {α β : Type} (rule : List Char → List Char → Except Fault α)
    (rest : List Char → List Char → Except Fault β) (front s : List Char) : Prop :=
  ∀ s', s'.head? = s.head? → ∀ opened, ∃ opened', ∀ fault,
    rest opened' s' = .error fault → rule opened (front ++ s') = .error fault

section FailsAs

variable {body : Reader Message}

theorem branch_failsAs (source : KeySource) (after : Blanks) (s : List Char) :
    FailsAs (branch body) (fun _ => branchBody body source.key)
      (source.chars ++ (after.chars ++ ['{'])) s := by
  intro s' _ opened
  refine ⟨opened, fun fault h => ?_⟩
  have hspell : source.chars ++ (after.chars ++ ['{']) ++ s' =
      source.chars ++ (after.chars ++ '{' :: s') := by
    simp
  rw [hspell, branch_step]
  exact h

/-- Behind blanks branches fail as the next one. -/
theorem branchesFrom_failsAs_branch (typeName : String) (read : List (BranchKey × Message))
    (before : Blanks) {s : List Char} (hne : s ≠ []) (hblank : Stops isBlank s)
    (hclose : s.head? ≠ some '}') :
    FailsAs (fun opened => branchesFrom body typeName opened read) (branch body) before.chars
      s := by
  intro s' hhead opened
  refine ⟨opened, fun fault h => ?_⟩
  obtain ⟨c, t, rfl⟩ := List.exists_cons_of_ne_nil hne
  obtain ⟨t', rfl⟩ : ∃ t', s' = c :: t' := List.head?_eq_some_iff.1 hhead
  dsimp only
  rw [branchesFrom_cons typeName opened read before (stops_cons.1 hblank)
    (fun hc => hclose (congrArg some hc)), h]

/-- Behind a branch they fail as those that are left. -/
theorem branchesFrom_failsAs_rest {room : Nat} (hbody : CompleteMessage room true body)
    (typeName : String) (read : List (BranchKey × Message)) (head : BranchHead)
    {pieces : List Piece} (hfit : FitAll (some '}') pieces) (hdepth : depthOf pieces ≤ room)
    (s : List Char) :
    FailsAs (fun opened => branchesFrom body typeName opened read)
      (fun opened => branchesFrom body typeName opened
        ((head.source.key, messageOf pieces) :: read)) (branchChars [(head, pieces)]) s := by
  intro s' _ opened
  refine ⟨opened, fun fault h => ?_⟩
  dsimp only
  rw [branchesFrom_entry hbody typeName opened read head hfit hdepth]
  exact h

theorem offsetBranches_failsAs (typeName : String) (source : OffsetSource) {s : List Char}
    (hstop : Stops isAsciiDigit s) :
    FailsAs (offsetBranches body typeName) (branches body typeName) (offsetChars (some source))
      s := by
  intro s' hhead opened
  refine ⟨opened, fun fault h => ?_⟩
  obtain ⟨before, between, amount⟩ := source
  have hspell : offsetChars (some ⟨before, between, amount⟩) ++ s' =
      before.chars ++ (offsetWord ++ (between.chars ++ (amount.chars ++ s'))) := by
    simp [offsetChars, OffsetSource.chars]
  have hamount : integer (amount.chars ++ s') = .ok (amount.value, s') :=
    integer_eq_ok_iff.2 ⟨amount, rfl, rfl, hstop.congr_head? hhead⟩
  rw [hspell, offsetBranches_offsetWord, skipBlanks_numeral between amount s']
  simp only [ok_bind, hamount]
  exact skipBlanks_branches_error _ h

theorem failsAs_behindComma {α β : Type} {rule : List Char → List Char → Except Fault α}
    {rest : List Char → List Char → Except Fault β} {k : β → Except Fault α}
    (hrule : ∀ o s, rule o s = (comma o s >>= fun s₁ => rest o s₁ >>= k)) (b : Blanks)
    (s : List Char) : FailsAs rule rest (b.chars ++ [',']) s := by
  intro s' _ opened
  refine ⟨opened, fun fault h => ?_⟩
  have hcomma : comma opened (b.chars ++ ([','] ++ s')) = .ok s' := comma_eq_ok_iff.2 ⟨b, rfl⟩
  rw [List.append_assoc, hrule, hcomma, ok_bind, h, error_bind]

/-- Behind its keyword an argument fails as what belongs to its type. -/
theorem typedArgument_failsAs (name : String) (lead : Blanks) (w : Word) {type : ArgumentType}
    (htype : ArgumentType.ofKeyword? w.name = some type) {s : List Char}
    (hid : Stops isIdentifierChar s) :
    FailsAs (fun opened => typedArgument body opened name)
      (fun opened => content body opened name type) (lead.chars ++ w.chars) s := by
  intro s' hhead opened
  refine ⟨opened, fun fault h => ?_⟩
  dsimp only at h ⊢
  rw [List.append_assoc, typedArgument_step lead w (hid.congr_head? hhead), htype]
  simp only [h, error_bind]

/-- Behind its comma it fails as what stands there. -/
theorem argument_failsAs {limit : Int} (head : Head) (s : List Char) :
    FailsAs (fun _ => argument limit (some body))
      (fun opened => typedArgument body opened head.word.name) (head.chars ++ [',']) s := by
  intro s' _ opened
  refine ⟨head.chars ++ ',' :: s', fun fault h => ?_⟩
  dsimp only
  rw [List.append_assoc, List.singleton_append, argument_comma]
  exact h

/-- Behind a derivation a message fails as the argument that comes next. -/
theorem messageOver_failsAs {limit : Int} {room : Nat} {body : Option (Reader Message)}
    (harg : CompleteArgument limit room body) (inBranch : Bool) {pieces : List Piece}
    (hfit : FitAll (some '{') pieces) (hdepth : depthOf pieces ≤ room) (t : List Char) :
    FailsAs (fun _ => (messageOver limit body inBranch).run) (fun _ => argument limit body)
      (charsOf pieces) ('{' :: t) := by
  intro s' hhead opened
  refine ⟨opened, fun fault h => ?_⟩
  obtain ⟨t', rfl⟩ : ∃ t', s' = '{' :: t' := List.head?_eq_some_iff.1 hhead
  dsimp only
  rw [messageOver_run, scan_error_behind harg (scan_open_of_error h) pieces hfit hdepth]
  rfl

end FailsAs

end Phrasebook.Pattern
