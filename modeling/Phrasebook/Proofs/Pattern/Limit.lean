/-
  What the limit on nesting does.

  Two parsers with different limits read a pattern alike, unless the smaller
  limit is reached: then the one that has it reports so (`Agrees`).  This holds
  for every text, derived or not, and is shown rule by rule.

  A derivation that is deeper than there is room for is not read.  What is
  reported lies at the first argument that stands inside as many others as
  there is room for (`Exceeds`): all in front of it is read, and behind the
  braces around it the rules fail as the rule for it does.
-/
import Phrasebook.Proofs.Pattern.Grammar
import Phrasebook.Proofs.Pattern.Nesting
import Phrasebook.Proofs.Pattern.Steps

set_option autoImplicit false

namespace Phrasebook.Pattern

open Phrasebook.Text

/-! ## Two limits -/

/-- A result under a smaller limit: the same as under a larger one, or the limit is reached. -/
def Agrees {α : Type} (limit : Int) (result larger : Except Fault α) : Prop :=
  result = larger ∨ ∃ rest, result = .error (.malformed (.nestingDepthExceeded limit) rest)

section Agrees

variable {α β : Type} {limit limit' : Int} {result larger : Except Fault α}

theorem Agrees.refl (limit : Int) (result : Except Fault α) : Agrees limit result result := .inl rfl

theorem Agrees.bind (h : Agrees limit result larger) {f f' : α → Except Fault β}
    (hf : ∀ a, Agrees limit (f a) (f' a)) : Agrees limit (result >>= f) (larger >>= f') := by
  rcases h with rfl | ⟨rest, rfl⟩
  · cases result with
    | error fault => exact .refl limit _
    | ok a => exact hf a
  · exact .inr ⟨rest, rfl⟩

/-- Two rules that begin with the same one. -/
theorem Agrees.behind (result : Except Fault α) {f f' : α → Except Fault β}
    (hf : ∀ a, Agrees limit (f a) (f' a)) : Agrees limit (result >>= f) (result >>= f') :=
  (Agrees.refl limit result).bind hf

theorem Agrees.map (h : Agrees limit result larger) (f : α → β) :
    Agrees limit (result.map f) (larger.map f) := by
  rcases h with rfl | ⟨rest, rfl⟩
  · exact .refl limit _
  · exact .inr ⟨rest, rfl⟩

/-- Two rules that agree on every text. -/
def AgreeRules (limit : Int) (rule rule' : Step α) : Prop :=
  ∀ s, Agrees limit (rule s) (rule' s)

section Body

variable {body body' : Reader Message}

theorem branch_agrees (hbody : AgreeRules limit body.run body'.run) (opened : List Char) :
    AgreeRules limit (branch body opened) (branch body' opened) := by
  intro s
  refine .behind _ fun r => .behind _ fun s₂ => .behind _ fun s₃ => ?_
  exact (hbody s₃).bind fun r => .refl limit _

theorem branchesFrom_agrees (hbody : AgreeRules limit body.run body'.run) (typeName : String)
    (opened : List Char) (read : List (BranchKey × Message)) :
    AgreeRules limit (branchesFrom body typeName opened read)
      (branchesFrom body' typeName opened read) := by
  intro s
  induction hn : s.length using Nat.strongRecOn generalizing s read with
  | ind n ih =>
    rw [branchesFrom_step body, branchesFrom_step body']
    cases hskip : skipBlanks opened s with
    | error fault => exact .refl limit _
    | ok s₁ =>
      dsimp only
      split
      · exact .refl limit _
      · rcases branch_agrees hbody opened s₁ with heq | ⟨rest, herror⟩
        · rw [heq]
          cases hbranch : branch body' opened s₁ with
          | error fault => exact .refl limit _
          | ok r =>
            have hskipped := (skipBlanks_suffix hskip).length_le
            have hless := (branch_length_lt hbranch).1
            exact ih r.2.length (by omega) (r.1 :: read) r.2 rfl
        · rw [herror]
          exact .inr ⟨rest, rfl⟩

theorem content_agrees (hbody : AgreeRules limit body.run body'.run) (opened : List Char)
    (name : String) (type : ArgumentType) :
    AgreeRules limit (content body opened name type) (content body' opened name type) := by
  intro s
  cases type with
  | formatted kind => exact .refl limit _
  | plural kind =>
    refine .behind _ fun s₁ => .behind _ fun s₂ => .behind _ fun r => ?_
    exact (branchesFrom_agrees hbody kind.name opened [] r.2).bind fun table => .refl limit _
  | select =>
    refine .behind _ fun s₁ => ?_
    exact (branchesFrom_agrees hbody selectName opened [] s₁).bind fun table => .refl limit _

theorem typedArgument_agrees (hbody : AgreeRules limit body.run body'.run) (opened : List Char)
    (name : String) :
    AgreeRules limit (typedArgument body opened name) (typedArgument body' opened name) := by
  intro s
  refine .behind _ fun s₁ => .behind _ fun r => ?_
  obtain ⟨keyword, s₂⟩ := r
  dsimp only
  cases ArgumentType.ofKeyword? keyword with
  | none => exact .refl limit _
  | some type =>
    exact (content_agrees hbody opened name type s₂).bind fun node => .refl limit _

theorem argument_agrees (hbody : AgreeRules limit body.run body'.run) :
    AgreeRules limit (argument limit (some body)) (argument limit' (some body')) := by
  intro s
  refine .behind _ fun s₁ => .behind _ fun r => .behind _ fun s₃ => ?_
  cases afterComma? s₃ with
  | none => exact .refl limit _
  | some s₄ => exact typedArgument_agrees hbody s r.1 s₄

end Body

theorem messageOver_agrees {body body' : Option (Reader Message)} {inBranch : Bool}
    (hargument : AgreeRules limit (argument limit body) (argument limit' body')) :
    AgreeRules limit (messageOver limit body inBranch).run
      (messageOver limit' body' inBranch).run := by
  intro s
  refine Agrees.map ?_ _
  -- one step reads a node and leaves a shorter text, in both runs the same
  generalize ([] : List Node) = read
  induction hn : s.length using Nat.strongRecOn generalizing s read with
  | ind n ih =>
    cases s with
    | nil => rw [nodesFrom_nil, nodesFrom_nil]; exact .refl limit _
    | cons c rest =>
      rw [List.length_cons] at hn
      rcases char_cases c with rfl | rfl | rfl | hc
      · rw [nodesFrom_close, nodesFrom_close]
        exact .refl limit _
      · rw [nodesFrom_open, nodesFrom_open]
        rcases hargument ('{' :: rest) with heq | ⟨left, herror⟩
        · rw [heq]
          cases hread : argument limit' body' ('{' :: rest) with
          | error fault => exact .refl limit _
          | ok r =>
            have hless := (argument_suffix hread).length_le
            rw [List.drop_succ_cons, List.drop_zero] at hless
            exact ih r.2.length (by omega) r.2 (r.1 :: read) rfl
        · rw [herror]
          exact .inr ⟨left, rfl⟩
      · rw [nodesFrom_apostrophe, nodesFrom_apostrophe]
        have hless := (quotation_suffix rest).length_le
        exact ih _ (by omega) _ _ rfl
      · rw [nodesFrom_plain read hc, nodesFrom_plain read hc]
        have hless := (List.dropWhile_suffix (!isSpecial ·) (l := rest)).length_le
        exact ih _ (by omega) _ _ rfl

end Agrees

/-- With less room for open arguments a message is read as with more, unless the room runs out. -/
theorem message_agrees (limit limit' : Int) {room room' : Nat} (hle : room ≤ room')
    (inBranch : Bool) :
    AgreeRules limit (message limit room inBranch).run (message limit' room' inBranch).run := by
  induction room generalizing room' inBranch with
  | zero =>
    rw [message_eq, message_eq limit']
    exact messageOver_agrees fun s => .inr ⟨s, rfl⟩
  | succ room ih =>
    obtain ⟨more, rfl⟩ := Nat.exists_eq_succ_of_ne_zero (Nat.ne_of_gt (Nat.lt_of_lt_of_le
      (Nat.succ_pos room) hle))
    rw [message_eq, message_eq limit']
    exact messageOver_agrees (argument_agrees (ih (Nat.le_of_succ_le_succ hle) true))

/-! ## Too deep a derivation -/

/-- The limit is reached at the first argument that is too deep.  The text that the fault leaves is
counted from the end of the pattern, which is at `n`. -/
def Exceeds {α : Type} (limit : Int) (room n : Nat) (marks : List Mark)
    (result : Except Fault α) : Prop :=
  ∃ rest start, result = .error (.malformed (.nestingDepthExceeded limit) rest) ∧
    rest.length + start = n ∧ FirstInside room marks start

section Exceeds

variable {α β : Type} {limit : Int} {room room' n : Nat} {marks marks' : List Mark}
  {result : Except Fault α}

theorem Exceeds.of_error (h : Exceeds limit room n marks result) {other : Except Fault β}
    (hfail : ∀ fault, result = .error fault → other = .error fault) :
    Exceeds limit room n marks other := by
  obtain ⟨rest, start, hresult, hlength, hfirst⟩ := h
  exact ⟨rest, start, hfail _ hresult, hlength, hfirst⟩

theorem Exceeds.mono (h : Exceeds limit room n marks result)
    (hfirst : ∀ start, FirstInside room marks start → FirstInside room' marks' start) :
    Exceeds limit room' n marks' result := by
  obtain ⟨rest, start, hresult, hlength, hstart⟩ := h
  exact ⟨rest, start, hresult, hlength, hfirst start hstart⟩

/-- A rule that fails behind a text as another one does on what is left. -/
theorem Exceeds.after {rule : List Char → List Char → Except Fault α}
    {left : List Char → List Char → Except Fault β} {front s : List Char}
    (h : ∀ opened, Exceeds limit room n marks (left opened s)) (hrule : FailsAs rule left front s)
    (opened : List Char) : Exceeds limit room n marks (rule opened (front ++ s)) := by
  obtain ⟨opened', hfail⟩ := hrule s rfl opened
  exact (h opened').of_error hfail

end Exceeds

/-- A rule for messages that reports where a derivation is too deep for it. -/
def ExceedsMessage (limit : Int) (room : Nat) (rule : Reader Message) : Prop :=
  ∀ (pieces : List Piece) (t : List Char) (pos n : Nat), FitAll t.head? pieces →
    room < depthOf pieces → (charsOf pieces ++ t).length + pos = n →
      Exceeds limit room n (marksOf pos pieces) (rule.run (charsOf pieces ++ t))

/-- The same of the rule for arguments. -/
def ExceedsArgument (limit : Int) (room : Nat) (body : Option (Reader Message)) : Prop :=
  ∀ (source : ArgumentSource) (t : List Char) (pos n : Nat), source.Fits → room < source.depth →
    (source.chars ++ t).length + pos = n →
      Exceeds limit room n (source.marks pos) (argument limit body (source.chars ++ t))

section Body

variable {limit : Int} {room : Nat} {body : Reader Message}

theorem branchesFrom_exceeds (hcomplete : CompleteMessage room true body)
    (hbody : ExceedsMessage limit room body) (typeName : String) (t : List Char)
    (entries : List (BranchHead × List Piece)) (hfit : BranchesFit entries)
    (hdepth : room < branchDepth entries) {pos n : Nat}
    (hn : (branchChars entries ++ t).length + pos = n) (read : List (BranchKey × Message))
    (opened : List Char) :
    Exceeds limit room n (branchMarks pos entries)
      (branchesFrom body typeName opened read (branchChars entries ++ t)) := by
  induction entries generalizing pos read with
  | nil => cases hdepth
  | cons entry more ih =>
    obtain ⟨head, pieces⟩ := entry
    obtain ⟨hfit₁, hfit₂⟩ := hfit
    have hmarks := marksOf_nests (pos + head.chars.length + 1) pieces
    have hbetween := (marksOf_between (pos + head.chars.length + 1) pieces).mono (Nat.le_refl _)
      (Nat.le_succ _)
    have hmore := branchMarks_between
      (pos + head.chars.length + 1 + (charsOf pieces).length + 1) more
    have hlength : (branchChars ((head, pieces) :: more) ++ t).length =
        head.chars.length + 1 + (charsOf pieces).length + 1 + (branchChars more ++ t).length := by
      simp only [branchChars, List.length_append, List.length_cons]
      omega
    rw [hlength] at hn
    by_cases hroom : depthOf pieces ≤ room
    · have hdeep : room < branchDepth more := by
        rw [branchDepth] at hdepth
        omega
      have hrest : (branchChars more ++ t).length +
          (pos + head.chars.length + 1 + (charsOf pieces).length + 1) = n := by
        omega
      rw [← List.singleton_append, branchChars_append, List.append_assoc,
        branchesFrom_entry hcomplete typeName opened read head hfit₁ hroom]
      refine (ih hfit₂ hdeep hrest ((head.source.key, messageOf pieces) :: read)).mono ?_
      intro start hstart
      exact ((hstart.behind hmarks hroom hbetween hmore).cons_of_not rfl).append_of_not
        (head.source.marks_isArgument _)
    · have hspell : branchChars ((head, pieces) :: more) ++ t =
          head.before.chars ++ ((head.source.chars ++ (head.after.chars ++ ['{'])) ++
            (charsOf pieces ++ '}' :: (branchChars more ++ t))) := by
        simp [branchChars, BranchHead.chars]
      have hopen : (charsOf pieces ++ '}' :: (branchChars more ++ t)).length +
          (pos + head.chars.length + 1) = n := by
        rw [List.length_append, List.length_cons]
        omega
      have hmessage := hbody pieces ('}' :: (branchChars more ++ t)) _ n hfit₁
        (Nat.lt_of_not_le hroom) hopen
      have hkey : ∀ opened, Exceeds limit room n (marksOf (pos + head.chars.length + 1) pieces)
          (branch body opened ((head.source.chars ++ (head.after.chars ++ ['{'])) ++
            (charsOf pieces ++ '}' :: (branchChars more ++ t)))) := by
        refine Exceeds.after (fun _ => hmessage.of_error ?_) (branch_failsAs head.source head.after _)
        intro fault h
        rw [branchBody, h, error_bind]
      obtain ⟨c, r, hsource, hblank, hclose⟩ := head.source.exists_chars_eq_cons
      rw [hspell]
      rw [hsource] at hkey ⊢
      refine (Exceeds.after hkey (branchesFrom_failsAs_branch typeName read head.before
        (List.cons_ne_nil _ _) (stops_cons.2 hblank) (fun h => hclose (Option.some.inj h)))
        opened).mono ?_
      intro start hstart
      exact ((hstart.before hmarks hbetween hmore).cons_of_not rfl).append_of_not
        (head.source.marks_isArgument _)

/-- An offset in front of branches is read, so that what fails are the branches. -/
theorem offsetBranches_branches_error {typeName : String} {opened : List Char}
    (offset : Option OffsetSource) {entries : List (BranchHead × List Piece)} (hne : entries ≠ [])
    (hstop : offset.isSome = true → Stops isAsciiDigit (branchChars entries)) (t : List Char)
    {fault : Fault} (h : branches body typeName opened (branchChars entries ++ t) = .error fault) :
    offsetBranches body typeName opened (offsetChars offset ++ (branchChars entries ++ t)) =
      .error fault := by
  have hdigit : offset.isSome = true → Stops isAsciiDigit (branchChars entries ++ t) :=
    fun hsome => (hstop hsome).append (branchChars_ne_nil hne) t
  obtain ⟨⟨head, pieces⟩, more, rfl⟩ := List.exists_cons_of_ne_nil hne
  obtain ⟨s, hs⟩ : ∃ s, branchChars ((head, pieces) :: more) ++ t =
      head.before.chars ++ (head.source.chars ++ (head.after.chars ++ '{' :: s)) :=
    ⟨charsOf pieces ++ '}' :: (branchChars more ++ t), by simp [branchChars, BranchHead.chars]⟩
  have hcons : head.source.chars ++ (head.after.chars ++ '{' :: s) ≠ [] := by
    obtain ⟨c, r, hsource, -, -⟩ := head.source.exists_chars_eq_cons
    simp [hsource]
  rw [hs] at h hdigit ⊢
  obtain ⟨s₁, hskip, hclause⟩ := offsetClause_complete opened offset head.before hcons
    (head.source.stops_blank _) (isPrefixOf?_offsetWord_source head.source head.after s) hdigit
  rw [branches, branchesFrom_append, ← branches] at h
  rw [offsetBranches, hskip, ok_bind, hclause, ok_bind]
  simp only [h, error_bind]

/-- An argument with a type is too deep where what belongs to its type is. -/
theorem argument_exceeds_typed (head : Head) (lead : Blanks) (type : ArgumentType)
    {v t : List Char} (hid : Stops isIdentifierChar v) (hne : v ≠ []) {pos n k : Nat}
    {inner : List Mark}
    (hbetween : Between (behindKeyword pos head lead type)
      (behindKeyword pos head lead type + v.length) inner)
    (hinner : Nests inner k)
    (h : ∀ opened, Exceeds limit room n inner
      (content body opened head.word.name type (v ++ '}' :: t))) :
    Exceeds limit (room + 1) n (typedMarks pos head lead type v inner)
      (argument limit (some body) (typedChars head lead type v ++ t)) := by
  have hspell : typedChars head lead type v ++ t =
      (head.chars ++ [',']) ++ ((lead.chars ++ type.word.chars) ++ (v ++ '}' :: t)) := by
    simp [typedChars, ArgumentType.word]
  have htype : ArgumentType.ofKeyword? type.word.name = some type := by
    rw [ArgumentType.name_word, ofKeyword?_keyword]
  have htyped := Exceeds.after h (typedArgument_failsAs head.word.name lead type.word htype
    (hid.append hne ('}' :: t)))
  rw [hspell]
  refine (Exceeds.after htyped (argument_failsAs head _) []).mono ?_
  intro start hstart
  exact typedMarks_firstInside head lead type v hbetween hinner hstart

theorem argument_exceeds (limit : Int) (hcomplete : CompleteMessage room true body)
    (hbody : ExceedsMessage limit room body) : ExceedsArgument limit (room + 1) (some body) := by
  intro source t pos n hfit hdepth hn
  cases source with
  | bare head => exact absurd hdepth (Nat.not_lt.2 (Nat.le_add_left 1 room))
  | formatted head lead kind trail style =>
    exact absurd hdepth (Nat.not_lt.2 (Nat.le_add_left 1 room))
  | plural head lead kind trail offset entries last =>
    obtain ⟨hne, hstop, hfits⟩ := hfit
    have hlength := length_typedChars pos head lead (.plural kind)
      (trail.chars ++ ',' :: (offsetChars offset ++ (branchChars entries ++ last.chars)))
    rw [ArgumentSource.plural_chars, List.length_append] at hn
    rw [ArgumentSource.plural_chars]
    refine argument_exceeds_typed head lead (.plural kind)
      (trail.stops_identifier (stops_cons.2 (by decide))) (by simp)
      (pluralMarks_between _ trail offset entries last)
      ((branchMarks_nests _ entries).append_of_not (offsetMarks_isArgument _ offset)) ?_
    have hrest : (branchChars entries ++ (last.chars ++ '}' :: t)).length +
        (behindKeyword pos head lead (.plural kind) + trail.chars.length + 1 +
          (offsetChars offset).length) = n := by
      simp only [List.length_append, List.length_cons] at hlength ⊢
      omega
    have hbranches := branchesFrom_exceeds hcomplete hbody kind.name _ entries hfits
      (Nat.lt_of_succ_lt_succ hdepth) hrest []
    have hoffset : ∀ opened, Exceeds limit room n
        (offsetMarks (behindKeyword pos head lead (.plural kind) + trail.chars.length + 1) offset ++
          branchMarks (behindKeyword pos head lead (.plural kind) + trail.chars.length + 1 +
            (offsetChars offset).length) entries)
        (offsetBranches body kind.name opened
          (offsetChars offset ++ (branchChars entries ++ (last.chars ++ '}' :: t)))) := by
      intro opened
      refine ((hbranches opened).of_error ?_).mono ?_
      · exact fun fault => offsetBranches_branches_error offset hne hstop _
      · exact fun start => FirstInside.append_of_not (offsetMarks_isArgument _ offset)
    have hcontent := Exceeds.after hoffset
      (failsAs_behindComma (content_plural · head.word.name kind ·) trail _)
    simpa using hcontent
  | select head lead trail entries last =>
    obtain ⟨hne, hfits⟩ := hfit
    have hlength := length_typedChars pos head lead .select
      (trail.chars ++ ',' :: (branchChars entries ++ last.chars))
    rw [ArgumentSource.select_chars, List.length_append] at hn
    rw [ArgumentSource.select_chars]
    refine argument_exceeds_typed head lead .select
      (trail.stops_identifier (stops_cons.2 (by decide))) (by simp)
      (selectMarks_between _ trail entries last) (branchMarks_nests _ entries) ?_
    have hrest : (branchChars entries ++ (last.chars ++ '}' :: t)).length +
        (behindKeyword pos head lead .select + trail.chars.length + 1) = n := by
      simp only [List.length_append, List.length_cons] at hlength ⊢
      omega
    have hbranches := branchesFrom_exceeds hcomplete hbody selectName _ entries hfits
      (Nat.lt_of_succ_lt_succ hdepth) hrest []
    have hcomma : FailsAs (fun opened => content body opened head.word.name .select)
        (branches body selectName) (trail.chars ++ [','])
        (branchChars entries ++ (last.chars ++ '}' :: t)) :=
      failsAs_behindComma (fun _ _ => rfl) trail _
    simpa using Exceeds.after hbranches hcomma

end Body

/-- A derivation that is too deep has a first argument that is. -/
theorem exists_deep_argument {pieces : List Piece} {room : Nat} (h : room < depthOf pieces) :
    ∃ before source after, pieces = before ++ .argument source :: after ∧
      depthOf before ≤ room ∧ room < source.depth := by
  induction pieces with
  | nil => cases h
  | cons piece rest ih =>
    by_cases hpiece : piece.depth ≤ room
    · obtain ⟨before, source, after, rfl, hbefore, hsource⟩ := ih (by rw [depthOf] at h; omega)
      refine ⟨piece :: before, source, after, rfl, ?_, hsource⟩
      rw [depthOf]
      omega
    · cases piece with
      | argument source =>
        exact ⟨[], source, rest, rfl, Nat.zero_le room, Nat.lt_of_not_le hpiece⟩
      | _ => exact absurd (Nat.zero_le room) hpiece

theorem messageOver_exceeds {limit : Int} {room : Nat} {body : Option (Reader Message)}
    (hcomplete : CompleteArgument limit room body) (hargument : ExceedsArgument limit room body)
    (inBranch : Bool) : ExceedsMessage limit room (messageOver limit body inBranch) := by
  intro pieces t pos n hfit hdepth hn
  obtain ⟨before, source, after, rfl, hbefore, hsource⟩ := exists_deep_argument hdepth
  obtain ⟨hfitBefore, hfitSource, -⟩ := (fitAll_append _ _ _).1 hfit
  have hspell : charsOf (before ++ .argument source :: after) ++ t =
      charsOf before ++ (source.chars ++ (charsOf after ++ t)) := by
    simp [charsOf_append, charsOf, Piece.chars]
  have hmarks : marksOf pos (before ++ .argument source :: after) =
      marksOf pos before ++ (source.marks (pos + (charsOf before).length) ++
        marksOf (pos + (charsOf before).length + source.chars.length) after) := by
    rw [marksOf_append, marksOf, Piece.marks, Piece.chars]
  rw [hspell, List.length_append] at hn
  have hopen := hargument source (charsOf after ++ t) (pos + (charsOf before).length) n hfitSource
    hsource (by omega)
  obtain ⟨u, hu⟩ : ∃ u, source.chars = '{' :: u := by cases source <;> exact ⟨_, rfl⟩
  have hfits : FitAll (some '{') before := by
    rw [charsOf, Piece.chars, hu] at hfitBefore
    exact hfitBefore
  have hfails := messageOver_failsAs hcomplete inBranch hfits hbefore (u ++ (charsOf after ++ t))
  rw [← List.cons_append, ← hu] at hfails
  rw [hspell, hmarks]
  refine (Exceeds.after (fun _ => hopen) hfails []).mono ?_
  intro start hstart
  have hafter := marksOf_between (pos + (charsOf before).length + source.chars.length) after
  have hbetween := source.marks_between (pos + (charsOf before).length)
  exact (hstart.before (source.marks_nests _) hbetween hafter).behind (marksOf_nests pos before)
    hbefore (marksOf_between pos before) (between_append.2
      ⟨hbetween.mono (Nat.le_refl _) (Nat.le_add_right _ _),
        hafter.mono (Nat.le_add_right _ _) (Nat.le_refl _)⟩)

/-- Every derivation that is too deep is found so, at the first argument that is. -/
theorem message_exceeds (limit : Int) (room : Nat) (inBranch : Bool) :
    ExceedsMessage limit room (message limit room inBranch) := by
  induction room generalizing inBranch with
  | zero =>
    rw [message_eq]
    refine messageOver_exceeds (completeArgument_zero limit none) ?_ inBranch
    intro source t pos n _ _ hn
    exact ⟨_, pos, rfl, hn, source.firstInside_zero pos⟩
  | succ room ih =>
    rw [message_eq]
    have hcomplete := message_complete limit room true
    exact messageOver_exceeds (argument_complete limit hcomplete)
      (argument_exceeds limit hcomplete (ih true)) inBranch

/-! ## Parsers -/

/-- A parser with a smaller limit gives what one with a larger limit gives, or reports that its
limit is reached. -/
theorem Parser.parse_agrees {p p' : Parser} (hsize : p.maxSourceSize = p'.maxSourceSize)
    (hle : p.maxNestingDepth ≤ p'.maxNestingDepth) (pattern : String) :
    p.parse pattern = p'.parse pattern ∨ ∃ position, p.parse pattern =
      .error (.malformed ⟨pattern, position, .nestingDepthExceeded p.maxNestingDepth⟩) := by
  have hrejects : p.rejects = p'.rejects := by
    funext size
    rw [Parser.rejects, Parser.rejects, hsize]
  rcases message_agrees p.maxNestingDepth p'.maxNestingDepth (Int.toNat_le_toNat hle) false
    pattern.toList with heq | ⟨rest, herror⟩
  · refine .inl ?_
    simp only [Parser.parse, Parser.rule, hrejects, hsize, heq]
  · cases hlong : p.rejects pattern.toList.length with
    | true =>
      refine .inl ?_
      rw [Parser.parse_eq_tooLong_iff.2 ⟨hlong, rfl, rfl⟩,
        Parser.parse_eq_tooLong_iff.2 ⟨hrejects ▸ hlong, rfl, hsize⟩]
    | false => exact .inr ⟨_, Parser.parse_eq_malformed_iff.2 ⟨hlong, _, rest, herror, rfl⟩⟩

section Derived

variable {p : Parser} {pattern : String} {pieces : List Piece}

/-- A derived pattern is read by every parser with room for it. -/
theorem Parser.parse_of_depth_le (hsize : p.rejects pattern.toList.length = false)
    (hchars : charsOf pieces = pattern.toList) (hfit : FitAll none pieces)
    (hdepth : depthOf pieces ≤ p.maxNestingDepth.toNat) :
    p.parse pattern = .ok (messageOf pieces) :=
  Parser.parse_eq_ok_iff.2
    ⟨hsize, [], message_run_eq_ok_iff.2 ⟨rfl, pieces, hchars, hfit, hdepth, rfl⟩⟩

/-- A parser without room for it reports the first argument that is too deep. -/
theorem Parser.parse_of_lt_depth (hsize : p.rejects pattern.toList.length = false)
    (hchars : charsOf pieces = pattern.toList) (hfit : FitAll none pieces)
    (hdepth : p.maxNestingDepth.toNat < depthOf pieces) :
    ∃ start, FirstInside p.maxNestingDepth.toNat (marksOf 0 pieces) start ∧
      p.parse pattern =
        .error (.malformed ⟨pattern, start, .nestingDepthExceeded p.maxNestingDepth⟩) := by
  obtain ⟨rest, start, herror, hlength, hfirst⟩ :=
    message_exceeds p.maxNestingDepth p.maxNestingDepth.toNat false pieces [] 0
      pattern.toList.length hfit hdepth (by simp [hchars])
  rw [List.append_nil, hchars] at herror
  refine ⟨start, hfirst, Parser.parse_eq_malformed_iff.2 ⟨hsize, _, rest, herror, ?_⟩⟩
  rw [← hlength, Nat.add_sub_cancel_left]

end Derived

/-- Of two parsers the one with the smaller limit on nesting gives what the other one gives, or
reports that its limit is reached.  If the other one reads a pattern, then the parsers that read it
are those whose limit is at least the largest number of arguments that are open at once in the
text, and they all give the same message.  Any other one reports the first opening brace of an
argument that stands inside as many others as its limit allows. -/
theorem Parser.parse_nesting (p p' : Parser) (hsize : p.maxSourceSize = p'.maxSourceSize)
    (hle : p.maxNestingDepth ≤ p'.maxNestingDepth) (pattern : String) :
    (p.parse pattern = p'.parse pattern ∨ ∃ position, p.parse pattern =
      .error (.malformed ⟨pattern, position, .nestingDepthExceeded p.maxNestingDepth⟩)) ∧
    ∀ nodes, p'.parse pattern = .ok nodes →
      (∃ pieces, charsOf pieces = pattern.toList ∧ FitAll none pieces) ∧
      ∀ pieces, charsOf pieces = pattern.toList → FitAll none pieces →
        let marks := marksOf 0 pieces
        (∀ m ∈ marks, m.StandsIn pattern.toList) ∧
          ∃ most : Nat, IsGreatest (Set.range fun n => openArguments n marks) most ∧
            ∀ q : Parser, q.maxSourceSize = p'.maxSourceSize →
              (q.parse pattern = .ok nodes ↔ (most : Int) ≤ q.maxNestingDepth) ∧
              (q.maxNestingDepth < most → ∃ start,
                FirstInside q.maxNestingDepth.toNat marks start ∧ q.parse pattern =
                  .error (.malformed
                    ⟨pattern, start, .nestingDepthExceeded q.maxNestingDepth⟩)) := by
  refine ⟨Parser.parse_agrees hsize hle pattern, fun nodes hread => ?_⟩
  obtain ⟨hshort, rest, hrun⟩ := Parser.parse_eq_ok_iff.1 hread
  obtain ⟨-, pieces, hchars, hfit, -, -⟩ := message_run_eq_ok_iff.1 hrun
  refine ⟨⟨pieces, hchars, hfit⟩, ?_⟩
  clear hchars hfit pieces
  intro pieces hchars hfit
  -- the parser that reads the pattern has room for this derivation as well
  have hmessage : messageOf pieces = nodes := by
    rcases Nat.lt_or_ge p'.maxNestingDepth.toNat (depthOf pieces) with hlt | hge
    · obtain ⟨start, -, herror⟩ := Parser.parse_of_lt_depth hshort hchars hfit hlt
      rw [hread] at herror
      cases herror
    · rw [Parser.parse_of_depth_le hshort hchars hfit hge] at hread
      exact Except.ok.inj hread
  refine ⟨marksOf_standIn pieces ⟨[], by simp [hchars]⟩, depthOf pieces,
    (marksOf_nests 0 pieces).most, fun q hq => ?_⟩
  have htakes : q.rejects pattern.toList.length = false := by
    rw [Parser.rejects, hq]
    exact hshort
  have hpos := q.depth_pos
  have hdeep (hlt : q.maxNestingDepth < depthOf pieces) :=
    Parser.parse_of_lt_depth (p := q) htakes hchars hfit (by omega)
  refine ⟨⟨fun hparse => ?_, fun hroom => ?_⟩, hdeep⟩
  · by_contra hlt
    obtain ⟨start, -, herror⟩ := hdeep (Int.not_le.1 hlt)
    rw [hparse] at herror
    cases herror
  · rw [Parser.parse_of_depth_le htakes hchars hfit (by omega), hmessage]

/-- An argument inside of another one, in a body that is dropped for a later one with its key. -/
theorem Parser.parse_nesting_dropped :
    (0 : Int) = 0 ∧ (1 : Int) ≤ 2 ∧
      (⟨0, 2, by decide⟩ : Parser).parse "\x7ba, select, x \x7b\x7bb\x7d\x7d x \x7b\x7d\x7d" =
        .ok [.select "a" ⟨[(.name "x", [])]⟩] ∧
      (⟨0, 1, by decide⟩ : Parser).parse "\x7ba, select, x \x7b\x7bb\x7d\x7d x \x7b\x7d\x7d" =
        .error (.malformed ⟨"\x7ba, select, x \x7b\x7bb\x7d\x7d x \x7b\x7d\x7d", 15,
          .nestingDepthExceeded 1⟩) := by
  let p : Parser := ⟨0, 1, by decide⟩
  let p' : Parser := ⟨0, 2, by decide⟩
  let blank : Blanks := ⟨[' '], List.all_eq_true.1 (by decide)⟩
  let a : Word := ⟨['a'], by decide, List.all_eq_true.1 (by decide)⟩
  let b : Word := ⟨['b'], by decide, List.all_eq_true.1 (by decide)⟩
  let x : Word := ⟨['x'], by decide, List.all_eq_true.1 (by decide)⟩
  let pieces : List Piece :=
    [.argument (.select ⟨.none, a, .none⟩ blank .none
      [(⟨blank, .word x, blank⟩, [.argument (.bare ⟨.none, b, .none⟩)]),
        (⟨blank, .word x, blank⟩, [])] .none)]
  have hmarks : marksOf 0 pieces = [.argument 0 24, .keyword 4 .select, .body 14 18,
      .argument 15 17, .body 22 23] := rfl
  have hfit : FitAll none pieces := by
    simp [pieces, FitAll, Piece.Fits, ArgumentSource.Fits, BranchesFit]
  have hread : p'.parse "\x7ba, select, x \x7b\x7bb\x7d\x7d x \x7b\x7d\x7d" =
      .ok [.select "a" ⟨[(.name "x", [])]⟩] := by
    decide +kernel
  obtain ⟨-, hall⟩ := Parser.parse_nesting p p' rfl (by decide)
    "\x7ba, select, x \x7b\x7bb\x7d\x7d x \x7b\x7d\x7d"
  obtain ⟨-, hpieces⟩ := hall _ hread
  obtain ⟨-, most, hmost, hparsers⟩ := hpieces pieces rfl hfit
  rw [hmarks] at hmost hparsers
  obtain ⟨-, hdeep⟩ := hparsers p rfl
  have htwo : 2 ≤ most := hmost.2 ⟨16, rfl⟩
  obtain ⟨start, hfirst, herror⟩ := hdeep (by change (1 : Int) < most; omega)
  obtain ⟨stop, hmem⟩ := hfirst.mem
  refine ⟨rfl, by decide, hread, ?_⟩
  simp only [List.mem_cons, Mark.argument.injEq, reduceCtorEq, List.not_mem_nil, or_false,
    false_or] at hmem
  rcases hmem with ⟨rfl, -⟩ | ⟨rfl, -⟩
  · exact absurd hfirst.inside (by decide)
  · exact herror

end Phrasebook.Pattern
