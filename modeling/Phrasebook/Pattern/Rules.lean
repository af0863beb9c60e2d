/-
  The rules of the pattern grammar.

  A message is a run of literal texts, quotations and arguments.  An argument
  stands in braces: a name, and after a comma a type with what belongs to it.
  The types plural, selectordinal and select have branches, and the body of a
  branch is a message again.

  Nesting is bounded, and the bound carries the recursion: the rule for messages
  with room for `n + 1` open arguments is built from the one with room for `n`.
  Within one message the rules repeat for as long as they shorten the text.
  Every rule therefore comes with the fact that it returns an end of the text it
  was given.
-/
import Phrasebook.Message.Merge
import Phrasebook.Pattern.Token

set_option autoImplicit false

namespace Phrasebook.Pattern

/-! ## Rules that return an end of their text -/

/-- A rule together with the fact that what it leaves is an end of what it was given. -/
structure Reader (α : Type) where
  run : Step α
  suffix : ∀ {s : List Char} {x : α} {rest : List Char}, run s = .ok (x, rest) → rest <:+ s

theorem bind_eq_ok {α β : Type} {x : Except Fault α} {f : α → Except Fault β} {b : β} :
    (x >>= f) = .ok b ↔ ∃ a, x = .ok a ∧ f a = .ok b := by
  cases x with
  | error e => simp [bind, Except.bind]
  | ok a => simp [bind, Except.bind]

theorem map_eq_ok {α β : Type} {x : Except Fault α} {f : α → β} {b : β} :
    x.map f = .ok b ↔ ∃ a, x = .ok a ∧ f a = b := by
  cases x with
  | error e => simp [Except.map]
  | ok a => simp [Except.map]

/-! ## Literal text -/

/-- What an apostrophe stands for, and what is left behind it.  Two apostrophes are one.  Before a
brace, an apostrophe opens a quotation that runs to the next apostrophe or to the end of the
text.  Any other is an apostrophe. -/
def quotation : List Char → String × List Char
  | [] => ("'", [])
  | c :: rest =>
    if c = '\'' then ("'", rest)
    else if isQuotable c then
      (String.ofList ((c :: rest).takeWhile (· ≠ '\'')),
        ((c :: rest).dropWhile (· ≠ '\'')).drop 1)
    else ("'", c :: rest)

theorem quotation_suffix (s : List Char) : (quotation s).2 <:+ s := by
  unfold quotation
  split
  · exact List.suffix_refl _
  · split
    · exact List.suffix_cons _ _
    · split
      · exact (List.drop_suffix 1 _).trans (List.dropWhile_suffix _)
      · exact List.suffix_refl _

/-! ## Branches -/

/-- The key of a branch: a whole number after an equals sign, or an identifier. -/
def branchKey : Step BranchKey := fun s =>
  match s with
  | c :: rest =>
    if c = '=' then (integer rest).map fun r => (.exact r.1, r.2)
    else (identifier (c :: rest)).map fun r => (.name r.1, r.2)
  | [] => (identifier []).map fun r => (.name r.1, r.2)

theorem branchKey_suffix {s rest : List Char} {key : BranchKey}
    (h : branchKey s = .ok (key, rest)) : rest <:+ s := by
  unfold branchKey at h
  split at h
  · split at h
    · obtain ⟨⟨n, r⟩, hn, hr⟩ := map_eq_ok.1 h
      cases hr
      exact (integer_suffix hn).trans (List.suffix_cons _ _)
    · obtain ⟨⟨n, r⟩, hn, hr⟩ := map_eq_ok.1 h
      cases hr
      exact identifier_suffix hn
  · obtain ⟨⟨n, r⟩, hn, hr⟩ := map_eq_ok.1 h
    cases hr
    exact identifier_suffix hn

/-- Passes over the closing brace behind the body that was opened at `opened`. -/
def closeBody (opened : List Char) : List Char → Except Fault (List Char)
  | [] => .error (.malformed .unterminatedArgument opened)
  | _ :: rest => .ok rest

/-- One branch: a key and a body in braces. -/
def branch (body : Reader Message) (opened : List Char) : Step (BranchKey × Message) := fun s => do
  let (key, s₁) ← branchKey s
  let s₂ ← skipBlanks opened s₁
  let s₃ ← expect '{' s₂
  let (message, s₄) ← body.run s₃
  let rest ← closeBody s₂ s₄
  return ((key, message), rest)

theorem branch_length_lt {body : Reader Message} {opened s rest : List Char}
    {pair : BranchKey × Message} (h : branch body opened s = .ok (pair, rest)) :
    rest.length < s.length ∧ rest <:+ s := by
  simp only [branch, bind_eq_ok, Prod.exists, pure, Except.pure, Except.ok.injEq,
    Prod.mk.injEq] at h
  obtain ⟨key, s₁, h₁, s₂, h₂, s₃, h₃, message, s₄, h₄, r, h₅, -, hr⟩ := h
  have hs₁ := branchKey_suffix h₁
  have hs₂ := skipBlanks_suffix h₂
  have hs₃ := expect_eq_ok h₃
  have hs₄ := body.suffix h₄
  subst hr
  cases s₄ with
  | nil => simp [closeBody] at h₅
  | cons c t =>
    simp only [closeBody, Except.ok.injEq] at h₅
    subst h₅
    have hsuf : t <:+ s := by
      refine ((List.suffix_cons c t).trans hs₄).trans ?_
      exact ((hs₃ ▸ List.suffix_cons '{' s₃ : s₃ <:+ s₂).trans hs₂).trans hs₁
    refine ⟨?_, hsuf⟩
    have l₁ := hs₁.length_le
    have l₂ := hs₂.length_le
    have l₄ := hs₄.length_le
    have l₃ : s₂.length = s₃.length + 1 := by rw [hs₃]; rfl
    simp only [List.length_cons] at l₄
    omega

/-- The branches up to the closing brace of their argument, which is left.  The branches read so
far are given last first. -/
def branchesFrom (body : Reader Message) (typeName : String) (opened : List Char)
    (read : List (BranchKey × Message)) (s : List Char) :
    Except Fault (Branches Message × List Char) :=
  match _h₁ : skipBlanks opened s with
  | .error e => .error e
  | .ok s₁ =>
    if s₁.head? = some '}' then
      if read.isEmpty then .error (.malformed (.emptyBranchList typeName) s₁)
      else .ok (Branches.ofPairs read.reverse, s₁)
    else
      match _h₂ : branch body opened s₁ with
      | .error e => .error e
      | .ok (pair, s₂) => branchesFrom body typeName opened (pair :: read) s₂
termination_by s.length
decreasing_by
  have l₁ := (skipBlanks_suffix _h₁).length_le
  have l₂ := (branch_length_lt _h₂).1
  omega

/-- A table of branches: one or more, up to the closing brace of their argument. -/
def branches (body : Reader Message) (typeName : String) (opened : List Char) :
    Step (Branches Message) :=
  branchesFrom body typeName opened []

theorem branchesFrom_suffix {body : Reader Message} {typeName : String} {opened : List Char}
    (read : List (BranchKey × Message)) (s : List Char) {table : Branches Message}
    {rest : List Char} (h : branchesFrom body typeName opened read s = .ok (table, rest)) :
    rest <:+ s := by
  fun_induction branchesFrom body typeName opened read s with
  | case1 => cases h
  | case2 => cases h
  | case3 read s s₁ h₁ =>
    cases h
    exact skipBlanks_suffix h₁
  | case4 => cases h
  | case5 read s s₁ h₁ _ pair s₂ h₂ ih =>
    exact ((ih h).trans (branch_length_lt h₂).2).trans (skipBlanks_suffix h₁)

/-! ## Arguments -/

/-- What may stand behind the name of an argument. -/
inductive ArgumentType where
  | formatted (kind : FormatKind)
  | plural (kind : PluralKind)
  | select
  deriving DecidableEq, Repr, Inhabited

/-- The type with a keyword. -/
def ArgumentType.ofKeyword? (keyword : String) : Option ArgumentType :=
  if keyword = "number" then some (.formatted .number)
  else if keyword = "date" then some (.formatted .date)
  else if keyword = "time" then some (.formatted .time)
  else if keyword = "plural" then some (.plural .cardinal)
  else if keyword = "selectordinal" then some (.plural .ordinal)
  else if keyword = "select" then some .select
  else none

/-- What follows a comma, if a comma stands in front. -/
def afterComma? : List Char → Option (List Char)
  | [] => none
  | c :: rest => if c = ',' then some rest else none

theorem afterComma?_eq_some {s rest : List Char} (h : afterComma? s = some rest) :
    s = ',' :: rest := by
  cases s with
  | nil => simp [afterComma?] at h
  | cons c r =>
    simp only [afterComma?] at h
    split at h
    · rename_i hc
      cases h
      rw [hc]
    · cases h

/-- The style of a formatted argument, if there is one. -/
def styleClause (opened : List Char) : Step (Option String) := fun s => do
  let s₁ ← skipBlanks opened s
  match afterComma? s₁ with
  | none => return (none, s₁)
  | some s₂ =>
    let s₃ ← skipBlanks opened s₂
    let (style, s₄) ← identifier s₃
    let rest ← skipBlanks opened s₄
    return (some style, rest)

/-- The word that introduces an offset. -/
def offsetWord : List Char := ['o', 'f', 'f', 's', 'e', 't', ':']

/-- The offset of a plural argument; zero if there is none. -/
def offsetClause (opened : List Char) : Step Int := fun s =>
  match offsetWord.isPrefixOf? s with
  | none => .ok (0, s)
  | some s₁ => do
    let s₂ ← skipBlanks opened s₁
    let (offset, s₃) ← integer s₂
    let rest ← skipBlanks opened s₃
    return (offset, rest)

/-- A comma, inside the argument that was opened at `opened`. -/
def comma (opened s : List Char) : Except Fault (List Char) := do
  expect ',' (← skipBlanks opened s)

/-- What belongs to an argument of a type, behind its keyword. -/
def content (body : Reader Message) (opened : List Char) (name : String) :
    ArgumentType → Step Node
  | .formatted kind => fun s => do
    let (style, rest) ← styleClause opened s
    return (.formatted kind name style, rest)
  | .plural kind => fun s => do
    let s₁ ← comma opened s
    let s₂ ← skipBlanks opened s₁
    let (offset, s₃) ← offsetClause opened s₂
    let (table, rest) ← branches body kind.name opened s₃
    return (.plural kind name offset table, rest)
  | .select => fun s => do
    let s₁ ← comma opened s
    let (table, rest) ← branches body selectName opened s₁
    return (.select name table, rest)

/-- An argument with a type, behind the comma that follows its name. -/
def typedArgument (body : Reader Message) (opened : List Char) (name : String) : Step Node :=
  fun s => do
    let s₁ ← skipBlanks opened s
    let (keyword, s₂) ← identifier s₁
    match ArgumentType.ofKeyword? keyword with
    | none => .error (.malformed (.unknownArgumentType keyword) s₁)
    | some type =>
      let (node, s₃) ← content body opened name type s₂
      let rest ← closeArgument opened s₃
      return (node, rest)

/-- An argument, from its opening brace on.  Without a rule for the bodies of its branches no
further argument may be opened. -/
def argument (limit : Int) (body : Option (Reader Message)) : Step Node := fun s =>
  match body with
  | none => .error (.malformed (.nestingDepthExceeded limit) s)
  | some body => do
    let s₁ ← skipBlanks s (s.drop 1)
    let (name, s₂) ← identifier s₁
    let s₃ ← skipBlanks s s₂
    match afterComma? s₃ with
    | some s₄ => typedArgument body s name s₄
    | none =>
      let rest ← closeArgument s s₃
      return (.argument name, rest)

theorem closeArgument_suffix {opened s rest : List Char}
    (h : closeArgument opened s = .ok rest) : rest <:+ s :=
  closeArgument_eq_ok h ▸ List.suffix_cons _ _

theorem afterComma?_suffix {s rest : List Char} (h : afterComma? s = some rest) : rest <:+ s :=
  afterComma?_eq_some h ▸ List.suffix_cons _ _

theorem styleClause_suffix {opened s rest : List Char} {style : Option String}
    (h : styleClause opened s = .ok (style, rest)) : rest <:+ s := by
  simp only [styleClause, bind_eq_ok] at h
  obtain ⟨s₁, h₁, h⟩ := h
  refine List.IsSuffix.trans ?_ (skipBlanks_suffix h₁)
  split at h
  · cases h; exact List.suffix_refl _
  · rename_i s₂ h₂
    simp only [bind_eq_ok, Prod.exists, pure, Except.pure, Except.ok.injEq, Prod.mk.injEq] at h
    obtain ⟨s₃, h₃, name, s₄, h₄, r, h₅, -, rfl⟩ := h
    exact (((skipBlanks_suffix h₅).trans (identifier_suffix h₄)).trans
      (skipBlanks_suffix h₃)).trans (afterComma?_suffix h₂)

theorem isPrefixOf?_eq_some_iff {word s rest : List Char} :
    word.isPrefixOf? s = some rest ↔ s = word ++ rest := by
  induction word generalizing s with
  | nil => exact Option.some_inj
  | cons c word ih =>
    cases s with
    | nil =>
      have hnil : (c :: word).isPrefixOf? ([] : List Char) = none := rfl
      simp [hnil]
    | cons d s =>
      have hcons : (c :: word).isPrefixOf? (d :: s) =
          if c == d then word.isPrefixOf? s else none := rfl
      by_cases hcd : c = d
      · subst hcd
        simp [hcons, ih]
      · simp [hcons, hcd, Ne.symm hcd]

theorem isPrefixOf?_suffix {word s rest : List Char} (h : word.isPrefixOf? s = some rest) :
    rest <:+ s :=
  ⟨word, (isPrefixOf?_eq_some_iff.1 h).symm⟩

theorem offsetClause_suffix {opened s rest : List Char} {offset : Int}
    (h : offsetClause opened s = .ok (offset, rest)) : rest <:+ s := by
  simp only [offsetClause] at h
  split at h
  · cases h; exact List.suffix_refl _
  · rename_i s₁ h₁
    simp only [bind_eq_ok, Prod.exists, pure, Except.pure, Except.ok.injEq, Prod.mk.injEq] at h
    obtain ⟨s₂, h₂, n, s₃, h₃, r, h₄, -, rfl⟩ := h
    exact (((skipBlanks_suffix h₄).trans (integer_suffix h₃)).trans
      (skipBlanks_suffix h₂)).trans (isPrefixOf?_suffix h₁)

theorem comma_suffix {opened s rest : List Char} (h : comma opened s = .ok rest) :
    rest <:+ s := by
  simp only [comma, bind_eq_ok] at h
  obtain ⟨s₁, h₁, h₂⟩ := h
  exact (expect_eq_ok h₂ ▸ List.suffix_cons _ _ : rest <:+ s₁).trans (skipBlanks_suffix h₁)

theorem content_suffix {body : Reader Message} {opened s rest : List Char} {name : String}
    {type : ArgumentType} {node : Node} (h : content body opened name type s = .ok (node, rest)) :
    rest <:+ s := by
  cases type with
  | formatted kind =>
    simp only [content, bind_eq_ok, Prod.exists, pure, Except.pure, Except.ok.injEq,
      Prod.mk.injEq] at h
    obtain ⟨style, r, h₁, -, rfl⟩ := h
    exact styleClause_suffix h₁
  | plural kind =>
    simp only [content, bind_eq_ok, Prod.exists, pure, Except.pure, Except.ok.injEq,
      Prod.mk.injEq] at h
    obtain ⟨s₁, h₁, s₂, h₂, offset, s₃, h₃, table, r, h₄, -, rfl⟩ := h
    exact (((branchesFrom_suffix _ _ h₄).trans (offsetClause_suffix h₃)).trans
      (skipBlanks_suffix h₂)).trans (comma_suffix h₁)
  | select =>
    simp only [content, bind_eq_ok, Prod.exists, pure, Except.pure, Except.ok.injEq,
      Prod.mk.injEq] at h
    obtain ⟨s₁, h₁, table, r, h₂, -, rfl⟩ := h
    exact (branchesFrom_suffix _ _ h₂).trans (comma_suffix h₁)

theorem typedArgument_suffix {body : Reader Message} {opened s rest : List Char} {name : String}
    {node : Node} (h : typedArgument body opened name s = .ok (node, rest)) : rest <:+ s := by
  simp only [typedArgument, bind_eq_ok, Prod.exists] at h
  obtain ⟨s₁, h₁, keyword, s₂, h₂, h⟩ := h
  split at h
  · cases h
  · simp only [bind_eq_ok, Prod.exists, pure, Except.pure, Except.ok.injEq, Prod.mk.injEq] at h
    obtain ⟨n, s₃, h₃, r, h₄, -, rfl⟩ := h
    exact (((closeArgument_suffix h₄).trans (content_suffix h₃)).trans
      (identifier_suffix h₂)).trans (skipBlanks_suffix h₁)

/-- An argument takes its opening brace at least. -/
theorem argument_suffix {limit : Int} {body : Option (Reader Message)} {s rest : List Char}
    {node : Node} (h : argument limit body s = .ok (node, rest)) : rest <:+ s.drop 1 := by
  cases body with
  | none => cases h
  | some body =>
    simp only [argument, bind_eq_ok, Prod.exists] at h
    obtain ⟨s₁, h₁, name, s₂, h₂, s₃, h₃, h⟩ := h
    refine List.IsSuffix.trans ?_ (((skipBlanks_suffix h₃).trans (identifier_suffix h₂)).trans
      (skipBlanks_suffix h₁))
    split at h
    · rename_i s₄ h₄
      exact (typedArgument_suffix h).trans (afterComma?_suffix h₄)
    · simp only [bind_eq_ok, pure, Except.pure, Except.ok.injEq, Prod.mk.injEq] at h
      obtain ⟨r, h₄, -, rfl⟩ := h
      exact closeArgument_suffix h₄

/-! ## Messages -/

/-- The nodes of a message, in pieces as they come.  Inside the body of a branch the message ends
in front of a closing brace; elsewhere such a brace is a fault.  The nodes read so far are given
last first. -/
def nodesFrom (limit : Int) (body : Option (Reader Message)) (inBranch : Bool)
    (read : List Node) (s : List Char) : Except Fault (List Node × List Char) :=
  match s with
  | [] => .ok (read.reverse, [])
  | c :: rest =>
    if c = '}' then
      if inBranch then .ok (read.reverse, c :: rest)
      else .error (.malformed .unexpectedCloseBrace (c :: rest))
    else if c = '{' then
      match _h : argument limit body (c :: rest) with
      | .error e => .error e
      | .ok (node, left) => nodesFrom limit body inBranch (node :: read) left
    else if c = '\'' then
      nodesFrom limit body inBranch (.text (quotation rest).1 :: read) (quotation rest).2
    else
      nodesFrom limit body inBranch
        (.text (String.ofList (c :: rest.takeWhile (!isSpecial ·))) :: read)
        (rest.dropWhile (!isSpecial ·))
termination_by s.length
decreasing_by
  · have l := (argument_suffix _h).length_le
    simp only [List.drop_succ_cons, List.drop_zero] at l
    simp only [List.length_cons]
    omega
  · have l := (quotation_suffix rest).length_le
    simp only [List.length_cons]
    omega
  · have l := (List.dropWhile_suffix (!isSpecial ·) (l := rest)).length_le
    simp only [List.length_cons]
    omega

theorem nodesFrom_suffix {limit : Int} {body : Option (Reader Message)} {inBranch : Bool}
    (read : List Node) (s : List Char) {nodes : List Node} {rest : List Char}
    (h : nodesFrom limit body inBranch read s = .ok (nodes, rest)) : rest <:+ s := by
  fun_induction nodesFrom limit body inBranch read s with
  | case1 => cases h; exact List.suffix_refl _
  | case2 => cases h; exact List.suffix_refl _
  | case3 => cases h
  | case4 => cases h
  | case5 read r _ node left h₁ ih =>
    exact (ih h).trans ((argument_suffix h₁).trans (List.drop_suffix 1 _))
  | case6 read r _ _ ih =>
    exact ((ih h).trans (quotation_suffix r)).trans (List.suffix_cons _ _)
  | case7 read c r _ _ _ ih =>
    exact ((ih h).trans (List.dropWhile_suffix _)).trans (List.suffix_cons _ _)

/-- A message whose arguments have bodies read by a given rule. -/
def messageOver (limit : Int) (body : Option (Reader Message)) (inBranch : Bool) :
    Reader Message where
  run s := (nodesFrom limit body inBranch [] s).map fun r => (mergeText r.1, r.2)
  suffix h := by
    obtain ⟨⟨nodes, rest⟩, hn, hr⟩ := map_eq_ok.1 h
    cases hr
    exact nodesFrom_suffix _ _ hn

/-- A message with room for a number of arguments open at once.  The rule for the bodies is built
when a body is read, so only as many rules are built as arguments are open. -/
def message (limit : Int) : Nat → Bool → Reader Message
  | 0, inBranch => messageOver limit none inBranch
  | room + 1, inBranch =>
    messageOver limit
      (some ⟨fun s => (message limit room true).run s, fun h => (message limit room true).suffix h⟩)
      inBranch

/-- The rule for the bodies of the branches of an argument that takes a place of those left. -/
def bodyWithin (limit : Int) : Nat → Option (Reader Message)
  | 0 => none
  | room + 1 => some (message limit room true)

/-- A message with room for a number of open arguments reads its arguments' bodies with room for
one fewer. -/
theorem message_eq (limit : Int) (room : Nat) (inBranch : Bool) :
    message limit room inBranch = messageOver limit (bodyWithin limit room) inBranch := by
  cases room <;> rfl

end Phrasebook.Pattern
