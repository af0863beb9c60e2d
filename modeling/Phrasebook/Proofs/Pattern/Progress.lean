/-
  Every rule comes to an end, and where.

  A rule that is walked from a position of a text either reports what is wrong
  or leaves the cursor in the same text, at a position that is not further back:
  a message at the end or in front of the brace that closes a branch, branches
  in front of the brace that closes their argument, an argument right behind it.
  No loop and no nesting runs into its bound (`rules_land`).

  The loops are told turn by turn.  A turn that reads something leaves less of
  the text than it found; by induction on the bound, a loop of such turns stops
  before its bound and where its last turn stops.
-/
import Phrasebook.Proofs.Pattern.Context

set_option autoImplicit false

namespace Phrasebook.Pattern

open Phrasebook.Source

/-! ## What is left behind an argument -/

theorem typedArgument_closes {body : Reader Message} {opened s rest : List Char} {name : String}
    {node : Node} (h : typedArgument body opened name s = .ok (node, rest)) :
    '}' :: rest <:+ s := by
  simp only [typedArgument, bind_eq_ok, Prod.exists] at h
  obtain ⟨s₁, h₁, keyword, s₂, h₂, h⟩ := h
  split at h
  · cases h
  · simp only [bind_eq_ok, Prod.exists, pure, Except.pure, Except.ok.injEq, Prod.mk.injEq] at h
    obtain ⟨n, s₃, h₃, r, h₄, -, rfl⟩ := h
    rw [closeArgument_eq_ok h₄] at h₃
    exact ((content_suffix h₃).trans (identifier_suffix h₂)).trans (skipBlanks_suffix h₁)

/-- An argument takes three characters at least, and a closing brace is the last of them. -/
theorem argument_closes {limit : Int} {body : Option (Reader Message)} {s rest : List Char}
    {node : Node} (h : argument limit body s = .ok (node, rest)) :
    '}' :: rest <:+ s ∧ rest.length + 3 ≤ s.length := by
  cases body with
  | none => cases h
  | some body =>
    simp only [argument, bind_eq_ok, Prod.exists] at h
    obtain ⟨s₁, h₁, name, s₂, h₂, s₃, h₃, h⟩ := h
    have hclose : '}' :: rest <:+ s₃ := by
      split at h
      · rename_i s₄ h₄
        exact (typedArgument_closes h).trans (afterComma?_suffix h₄)
      · simp only [bind_eq_ok, pure, Except.pure, Except.ok.injEq, Prod.mk.injEq] at h
        obtain ⟨r, h₄, -, rfl⟩ := h
        exact (closeArgument_eq_ok h₄).symm ▸ List.suffix_refl _
    obtain ⟨w, rfl, -, -⟩ := identifier_eq_ok_iff.1 h₂
    have hs₂ := hclose.trans (skipBlanks_suffix h₃)
    have hs₁ := skipBlanks_suffix h₁
    refine ⟨(hs₂.trans (List.suffix_append _ _)).trans (hs₁.trans (List.drop_suffix 1 s)), ?_⟩
    have hword := List.length_pos_of_ne_nil w.ne_nil
    have hlen₁ := hs₁.length_le
    have hlen₂ := hs₂.length_le
    simp only [List.length_append, List.length_drop, List.length_cons] at hlen₁ hlen₂
    omega

namespace Walk

/-! ## Walks that settle -/

section Settles

variable {α β : Type} {p : α → Prop}

/-- A walk does not run into a bound, and what it gives is as said. -/
def Settles (walk : Except Stop α) (p : α → Prop) : Prop :=
  walk ≠ .error .endless ∧ ∀ a, walk = .ok a → p a

theorem settles_ok {a : α} (h : p a) : Settles (.ok a) p := by
  refine ⟨nofun, ?_⟩
  rintro _ ⟨⟩
  exact h

theorem settles_error {stop : Stop} (h : stop ≠ .endless) : Settles (.error stop) p :=
  ⟨fun hstop => h (Except.error.inj hstop), nofun⟩

theorem Settles.mono {q : α → Prop} {walk : Except Stop α} (h : Settles walk p)
    (hpq : ∀ a, p a → q a) : Settles walk q :=
  ⟨h.1, fun a ha => hpq a (h.2 a ha)⟩

theorem Settles.bind {q : β → Prop} {walk : Except Stop α} {next : α → Except Stop β}
    (h : Settles walk p) (hnext : ∀ a, p a → Settles (next a) q) : Settles (walk >>= next) q := by
  cases walk with
  | error stop => exact settles_error fun hstop => h.1 (congrArg Except.error hstop)
  | ok a => exact hnext a (h.2 a rfl)

theorem settles_fail (c : Cursor) (cause : Cause) : Settles (fail c cause) p := by
  rw [fail]
  cases c.span cause.width with
  | error fault => exact settles_error (by simp)
  | ok span => exact settles_error (by simp)

/-- A walk that tells what a rule reads settles. -/
theorem settles_tell {γ : Type} {source : List Char} {f : γ → α} {r : Except Fault γ}
    (h : ∀ a, r = .ok a → p (f a)) : Settles (tell source f r) p := by
  cases r with
  | error fault => cases fault <;> exact settles_error (by simp [Stop.ofFault])
  | ok a => exact settles_ok (h a rfl)

end Settles

/-- A walk from the front of an end of a pattern settles in front of an end of that. -/
def Arrives {α : Type} (source s : List Char) (walk : Except Stop (α × Cursor))
    (ends : α → List Char → Prop) : Prop :=
  Settles walk fun r => ∃ t, t <:+ s ∧ r.2 = cursorAt source t ∧ ends r.1 t

section Arrives

variable {source s t : List Char} {α β : Type} {ends : α → List Char → Prop}

theorem arrives_pure {a : α} (ht : t <:+ s) (h : ends a t) :
    Arrives source s (pure (a, cursorAt source t)) ends :=
  settles_ok ⟨t, ht, rfl, h⟩

theorem Arrives.trans {walk : Except Stop (α × Cursor)} (h : Arrives source t walk ends)
    (ht : t <:+ s) : Arrives source s walk ends :=
  Settles.mono h fun _ ⟨u, hu, hr, hends⟩ => ⟨u, hu.trans ht, hr, hends⟩

theorem Settles.arrives {p : β → Prop} {walk : Except Stop β}
    {next : β → Except Stop (α × Cursor)} (h : Settles walk p)
    (hnext : ∀ a, p a → Arrives source s (next a) ends) : Arrives source s (walk >>= next) ends :=
  h.bind hnext

theorem Arrives.bind {walk : Except Stop (β × Cursor)}
    {next : β × Cursor → Except Stop (α × Cursor)} {ends' : β → List Char → Prop}
    (h : Arrives source s walk ends')
    (hnext : ∀ x t, t <:+ s → ends' x t → Arrives source s (next (x, cursorAt source t)) ends) :
    Arrives source s (walk >>= next) ends := by
  refine Settles.bind h ?_
  rintro ⟨x, _⟩ ⟨t, ht, rfl, hends⟩
  exact hnext x t ht hends

/-- What a rule leaves a walk that tells it arrives in front of. -/
theorem arrives_tell {r : Except Fault (α × List Char)}
    (h : ∀ x t, r = .ok (x, t) → t <:+ s ∧ ends x t) :
    Arrives source s (tell source (placed source) r) ends :=
  settles_tell fun a ha => ⟨a.2, (h a.1 a.2 ha).1, rfl, (h a.1 a.2 ha).2⟩

end Arrives

/-- A rule that arrives, wherever in a pattern it starts. -/
def ArrivesIn {α : Type} (source : List Char) (rule : Rule α)
    (ends : List Char → α → List Char → Prop) : Prop :=
  ∀ s, s <:+ source → Arrives source s (rule (cursorAt source s)) (ends s)

theorem ArrivesIn.mono {source : List Char} {α : Type} {rule : Rule α}
    {ends ends' : List Char → α → List Char → Prop} (h : ArrivesIn source rule ends)
    (hends : ∀ s x t, ends s x t → ends' s x t) : ArrivesIn source rule ends' :=
  fun s hs => (h s hs).mono fun r ⟨t, ht, hr, hx⟩ => ⟨t, ht, hr, hends s r.1 t hx⟩

/-- Where a turn of a loop stops: where the loop ends, or with less left than it found. -/
def TurnEnds {α : Type} (ends : List Char → Prop) (s : List Char) : Option α → List Char → Prop
  | none, t => ends t
  | some _, t => t.length < s.length

/-! ## Messages -/

section Message

variable {source s : List Char} {argument : Rule Node}

/-- A turn over a message takes a character at least, if it reads a node. -/
theorem turn_arrives
    (hargument : ArrivesIn source argument fun s _ t => t.length < s.length) (inBranch : Bool) :
    ArrivesIn source (turn argument inBranch) (TurnEnds (Ends inBranch)) := by
  intro s hs
  rw [turn, atEnd_cursorAt hs]
  cases s with
  | nil => exact arrives_pure (List.suffix_refl _) (.inl rfl)
  | cons c t =>
    have ht := List.suffix_cons c t
    simp only [List.isEmpty_cons, Bool.false_eq_true, ↓reduceIte, look_cursorAt hs, ok_bind]
    rcases char_cases c with rfl | rfl | rfl | hc
    · cases inBranch with
      | true => exact arrives_pure (List.suffix_refl _) (.inr ⟨rfl, t, rfl⟩)
      | false => exact settles_fail _ _
    · exact (hargument _ hs).bind fun node u hu hlt => arrives_pure hu hlt
    · have hleft := quotation_suffix t
      simp only [Char.reduceEq, ↓reduceIte, quotation_cursorAt hs]
      exact arrives_pure (hleft.trans ht) (Nat.lt_succ_of_le hleft.length_le)
    · have hleft := List.dropWhile_suffix (!isSpecial ·) (l := t)
      obtain ⟨⟨hopen, hclose⟩, hquote⟩ : (c ≠ '{' ∧ c ≠ '}') ∧ c ≠ '\'' := by
        simpa [isSpecial] using hc
      simp only [hopen, hclose, hquote, ↓reduceIte, literal_cursorAt hs hc]
      exact arrives_pure (hleft.trans ht) (Nat.lt_succ_of_le hleft.length_le)

theorem turns_arrives
    (hargument : ArrivesIn source argument fun s _ t => t.length < s.length) (inBranch : Bool)
    {n : Nat} (read : List Node) (hs : s <:+ source) (hn : s.length < n) :
    Arrives source s (turns argument inBranch n read (cursorAt source s))
      fun _ t => Ends inBranch t := by
  -- on the bound: every turn that reads a node leaves a shorter text
  induction n generalizing read s with
  | zero => exact absurd hn (Nat.not_lt_zero _)
  | succ n ih =>
    refine (turn_arrives hargument inBranch s hs).bind fun node t ht hends => ?_
    cases node with
    | none => exact arrives_pure ht hends
    | some node =>
      have hlt : t.length < n := Nat.lt_of_lt_of_le hends (Nat.le_of_lt_succ hn)
      exact (ih (node :: read) (ht.trans hs) hlt).trans ht

theorem messageBy_arrives
    (hargument : ArrivesIn source argument fun s _ t => t.length < s.length) (inBranch : Bool) :
    ArrivesIn source (messageBy argument inBranch) fun _ _ t => Ends inBranch t := by
  intro s hs
  rw [messageBy, remaining_cursorAt hs]
  exact (turns_arrives hargument inBranch [] hs (Nat.lt_succ_self _)).bind
    fun nodes t ht hends => arrives_pure ht hends

end Message

/-! ## Branches -/

section Branches

variable {source s : List Char} {body : Rule Message}

/-- Behind the blanks stands a character, wherever the argument was opened. -/
theorem skipBlanks_settles (opened : Cursor) (hs : s <:+ source) :
    Settles (skipBlanks opened (cursorAt source s)) fun next =>
      ∃ c t, c :: t <:+ s ∧ next = cursorAt source (c :: t) := by
  have hdrop : Text.skipBlank s <:+ s := List.dropWhile_suffix _
  rw [skipBlanks, skipBlank_cursorAt hs]
  simp only [Except.mapError, ok_bind, atEnd_cursorAt (hdrop.trans hs)]
  cases hleft : Text.skipBlank s with
  | nil => exact settles_fail _ _
  | cons c t => exact settles_ok ⟨c, t, hleft ▸ hdrop, rfl⟩

theorem branch_arrives (hbody : ArrivesIn source body fun _ _ _ => True) (opened : Cursor)
    (hs : s <:+ source) (hne : s ≠ []) :
    Arrives source s (branch body opened (cursorAt source s))
      fun _ t => t.length < s.length := by
  have hkey : Arrives source s (branchKey (cursorAt source s)) fun _ _ => True := by
    rw [branchKey_cursorAt hs hne]
    exact arrives_tell fun key s₁ h₁ => ⟨branchKey_suffix h₁, trivial⟩
  refine hkey.bind fun key s₁ hs₁ _ => ?_
  refine (skipBlanks_settles opened (hs₁.trans hs)).arrives ?_
  rintro _ ⟨c, s₂, hs₂, rfl⟩
  have hs₂' := hs₂.trans hs₁
  simp only [expect_cursorAt (hs₂'.trans hs)]
  refine (settles_tell (p := fun next => ∃ t, '{' :: t <:+ s ∧ next = cursorAt source t)
    fun s₃ h₃ => ⟨s₃, expect_eq_ok h₃ ▸ hs₂', rfl⟩).arrives ?_
  rintro _ ⟨s₃, hs₃, rfl⟩
  have hs₃' := (List.suffix_cons '{' s₃).trans hs₃
  refine Arrives.bind ((hbody s₃ (hs₃'.trans hs)).trans hs₃') fun message s₄ hs₄ _ => ?_
  simp only [atEnd_cursorAt (hs₄.trans hs)]
  cases s₄ with
  | nil => exact settles_fail _ _
  | cons d t =>
    have hlen := hs₄.length_le
    simp only [List.isEmpty_cons, Bool.false_eq_true, ↓reduceIte,
      advance_one_cursorAt (hs₄.trans hs)]
    exact arrives_pure ((List.suffix_cons d t).trans hs₄) hlen

/-- A turn over branches takes a character at least, if it reads a branch. -/
theorem branchTurn_arrives (hbody : ArrivesIn source body fun _ _ _ => True) (opened : Cursor) :
    ArrivesIn source (branchTurn body opened) (TurnEnds fun t => t.head? = some '}') := by
  intro s hs
  rw [branchTurn]
  refine (skipBlanks_settles opened hs).arrives ?_
  rintro _ ⟨c, t, ht, rfl⟩
  rw [look_cursorAt (ht.trans hs), ok_bind]
  by_cases hclose : c = '}'
  · rw [if_pos hclose]
    exact arrives_pure ht (congrArg some hclose)
  · rw [if_neg hclose]
    have hbranch := branch_arrives hbody opened (ht.trans hs) (List.cons_ne_nil c t)
    exact Arrives.bind (hbranch.trans ht) fun pair u hu hlt =>
      arrives_pure hu (Nat.lt_of_lt_of_le hlt ht.length_le)

theorem branchesFrom_arrives (hbody : ArrivesIn source body fun _ _ _ => True) (typeName : String)
    (opened : Cursor) {n : Nat} (read : List (BranchKey × Message)) (hs : s <:+ source)
    (hn : s.length < n) :
    Arrives source s (branchesFrom body typeName opened n read (cursorAt source s))
      fun _ t => t.head? = some '}' ∧ (read = [] → t.length < s.length) := by
  -- on the bound: every turn that reads a branch leaves a shorter text
  induction n generalizing read s with
  | zero => exact absurd hn (Nat.not_lt_zero _)
  | succ n ih =>
    refine (branchTurn_arrives hbody opened s hs).bind fun pair t ht hends => ?_
    cases pair with
    | none =>
      cases read with
      | nil => exact settles_fail _ _
      | cons pair more => exact arrives_pure ht ⟨hends, nofun⟩
    | some pair =>
      have hlt : t.length < n := Nat.lt_of_lt_of_le hends (Nat.le_of_lt_succ hn)
      refine (ih (pair :: read) (ht.trans hs) hlt).mono ?_
      rintro _ ⟨u, hu, hr, hclose, -⟩
      exact ⟨u, hu.trans ht, hr, hclose, fun _ => Nat.lt_of_le_of_lt hu.length_le hends⟩

theorem branches_arrives (hbody : ArrivesIn source body fun _ _ _ => True) (typeName : String)
    (opened : Cursor) :
    ArrivesIn source (branches body typeName opened)
      fun s _ t => t.head? = some '}' ∧ t.length < s.length := by
  intro s hs
  rw [branches, remaining_cursorAt hs]
  refine (branchesFrom_arrives hbody typeName opened [] hs (Nat.lt_succ_self _)).mono ?_
  rintro _ ⟨t, ht, hr, hclose, hlt⟩
  exact ⟨t, ht, hr, hclose, hlt rfl⟩

end Branches

/-! ## Rules in a context -/

section Context

variable {bound : Nat} {ctx : Context}

theorem argumentWithin_arrives (h : ctx.room ≤ bound) (source : List Char) :
    ArrivesIn source (argumentWithin bound ctx)
      fun s _ t => '}' :: t <:+ s ∧ t.length + 3 ≤ s.length := by
  intro s hs
  rw [argumentWithin_cursorAt h hs]
  refine arrives_tell fun node t hread => ?_
  have hcloses := argument_closes hread
  exact ⟨(List.suffix_cons '}' t).trans hcloses.1, hcloses⟩

theorem argumentWithin_shortens (h : ctx.room ≤ bound) (source : List Char) :
    ArrivesIn source (argumentWithin bound ctx) fun s _ t => t.length < s.length :=
  (argumentWithin_arrives h source).mono fun s _ t ht => by omega

theorem messageWithin_arrives (h : ctx.room ≤ bound) (source : List Char) (inBranch : Bool) :
    ArrivesIn source (messageWithin bound ctx inBranch) fun _ _ t => Ends inBranch t :=
  messageBy_arrives (argumentWithin_shortens h source) inBranch

end Context

/-! ## Positions -/

/-- A rule that is walked from a position of a text runs into no bound, and what it reads leaves
the cursor in the same text, at a position that is not further back and is as said. -/
def Lands {α : Type} (source : List Char) (pos : Nat) (rule : Rule α)
    (stands : α → Nat → Prop) : Prop :=
  rule ⟨source, pos⟩ ≠ .error .endless ∧
    ∀ x next, rule ⟨source, pos⟩ = .ok (x, next) →
      ∃ stop : Nat, next = ⟨source, stop⟩ ∧ pos ≤ stop ∧ stop ≤ source.length ∧ stands x stop

section Lands

variable {source : List Char} {pos : Nat} {α : Type} {rule : Rule α}
  {ends : List Char → α → List Char → Prop} {stands : α → Nat → Prop}

theorem cursorAt_drop (hpos : pos ≤ source.length) :
    cursorAt source (source.drop pos) = ⟨source, pos⟩ := by
  rw [cursorAt, Cursor.mk.injEq, List.length_drop]
  exact ⟨rfl, by omega⟩

/-- What is left at a position begins with the character there. -/
theorem getElem?_of_suffix {t : List Char} (ht : t <:+ source) :
    source[source.length - t.length]? = t.head? := by
  obtain ⟨front, rfl⟩ := ht
  rw [List.length_append, Nat.add_sub_cancel, List.getElem?_append_right (Nat.le_refl _),
    Nat.sub_self, List.head?_eq_getElem?]

/-- A rule that arrives in front of what is left lands where that begins. -/
theorem ArrivesIn.lands (h : ArrivesIn source rule ends) (hpos : pos ≤ source.length)
    (hends : ∀ x t, t <:+ source → t.length + pos ≤ source.length →
      ends (source.drop pos) x t → stands x (source.length - t.length)) :
    Lands source pos rule stands := by
  have hsuffix := List.drop_suffix pos source
  have harrives := h (source.drop pos) hsuffix
  rw [cursorAt_drop hpos] at harrives
  refine ⟨harrives.1, fun x next hread => ?_⟩
  obtain ⟨t, ht, rfl, hx⟩ := harrives.2 _ hread
  have hlen := ht.length_le
  rw [List.length_drop] at hlen
  have hleft : t.length + pos ≤ source.length := by omega
  exact ⟨source.length - t.length, rfl, by omega, by omega,
    hends x t (ht.trans hsuffix) hleft hx⟩

/-- A turn that reads something lands further on. -/
theorem ArrivesIn.lands_turn {rule : Rule (Option α)} {stops : List Char → Prop}
    (h : ArrivesIn source rule (TurnEnds stops)) (hpos : pos ≤ source.length) :
    Lands source pos rule fun x stop => x.isSome = true → pos < stop := by
  refine h.lands hpos ?_
  rintro (_ | x) t - - hends hsome
  · cases hsome
  · have hlt : t.length < (source.drop pos).length := hends
    rw [List.length_drop] at hlt
    omega

end Lands

/-- In every context the rules come to an end, with no more arguments open at once than the context
allows: those it counts and, inside one another, those that fit into the bound.  A message ends
where the text does or, in a branch, in front of a closing brace; branches end further on, in front
of a closing brace; an argument ends three characters further on or later, right behind a closing
brace; and every turn of the loops over a message and over branches that reads something leads
further on. -/
theorem rules_land (source : List Char) (pos : Nat) (hpos : pos ≤ source.length) (ctx : Context)
    (bound : Nat) (hbound : ctx.limit ≤ ctx.opened + bound) :
    Lands source pos (messageWithin bound ctx false) (fun _ stop => stop = source.length) ∧
    Lands source pos (messageWithin bound ctx true)
      (fun _ stop => stop = source.length ∨ source[stop]? = some '}') ∧
    (∀ typeName opened, Lands source pos (branchesWithin bound ctx typeName opened)
      fun _ stop => pos < stop ∧ source[stop]? = some '}') ∧
    Lands source pos (argumentWithin bound ctx)
      (fun _ stop => pos + 3 ≤ stop ∧ source[stop - 1]? = some '}') ∧
    (∀ inBranch, Lands source pos (turn (argumentWithin bound ctx) inBranch)
      fun node stop => node.isSome = true → pos < stop) ∧
    ∀ opened, Lands source pos (branchTurn (messageWithin bound ctx true) opened)
      fun pair stop => pair.isSome = true → pos < stop := by
  have hroom : ctx.room ≤ bound := Context.room_le_iff.2 hbound
  have hlen : (source.drop pos).length = source.length - pos := List.length_drop
  have hmessage := messageWithin_arrives hroom source
  have hbody : ArrivesIn source (messageWithin bound ctx true) fun _ _ _ => True :=
    (hmessage true).mono fun _ _ _ _ => trivial
  refine ⟨?_, ?_, fun typeName opened => ?_, ?_, fun inBranch => ?_, fun opened => ?_⟩
  · refine (hmessage false).lands hpos ?_
    rintro x t - - (rfl | ⟨hbranch, -⟩)
    · rfl
    · cases hbranch
  · refine (hmessage true).lands hpos ?_
    rintro x t ht - (rfl | ⟨-, r, rfl⟩)
    · exact .inl rfl
    · exact .inr (getElem?_of_suffix ht)
  · refine (branches_arrives hbody typeName opened).lands hpos ?_
    rintro x t ht - ⟨hclose, hlt⟩
    exact ⟨by omega, (getElem?_of_suffix ht).trans hclose⟩
  · refine (argumentWithin_arrives hroom source).lands hpos ?_
    rintro x t - - ⟨hclose, hlt⟩
    have hbrace := getElem?_of_suffix (hclose.trans (List.drop_suffix pos source))
    rw [List.length_cons, Nat.sub_add_eq] at hbrace
    exact ⟨by omega, hbrace⟩
  · exact (turn_arrives (argumentWithin_shortens hroom source) inBranch).lands_turn hpos
  · exact (branchTurn_arrives hbody opened).lands_turn hpos

/-- With room for one more argument a plural argument in a branch of another is read up to the
brace behind its last branch. -/
theorem rules_land_plural :
    Lands "a \x7bn, plural, other \x7b#\x7d\x7d\x7d".toList 2 (argumentWithin 1 ⟨2, 1⟩)
      (fun _ stop => 2 + 3 ≤ stop ∧
        "a \x7bn, plural, other \x7b#\x7d\x7d\x7d".toList[stop - 1]? = some '}') ∧
    argumentWithin 1 ⟨2, 1⟩ ⟨"a \x7bn, plural, other \x7b#\x7d\x7d\x7d".toList, 2⟩ =
      .ok (.plural .cardinal "n" 0 ⟨[(.name "other", [.text "#"])]⟩,
        ⟨"a \x7bn, plural, other \x7b#\x7d\x7d\x7d".toList, 24⟩) :=
  ⟨(rules_land _ 2 (by decide) ⟨2, 1⟩ 1 (by decide)).2.2.2.1, by decide +kernel⟩

end Walk

end Phrasebook.Pattern
