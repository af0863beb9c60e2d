/-
  Walking a pattern is reading it.

  A cursor in a pattern and what is left of the pattern tell each other
  (`cursorAt`).  Each rule, walked from a cursor, gives what it reads from the
  text that is left there, and stands where that text goes on; and where it
  reads a fault, the walk reports it, with the span and the position of the
  cursor that the fault belongs to (`tell`).

  In particular a walk stops for no other reason.  The rules ask for a character
  only where one is left, the numbers of their spans are those of spans, and no
  loop runs into its bound, since each of its steps takes a character at least
  (`Parser.walk_eq`).
-/
import Phrasebook.Pattern.Walk
import Phrasebook.Proofs.Pattern.Site

set_option autoImplicit false

namespace Phrasebook.Pattern

open Phrasebook.Source

/-- What a walk over a pattern says of a fault. -/
def Stop.ofFault (source : List Char) : Fault → Stop
  | .malformed cause rest =>
    .reported (ParseError.report ⟨String.ofList source, source.length - rest.length, cause⟩)
  | .integerTooLong => .integerTooLong

namespace Walk

/-- The cursor in a pattern in front of what is left of it. -/
def cursorAt (source rest : List Char) : Cursor := ⟨source, (source.length - rest.length : Nat)⟩

/-! ## What a cursor sees -/

section Cursor

variable {source s w : List Char} {c : Char}

@[simp] theorem source_cursorAt (source rest : List Char) :
    (cursorAt source rest).source = source := rfl

theorem pos_cursorAt (hs : s <:+ source) :
    (cursorAt source s).pos = (source.length : Int) - s.length := by
  have := hs.length_le
  simp only [cursorAt]
  omega

theorem cursorAt_append (front s : List Char) :
    cursorAt (front ++ s) s = ⟨front ++ s, front.length⟩ := by
  simp [cursorAt]

theorem atEnd_cursorAt (hs : s <:+ source) : (cursorAt source s).atEnd = s.isEmpty := by
  obtain ⟨front, rfl⟩ := hs
  rw [cursorAt_append, Cursor.atEnd]
  cases s with
  | nil => simp
  | cons c t =>
    have hlen : front.length < (front ++ c :: t).length := by
      rw [List.length_append, List.length_cons]
      omega
    exact decide_eq_false (Int.not_le.2 (Int.ofNat_lt.2 hlen))

theorem remaining_cursorAt (hs : s <:+ source) : remaining (cursorAt source s) = s.length := by
  have hlen := hs.length_le
  have hsource : (cursorAt source s).source = source := rfl
  rw [remaining, pos_cursorAt hs, hsource]
  omega

theorem charAt_cursorAt (hs : c :: s <:+ source) :
    (cursorAt source (c :: s)).charAt (cursorAt source (c :: s)).pos = .ok c := by
  obtain ⟨front, rfl⟩ := hs
  have hnot : ¬ (front.length : Int) < 0 := by omega
  rw [cursorAt_append, Cursor.charAt]
  simp [hnot]

theorem look_cursorAt (hs : c :: s <:+ source) : look (cursorAt source (c :: s)) = .ok c := by
  rw [look, Cursor.current, atEnd_cursorAt hs, charAt_cursorAt hs]
  rfl

/-- A cursor steps over a text that stands there. -/
theorem advance_cursorAt (hs : w ++ s <:+ source) :
    (cursorAt source (w ++ s)).advance w.length = cursorAt source s := by
  have hlen := hs.length_le
  have hpos := pos_cursorAt hs
  have hpos' := pos_cursorAt ((List.suffix_append w s).trans hs)
  simp only [List.length_append] at hlen hpos
  rw [Cursor.advance, Cursor.mk.injEq]
  refine ⟨rfl, ?_⟩
  have hsource : (cursorAt source (w ++ s)).source = source := rfl
  rw [hsource]
  omega

theorem advance_one_cursorAt (hs : c :: s <:+ source) :
    (cursorAt source (c :: s)).advance 1 = cursorAt source s :=
  advance_cursorAt (w := [c]) hs

/-- One step leads on over a character, if there is one. -/
theorem advance_one (hs : s <:+ source) :
    (cursorAt source s).advance 1 = cursorAt source (s.drop 1) := by
  cases s with
  | cons c t => exact advance_one_cursorAt hs
  | nil =>
    rw [Cursor.advance, List.drop_nil, cursorAt, Cursor.mk.injEq]
    refine ⟨rfl, ?_⟩
    simp only [List.length_nil]
    omega

/-- Between two cursors stands what was read. -/
theorem sliceTo_cursorAt (hs : w ++ s <:+ source) :
    (cursorAt source (w ++ s)).sliceTo (cursorAt source s).pos = w := by
  obtain ⟨front, rfl⟩ := hs
  have hpos : (cursorAt (front ++ (w ++ s)) s).pos = ((front ++ w).length : Nat) := by
    rw [← List.append_assoc, cursorAt_append]
  rw [hpos, cursorAt_append, Cursor.sliceTo, slice, charsBefore_natCast (by simp),
    charsBefore_natCast (by simp), ← List.append_assoc, List.take_left, List.drop_left]

/-- Two cursors stand at one position only if the same is left there. -/
theorem pos_cursorAt_eq_iff {t : List Char} (hs : w ++ t <:+ source) :
    (cursorAt source t).pos = (cursorAt source (w ++ t)).pos ↔ w = [] := by
  have hlen := hs.length_le
  rw [pos_cursorAt hs, pos_cursorAt ((List.suffix_append w t).trans hs), ← List.length_eq_zero_iff]
  simp only [List.length_append] at hlen ⊢
  omega

theorem peek_one_cursorAt (hs : c :: s <:+ source) :
    (cursorAt source (c :: s)).peek 1 = .ok s.head? := by
  obtain ⟨front, rfl⟩ := hs
  have hnot : ¬ (front.length : Int) + 1 < 0 := by omega
  rw [cursorAt_append, Cursor.peek]
  cases s with
  | nil => simp
  | cons d t =>
    have hat : (front ++ c :: d :: t)[((front.length : Int) + 1).toNat]? = some d := by
      rw [show ((front.length : Int) + 1).toNat = front.length + 1 by omega]
      simp
    simp only [Cursor.charAt, hnot, ↓reduceIte, hat, List.length_append, List.length_cons]
    rw [if_neg (by omega)]
    rfl

theorem startsWith_cursorAt (hs : s <:+ source) (text : List Char) :
    (cursorAt source s).startsWith text = text.isPrefixOf s := by
  obtain ⟨front, rfl⟩ := hs
  have hle : (front.length : Int) ≤ (front ++ s).length := by
    rw [List.length_append]
    omega
  rw [cursorAt_append, Cursor.startsWith, charsBefore_natCast (by simp), List.drop_left,
    decide_eq_true hle, Bool.true_and]

/-- A fault is reported with the span at its cursor, and there is one. -/
theorem fail_cursorAt {α : Type} (source s : List Char) (cause : Cause) :
    fail (α := α) (cursorAt source s) cause =
      .error (Stop.ofFault source (.malformed cause s)) := by
  have hspan : (ParseError.span ⟨String.ofList source, source.length - s.length, cause⟩) =
      spanFrom source (source.length - s.length) cause.width := by
    rw [ParseError.span, String.toList_ofList]
  rw [fail, cursorAt, span_natCast, Stop.ofFault, ParseError.report, ParseError.diagnostic, hspan]
  rfl

theorem skipWhile_cursorAt (p : Char → Bool) {n : Nat} (hs : s <:+ source) (hn : s.length ≤ n) :
    skipWhile p n (cursorAt source s) = .ok (cursorAt source (s.dropWhile p)) := by
  induction n generalizing s with
  | zero =>
    obtain rfl : s = [] := List.length_eq_zero_iff.1 (Nat.le_zero.1 hn)
    rw [skipWhile, atEnd_cursorAt hs]
    rfl
  | succ n ih =>
    rw [skipWhile, atEnd_cursorAt hs]
    cases s with
    | nil => rfl
    | cons c t =>
      rw [look_cursorAt hs, advance_one_cursorAt hs,
        ih ((List.suffix_cons c t).trans hs) (Nat.le_of_succ_le_succ hn)]
      by_cases hc : p c = true
      · simp [hc]
      · simp [hc]
        rfl

theorem skipBlank_cursorAt (hs : s <:+ source) :
    (cursorAt source s).skipBlank = .ok (cursorAt source (Text.skipBlank s)) := by
  have hloop : ∀ (n : Nat) (s : List Char), s <:+ source → s.length ≤ n →
      (cursorAt source s).skipBlanks n = .ok (cursorAt source (Text.skipBlank s)) := by
    intro n
    induction n with
    | zero =>
      intro s hs hn
      obtain rfl : s = [] := List.length_eq_zero_iff.1 (Nat.le_zero.1 hn)
      rfl
    | succ n ih =>
      intro s hs hn
      rw [Cursor.skipBlanks, atEnd_cursorAt hs]
      cases s with
      | nil => rfl
      | cons c t =>
        rw [charAt_cursorAt hs, advance_one_cursorAt hs,
          ih t ((List.suffix_cons c t).trans hs) (Nat.le_of_succ_le_succ hn)]
        by_cases hc : Text.isBlank c = true
        · simp [hc, Text.skipBlank]
        · simp [hc, Text.skipBlank]
          rfl
  exact hloop _ s hs (remaining_cursorAt hs).ge

end Cursor

/-! ## Telling what was read -/

section Tell

variable {α β γ δ : Type}

/-- What a walk over a pattern gives where a rule reads `r`. -/
def tell (source : List Char) (f : α → β) (r : Except Fault α) : Except Stop β :=
  (r.map f).mapError (Stop.ofFault source)

/-- What was read, and the cursor in front of what is left. -/
def placed (source : List Char) (r : α × List Char) : α × Cursor := (r.1, cursorAt source r.2)

@[simp] theorem tell_ok (source : List Char) (f : α → β) (a : α) :
    tell source f (.ok a) = .ok (f a) := rfl

@[simp] theorem tell_error (source : List Char) (f : α → β) (fault : Fault) :
    tell source f (.error fault) = .error (Stop.ofFault source fault) := rfl

/-- Walks that tell what two rules read tell what they read one behind the other. -/
theorem tell_bind {source : List Char} {f : α → γ} {g : β → δ} {x : Except Fault α}
    {walk : Except Stop γ} {rule : α → Except Fault β} {next : γ → Except Stop δ}
    (hx : walk = tell source f x)
    (hnext : ∀ a, x = .ok a → next (f a) = tell source g (rule a)) :
    (walk >>= next) = tell source g (x >>= rule) := by
  subst hx
  cases x with
  | error fault => rfl
  | ok a => exact hnext a rfl

end Tell

/-! ## Tokens -/

section Tokens

variable {source opened s : List Char}

theorem identifier_cursorAt (hs : s <:+ source) :
    identifier (cursorAt source s) = tell source (placed source) (Pattern.identifier s) := by
  have hsplit := List.takeWhile_append_dropWhile (p := isIdentifierChar) (l := s)
  generalize hw : s.takeWhile isIdentifierChar = w at hsplit
  generalize ht : s.dropWhile isIdentifierChar = t at hsplit
  rw [identifier, skipWhile_cursorAt _ hs (remaining_cursorAt hs).ge, ht, ok_bind,
    Pattern.identifier, hw, ht]
  subst hsplit
  rw [sliceTo_cursorAt hs]
  simp only [pos_cursorAt_eq_iff hs, fail_cursorAt, List.isEmpty_iff]
  split <;> rfl

/-- A numeral that is cut out of a text is split as it is there. -/
theorem exists_splitMinus_eq {digits rest : List Char} {negative : Bool}
    (hs : splitMinus s = (negative, digits ++ rest)) (hne : digits ≠ [])
    (hdigits : ∀ d ∈ digits, Text.isAsciiDigit d = true) :
    ∃ w, s = w ++ rest ∧ splitMinus w = (negative, digits) := by
  obtain ⟨d, ds, rfl⟩ := List.exists_cons_of_ne_nil hne
  have hd : d ≠ '-' := by
    rintro rfl
    exact absurd (hdigits '-' List.mem_cons_self) (by decide)
  have hsplit := splitMinus_eq s
  rw [hs] at hsplit
  refine ⟨(if negative then ['-'] else []) ++ d :: ds, by simpa using hsplit, ?_⟩
  cases negative <;> simp [splitMinus, hd]

theorem isAt_cursorAt (hs : s <:+ source) :
    (cursorAt source s).isAt ['-'] = .ok (splitMinus s).1 := by
  rw [Cursor.isAt, atEnd_cursorAt hs]
  cases s with
  | nil => rfl
  | cons c t =>
    rw [charAt_cursorAt hs]
    by_cases hc : c = '-' <;> simp [hc, splitMinus, Except.map]

/-- Behind its sign, if it has one, a numeral has its digits. -/
theorem advance_splitMinus (hs : s <:+ source) :
    (if (splitMinus s).1 then (cursorAt source s).advance 1 else cursorAt source s) =
      cursorAt source (splitMinus s).2 := by
  cases s with
  | nil => rfl
  | cons c t =>
    by_cases hc : c = '-'
    · simp [hc, splitMinus, advance_one_cursorAt (hc ▸ hs)]
    · simp [hc, splitMinus]

theorem integer_cursorAt (hs : s <:+ source) :
    integer (cursorAt source s) = tell source (placed source) (Pattern.integer s) := by
  obtain ⟨negative, body, hbody⟩ : ∃ negative body, splitMinus s = (negative, body) := ⟨_, _, rfl⟩
  have hsuffix : body <:+ source := by
    have h := splitMinus_suffix s
    rw [hbody] at h
    exact h.trans hs
  have hadvance := advance_splitMinus hs
  have hsplit := List.takeWhile_append_dropWhile (p := Text.isAsciiDigit) (l := body)
  have hdigits := fun d hd => mem_takeWhile (p := Text.isAsciiDigit) (s := body) (c := d) hd
  rw [integer, isAt_cursorAt hs]
  rw [hbody] at hadvance
  simp only [hbody, Except.mapError, ok_bind, hadvance,
    skipWhile_cursorAt _ hsuffix (remaining_cursorAt hsuffix).ge, Pattern.integer]
  generalize body.takeWhile Text.isAsciiDigit = digits at hsplit hdigits ⊢
  generalize body.dropWhile Text.isAsciiDigit = rest at hsplit ⊢
  subst hsplit
  simp only [pos_cursorAt_eq_iff hsuffix, fail_cursorAt, List.isEmpty_iff]
  by_cases hne : digits = []
  · rw [if_pos hne, if_pos hne, tell_error]
  · obtain ⟨w, rfl, hw⟩ := exists_splitMinus_eq hbody hne hdigits
    rw [if_neg hne, if_neg hne, sliceTo_cursorAt hs, numberOf, hw]
    by_cases hlong : Number.maxIntegerDigits < digits.length
    · simp [hlong, Stop.ofFault]
      rfl
    · simp [hlong, placed]
      rfl

theorem expect_cursorAt {expected : Char} (hs : s <:+ source) :
    expect expected (cursorAt source s) =
      tell source (cursorAt source) (Pattern.expect expected s) := by
  rw [expect, Cursor.expect, atEnd_cursorAt hs]
  cases s with
  | nil => exact fail_cursorAt source [] _
  | cons c t =>
    rw [charAt_cursorAt hs, advance_one_cursorAt hs, Pattern.expect]
    by_cases hc : c = expected
    · simp [hc, Except.map, Except.mapError]
      rfl
    · simp [hc, Except.map, Except.mapError, Ne.symm hc]
      exact fail_cursorAt source _ _

theorem skipBlanks_cursorAt (hs : s <:+ source) :
    skipBlanks (cursorAt source opened) (cursorAt source s) =
      tell source (cursorAt source) (Pattern.skipBlanks opened s) := by
  have hdrop : Text.skipBlank s <:+ source := (List.dropWhile_suffix _).trans hs
  rw [skipBlanks, skipBlank_cursorAt hs, Pattern.skipBlanks]
  cases hrest : Text.skipBlank s with
  | nil =>
    rw [hrest] at hdrop
    simp [Except.mapError, atEnd_cursorAt hdrop, fail_cursorAt]
  | cons c t =>
    rw [hrest] at hdrop
    simp [Except.mapError, atEnd_cursorAt hdrop]
    rfl

theorem close_cursorAt (hs : s <:+ source) :
    close (cursorAt source opened) (cursorAt source s) =
      tell source (cursorAt source) (closeArgument opened s) := by
  rw [close, atEnd_cursorAt hs, closeArgument]
  split
  · exact fail_cursorAt source opened _
  · exact expect_cursorAt hs

end Tokens

/-! ## Literal text -/

section Text

variable {source s w : List Char} {c : Char}

/-- No step leads further than to the end. -/
theorem advance_end (hs : s <:+ source) :
    (cursorAt source s).advance source.length = cursorAt source [] := by
  have hlen := hs.length_le
  have hpos := pos_cursorAt hs
  have hend : (cursorAt source []).pos = source.length := rfl
  rw [Cursor.advance, source_cursorAt, hpos, cursorAt, Cursor.mk.injEq]
  refine ⟨rfl, ?_⟩
  rw [List.length_nil]
  omega

/-- A character that does not stand in front is found behind. -/
theorem find_cursorAt (hs : w ++ c :: s <:+ source) (hw : c ∉ w) :
    find c (cursorAt source (w ++ c :: s)) = some (cursorAt source (c :: s)).pos := by
  obtain ⟨front, rfl⟩ := hs
  have hnone : w.findIdx? (· == c) = none := by
    rw [List.findIdx?_eq_none_iff]
    intro d hd
    exact beq_eq_false_iff_ne.2 fun h => hw (h ▸ hd)
  have hpos : (cursorAt (front ++ (w ++ c :: s)) (c :: s)).pos = ((front ++ w).length : Nat) := by
    rw [← List.append_assoc, cursorAt_append]
  have hfound : (w ++ c :: s).findIdx? (· == c) = some w.length := by
    rw [List.findIdx?_append, hnone, List.findIdx?_cons]
    simp
  rw [hpos, cursorAt_append, find, charsBefore_natCast (by simp), List.drop_left, hfound,
    List.length_append]
  rfl

theorem find_eq_none (hs : s <:+ source) (hc : c ∉ s) : find c (cursorAt source s) = none := by
  obtain ⟨front, rfl⟩ := hs
  have hnone : s.findIdx? (· == c) = none := by
    rw [List.findIdx?_eq_none_iff]
    intro d hd
    exact beq_eq_false_iff_ne.2 fun h => hc (h ▸ hd)
  rw [cursorAt_append, find, charsBefore_natCast (by simp), List.drop_left, hnone]
  rfl

theorem quoted_cursorAt (hs : s <:+ source) :
    quoted (cursorAt source s) =
      (String.ofList (s.takeWhile (· ≠ '\'')),
        cursorAt source ((s.dropWhile (· ≠ '\'')).drop 1)) := by
  have hsplit := List.takeWhile_append_dropWhile (p := (· ≠ '\'')) (l := s)
  have hw : '\'' ∉ s.takeWhile (· ≠ '\'') := fun h => by simpa using mem_takeWhile h
  have hstop := stops_dropWhile (fun d => decide (d ≠ '\'')) s
  generalize s.takeWhile (· ≠ '\'') = w at hsplit hw ⊢
  generalize s.dropWhile (· ≠ '\'') = rest at hsplit hstop ⊢
  subst hsplit
  cases rest with
  | nil =>
    have hnone : find '\'' (cursorAt source (w ++ [])) = none :=
      find_eq_none hs ((List.append_nil w).symm ▸ hw)
    simp only [quoted, hnone, source_cursorAt, advance_end hs, sliceTo_cursorAt hs, List.drop_nil]
  | cons d rest =>
    obtain rfl : d = '\'' := by simpa using stops_cons.1 hstop
    have hrest := (List.suffix_append w _).trans hs
    have hnext : (⟨source, (cursorAt source ('\'' :: rest)).pos + 1⟩ : Cursor) =
        cursorAt source rest := by
      have hpos := pos_cursorAt hrest
      have hpos' := pos_cursorAt ((List.suffix_cons _ rest).trans hrest)
      rw [List.length_cons] at hpos
      refine (Cursor.mk.injEq _ _ _ _).mpr ⟨rfl, ?_⟩
      rw [hpos]
      exact Eq.trans (by omega) hpos'.symm
    simp only [quoted, find_cursorAt hs hw, source_cursorAt, sliceTo_cursorAt hs, hnext,
      List.drop_succ_cons, List.drop_zero]

theorem quotation_cursorAt (hs : '\'' :: s <:+ source) :
    quotation (cursorAt source ('\'' :: s)) =
      .ok (placed source (Pattern.quotation s)) := by
  have hadvance := advance_one_cursorAt hs
  have hs' : s <:+ source := (List.suffix_cons _ s).trans hs
  rw [quotation, peek_one_cursorAt hs]
  cases s with
  | nil =>
    rw [hadvance]
    rfl
  | cons c t =>
    rw [Pattern.quotation]
    by_cases hc : c = '\''
    · subst hc
      have htwo := advance_cursorAt (w := ['\'', '\'']) hs
      simp only [Except.mapError, ok_bind, List.head?_cons, ↓reduceIte]
      exact congrArg (fun next => Except.ok ("'", next)) htwo
    · simp only [Except.mapError, ok_bind, List.head?_cons, hc, ↓reduceIte, hadvance,
        quoted_cursorAt hs']
      split <;> rfl

theorem literal_cursorAt (hs : c :: s <:+ source) (hc : isSpecial c = false) :
    literal (cursorAt source (c :: s)) =
      .ok (String.ofList (c :: s.takeWhile (!isSpecial ·)),
        cursorAt source (s.dropWhile (!isSpecial ·))) := by
  have hsplit := List.takeWhile_append_dropWhile (p := (!isSpecial ·)) (l := s)
  have hdrop : (c :: s).dropWhile (!isSpecial ·) = s.dropWhile (!isSpecial ·) :=
    List.dropWhile_cons_of_pos (by simp [hc])
  rw [literal, skipWhile_cursorAt _ hs (remaining_cursorAt hs).ge, hdrop, ok_bind]
  generalize s.takeWhile (!isSpecial ·) = w at hsplit ⊢
  generalize s.dropWhile (!isSpecial ·) = rest at hsplit ⊢
  subst hsplit
  rw [show c :: (w ++ rest) = (c :: w) ++ rest from rfl, sliceTo_cursorAt hs]
  rfl

end Text

/-! ## Clauses -/

section Clauses

variable {source opened s : List Char}

theorem comma_cursorAt (hs : s <:+ source) :
    comma (cursorAt source opened) (cursorAt source s) =
      tell source (cursorAt source) (Pattern.comma opened s) :=
  tell_bind (skipBlanks_cursorAt hs) fun _ h₁ => expect_cursorAt ((skipBlanks_suffix h₁).trans hs)

theorem styleClause_cursorAt (hs : s <:+ source) :
    styleClause (cursorAt source opened) (cursorAt source s) =
      tell source (placed source) (Pattern.styleClause opened s) := by
  refine tell_bind (skipBlanks_cursorAt hs) ?_
  intro s₁ h₁
  have hs₁ := (skipBlanks_suffix h₁).trans hs
  obtain ⟨c, t, rfl⟩ := List.exists_cons_of_ne_nil (skipBlanks_ne_nil h₁)
  rw [look_cursorAt hs₁, ok_bind, afterComma?]
  by_cases hc : c = ','
  · rw [if_pos hc, if_pos hc, advance_one_cursorAt hs₁]
    have ht := (List.suffix_cons c t).trans hs₁
    refine tell_bind (skipBlanks_cursorAt ht) ?_
    intro s₃ h₃
    have hs₃ := (skipBlanks_suffix h₃).trans ht
    refine tell_bind (identifier_cursorAt hs₃) ?_
    rintro ⟨style, s₄⟩ h₄
    exact tell_bind (skipBlanks_cursorAt ((identifier_suffix h₄).trans hs₃)) fun _ _ => rfl
  · rw [if_neg hc, if_neg hc]
    rfl

theorem offsetClause_cursorAt (hs : s <:+ source) :
    offsetClause (cursorAt source opened) (cursorAt source s) =
      tell source (placed source) (Pattern.offsetClause opened s) := by
  rw [offsetClause, startsWith_cursorAt hs, Pattern.offsetClause]
  cases hword : offsetWord.isPrefixOf? s with
  | none =>
    have hnot : ¬ offsetWord.isPrefixOf s = true := by
      rintro hprefix
      obtain ⟨t, rfl⟩ := List.isPrefixOf_iff_prefix.1 hprefix
      rw [isPrefixOf?_eq_some_iff.2 rfl] at hword
      cases hword
    rw [if_neg hnot]
    rfl
  | some s₁ =>
    obtain rfl := isPrefixOf?_eq_some_iff.1 hword
    have hstarts : offsetWord.isPrefixOf (offsetWord ++ s₁) = true :=
      List.isPrefixOf_iff_prefix.2 (List.prefix_append offsetWord s₁)
    have hs₁ := (List.suffix_append offsetWord s₁).trans hs
    rw [if_pos hstarts, advance_cursorAt hs]
    refine tell_bind (skipBlanks_cursorAt hs₁) ?_
    intro s₂ h₂
    have hs₂ := (skipBlanks_suffix h₂).trans hs₁
    refine tell_bind (integer_cursorAt hs₂) ?_
    rintro ⟨offset, s₃⟩ h₃
    exact tell_bind (skipBlanks_cursorAt ((integer_suffix h₃).trans hs₂)) fun _ _ => rfl

end Clauses

/-! ## Branches -/

/-- A walk of messages that tells what a rule reads of every end of a pattern. -/
def MessageTold (source : List Char) (walk : Rule Message) (rule : Reader Message) : Prop :=
  ∀ s, s <:+ source → walk (cursorAt source s) = tell source (placed source) (rule.run s)

section Body

variable {source opened s : List Char} {walk : Rule Message} {body : Reader Message}

theorem branchKey_cursorAt (hs : s <:+ source) (hne : s ≠ []) :
    branchKey (cursorAt source s) = tell source (placed source) (Pattern.branchKey s) := by
  obtain ⟨c, t, rfl⟩ := List.exists_cons_of_ne_nil hne
  rw [branchKey, look_cursorAt hs, ok_bind, Pattern.branchKey]
  by_cases hc : c = '='
  · rw [if_pos hc, if_pos hc, advance_one_cursorAt hs,
      integer_cursorAt ((List.suffix_cons c t).trans hs)]
    cases Pattern.integer t <;> rfl
  · rw [if_neg hc, if_neg hc, identifier_cursorAt hs]
    cases Pattern.identifier (c :: t) <;> rfl

theorem branch_cursorAt (hbody : MessageTold source walk body) (hs : s <:+ source) (hne : s ≠ []) :
    branch walk (cursorAt source opened) (cursorAt source s) =
      tell source (placed source) (Pattern.branch body opened s) := by
  refine tell_bind (branchKey_cursorAt hs hne) ?_
  rintro ⟨key, s₁⟩ h₁
  have hs₁ := (branchKey_suffix h₁).trans hs
  refine tell_bind (skipBlanks_cursorAt hs₁) ?_
  intro s₂ h₂
  have hs₂ := (skipBlanks_suffix h₂).trans hs₁
  refine tell_bind (expect_cursorAt hs₂) ?_
  intro s₃ h₃
  have hs₃ := (expect_eq_ok h₃ ▸ List.suffix_cons '{' s₃ : s₃ <:+ s₂).trans hs₂
  refine tell_bind (hbody s₃ hs₃) ?_
  rintro ⟨message, s₄⟩ h₄
  have hs₄ := (body.suffix h₄).trans hs₃
  cases s₄ with
  | nil =>
    simp only [placed, atEnd_cursorAt hs₄, List.isEmpty_nil]
    exact fail_cursorAt source s₂ _
  | cons c t =>
    simp only [placed, atEnd_cursorAt hs₄, List.isEmpty_cons, advance_one_cursorAt hs₄]
    rfl

theorem branchesFrom_cursorAt (hbody : MessageTold source walk body) (typeName : String) {n : Nat}
    (read : List (BranchKey × Message)) (hs : s <:+ source) (hn : s.length < n) :
    branchesFrom walk typeName (cursorAt source opened) n read (cursorAt source s) =
      tell source (placed source) (Pattern.branchesFrom body typeName opened read s) := by
  -- on the bound: every branch leaves a shorter text
  induction n generalizing read s with
  | zero => exact absurd hn (Nat.not_lt_zero _)
  | succ n ih =>
    rw [branchesFrom, branchTurn, skipBlanks_cursorAt hs, branchesFrom_step]
    cases h₁ : Pattern.skipBlanks opened s with
    | error fault => rfl
    | ok s₁ =>
      have hs₁ := (skipBlanks_suffix h₁).trans hs
      have hlen := (skipBlanks_suffix h₁).length_le
      obtain ⟨c, t, rfl⟩ := List.exists_cons_of_ne_nil (skipBlanks_ne_nil h₁)
      simp only [tell_ok, ok_bind, look_cursorAt hs₁, List.head?_cons, Option.some.injEq]
      by_cases hc : c = '}'
      · rw [if_pos hc, if_pos hc]
        split
        · exact fail_cursorAt source _ _
        · rfl
      · rw [if_neg hc, if_neg hc, branch_cursorAt hbody hs₁ (List.cons_ne_nil c t)]
        cases h₂ : Pattern.branch body opened (c :: t) with
        | error fault => rfl
        | ok r =>
          obtain ⟨pair, s₂⟩ := r
          obtain ⟨hlt, hs₂⟩ := branch_length_lt h₂
          have hlt' : s₂.length < n := by omega
          exact ih (pair :: read) (hs₂.trans hs₁) hlt'

theorem branches_cursorAt (hbody : MessageTold source walk body) (typeName : String)
    (hs : s <:+ source) :
    branches walk typeName (cursorAt source opened) (cursorAt source s) =
      tell source (placed source) (Pattern.branches body typeName opened s) := by
  rw [branches, remaining_cursorAt hs]
  exact branchesFrom_cursorAt hbody typeName [] hs (Nat.lt_succ_self _)

/-! ## Arguments -/

theorem content_cursorAt (hbody : MessageTold source walk body) (hs : s <:+ source) (name : String)
    (type : ArgumentType) :
    content walk (cursorAt source opened) name type (cursorAt source s) =
      tell source (placed source) (Pattern.content body opened name type s) := by
  cases type with
  | formatted kind => exact tell_bind (styleClause_cursorAt hs) fun _ _ => rfl
  | plural kind =>
    refine tell_bind (comma_cursorAt hs) ?_
    intro s₁ h₁
    have hs₁ := (comma_suffix h₁).trans hs
    refine tell_bind (skipBlanks_cursorAt hs₁) ?_
    intro s₂ h₂
    have hs₂ := (skipBlanks_suffix h₂).trans hs₁
    refine tell_bind (offsetClause_cursorAt hs₂) ?_
    rintro ⟨offset, s₃⟩ h₃
    exact tell_bind (branches_cursorAt hbody kind.name ((offsetClause_suffix h₃).trans hs₂))
      fun _ _ => rfl
  | select =>
    refine tell_bind (comma_cursorAt hs) ?_
    intro s₁ h₁
    exact tell_bind (branches_cursorAt hbody selectName ((comma_suffix h₁).trans hs)) fun _ _ => rfl

theorem typedArgument_cursorAt (hbody : MessageTold source walk body) (hs : s <:+ source)
    (name : String) :
    typedArgument walk (cursorAt source opened) name (cursorAt source s) =
      tell source (placed source) (Pattern.typedArgument body opened name s) := by
  refine tell_bind (skipBlanks_cursorAt hs) ?_
  intro s₁ h₁
  have hs₁ := (skipBlanks_suffix h₁).trans hs
  refine tell_bind (identifier_cursorAt hs₁) ?_
  rintro ⟨keyword, s₂⟩ h₂
  have hs₂ := (identifier_suffix h₂).trans hs₁
  dsimp only [placed]
  cases ArgumentType.ofKeyword? keyword with
  | none => exact fail_cursorAt source s₁ _
  | some type =>
    refine tell_bind (content_cursorAt hbody hs₂ name type) ?_
    rintro ⟨node, s₃⟩ h₃
    exact tell_bind (close_cursorAt ((content_suffix h₃).trans hs₂)) fun _ _ => rfl

/-- Where a rule has a rule for the bodies of branches the walk has one, which tells what it
reads. -/
theorem argument_cursorAt (limit : Int) {walk : Option (Rule Message)}
    {body : Option (Reader Message)} (hbody : Option.Rel (MessageTold source) walk body)
    (hs : s <:+ source) :
    argument limit walk (cursorAt source s) =
      tell source (placed source) (Pattern.argument limit body s) := by
  cases hbody with
  | none => exact fail_cursorAt source _ _
  | some hbody =>
    have hs₀ := (List.drop_suffix 1 s).trans hs
    rw [argument, advance_one hs]
    refine tell_bind (skipBlanks_cursorAt hs₀) ?_
    intro s₁ h₁
    have hs₁ := (skipBlanks_suffix h₁).trans hs₀
    refine tell_bind (identifier_cursorAt hs₁) ?_
    rintro ⟨name, s₂⟩ h₂
    have hs₂ := (identifier_suffix h₂).trans hs₁
    refine tell_bind (skipBlanks_cursorAt hs₂) ?_
    intro s₃ h₃
    have hs₃ := (skipBlanks_suffix h₃).trans hs₂
    obtain ⟨c, t, rfl⟩ := List.exists_cons_of_ne_nil (skipBlanks_ne_nil h₃)
    rw [look_cursorAt hs₃, ok_bind, afterComma?]
    by_cases hc : c = ','
    · rw [if_pos hc, if_pos hc, advance_one_cursorAt hs₃]
      exact typedArgument_cursorAt hbody ((List.suffix_cons c t).trans hs₃) name
    · rw [if_neg hc, if_neg hc]
      exact tell_bind (close_cursorAt hs₃) fun _ _ => rfl

/-! ## Messages -/

theorem turns_cursorAt (limit : Int) {walk : Option (Rule Message)}
    {body : Option (Reader Message)} (hbody : Option.Rel (MessageTold source) walk body)
    (inBranch : Bool) {n : Nat} (read : List Node) (hs : s <:+ source) (hn : s.length < n) :
    turns (argument limit walk) inBranch n read (cursorAt source s) =
      tell source (placed source) (nodesFrom limit body inBranch read s) := by
  -- on the bound: every node leaves a shorter text
  induction n generalizing read s with
  | zero => exact absurd hn (Nat.not_lt_zero _)
  | succ n ih =>
    rw [turns, turn, atEnd_cursorAt hs]
    cases s with
    | nil =>
      rw [nodesFrom_nil]
      rfl
    | cons c t =>
      have ht := (List.suffix_cons c t).trans hs
      rw [List.length_cons] at hn
      simp only [List.isEmpty_cons, look_cursorAt hs, ok_bind]
      rcases char_cases c with rfl | rfl | rfl | hc
      · rw [nodesFrom_close]
        cases inBranch with
        | true => rfl
        | false =>
          simp only [↓reduceIte, Bool.false_eq_true, fail_cursorAt]
          rfl
      · rw [nodesFrom_open]
        simp only [Char.reduceEq, ↓reduceIte, Bool.false_eq_true, argument_cursorAt limit hbody hs]
        cases h₁ : Pattern.argument limit body ('{' :: t) with
        | error fault => rfl
        | ok r =>
          obtain ⟨node, left⟩ := r
          have hleft := argument_suffix h₁
          rw [List.drop_succ_cons, List.drop_zero] at hleft
          have hlt : left.length < n := Nat.lt_of_le_of_lt hleft.length_le (by omega)
          exact ih (node :: read) (hleft.trans ht) hlt
      · rw [nodesFrom_apostrophe]
        simp only [Char.reduceEq, ↓reduceIte, Bool.false_eq_true, quotation_cursorAt hs]
        have hleft := quotation_suffix t
        exact ih _ (hleft.trans ht) (Nat.lt_of_le_of_lt hleft.length_le (by omega))
      · obtain ⟨⟨hopen, hclose⟩, hquote⟩ : (c ≠ '{' ∧ c ≠ '}') ∧ c ≠ '\'' := by
          simpa [isSpecial] using hc
        rw [nodesFrom_plain read hc]
        simp only [hopen, hclose, hquote, ↓reduceIte, Bool.false_eq_true, literal_cursorAt hs hc]
        have hleft := List.dropWhile_suffix (!isSpecial ·) (l := t)
        exact ih _ (hleft.trans ht) (Nat.lt_of_le_of_lt hleft.length_le (by omega))

theorem messageBy_cursorAt (limit : Int) {walk : Option (Rule Message)}
    {body : Option (Reader Message)} (hbody : Option.Rel (MessageTold source) walk body)
    (inBranch : Bool) :
    MessageTold source (messageBy (argument limit walk) inBranch)
      (messageOver limit body inBranch) := by
  intro s hs
  have hrun : (messageOver limit body inBranch).run s =
      (nodesFrom limit body inBranch [] s).map fun r => (mergeText r.1, r.2) := rfl
  rw [messageBy, remaining_cursorAt hs,
    turns_cursorAt limit hbody inBranch [] hs (Nat.lt_succ_self _), hrun]
  cases nodesFrom limit body inBranch [] s <;> rfl

/-- However many arguments may be open, walking a message tells what is read. -/
theorem message_cursorAt (source : List Char) (limit : Int) (room : Nat) (inBranch : Bool) :
    MessageTold source (message limit room inBranch) (Pattern.message limit room inBranch) := by
  induction room generalizing inBranch with
  | zero => exact messageBy_cursorAt limit .none inBranch
  | succ room ih => exact messageBy_cursorAt limit (.some (ih true)) inBranch

end Body

end Walk

/-! ## Parsers -/

/-- What a walk says of a pattern that has no message. -/
def Stop.ofFailure : ParseFailure → Stop
  | .tooLong size limit => .tooLong size limit
  | .malformed e => .reported e.report
  | .integerTooLong => .integerTooLong

/-- Walking a pattern is parsing it: the walk has a message exactly if the parser has, and it stops
only for what the parser says. -/
theorem Parser.walk_eq (p : Parser) (pattern : String) :
    p.walk pattern = (p.parse pattern).mapError Stop.ofFailure := by
  have hwalk := Walk.message_cursorAt pattern.toList p.maxNestingDepth p.maxNestingDepth.toNat false
    pattern.toList (List.suffix_refl _)
  have hstart : Walk.cursorAt pattern.toList pattern.toList = ⟨pattern.toList, 0⟩ := by
    simp [Walk.cursorAt]
  rw [hstart] at hwalk
  simp only [Parser.walk, Parser.parse]
  split
  · rfl
  · rw [hwalk, Parser.rule]
    cases (message p.maxNestingDepth p.maxNestingDepth.toNat false).run pattern.toList with
    | ok r => rfl
    | error fault =>
      cases fault with
      | integerTooLong => rfl
      | malformed cause rest => simp [Stop.ofFailure, Stop.ofFault, Except.mapError]

end Phrasebook.Pattern
