/-
  Patterns that are cut.

  A pattern that is read may be cut anywhere.  Outside of every argument what is
  left is read as well.  Inside an argument it is not, and the marks of the
  pattern tell what is reported: the last brace that is open at the cut, unless
  the cut spoils a keyword or a number.

  The rules are followed on the text that is left, token by token.  A token is
  whole, or the cut goes through it and the text ends; a rule that meets the end
  of the text among blanks reports the brace that it was given as open.  Each
  rule below says what it reports in the words of `Cut`, with the marks of the
  text that it was meant to read.
-/
import Phrasebook.Proofs.Pattern.Marks
import Phrasebook.Proofs.Pattern.Steps

set_option autoImplicit false

namespace Phrasebook.Pattern

open Phrasebook.Text

/-! ## Tokens that are cut -/

theorem Stops.take {p : Char → Bool} {s : List Char} (h : Stops p s) (k : Nat) :
    Stops p (s.take k) := by
  rw [← List.take_append_drop k s] at h
  exact h.left

/-- A cut goes through the first of two texts, or stands behind it. -/
theorem take_append_cases {α : Type} (a b : List α) (k : Nat) :
    (k < a.length ∧ (a ++ b).take k = a.take k) ∨
      ∃ j, k = a.length + j ∧ (a ++ b).take k = a ++ b.take j := by
  by_cases hk : k < a.length
  · exact .inl ⟨hk, List.take_append_of_le_length (Nat.le_of_lt hk)⟩
  · obtain ⟨j, rfl⟩ := Nat.exists_eq_add_of_le (Nat.le_of_not_lt hk)
    exact .inr ⟨j, rfl, List.take_length_add_append j⟩

/-- The first of some blanks. -/
def Blanks.take (b : Blanks) (k : Nat) : Blanks where
  chars := b.chars.take k
  blank c hc := b.blank c (List.mem_of_mem_take hc)

/-- The first letters of a word. -/
def Word.take (w : Word) (k : Nat) (hk : 0 < k) : Word where
  chars := w.chars.take k
  ne_nil h := by
    rcases List.take_eq_nil_iff.1 h with hzero | hnil
    · omega
    · exact w.ne_nil hnil
  letters c hc := w.letters c (List.mem_of_mem_take hc)

theorem skipBlanks_nil (opened : List Char) :
    skipBlanks opened [] = .error (.malformed .unterminatedArgument opened) :=
  skipBlanks_blanks opened .none

/-- Blanks in front of a cut run to the end of the text, or something of what follows is left. -/
theorem skipBlanks_take {s : List Char} (opened : List Char) (b : Blanks) (hne : s ≠ [])
    (hs : Stops isBlank s) (k : Nat) :
    (k ≤ b.chars.length ∧ skipBlanks opened ((b.chars ++ s).take k) =
        .error (.malformed .unterminatedArgument opened)) ∨
      ∃ j, 0 < j ∧ k = b.chars.length + j ∧
        skipBlanks opened ((b.chars ++ s).take k) = .ok (s.take j) := by
  rcases take_append_cases b.chars s k with ⟨hlt, htake⟩ | ⟨j, rfl, htake⟩
  · rw [htake]
    exact .inl ⟨Nat.le_of_lt hlt, skipBlanks_blanks opened (b.take k)⟩
  · rw [htake]
    cases j with
    | zero =>
      rw [List.take_zero, List.append_nil]
      exact .inl ⟨Nat.le_refl _, skipBlanks_blanks opened b⟩
    | succ j =>
      refine .inr ⟨j + 1, Nat.succ_pos j, rfl, skipBlanks_of_stops b ?_ (hs.take _)⟩
      intro hnil
      rcases List.take_eq_nil_iff.1 hnil with hzero | hnil
      · cases hzero
      · exact hne hnil

/-- What is left of a word is a word. -/
theorem identifier_take {s : List Char} (w : Word) (hs : Stops isIdentifierChar s) {k : Nat}
    (hk : 0 < k) :
    (k < w.chars.length ∧
        identifier ((w.chars ++ s).take k) = .ok (String.ofList (w.chars.take k), [])) ∨
      ∃ j, k = w.chars.length + j ∧
        identifier ((w.chars ++ s).take k) = .ok (w.name, s.take j) := by
  rcases take_append_cases w.chars s k with ⟨hlt, htake⟩ | ⟨j, rfl, htake⟩
  · rw [htake]
    exact .inl ⟨hlt, identifier_eq_ok_iff.2
      ⟨w.take k hk, (List.append_nil _).symm, rfl, stops_nil _⟩⟩
  · rw [htake]
    exact .inr ⟨j, rfl, identifier_eq_ok_iff.2 ⟨w, rfl, rfl, hs.take j⟩⟩

theorem identifier_take_keyword {s : List Char} (type : ArgumentType)
    (hs : Stops isIdentifierChar s) {k : Nat} (hk : 0 < k) :
    (k < type.keyword.toList.length ∧ identifier ((type.keyword.toList ++ s).take k) =
        .ok (String.ofList (type.keyword.toList.take k), [])) ∨
      ∃ j, k = type.keyword.toList.length + j ∧
        identifier ((type.keyword.toList ++ s).take k) = .ok (type.keyword, s.take j) := by
  have h := identifier_take type.word hs hk
  rw [type.name_word] at h
  exact h

/-- What is left of a numeral is a numeral, unless no digit is left. -/
theorem integer_take (number : Numeral) {k : Nat} (hk : k < number.chars.length) :
    ((k = 0 ∨ number.negative = true ∧ k = 1) ∧ integer (number.chars.take k) =
        .error (.malformed .expectedInteger (number.chars.take k))) ∨
      ¬ (k = 0 ∨ number.negative = true ∧ k = 1) ∧
        ∃ value, integer (number.chars.take k) = .ok (value, []) := by
  have hok : ∀ digits : Numeral, number.chars.take k = digits.chars →
      ∃ value, integer (number.chars.take k) = .ok (value, []) := by
    intro digits hdigits
    exact ⟨digits.value, integer_eq_ok_iff.2
      ⟨digits, hdigits.trans (List.append_nil _).symm, rfl, stops_nil _⟩⟩
  have hne : ∀ j, 0 < j → number.digits.take j ≠ [] := by
    intro j hj hnil
    rcases List.take_eq_nil_iff.1 hnil with hzero | hnil
    · omega
    · exact number.ne_nil hnil
  have hle : ∀ j, (number.digits.take j).length ≤ Number.maxIntegerDigits :=
    fun j => Nat.le_trans (List.length_take_le' _ _) number.length_le
  have hdecimal : ∀ j, ∀ c ∈ number.digits.take j, isAsciiDigit c = true :=
    fun _ c hc => number.decimal c (List.mem_of_mem_take hc)
  cases hnegative : number.negative with
  | false =>
    rcases Nat.eq_zero_or_pos k with rfl | hpos
    · exact .inl ⟨.inl rfl, rfl⟩
    · refine .inr ⟨?_, hok ⟨false, number.digits.take k, hne k hpos, hdecimal k, hle k⟩ ?_⟩
      · rintro (hzero | ⟨hfalse, -⟩)
        · omega
        · cases hfalse
      · simp [Numeral.chars, hnegative]
  | true =>
    have hchars : number.chars = '-' :: number.digits := by simp [Numeral.chars, hnegative]
    rcases k with _ | _ | j
    · exact .inl ⟨.inl rfl, rfl⟩
    · refine .inl ⟨.inr ⟨rfl, rfl⟩, ?_⟩
      rw [hchars]
      rfl
    · refine .inr ⟨by omega, hok ⟨true, number.digits.take (j + 1), hne _ (Nat.succ_pos j),
        hdecimal _, hle _⟩ ?_⟩
      rw [hchars]
      rfl

/-- A style clause that is cut was not closed. -/
theorem styleClause_take (opened : List Char) (trail : Blanks) (style : Option StyleSource)
    (k : Nat) :
    styleClause opened ((trail.chars ++ styleChars style).take k) =
      .error (.malformed .unterminatedArgument opened) := by
  have hblanks : ∀ b : Blanks, styleClause opened b.chars =
      .error (.malformed .unterminatedArgument opened) := by
    intro b
    rw [styleClause, skipBlanks_blanks, error_bind]
  cases style with
  | none =>
    rw [styleChars, Option.map_none, Option.getD_none, List.append_nil]
    exact hblanks (trail.take k)
  | some source =>
    obtain ⟨before, w, after⟩ := source
    have hstyle : styleChars (some ⟨before, w, after⟩) =
        ',' :: (before.chars ++ (w.chars ++ after.chars)) := rfl
    rw [hstyle]
    rcases take_append_cases trail.chars (',' :: (before.chars ++ (w.chars ++ after.chars))) k with
      ⟨-, htake⟩ | ⟨j, rfl, htake⟩
    · rw [htake]
      exact hblanks (trail.take k)
    · rw [htake]
      cases j with
      | zero =>
        rw [List.take_zero, List.append_nil]
        exact hblanks trail
      | succ j =>
        have hne : w.chars ++ after.chars ≠ [] := fun h => w.ne_nil (List.append_eq_nil_iff.1 h).1
        rw [List.take_succ_cons, styleClause_comma]
        rcases skipBlanks_take opened before hne (w.stops_blank _) j with
          ⟨-, hskip⟩ | ⟨i, hi, -, hskip⟩
        · rw [hskip, error_bind]
        · have hafter : Stops isIdentifierChar after.chars :=
            List.append_nil after.chars ▸ after.stops_identifier (stops_nil _)
          rw [hskip, ok_bind]
          rcases identifier_take w hafter hi with ⟨-, hname⟩ | ⟨i', -, hname⟩
          · simp only [hname, ok_bind, skipBlanks_nil, error_bind]
          · simp only [hname, ok_bind, skipBlanks_blanks opened (after.take i'), error_bind,
              show after.chars.take i' = (after.take i').chars from rfl]

/-! ## Branches -/

/-- A rule for messages that reads a cut message, if no argument is open at the cut, and otherwise
reports what the marks tell. -/
def CutMessage (room : Nat) (rule : Reader Message) : Prop :=
  ∀ (pieces : List Piece) (pos k : Nat), FitAll none pieces → depthOf pieces ≤ room →
    k ≤ (charsOf pieces).length →
      ((∃ message, rule.run ((charsOf pieces).take k) = .ok (message, [])) ∧
          ∀ m ∈ marksOf pos pieces, m.Quiet (pos + k)) ∨
        Inside (pos + k) (marksOf pos pieces) ∧
          ∀ outer, Cut outer (pos + k) (marksOf pos pieces) (rule.run ((charsOf pieces).take k))

section Body

variable {room : Nat} {body : Reader Message}

/-- A key is read as far as it is left, unless it is a number of which no digit is. -/
theorem branchKey_take (source : KeySource) {s : List Char} (hs : Stops source.letters s) {k : Nat}
    (hk : 0 < k) (outer pos : Nat) :
    ((∃ key, branchKey ((source.chars ++ s).take k) = .ok (key, s.take (k - source.chars.length))) ∧
        ∀ m ∈ source.marks pos, m.Quiet (pos + k)) ∨
      k ≤ source.chars.length ∧
        Cut outer (pos + k) (source.marks pos) (branchKey ((source.chars ++ s).take k)) := by
  cases source with
  | word w =>
    refine .inl ⟨?_, nofun⟩
    obtain ⟨c, t, hw, hc⟩ := w.exists_chars_eq_cons
    have hhead : ((w.chars ++ s).take k).head? ≠ some '=' := by
      obtain ⟨k, rfl⟩ := Nat.exists_eq_succ_of_ne_zero (Nat.ne_of_gt hk)
      have h := w.head?_append_ne s
      rw [hw] at h ⊢
      exact h
    rw [KeySource.chars, branchKey_of_head?_ne hhead]
    rcases identifier_take w hs hk with ⟨hlt, hname⟩ | ⟨j, rfl, hname⟩
    · rw [hname, Nat.sub_eq_zero_of_le (Nat.le_of_lt hlt), List.take_zero]
      exact ⟨_, rfl⟩
    · rw [hname, Nat.add_sub_cancel_left]
      exact ⟨_, rfl⟩
  | exact number =>
    obtain ⟨k, rfl⟩ := Nat.exists_eq_succ_of_ne_zero (Nat.ne_of_gt hk)
    have hspell : ((KeySource.exact number).chars ++ s).take (k + 1) =
        '=' :: (number.chars ++ s).take k := rfl
    have hlength : (KeySource.exact number).chars.length = number.chars.length + 1 := rfl
    rw [Nat.succ_eq_add_one, hspell, branchKey_exact, hlength, Nat.add_sub_add_right]
    rcases take_append_cases number.chars s k with ⟨hlt, htake⟩ | ⟨j, rfl, htake⟩
    · rw [htake]
      rcases integer_take number hlt with ⟨hcut, herror⟩ | ⟨hwhole, value, hvalue⟩
      · refine .inr ⟨by omega, .expectedInteger, number.chars.take k, pos + 1, ?_, ?_, ?_⟩
        · rw [herror]
          rfl
        · rw [List.length_take_of_le (Nat.le_of_lt hlt)]
          omega
        · have hspoiled : (Mark.exact pos number).cutFault? (pos + (k + 1)) =
              some (pos + 1, .expectedInteger) :=
            if_pos (hcut.imp (fun h => by omega) fun h => ⟨h.1, by omega⟩)
          exact .of_spoiled hspoiled outer
      · refine .inl ⟨⟨.exact value, ?_⟩, ?_⟩
        · rw [hvalue, Nat.sub_eq_zero_of_le (Nat.le_of_lt hlt), List.take_zero]
          rfl
        · intro m hm
          rw [List.mem_singleton.1 hm]
          exact ⟨id, if_neg fun h =>
            hwhole (h.imp (fun heq => by omega) fun hsign => ⟨hsign.1, by omega⟩)⟩
    · refine .inl ⟨⟨.exact number.value, ?_⟩, ?_⟩
      · rw [htake, integer_eq_ok_iff.2 ⟨number, rfl, rfl, hs.take j⟩, Nat.add_sub_cancel_left]
        rfl
      · refine ((KeySource.exact number).marks_between pos).quiet_of_finish_le ?_
        rw [hlength]
        omega

/-- A branch that is cut in front of the brace that closes its body. -/
theorem branch_take (hbody : CutMessage room body) (source : KeySource) (after : Blanks)
    {pieces : List Piece} (hfit : FitAll none pieces) (hdepth : depthOf pieces ≤ room) {k : Nat}
    (hk : 0 < k)
    (hle : k ≤ source.chars.length + after.chars.length + 1 + (charsOf pieces).length)
    {opened : List Char} {outer pos start : Nat} (hopened : opened.length + outer = pos + k)
    (hstart : pos + source.chars.length + after.chars.length = start) :
    Cut outer (pos + k)
      (source.marks pos ++ (.body start (start + 1 + (charsOf pieces).length) ::
        marksOf (start + 1) pieces))
      (branch body opened ((source.chars ++ (after.chars ++ '{' :: charsOf pieces)).take k)) := by
  have hinner := marksOf_between (start + 1) pieces
  -- nothing of the body is in front of its brace
  have hbehind : pos + k ≤ start → ∀ m ∈ Mark.body start (start + 1 + (charsOf pieces).length) ::
      marksOf (start + 1) pieces, m.Quiet (pos + k) := by
    intro hcut m hm
    rcases List.mem_cons.1 hm with rfl | hm
    · exact Mark.quiet_of_le_start hcut
    · exact hinner.quiet_of_le (by omega) m hm
  have hletters : Stops source.letters (after.chars ++ '{' :: charsOf pieces) :=
    source.stops_letters (after.stops_identifier (stops_cons.2 (by decide)))
  rw [branch]
  rcases branchKey_take source hletters hk outer pos with ⟨⟨key, hkey⟩, hquiet⟩ | ⟨hin, hcut⟩
  · rw [hkey, ok_bind]
    dsimp only
    rcases skipBlanks_take opened after (List.cons_ne_nil '{' (charsOf pieces))
      (stops_cons.2 (by decide)) (k - source.chars.length) with ⟨hlt, hskip⟩ | ⟨j, hj, hkj, hskip⟩
    · rw [hskip, error_bind]
      refine cut_unterminated hopened ?_
      intro m hm
      rcases List.mem_append.1 hm with hm | hm
      · exact hquiet m hm
      · exact hbehind (by omega) m hm
    · obtain ⟨i, rfl⟩ := Nat.exists_eq_succ_of_ne_zero (Nat.ne_of_gt hj)
      rw [hskip, ok_bind, List.take_succ_cons, expect_eq_ok_iff.2 rfl, ok_bind]
      have hi : i ≤ (charsOf pieces).length := by omega
      have hn : pos + k = start + 1 + i := by omega
      have hopen : (Mark.body start (start + 1 + (charsOf pieces).length)).OpenAt (pos + k) :=
        ⟨by omega, by omega⟩
      have hstarts : ∀ m ∈ marksOf (start + 1) pieces, start ≤ m.start :=
        fun m hm => Nat.le_of_succ_le (hinner m hm).1
      refine Cut.append_left (Cut.cons_open ?_ hopen hstarts outer) hquiet
      rw [hn]
      rcases hbody pieces (start + 1) i hfit hdepth hi with ⟨⟨message, hrun⟩, hquiet'⟩ | ⟨-, hcut⟩
      · -- the body is read to the end of the text, where its brace is missing
        rw [hrun, ok_bind]
        refine cut_unterminated ?_ hquiet'
        rw [List.length_cons, List.length_take_of_le hi, Mark.start]
        omega
      · exact (hcut start).bind _
  · exact (hcut.bind _).append_right (hbehind (by omega))

/-- Branches that are cut within the first of them. -/
theorem branchesFrom_take_first (hbody : CutMessage room body) (typeName : String)
    {opened : List Char} (read : List (BranchKey × Message)) (head : BranchHead)
    {pieces : List Piece} (hfit : FitAll none pieces) (hdepth : depthOf pieces ≤ room)
    {outer pos k : Nat} (hlt : k < (branchChars [(head, pieces)]).length)
    (hopened : opened.length + outer = pos + k) :
    Cut outer (pos + k) (branchMarks pos [(head, pieces)])
      (branchesFrom body typeName opened read ((branchChars [(head, pieces)]).take k)) := by
  obtain ⟨before, source, after⟩ := head
  have hspell : branchChars [(⟨before, source, after⟩, pieces)] =
      (before.chars ++ (source.chars ++ (after.chars ++ '{' :: charsOf pieces))) ++ ['}'] := by
    simp [branchChars, BranchHead.chars]
  have hhead : (BranchHead.chars ⟨before, source, after⟩).length =
      before.chars.length + source.chars.length + after.chars.length := by
    simp only [BranchHead.chars, List.length_append]
    omega
  rw [hspell, List.length_append, List.length_singleton] at hlt
  have hle := Nat.le_of_lt_succ hlt
  rw [hspell, List.take_append_of_le_length hle]
  simp only [List.length_append, List.length_cons] at hle
  obtain ⟨c, t, hsource, -, hclose⟩ := source.exists_chars_eq_cons
  have hne : source.chars ++ (after.chars ++ '{' :: charsOf pieces) ≠ [] := by simp [hsource]
  have hkey := source.marks_between (pos + before.chars.length)
  rcases skipBlanks_take opened before hne (source.stops_blank _) k with
    ⟨hle, hskip⟩ | ⟨j, hj, rfl, hskip⟩
  · rw [branchesFrom_step, hskip]
    refine cut_unterminated hopened ?_
    intro m hm
    rw [branchMarks, branchMarks, List.append_nil] at hm
    rcases List.mem_append.1 hm with hm | hm
    · exact hkey.quiet_of_le (by omega) m hm
    · rcases List.mem_cons.1 hm with rfl | hm
      · exact Mark.quiet_of_le_start (by rw [Mark.start]; omega)
      · exact (marksOf_between _ pieces).quiet_of_le (by omega) m hm
  · rw [← Nat.add_assoc] at hopened ⊢
    have hfirst : ¬ ((source.chars ++ (after.chars ++ '{' :: charsOf pieces)).take j).head? =
        some '}' := by
      obtain ⟨i, rfl⟩ := Nat.exists_eq_succ_of_ne_zero (Nat.ne_of_gt hj)
      rw [hsource]
      exact fun h => hclose (Option.some.inj h)
    have hbranch := branch_take hbody source after hfit hdepth hj (by omega) hopened
      (show _ = pos + (BranchHead.chars ⟨before, source, after⟩).length by omega)
    rw [branchMarks, branchMarks, List.append_nil]
    refine hbranch.of_error ?_
    intro fault hfault
    rw [branchesFrom_step, hskip]
    simp only [hfirst, ↓reduceIte, hfault]

/-- Branches that are cut. -/
theorem branchesFrom_take (hcomplete : CompleteMessage room true body)
    (hbody : CutMessage room body) (typeName : String) {opened : List Char}
    (read : List (BranchKey × Message)) (entries : List (BranchHead × List Piece)) (last : Blanks)
    (hfit : BranchesFit entries) (hdepth : branchDepth entries ≤ room) {outer pos k : Nat}
    (hk : k ≤ (branchChars entries ++ last.chars).length)
    (hopened : opened.length + outer = pos + k) :
    Cut outer (pos + k) (branchMarks pos entries)
      (branchesFrom body typeName opened read ((branchChars entries ++ last.chars).take k)) := by
  induction entries generalizing read pos k with
  | nil =>
    rw [branchesFrom_step, branchChars, List.nil_append,
      show last.chars.take k = (last.take k).chars from rfl, skipBlanks_blanks]
    exact cut_unterminated hopened (List.forall_mem_nil _)
  | cons entry more ih =>
    obtain ⟨head, pieces⟩ := entry
    obtain ⟨hfit₁, hfit₂⟩ := hfit
    rw [branchDepth, Nat.max_le] at hdepth
    rw [← List.singleton_append, branchChars_append, List.append_assoc] at hk ⊢
    rw [branchMarks_append]
    rcases take_append_cases (branchChars [(head, pieces)]) (branchChars more ++ last.chars) k with
      ⟨hlt, htake⟩ | ⟨j, rfl, htake⟩
    · rw [htake]
      exact (branchesFrom_take_first hbody typeName read head (hfit₁.of_quotable rfl none)
        hdepth.1 hlt hopened).append_right ((branchMarks_between _ more).quiet_of_le (by omega))
    · rw [List.length_append] at hk
      rw [← Nat.add_assoc] at hopened ⊢
      rw [htake, branchesFrom_entry hcomplete typeName opened read head hfit₁ hdepth.1]
      exact (ih _ hfit₂ hdepth.2 (by omega) hopened).append_left
        ((branchMarks_between pos _).quiet_of_finish_le (Nat.le_add_right _ _))

theorem branches_take (hcomplete : CompleteMessage room true body)
    (hbody : CutMessage room body) (typeName : String) {opened : List Char}
    (entries : List (BranchHead × List Piece)) (last : Blanks)
    (hfit : BranchesFit entries) (hdepth : branchDepth entries ≤ room) {outer pos k : Nat}
    (hk : k ≤ (branchChars entries ++ last.chars).length)
    (hopened : opened.length + outer = pos + k) :
    Cut outer (pos + k) (branchMarks pos entries)
      (branches body typeName opened ((branchChars entries ++ last.chars).take k)) :=
  branchesFrom_take hcomplete hbody typeName [] entries last hfit hdepth hk hopened

/-! ## Offsets -/

/-- A branch list that is cut begins with no word of an offset: it would stand in front of the
first key. -/
theorem isPrefixOf?_offsetWord_take {entries : List (BranchHead × List Piece)} (hne : entries ≠ [])
    (last : Blanks) {opened s : List Char} {k : Nat}
    (h : skipBlanks opened ((branchChars entries ++ last.chars).take k) = .ok s) :
    offsetWord.isPrefixOf? s = none := by
  obtain ⟨⟨head, pieces⟩, more, rfl⟩ := List.exists_cons_of_ne_nil hne
  obtain ⟨t, ht⟩ : ∃ t, branchChars ((head, pieces) :: more) ++ last.chars =
      head.before.chars ++ (head.source.chars ++ (head.after.chars ++ '{' :: t)) :=
    ⟨charsOf pieces ++ '}' :: (branchChars more ++ last.chars),
      by simp [branchChars, BranchHead.chars]⟩
  obtain ⟨c, r, hsource, -, -⟩ := head.source.exists_chars_eq_cons
  have hcons : head.source.chars ++ (head.after.chars ++ '{' :: t) ≠ [] := by simp [hsource]
  rw [ht] at h
  rcases skipBlanks_take opened head.before hcons (head.source.stops_blank _) k with
    ⟨-, hskip⟩ | ⟨j, -, -, hskip⟩
  · rw [hskip] at h
    cases h
  · rw [hskip] at h
    cases h
    have hnone := isPrefixOf?_offsetWord_source head.source head.after t
    cases hword : offsetWord.isPrefixOf?
        ((head.source.chars ++ (head.after.chars ++ '{' :: t)).take j) with
    | none => rfl
    | some r =>
      have hspell := isPrefixOf?_eq_some_iff.1 hword
      rw [← List.take_append_drop j (head.source.chars ++ (head.after.chars ++ '{' :: t)), hspell,
        List.append_assoc, isPrefixOf?_eq_some_iff.2 rfl] at hnone
      cases hnone

/-- A key at the end of the text: nothing is known to be open but the argument. -/
theorem branches_word (typeName : String) (opened : List Char) (before : Blanks) (w : Word) :
    branches body typeName opened (before.chars ++ w.chars) =
      .error (.malformed .unterminatedArgument opened) := by
  have hkey : branchKey w.chars = .ok (.name w.name, []) :=
    branchKey_eq_ok_iff.2 ⟨.word w, (List.append_nil _).symm, rfl, stops_nil _⟩
  have hbranch : branch body opened w.chars = .error (.malformed .unterminatedArgument opened) := by
    simp only [branch, hkey, ok_bind, skipBlanks_nil, error_bind]
  obtain ⟨c, t, hw, hc⟩ := w.exists_chars_eq_cons
  have hclose : c ≠ '}' := by
    rintro rfl
    revert hc
    decide
  rw [hw] at hbranch ⊢
  rw [branches, branchesFrom_cons typeName opened [] before (isBlank_of_isIdentifierChar hc) hclose,
    hbranch]

/-- The letters of the word of an offset are a key, as long as its colon is missing. -/
theorem offsetBranches_word (typeName : String) (opened : List Char) (before : Blanks) {k : Nat}
    (hk : k < offsetWord.length) :
    offsetBranches body typeName opened (before.chars ++ offsetWord.take k) =
      .error (.malformed .unterminatedArgument opened) := by
  rcases Nat.eq_zero_or_pos k with rfl | hpos
  · rw [List.take_zero, List.append_nil, offsetBranches, skipBlanks_blanks, error_bind]
  · have hword : (offsetName.chars ++ [':']).take k = (offsetName.take k hpos).chars :=
      List.take_append_of_le_length (Nat.le_of_lt_succ hk)
    change offsetWord.take k = _ at hword
    rw [hword]
    refine offsetBranches_error ?_ (branches_word typeName opened before _)
    intro s hskip
    have hwhole : skipBlanks opened (before.chars ++ ((offsetName.take k hpos).chars ++ [])) = _ :=
      skipBlanks_word before (offsetName.take k hpos) []
    rw [List.append_nil, hskip, ← hword] at hwhole
    cases hprefix : offsetWord.isPrefixOf? s with
    | none => rfl
    | some r =>
      have hlength := congrArg List.length (isPrefixOf?_eq_some_iff.1 hprefix)
      rw [Except.ok.inj hwhole, List.length_take, List.length_append] at hlength
      omega

/-- In front of its number an offset knows of nothing that is open but the argument. -/
theorem offsetBranches_take_front (typeName : String) (opened : List Char)
    (before between : Blanks) (s : List Char) {k : Nat}
    (hk : k ≤ before.chars.length + offsetWord.length + between.chars.length) :
    offsetBranches body typeName opened
        ((before.chars ++ (offsetWord ++ (between.chars ++ s))).take k) =
      .error (.malformed .unterminatedArgument opened) := by
  rcases take_append_cases before.chars (offsetWord ++ (between.chars ++ s)) k with
    ⟨-, htake⟩ | ⟨j, rfl, htake⟩
  · rw [htake, offsetBranches, show before.chars.take k = (before.take k).chars from rfl,
      skipBlanks_blanks, error_bind]
  · rw [htake]
    rcases take_append_cases offsetWord (between.chars ++ s) j with ⟨hlt, htake⟩ | ⟨i, rfl, htake⟩
    · rw [htake, offsetBranches_word typeName opened before hlt]
    · have hblanks : (between.chars ++ s).take i = (between.take i).chars :=
        List.take_append_of_le_length (by omega)
      rw [htake, offsetBranches_offsetWord, hblanks, skipBlanks_blanks, error_bind]

/-- A number that is cut, where blanks may follow. -/
theorem amount_take {α : Type} (amount : Numeral) {j : Nat} (hj : 0 < j)
    (hlt : j < amount.chars.length) (f : Int → List Char → Except Fault α) {opened : List Char}
    {outer pos : Nat} (hopened : opened.length + outer = pos + j) :
    Cut outer (pos + j) [.offset pos amount]
      (integer (amount.chars.take j) >>= fun r => skipBlanks opened r.2 >>= f r.1) := by
  rcases integer_take amount hlt with ⟨hcut, herror⟩ | ⟨hwhole, value, hvalue⟩
  · obtain ⟨hnegative, rfl⟩ := hcut.resolve_left (Nat.ne_of_gt hj)
    have hspoiled : (Mark.offset pos amount).cutFault? (pos + 1) = some (pos, .expectedInteger) :=
      if_pos ⟨hnegative, rfl⟩
    rw [herror, error_bind]
    refine ⟨_, _, _, rfl, ?_, .of_spoiled hspoiled outer⟩
    rw [List.length_take_of_le (Nat.le_of_lt hlt), Nat.add_comm]
  · rw [hvalue, ok_bind, skipBlanks_nil, error_bind]
    refine cut_unterminated hopened ?_
    intro m hm
    rw [List.mem_singleton.1 hm]
    refine ⟨id, if_neg ?_⟩
    rintro ⟨hnegative, heq⟩
    exact hwhole (.inr ⟨hnegative, Nat.add_left_cancel heq⟩)

theorem offsetBranches_take (hcomplete : CompleteMessage room true body)
    (hbody : CutMessage room body) (typeName : String) {opened : List Char}
    (offset : Option OffsetSource) {entries : List (BranchHead × List Piece)} (last : Blanks)
    (hne : entries ≠ []) (hstop : offset.isSome = true → Stops isAsciiDigit (branchChars entries))
    (hfit : BranchesFit entries) (hdepth : branchDepth entries ≤ room) {outer pos k : Nat}
    (hk : k ≤ (offsetChars offset ++ (branchChars entries ++ last.chars)).length)
    (hopened : opened.length + outer = pos + k) :
    Cut outer (pos + k)
      (offsetMarks pos offset ++ branchMarks (pos + (offsetChars offset).length) entries)
      (offsetBranches body typeName opened
        ((offsetChars offset ++ (branchChars entries ++ last.chars)).take k)) := by
  cases offset with
  | none =>
    refine (branches_take hcomplete hbody typeName entries last hfit hdepth hk hopened).of_error ?_
    intro fault hfault
    exact offsetBranches_error (fun s => isPrefixOf?_offsetWord_take hne last) hfault
  | some source =>
    obtain ⟨before, between, amount⟩ := source
    have hlength : (offsetChars (some ⟨before, between, amount⟩)).length =
        before.chars.length + offsetWord.length + between.chars.length + amount.chars.length := by
      simp only [offsetChars, Option.map_some, Option.getD_some, OffsetSource.chars,
        List.length_append]
      omega
    have hspell : offsetChars (some ⟨before, between, amount⟩) ++
          (branchChars entries ++ last.chars) =
        before.chars ++ (offsetWord ++ (between.chars ++ (amount.chars ++
          (branchChars entries ++ last.chars)))) := by
      simp [offsetChars, OffsetSource.chars]
    have hmore := branchMarks_between
      (pos + (offsetChars (some ⟨before, between, amount⟩)).length) entries
    rw [List.length_append] at hk
    rw [hspell]
    by_cases hfront : k ≤ before.chars.length + offsetWord.length + between.chars.length
    · rw [offsetBranches_take_front typeName opened before between _ hfront]
      refine cut_unterminated hopened ?_
      intro m hm
      rcases List.mem_append.1 hm with hm | hm
      · rw [List.mem_singleton.1 hm]
        refine Mark.quiet_of_le_start ?_
        simp only [Mark.start]
        omega
      · exact hmore.quiet_of_le (by omega) m hm
    · obtain ⟨j, rfl⟩ := Nat.exists_eq_add_of_le (Nat.le_of_not_le hfront)
      have hj : 0 < j := by omega
      have htext : (before.chars ++ (offsetWord ++ (between.chars ++ (amount.chars ++
          (branchChars entries ++ last.chars))))).take
            (before.chars.length + offsetWord.length + between.chars.length + j) =
          before.chars ++ (offsetWord ++ (between.chars ++
            (amount.chars ++ (branchChars entries ++ last.chars)).take j)) := by
        rw [Nat.add_assoc, Nat.add_assoc, List.take_length_add_append,
          List.take_length_add_append, List.take_length_add_append]
      have hnumber : (amount.chars ++ (branchChars entries ++ last.chars)).take j ≠ [] := by
        obtain ⟨c, t, hamount, -⟩ := amount.exists_chars_eq_cons
        obtain ⟨i, rfl⟩ := Nat.exists_eq_succ_of_ne_zero (Nat.ne_of_gt hj)
        simp [hamount]
      rw [htext, offsetBranches_offsetWord,
        skipBlanks_of_stops between hnumber ((amount.stops_blank _).take j), ok_bind]
      rcases take_append_cases amount.chars (branchChars entries ++ last.chars) j with
        ⟨hlt, htake⟩ | ⟨i, rfl, htake⟩
      · have hn : pos + (before.chars.length + offsetWord.length + between.chars.length + j) =
            pos + before.chars.length + offsetWord.length + between.chars.length + j := by
          omega
        rw [htake]
        refine Cut.append_right ?_ (hmore.quiet_of_le (by omega))
        rw [hn] at hopened ⊢
        exact amount_take amount hj hlt
          (fun offset s => branches body typeName opened s >>= fun r => pure ((offset, r.1), r.2))
          hopened
      · have hn : pos + (before.chars.length + offsetWord.length + between.chars.length +
            (amount.chars.length + i)) =
            pos + (offsetChars (some ⟨before, between, amount⟩)).length + i := by
          omega
        have hdigit : Stops isAsciiDigit (branchChars entries ++ last.chars) :=
          (hstop rfl).append (branchChars_ne_nil hne) _
        rw [htake, integer_eq_ok_iff.2 ⟨amount, rfl, rfl, hdigit.take i⟩]
        rw [hn] at hopened ⊢
        refine Cut.append_left ?_
          ((offsetMarks_between pos _).quiet_of_finish_le (Nat.le_add_right _ _))
        refine (branches_take hcomplete hbody typeName entries last hfit hdepth (by omega)
          hopened).of_error ?_
        intro fault hfault
        exact skipBlanks_branches_error _ hfault

/-! ## Arguments -/

/-- A rule that goes on behind a comma. -/
theorem cut_behindComma {α β : Type} {rest : List Char → List Char → Except Fault β}
    (f : β → Except Fault α) {opened v : List Char} (trail : Blanks) {outer pos finish k : Nat}
    {marks : List Mark} (hmarks : Between (pos + trail.chars.length + 1) finish marks)
    (hk : k ≤ (trail.chars ++ ',' :: v).length) (hopened : opened.length + outer = pos + k)
    (hrest : ∀ j ≤ v.length, opened.length + outer = pos + trail.chars.length + 1 + j →
      Cut outer (pos + trail.chars.length + 1 + j) marks (rest opened (v.take j))) :
    Cut outer (pos + k) marks
      (comma opened ((trail.chars ++ ',' :: v).take k) >>= fun s => rest opened s >>= f) := by
  rw [comma]
  rcases skipBlanks_take opened trail (List.cons_ne_nil ',' v) (stops_cons.2 (by decide)) k with
    ⟨hle, hskip⟩ | ⟨j, hj, rfl, hskip⟩
  · rw [hskip, error_bind, error_bind]
    exact cut_unterminated hopened (hmarks.quiet_of_le (by omega))
  · obtain ⟨i, rfl⟩ := Nat.exists_eq_succ_of_ne_zero (Nat.ne_of_gt hj)
    have hn : pos + (trail.chars.length + (i + 1)) = pos + trail.chars.length + 1 + i := by omega
    rw [List.length_append, List.length_cons] at hk
    rw [hskip, ok_bind, List.take_succ_cons, expect_eq_ok_iff.2 rfl, ok_bind]
    rw [Nat.succ_eq_add_one, hn] at hopened ⊢
    exact (hrest i (by omega) hopened).bind f

theorem content_nil (opened : List Char) (name : String) (type : ArgumentType) :
    content body opened name type [] = .error (.malformed .unterminatedArgument opened) := by
  cases type with
  | formatted kind => simp only [content, styleClause, skipBlanks_nil, error_bind]
  | plural kind => simp only [content, comma, skipBlanks_nil, error_bind]
  | select => simp only [content, comma, skipBlanks_nil, error_bind]

/-- An argument behind its first comma, given what is reported of what belongs to its type. -/
theorem typedArgument_take {opened v : List Char} {name : String} (lead : Blanks)
    (type : ArgumentType) (hv : Stops isIdentifierChar v) {outer pos finish k : Nat}
    {inner : List Mark}
    (hinner : Between (pos + lead.chars.length + type.keyword.toList.length) finish inner)
    (hk : k ≤ (lead.chars ++ (type.keyword.toList ++ v)).length)
    (hopened : opened.length + outer = pos + k)
    (hcontent : ∀ j ≤ v.length,
      opened.length + outer = pos + lead.chars.length + type.keyword.toList.length + j →
        Cut outer (pos + lead.chars.length + type.keyword.toList.length + j) inner
          (content body opened name type (v.take j))) :
    Cut outer (pos + k) (.keyword (pos + lead.chars.length) type :: inner)
      (typedArgument body opened name
        ((lead.chars ++ (type.keyword.toList ++ v)).take k)) := by
  have hne : type.keyword.toList ++ v ≠ [] :=
    fun h => type.word.ne_nil (List.append_eq_nil_iff.1 h).1
  rw [typedArgument]
  rcases skipBlanks_take opened lead hne (type.word.stops_blank v) k with
    ⟨hle, hskip⟩ | ⟨j, hj, rfl, hskip⟩
  · rw [hskip, error_bind]
    refine cut_unterminated hopened ?_
    intro m hm
    rcases List.mem_cons.1 hm with rfl | hm
    · exact Mark.quiet_of_le_start (Nat.add_le_add_left hle pos)
    · exact hinner.quiet_of_le (by omega) m hm
  · have hn : pos + (lead.chars.length + j) - (pos + lead.chars.length) = j := by omega
    rw [hskip, ok_bind]
    rcases identifier_take_keyword type hv hj with ⟨hlt, hname⟩ | ⟨i, rfl, hname⟩
    · have hbehind : ∀ m ∈ inner, m.Quiet (pos + (lead.chars.length + j)) :=
        hinner.quiet_of_le (by omega)
      rw [hname, ok_bind]
      dsimp only
      cases htype : ArgumentType.ofKeyword? (String.ofList (type.keyword.toList.take j)) with
      | none =>
        have hspoiled : (Mark.keyword (pos + lead.chars.length) type).cutFault?
            (pos + (lead.chars.length + j)) = some (pos + lead.chars.length,
              .unknownArgumentType (String.ofList (type.keyword.toList.take j))) := by
          simp only [Mark.cutFault?, hn]
          exact if_pos ⟨by omega, htype⟩
        rw [← List.singleton_append]
        refine Cut.append_right ⟨_, _, _, rfl, ?_, .of_spoiled hspoiled outer⟩ hbehind
        rw [List.length_take_of_le (by rw [List.length_append]; omega)]
        omega
      | some other =>
        simp only [content_nil, error_bind]
        refine cut_unterminated hopened ?_
        intro m hm
        rcases List.mem_cons.1 hm with rfl | hm
        · refine ⟨id, ?_⟩
          simp only [Mark.cutFault?, hn, htype, reduceCtorEq, and_false, ↓reduceIte]
        · exact hbehind m hm
    · have hi : pos + (lead.chars.length + (type.keyword.toList.length + i)) =
          pos + lead.chars.length + type.keyword.toList.length + i := by
        omega
      rw [List.length_append, List.length_append] at hk
      rw [hi] at hopened ⊢
      rw [hname, ok_bind, ← List.singleton_append]
      simp only [ofKeyword?_keyword]
      refine Cut.append_left ((hcontent i (by omega) hopened).bind _) ?_
      intro m hm
      rw [List.mem_singleton.1 hm]
      exact Mark.quiet_of_finish_le (Nat.le_add_right _ i)

/-- An argument that is cut in front of what follows its name. -/
theorem argument_take_head {limit : Int} (head : Head) {s : List Char}
    (hs : Stops isIdentifierChar s) {k : Nat} (hk : 0 < k) (hle : k ≤ head.chars.length) :
    argument limit (some body) ((head.chars ++ s).take k) =
      .error (.malformed .unterminatedArgument ((head.chars ++ s).take k)) := by
  obtain ⟨k, rfl⟩ := Nat.exists_eq_succ_of_ne_zero (Nat.ne_of_gt hk)
  have hdrop : ((head.chars ++ s).take (k + 1)).drop 1 =
      (head.before.chars ++ (head.word.chars ++ (head.after.chars ++ s))).take k := by
    simp [Head.chars]
  have hlength : head.chars.length =
      head.before.chars.length + head.word.chars.length + head.after.chars.length + 1 := by
    simp only [Head.chars, List.length_append, List.length_cons]
    omega
  have hne : head.word.chars ++ (head.after.chars ++ s) ≠ [] :=
    fun h => head.word.ne_nil (List.append_eq_nil_iff.1 h).1
  simp only [argument, Nat.succ_eq_add_one, hdrop]
  rcases skipBlanks_take ((head.chars ++ s).take (k + 1)) head.before hne
    (head.word.stops_blank _) k with ⟨-, hskip⟩ | ⟨j, hj, rfl, hskip⟩
  · rw [hskip, error_bind]
  · rw [hskip, ok_bind]
    rcases identifier_take head.word (head.after.stops_identifier hs) hj with
      ⟨-, hname⟩ | ⟨i, rfl, hname⟩
    · simp only [hname, ok_bind, skipBlanks_nil, error_bind]
    · have htake : (head.after.chars ++ s).take i = (head.after.take i).chars :=
        List.take_append_of_le_length (by omega)
      simp only [hname, ok_bind, htake, skipBlanks_blanks, error_bind]

/-- An argument with a type, given what is reported of what belongs to its type. -/
theorem argument_take_typed {limit : Int} (head : Head) (lead : Blanks) (type : ArgumentType)
    {v : List Char} (hv : Stops isIdentifierChar v) {pos finish k : Nat} {inner : List Mark}
    (hinner : Between (behindKeyword pos head lead type) finish inner) (hk : 0 < k)
    (hlt : k < (typedChars head lead type v).length)
    (hcontent : ∀ (opened : List Char), ∀ j ≤ v.length,
      opened.length + pos = behindKeyword pos head lead type + j →
        Cut pos (behindKeyword pos head lead type + j) inner
          (content body opened head.word.name type (v.take j)))
    (outer : Nat) :
    Cut outer (pos + k) (typedMarks pos head lead type v inner)
      (argument limit (some body) ((typedChars head lead type v).take k)) := by
  have hlength := length_typedChars pos head lead type v
  have hopened : ((typedChars head lead type v).take k).length = k :=
    List.length_take_of_le (Nat.le_of_lt hlt)
  have hopen : (Mark.argument pos (behindKeyword pos head lead type + v.length)).OpenAt (pos + k) :=
    ⟨by omega, by omega⟩
  rw [behindKeyword] at hinner
  have hbehind : ∀ m ∈ Mark.keyword (pos + head.chars.length + 1 + lead.chars.length) type ::
      inner, pos + head.chars.length ≤ m.start := by
    intro m hm
    rcases List.mem_cons.1 hm with rfl | hm
    · simp only [Mark.start]
      omega
    · have hstart := (hinner m hm).1
      omega
  refine Cut.cons_open ?_ hopen
    (fun m hm => Nat.le_trans (Nat.le_add_right _ _) (hbehind m hm)) outer
  rw [Mark.start]
  by_cases hhead : k ≤ head.chars.length
  · rw [typedChars, argument_take_head head (stops_cons.2 (by decide)) hk hhead, ← typedChars]
    refine cut_unterminated (by omega) ?_
    intro m hm
    exact Mark.quiet_of_le_start (Nat.le_trans (Nat.add_le_add_left hhead pos) (hbehind m hm))
  · obtain ⟨j, rfl⟩ : ∃ j, k = head.chars.length + (j + 1) :=
      ⟨k - head.chars.length - 1, by omega⟩
    have hj : j ≤ (lead.chars ++ (type.keyword.toList ++ v)).length := by
      simp only [behindKeyword, List.length_append] at hlength ⊢
      omega
    have hspell : lead.chars ++ (type.keyword.toList ++ (v ++ ['}'])) =
        (lead.chars ++ (type.keyword.toList ++ v)) ++ ['}'] := by
      simp
    have htake : (typedChars head lead type v).take (head.chars.length + (j + 1)) =
        head.chars ++ ',' :: (lead.chars ++ (type.keyword.toList ++ v)).take j := by
      rw [typedChars, List.take_length_add_append, List.take_succ_cons, hspell,
        List.take_append_of_le_length hj]
    have hn : pos + (head.chars.length + (j + 1)) = pos + head.chars.length + 1 + j := by omega
    rw [htake] at hopened ⊢
    rw [argument_comma, hn]
    exact typedArgument_take lead type hv hinner hj (by omega) (hcontent _)

/-- An argument that is cut reports what its marks tell, wherever it stands. -/
theorem argument_take (limit : Int) (hcomplete : CompleteMessage room true body)
    (hbody : CutMessage room body) (source : ArgumentSource) (hfit : source.Fits)
    (hdepth : source.depth ≤ room + 1) {k : Nat} (hk : 0 < k) (hlt : k < source.chars.length)
    (pos outer : Nat) :
    Cut outer (pos + k) (source.marks pos)
      (argument limit (some body) (source.chars.take k)) := by
  cases source with
  | bare head =>
    have hle : k ≤ head.chars.length := by
      simp only [ArgumentSource.chars, List.length_append, List.length_singleton] at hlt
      omega
    have hopen : (Mark.argument pos (pos + head.chars.length)).OpenAt (pos + k) :=
      ⟨by omega, by omega⟩
    refine Cut.cons_open ?_ hopen (fun m hm => absurd hm List.not_mem_nil) outer
    rw [ArgumentSource.chars, argument_take_head head (stops_cons.2 (by decide)) hk hle]
    refine cut_unterminated ?_ (List.forall_mem_nil _)
    rw [List.take_append_of_le_length hle, List.length_take_of_le hle, Mark.start, Nat.add_comm]
  | formatted head lead kind trail style =>
    have hid : Stops isIdentifierChar (trail.chars ++ styleChars style) := by
      refine trail.stops_identifier ?_
      cases style with
      | none => exact stops_nil _
      | some source => exact stops_cons.2 (by decide)
    rw [ArgumentSource.marks]
    rw [ArgumentSource.formatted_chars] at hlt ⊢
    refine argument_take_typed head lead (.formatted kind) hid (between_nil _ 0) hk hlt ?_ outer
    intro opened j _ hopened
    simp only [content, styleClause_take, error_bind]
    exact cut_unterminated hopened (List.forall_mem_nil _)
  | plural head lead kind trail offset entries last =>
    obtain ⟨hne, hstop, hfits⟩ := hfit
    have hid : Stops isIdentifierChar
        (trail.chars ++ ',' :: (offsetChars offset ++ (branchChars entries ++ last.chars))) :=
      trail.stops_identifier (stops_cons.2 (by decide))
    have hmarks := between_append.2
      ⟨(offsetMarks_between (behindKeyword pos head lead (.plural kind) + trail.chars.length + 1)
          offset).mono (Nat.le_refl _) (Nat.le_add_right _ (branchChars entries).length),
        (branchMarks_between (behindKeyword pos head lead (.plural kind) + trail.chars.length + 1 +
          (offsetChars offset).length) entries).mono (Nat.le_add_right _ _) (Nat.le_refl _)⟩
    rw [ArgumentSource.marks]
    rw [ArgumentSource.plural_chars] at hlt ⊢
    refine argument_take_typed head lead (.plural kind) hid
      (hmarks.mono (by omega) (Nat.le_refl _)) hk hlt ?_ outer
    intro opened j hj hopened
    rw [content_plural]
    refine cut_behindComma _ trail hmarks hj hopened ?_
    intro i hi hopened
    exact offsetBranches_take hcomplete hbody kind.name offset last hne hstop hfits
      (Nat.le_of_succ_le_succ hdepth) hi hopened
  | select head lead trail entries last =>
    obtain ⟨hne, hfits⟩ := hfit
    have hid : Stops isIdentifierChar
        (trail.chars ++ ',' :: (branchChars entries ++ last.chars)) :=
      trail.stops_identifier (stops_cons.2 (by decide))
    have hmarks := branchMarks_between
      (behindKeyword pos head lead .select + trail.chars.length + 1) entries
    rw [ArgumentSource.marks]
    rw [ArgumentSource.select_chars] at hlt ⊢
    refine argument_take_typed head lead .select hid (hmarks.mono (by omega) (Nat.le_refl _)) hk
      hlt ?_ outer
    intro opened j hj hopened
    rw [content]
    refine cut_behindComma _ trail hmarks hj hopened ?_
    intro i hi hopened
    exact branches_take hcomplete hbody selectName entries last hfits
      (Nat.le_of_succ_le_succ hdepth) hi hopened

end Body

end Phrasebook.Pattern
