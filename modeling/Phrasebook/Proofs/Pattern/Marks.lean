/-
  Where the parts of a derivation stand.

  A mark is a part of a pattern at its place: an argument or the body of a branch
  with the positions of its two braces, a keyword, or a numeral.  The marks of a
  derivation are listed in the order of its text, and each lies within the text
  of what it is a mark of.

  For a text that is cut somewhere, the marks tell what is reported
  (`Verdict`).  An argument or a body is open at a cut behind its opening brace
  and not behind its closing one.  A cut in a keyword or a numeral may leave
  something that is not one.  A mark that ends in front of the cut, or begins
  behind it, has nothing to say.
-/
import Phrasebook.Proofs.Pattern.Pieces
import Phrasebook.Proofs.Pattern.Soundness

set_option autoImplicit false

namespace Phrasebook.Pattern

/-! ## Marks -/

/-- A part of a pattern, with its positions. -/
inductive Mark where
  /-- an argument, with the positions of its braces -/
  | argument (start stop : Nat)
  /-- the body of a branch, with the positions of its braces -/
  | body (start stop : Nat)
  /-- a keyword -/
  | keyword (start : Nat) (type : ArgumentType)
  /-- the key of a branch that is a number, from its equals sign on -/
  | exact (start : Nat) (number : Numeral)
  /-- the number of an offset -/
  | offset (start : Nat) (number : Numeral)

namespace Mark

/-- The position of the first character. -/
def start : Mark → Nat
  | .argument start _ => start
  | .body start _ => start
  | .keyword start _ => start
  | .exact start _ => start
  | .offset start _ => start

/-- The position behind the last character. -/
def finish : Mark → Nat
  | .argument _ stop => stop + 1
  | .body _ stop => stop + 1
  | .keyword start type => start + type.keyword.toList.length
  | .exact start number => start + 1 + number.chars.length
  | .offset start number => start + number.chars.length

/-- Whether the opening brace of an argument or a body is in front of a cut, and its closing brace
is not. -/
def OpenAt (n : Nat) : Mark → Prop
  | .argument start stop => start < n ∧ n ≤ stop
  | .body start stop => start < n ∧ n ≤ stop
  | _ => False

/-- What is wrong with the letters of a keyword that a cut leaves, if it leaves some that are no
keyword; and with a number of which a cut leaves no digit, where the number was begun.  An offset
is not begun before its first character, but an exact key is begun with its equals sign. -/
def cutFault? (n : Nat) : Mark → Option (Nat × Cause)
  | .keyword start type =>
    let kept := String.ofList (type.keyword.toList.take (n - start))
    if start < n ∧ ArgumentType.ofKeyword? kept = none then
      some (start, .unknownArgumentType kept)
    else none
  | .exact start number =>
    if n = start + 1 ∨ number.negative = true ∧ n = start + 2 then
      some (start + 1, .expectedInteger)
    else none
  | .offset start number =>
    if number.negative = true ∧ n = start + 1 then some (start, .expectedInteger) else none
  | _ => none

/-- A mark that has nothing to say of a cut. -/
structure Quiet (n : Nat) (m : Mark) : Prop where
  closed : ¬ m.OpenAt n
  whole : m.cutFault? n = none

theorem quiet_of_le_start {n : Nat} {m : Mark} (h : n ≤ m.start) : m.Quiet n := by
  cases m with
  | argument start stop => exact ⟨fun hopen => absurd hopen.1 (Nat.not_lt.2 h), rfl⟩
  | body start stop => exact ⟨fun hopen => absurd hopen.1 (Nat.not_lt.2 h), rfl⟩
  | keyword start type => exact ⟨id, if_neg fun hcut => absurd hcut.1 (Nat.not_lt.2 h)⟩
  | exact start number =>
    have hle : n ≤ start := h
    exact ⟨id, if_neg (by omega)⟩
  | offset start number =>
    have hle : n ≤ start := h
    exact ⟨id, if_neg (by omega)⟩

theorem quiet_of_finish_le {n : Nat} {m : Mark} (h : m.finish ≤ n) : m.Quiet n := by
  cases m with
  | argument start stop => exact ⟨fun hopen => absurd hopen.2 (Nat.not_le.2 h), rfl⟩
  | body start stop => exact ⟨fun hopen => absurd hopen.2 (Nat.not_le.2 h), rfl⟩
  | keyword start type =>
    have hle : start + type.keyword.toList.length ≤ n := h
    refine ⟨id, if_neg ?_⟩
    rintro ⟨-, hcut⟩
    rw [List.take_of_length_le (by omega), String.ofList_toList, ofKeyword?_keyword] at hcut
    cases hcut
  | exact start number =>
    have hle : start + 1 + number.chars.length ≤ n := h
    have hpos := number.length_pos
    refine ⟨id, if_neg ?_⟩
    rintro (heq | ⟨hnegative, heq⟩)
    · omega
    · have hlt := Numeral.one_lt_length hnegative
      omega
  | offset start number =>
    have hle : start + number.chars.length ≤ n := h
    refine ⟨id, if_neg ?_⟩
    rintro ⟨hnegative, heq⟩
    have hlt := Numeral.one_lt_length hnegative
    omega

end Mark

/-- Whether a cut goes through one of the arguments. -/
def Inside (n : Nat) (marks : List Mark) : Prop :=
  ∃ start stop, .argument start stop ∈ marks ∧ (Mark.argument start stop).OpenAt n

/-- Of the arguments and bodies that are open at a cut, the one that was opened last. -/
structure Innermost (n : Nat) (marks : List Mark) (m : Mark) : Prop where
  mem : m ∈ marks
  openAt : m.OpenAt n
  last : ∀ other ∈ marks, other.OpenAt n → other.start ≤ m.start

/-! ## The marks of a derivation -/

/-- The marks of a key that begins at a position. -/
def KeySource.marks (pos : Nat) : KeySource → List Mark
  | .word _ => []
  | .exact number => [.exact pos number]

/-- The marks of an offset that begins at a position. -/
def offsetMarks (pos : Nat) : Option OffsetSource → List Mark
  | none => []
  | some source =>
    [.offset (pos + source.before.chars.length + offsetWord.length + source.between.chars.length)
      source.amount]

/-- The position behind the keyword of an argument that begins at a position. -/
def behindKeyword (pos : Nat) (head : Head) (lead : Blanks) (type : ArgumentType) : Nat :=
  pos + head.chars.length + 1 + lead.chars.length + type.keyword.toList.length

/-- The marks of an argument with a type, given what stands behind the keyword, up to the closing
brace, and the marks of that. -/
def typedMarks (pos : Nat) (head : Head) (lead : Blanks) (type : ArgumentType) (v : List Char)
    (inner : List Mark) : List Mark :=
  .argument pos (behindKeyword pos head lead type + v.length) ::
    .keyword (pos + head.chars.length + 1 + lead.chars.length) type :: inner

mutual

/-- The marks of a piece that begins at a position. -/
def Piece.marks (pos : Nat) : Piece → List Mark
  | .argument source => source.marks pos
  | _ => []

/-- The marks of an argument that begins at a position. -/
def ArgumentSource.marks (pos : Nat) : ArgumentSource → List Mark
  | .bare head => [.argument pos (pos + head.chars.length)]
  | .formatted head lead kind trail style =>
    typedMarks pos head lead (.formatted kind) (trail.chars ++ styleChars style) []
  | .plural head lead kind trail offset branches last =>
    typedMarks pos head lead (.plural kind)
      (trail.chars ++ ',' :: (offsetChars offset ++ (branchChars branches ++ last.chars)))
      (offsetMarks (behindKeyword pos head lead (.plural kind) + trail.chars.length + 1) offset ++
        branchMarks (behindKeyword pos head lead (.plural kind) + trail.chars.length + 1 +
          (offsetChars offset).length) branches)
  | .select head lead trail branches last =>
    typedMarks pos head lead .select (trail.chars ++ ',' :: (branchChars branches ++ last.chars))
      (branchMarks (behindKeyword pos head lead .select + trail.chars.length + 1) branches)

/-- The marks of a message that begins at a position. -/
def marksOf (pos : Nat) : List Piece → List Mark
  | [] => []
  | piece :: rest => piece.marks pos ++ marksOf (pos + piece.chars.length) rest

/-- The marks of branches that begin at a position. -/
def branchMarks (pos : Nat) : List (BranchHead × List Piece) → List Mark
  | [] => []
  | (head, body) :: rest =>
    head.source.marks (pos + head.before.chars.length) ++
      (.body (pos + head.chars.length) (pos + head.chars.length + 1 + (charsOf body).length) ::
        (marksOf (pos + head.chars.length + 1) body ++
          branchMarks (pos + head.chars.length + 1 + (charsOf body).length + 1) rest))

end

theorem marksOf_append (pos : Nat) (pieces others : List Piece) :
    marksOf pos (pieces ++ others) =
      marksOf pos pieces ++ marksOf (pos + (charsOf pieces).length) others := by
  induction pieces generalizing pos with
  | nil => rfl
  | cons piece rest ih =>
    rw [List.cons_append, marksOf, marksOf, ih, charsOf, List.length_append, List.append_assoc,
      Nat.add_assoc]

theorem branchMarks_append (pos : Nat) (entries others : List (BranchHead × List Piece)) :
    branchMarks pos (entries ++ others) =
      branchMarks pos entries ++ branchMarks (pos + (branchChars entries).length) others := by
  induction entries generalizing pos with
  | nil => rfl
  | cons entry rest ih =>
    obtain ⟨head, body⟩ := entry
    have hlength : pos + (branchChars ((head, body) :: rest)).length =
        pos + head.chars.length + 1 + (charsOf body).length + 1 + (branchChars rest).length := by
      simp only [branchChars, List.length_append, List.length_cons]
      omega
    rw [List.cons_append, branchMarks, branchMarks, ih, hlength]
    simp only [List.append_assoc, List.cons_append]

theorem length_typedChars (pos : Nat) (head : Head) (lead : Blanks) (type : ArgumentType)
    (v : List Char) :
    pos + (typedChars head lead type v).length =
      behindKeyword pos head lead type + v.length + 1 := by
  simp only [typedChars, behindKeyword, List.length_append, List.length_cons, List.length_nil]
  omega

/-- An argument is one of its marks, up to its closing brace. -/
theorem ArgumentSource.exists_mem_marks (pos : Nat) (source : ArgumentSource) :
    ∃ stop, .argument pos stop ∈ source.marks pos ∧ pos + source.chars.length = stop + 1 := by
  cases source with
  | bare head =>
    refine ⟨_, List.mem_singleton.2 rfl, ?_⟩
    rw [ArgumentSource.chars, List.length_append, List.length_singleton, Nat.add_assoc]
  | formatted head lead kind trail style =>
    exact ⟨_, List.mem_cons_self, ArgumentSource.formatted_chars .. ▸ length_typedChars ..⟩
  | plural head lead kind trail offset branches last =>
    exact ⟨_, List.mem_cons_self, ArgumentSource.plural_chars .. ▸ length_typedChars ..⟩
  | select head lead trail branches last =>
    exact ⟨_, List.mem_cons_self, ArgumentSource.select_chars .. ▸ length_typedChars ..⟩

/-! ## Marks lie within their text -/

/-- Marks that lie between two positions. -/
def Between (pos finish : Nat) (marks : List Mark) : Prop :=
  ∀ m ∈ marks, pos ≤ m.start ∧ m.finish ≤ finish

section Between

variable {pos finish n : Nat} {marks others : List Mark}

theorem between_nil (pos finish : Nat) : Between pos finish [] := nofun

theorem between_cons {m : Mark} :
    Between pos finish (m :: marks) ↔
      (pos ≤ m.start ∧ m.finish ≤ finish) ∧ Between pos finish marks :=
  List.forall_mem_cons

theorem Between.mono {pos' finish' : Nat} (h : Between pos finish marks) (hpos : pos' ≤ pos)
    (hfinish : finish ≤ finish') : Between pos' finish' marks :=
  fun m hm => ⟨Nat.le_trans hpos (h m hm).1, Nat.le_trans (h m hm).2 hfinish⟩

theorem between_append :
    Between pos finish (marks ++ others) ↔
      Between pos finish marks ∧ Between pos finish others :=
  List.forall_mem_append

/-- Marks behind a cut. -/
theorem Between.quiet_of_le (h : Between pos finish marks) (hn : n ≤ pos) :
    ∀ m ∈ marks, m.Quiet n :=
  fun m hm => Mark.quiet_of_le_start (Nat.le_trans hn (h m hm).1)

/-- Marks in front of a cut. -/
theorem Between.quiet_of_finish_le (h : Between pos finish marks) (hn : finish ≤ n) :
    ∀ m ∈ marks, m.Quiet n :=
  fun m hm => Mark.quiet_of_finish_le (Nat.le_trans (h m hm).2 hn)

end Between

theorem KeySource.marks_between (pos : Nat) (source : KeySource) :
    Between pos (pos + source.chars.length) (source.marks pos) := by
  cases source with
  | word w => exact between_nil _ _
  | exact number =>
    refine between_cons.2 ⟨⟨Nat.le_refl _, ?_⟩, between_nil _ _⟩
    simp only [Mark.finish, KeySource.chars, List.length_cons]
    omega

theorem offsetMarks_between (pos : Nat) (source : Option OffsetSource) :
    Between pos (pos + (offsetChars source).length) (offsetMarks pos source) := by
  cases source with
  | none => exact between_nil _ _
  | some source =>
    refine between_cons.2 ⟨⟨?_, ?_⟩, between_nil _ _⟩
    · simp only [Mark.start]
      omega
    · simp only [Mark.finish, offsetChars, Option.map_some, Option.getD_some, OffsetSource.chars,
        List.length_append]
      omega

theorem typedMarks_between {pos : Nat} {head : Head} {lead : Blanks} {type : ArgumentType}
    {v : List Char} {inner : List Mark}
    (hinner : Between (behindKeyword pos head lead type)
      (behindKeyword pos head lead type + v.length) inner) :
    Between pos (pos + (typedChars head lead type v).length)
      (typedMarks pos head lead type v inner) := by
  rw [length_typedChars]
  refine between_cons.2 ⟨⟨Nat.le_refl _, Nat.le_refl _⟩, between_cons.2 ⟨⟨?_, ?_⟩, ?_⟩⟩
  · simp only [Mark.start]
    omega
  · simp only [Mark.finish, behindKeyword]
    omega
  · exact hinner.mono (by rw [behindKeyword]; omega) (Nat.le_succ _)

mutual

theorem Piece.marks_between (pos : Nat) :
    (piece : Piece) → Between pos (pos + piece.chars.length) (piece.marks pos)
  | .argument source => source.marks_between pos
  | .literal _ => between_nil _ _
  | .doubled => between_nil _ _
  | .quoted _ _ => between_nil _ _
  | .lone => between_nil _ _

theorem ArgumentSource.marks_between (pos : Nat) :
    (source : ArgumentSource) → Between pos (pos + source.chars.length) (source.marks pos)
  | .bare head => by
    refine between_cons.2 ⟨⟨Nat.le_refl _, ?_⟩, between_nil _ _⟩
    simp only [Mark.finish, ArgumentSource.chars, List.length_append, List.length_singleton]
    omega
  | .formatted head lead kind trail style => by
    rw [ArgumentSource.formatted_chars]
    exact typedMarks_between (between_nil _ _)
  | .plural head lead kind trail offset branches last => by
    rw [ArgumentSource.plural_chars]
    refine typedMarks_between (between_append.2 ⟨?_, ?_⟩)
    · refine (offsetMarks_between _ offset).mono (by omega) ?_
      simp only [List.length_append, List.length_cons]
      omega
    · refine (branchMarks_between _ branches).mono (by omega) ?_
      simp only [List.length_append, List.length_cons]
      omega
  | .select head lead trail branches last => by
    rw [ArgumentSource.select_chars]
    refine typedMarks_between ((branchMarks_between _ branches).mono (by omega) ?_)
    simp only [List.length_append, List.length_cons]
    omega

theorem marksOf_between (pos : Nat) :
    (pieces : List Piece) → Between pos (pos + (charsOf pieces).length) (marksOf pos pieces)
  | [] => between_nil _ _
  | piece :: rest => by
    rw [marksOf, charsOf, List.length_append]
    refine between_append.2 ⟨?_, ?_⟩
    · exact (piece.marks_between pos).mono (Nat.le_refl _) (by omega)
    · exact (marksOf_between _ rest).mono (by omega) (by omega)

theorem branchMarks_between (pos : Nat) :
    (entries : List (BranchHead × List Piece)) →
      Between pos (pos + (branchChars entries).length) (branchMarks pos entries)
  | [] => between_nil _ _
  | (head, body) :: rest => by
    have hhead : head.chars.length =
        head.before.chars.length + head.source.chars.length + head.after.chars.length := by
      simp only [BranchHead.chars, List.length_append]
      omega
    have hlength : (branchChars ((head, body) :: rest)).length =
        head.chars.length + 1 + (charsOf body).length + 1 + (branchChars rest).length := by
      simp only [branchChars, List.length_append, List.length_cons]
      omega
    rw [branchMarks, hlength]
    refine between_append.2 ⟨?_, between_cons.2 ⟨⟨?_, ?_⟩, between_append.2 ⟨?_, ?_⟩⟩⟩
    · exact (head.source.marks_between _).mono (by omega) (by omega)
    · simp only [Mark.start]
      omega
    · simp only [Mark.finish]
      omega
    · exact (marksOf_between _ body).mono (by omega) (by omega)
    · exact (branchMarks_between _ rest).mono (by omega) (by omega)

end

/-! ## Marks stand where they say -/

/-- Whether a text has another at a position. -/
def Has (s : List Char) (pos : Nat) (t : List Char) : Prop := t <+: s.drop pos

section Has

variable {s t u : List Char} {c : Char} {pos : Nat}

theorem Has.left (h : Has s pos (t ++ u)) : Has s pos t := (List.prefix_append t u).trans h

theorem Has.right (h : Has s pos (t ++ u)) : Has s (pos + t.length) u := by
  obtain ⟨v, hv⟩ := h
  refine ⟨v, ?_⟩
  rw [← List.drop_drop, ← hv, List.append_assoc, List.drop_left]

theorem Has.head (h : Has s pos (c :: t)) : Has s pos [c] := Has.left h

theorem Has.tail (h : Has s pos (c :: t)) : Has s (pos + 1) t := Has.right (t := [c]) h

end Has

/-- Whether a text has a mark where it says. -/
def Mark.StandsIn (s : List Char) : Mark → Prop
  | .argument start stop => Has s start ['{'] ∧ Has s stop ['}']
  | .body start stop => Has s start ['{'] ∧ Has s stop ['}']
  | .keyword start type => Has s start type.keyword.toList
  | .exact start number => Has s start ('=' :: number.chars)
  | .offset start number => Has s start number.chars

section StandsIn

variable {s : List Char} {pos : Nat}

theorem KeySource.marks_standIn (source : KeySource) (h : Has s pos source.chars) :
    ∀ m ∈ source.marks pos, m.StandsIn s := by
  cases source with
  | word w => exact nofun
  | exact number =>
    intro m hm
    rw [List.mem_singleton.1 hm]
    exact h

theorem offsetMarks_standIn (source : Option OffsetSource) (h : Has s pos (offsetChars source)) :
    ∀ m ∈ offsetMarks pos source, m.StandsIn s := by
  cases source with
  | none => exact nofun
  | some source =>
    intro m hm
    rw [List.mem_singleton.1 hm]
    exact h.right.right.right

theorem typedMarks_standIn {head : Head} {lead : Blanks} {type : ArgumentType} {v : List Char}
    {inner : List Mark} (h : Has s pos (typedChars head lead type v))
    (hinner : Has s (behindKeyword pos head lead type) v → ∀ m ∈ inner, m.StandsIn s) :
    ∀ m ∈ typedMarks pos head lead type v inner, m.StandsIn s := by
  have hkeyword := h.right.tail.right
  have hbehind := hkeyword.right
  intro m hm
  rcases List.mem_cons.1 hm with rfl | hm
  · exact ⟨h.left.head, hbehind.right⟩
  · rcases List.mem_cons.1 hm with rfl | hm
    · exact hkeyword.left
    · exact hinner hbehind.left m hm

end StandsIn

mutual

theorem Piece.marks_standIn {s : List Char} {pos : Nat} :
    (piece : Piece) → Has s pos piece.chars → ∀ m ∈ piece.marks pos, m.StandsIn s
  | .argument source, h => source.marks_standIn h
  | .literal _, _ => nofun
  | .doubled, _ => nofun
  | .quoted _ _, _ => nofun
  | .lone, _ => nofun

theorem ArgumentSource.marks_standIn {s : List Char} {pos : Nat} :
    (source : ArgumentSource) → Has s pos source.chars → ∀ m ∈ source.marks pos, m.StandsIn s
  | .bare head, h => by
    rw [ArgumentSource.chars] at h
    intro m hm
    rw [List.mem_singleton.1 hm]
    exact ⟨h.left.head, h.right⟩
  | .formatted head lead kind trail style, h => by
    rw [ArgumentSource.formatted_chars] at h
    exact typedMarks_standIn h fun _ => nofun
  | .plural head lead kind trail offset branches last, h => by
    rw [ArgumentSource.plural_chars] at h
    refine typedMarks_standIn h fun h m hm => ?_
    rcases List.mem_append.1 hm with hm | hm
    · exact offsetMarks_standIn offset h.right.tail.left m hm
    · exact branchMarks_standIn branches h.right.tail.right.left m hm
  | .select head lead trail branches last, h => by
    rw [ArgumentSource.select_chars] at h
    exact typedMarks_standIn h fun h => branchMarks_standIn branches h.right.tail.left

/-- The marks of a message stand where it does. -/
theorem marksOf_standIn {s : List Char} {pos : Nat} :
    (pieces : List Piece) → Has s pos (charsOf pieces) → ∀ m ∈ marksOf pos pieces, m.StandsIn s
  | [], _ => nofun
  | piece :: rest, h => by
    rw [charsOf] at h
    intro m hm
    rw [marksOf] at hm
    rcases List.mem_append.1 hm with hm | hm
    · exact piece.marks_standIn h.left m hm
    · exact marksOf_standIn rest h.right m hm

theorem branchMarks_standIn {s : List Char} {pos : Nat} :
    (entries : List (BranchHead × List Piece)) → Has s pos (branchChars entries) →
      ∀ m ∈ branchMarks pos entries, m.StandsIn s
  | [], _ => nofun
  | (head, body) :: rest, h => by
    rw [branchChars] at h
    have hbody := h.right.tail
    have hclose := hbody.right
    intro m hm
    rw [branchMarks] at hm
    rcases List.mem_append.1 hm with hm | hm
    · exact head.source.marks_standIn h.left.right.left m hm
    · rcases List.mem_cons.1 hm with rfl | hm
      · exact ⟨h.right.head, hclose.head⟩
      · rcases List.mem_append.1 hm with hm | hm
        · exact marksOf_standIn body hbody.left m hm
        · exact branchMarks_standIn rest hclose.tail m hm

end

/-! ## What the marks tell of a cut -/

theorem Mark.OpenAt.whole {n : Nat} {m : Mark} (h : m.OpenAt n) : m.cutFault? n = none := by
  cases m with
  | argument start stop => rfl
  | body start stop => rfl
  | _ => exact absurd h id

/-- What is reported of a text cut at `n`, inside something that was opened at `outer`: what a cut
mark says, or else that the last thing opened is not closed. -/
structure Verdict (outer n : Nat) (marks : List Mark) (pos : Nat) (cause : Cause) : Prop where
  spoiled : ∀ m ∈ marks, ∀ found, m.cutFault? n = some found → found = (pos, cause)
  unclosed : (∀ m ∈ marks, m.cutFault? n = none) →
    cause = .unterminatedArgument ∧ (pos = outer ∨ ∃ m ∈ marks, m.OpenAt n ∧ m.start = pos) ∧
      ∀ m ∈ marks, m.OpenAt n → m.start ≤ pos

section Verdict

variable {outer n pos : Nat} {marks marks' : List Mark} {cause : Cause}

theorem Verdict.of_quiet (outer : Nat) (h : ∀ m ∈ marks, m.Quiet n) :
    Verdict outer n marks outer .unterminatedArgument where
  spoiled m hm found hfound := by
    rw [(h m hm).whole] at hfound
    cases hfound
  unclosed _ := ⟨rfl, .inl rfl, fun m hm hopen => absurd hopen (h m hm).closed⟩

/-- Marks that have nothing to say may be added. -/
theorem Verdict.add_quiet (h : Verdict outer n marks pos cause) (hsub : marks ⊆ marks')
    (hquiet : ∀ m ∈ marks', m ∈ marks ∨ m.Quiet n) : Verdict outer n marks' pos cause where
  spoiled m hm found hfound := by
    rcases hquiet m hm with hmem | hm
    · exact h.spoiled m hmem found hfound
    · rw [hm.whole] at hfound
      cases hfound
  unclosed hnone := by
    obtain ⟨hcause, hpos, hle⟩ := h.unclosed fun m hm => hnone m (hsub hm)
    refine ⟨hcause, hpos.imp id fun ⟨m, hm, hopen⟩ => ⟨m, hsub hm, hopen⟩, ?_⟩
    intro m hm hopen
    rcases hquiet m hm with hmem | hm
    · exact hle m hmem hopen
    · exact absurd hopen hm.closed

/-- Something that is open goes around what is inside of it, and hides what it stands in. -/
theorem Verdict.cons_open {m : Mark} (hopen : m.OpenAt n) (hle : ∀ b ∈ marks, m.start ≤ b.start)
    (h : Verdict m.start n marks pos cause) (outer : Nat) :
    Verdict outer n (m :: marks) pos cause where
  spoiled b hb found hfound := by
    rcases List.mem_cons.1 hb with rfl | hb
    · rw [hopen.whole] at hfound
      cases hfound
    · exact h.spoiled b hb found hfound
  unclosed hnone := by
    obtain ⟨hcause, hpos, hmax⟩ := h.unclosed fun b hb => hnone b (List.mem_cons_of_mem _ hb)
    refine ⟨hcause, .inr ?_, ?_⟩
    · rcases hpos with rfl | ⟨b, hb, hbopen⟩
      · exact ⟨m, List.mem_cons_self, hopen, rfl⟩
      · exact ⟨b, List.mem_cons_of_mem _ hb, hbopen⟩
    · intro b hb hbopen
      rcases List.mem_cons.1 hb with rfl | hb
      · rcases hpos with rfl | ⟨b', hb', -, rfl⟩
        · exact Nat.le_refl _
        · exact hle b' hb'
      · exact hmax b hb hbopen

/-- A keyword or a numeral that the cut spoils. -/
theorem Verdict.of_spoiled {m : Mark} (h : m.cutFault? n = some (pos, cause)) (outer : Nat) :
    Verdict outer n [m] pos cause where
  spoiled b hb found hfound := by
    rw [List.mem_singleton.1 hb, h] at hfound
    exact (Option.some.inj hfound).symm
  unclosed hnone := by
    rw [hnone m (List.mem_singleton.2 rfl)] at h
    cases h

/-- With nothing around it, an argument that is open has the last brace that is open inside of it
or at its own start. -/
theorem Verdict.innermost (h : Verdict 0 n marks pos cause) (hinside : Inside n marks)
    (hwhole : ∀ m ∈ marks, m.cutFault? n = none) :
    cause = .unterminatedArgument ∧ ∃ m, Innermost n marks m ∧ m.start = pos := by
  obtain ⟨hcause, hpos, hlast⟩ := h.unclosed hwhole
  refine ⟨hcause, ?_⟩
  rcases hpos with rfl | ⟨m, hmem, hopen, rfl⟩
  · obtain ⟨start, stop, hmem, hopen⟩ := hinside
    obtain rfl : start = 0 := Nat.le_zero.1 (hlast _ hmem hopen)
    exact ⟨_, ⟨hmem, hopen, hlast⟩, rfl⟩
  · exact ⟨m, ⟨hmem, hopen, hlast⟩, rfl⟩

end Verdict

/-! ## Rules on a text that is cut -/

/-- What a rule gives for a text cut at `n` is what the marks tell of the cut.  The text that the
fault leaves is the end of what is left of the pattern, from the position of the fault on. -/
def Cut {α : Type} (outer n : Nat) (marks : List Mark) (result : Except Fault α) : Prop :=
  ∃ cause rest pos, result = .error (.malformed cause rest) ∧ rest.length + pos = n ∧
    Verdict outer n marks pos cause

section Cut

variable {α β : Type} {outer n : Nat} {marks marks' : List Mark} {result : Except Fault α}

/-- The argument was opened at `outer`, and nothing else can be told. -/
theorem cut_unterminated {opened : List Char} (hopened : opened.length + outer = n)
    (h : ∀ m ∈ marks, m.Quiet n) :
    Cut outer n marks (.error (.malformed .unterminatedArgument opened) : Except Fault α) :=
  ⟨_, opened, outer, rfl, hopened, .of_quiet outer h⟩

/-- A rule that fails with what another fails with. -/
theorem Cut.of_error (h : Cut outer n marks result) {other : Except Fault β}
    (hfail : ∀ fault, result = .error fault → other = .error fault) :
    Cut outer n marks other := by
  obtain ⟨cause, rest, pos, hresult, hlength, hverdict⟩ := h
  exact ⟨cause, rest, pos, hfail _ hresult, hlength, hverdict⟩

theorem Cut.bind (h : Cut outer n marks result) (f : α → Except Fault β) :
    Cut outer n marks (result >>= f) := by
  refine h.of_error ?_
  rintro fault rfl
  rfl

theorem Cut.add_quiet (h : Cut outer n marks result) (hsub : marks ⊆ marks')
    (hquiet : ∀ m ∈ marks', m ∈ marks ∨ m.Quiet n) : Cut outer n marks' result := by
  obtain ⟨cause, rest, pos, hresult, hlength, hverdict⟩ := h
  exact ⟨cause, rest, pos, hresult, hlength, hverdict.add_quiet hsub hquiet⟩

theorem Cut.append_left (h : Cut outer n marks result) (hquiet : ∀ m ∈ marks', m.Quiet n) :
    Cut outer n (marks' ++ marks) result := by
  refine h.add_quiet (List.subset_append_right _ _) ?_
  intro m hm
  exact (List.mem_append.1 hm).symm.imp id (hquiet m)

theorem Cut.append_right (h : Cut outer n marks result) (hquiet : ∀ m ∈ marks', m.Quiet n) :
    Cut outer n (marks ++ marks') result := by
  refine h.add_quiet (List.subset_append_left _ _) ?_
  intro m hm
  exact (List.mem_append.1 hm).imp id (hquiet m)

theorem Cut.cons_open {m : Mark} (h : Cut m.start n marks result) (hopen : m.OpenAt n)
    (hle : ∀ b ∈ marks, m.start ≤ b.start) (outer : Nat) : Cut outer n (m :: marks) result := by
  obtain ⟨cause, rest, pos, hresult, hlength, hverdict⟩ := h
  exact ⟨cause, rest, pos, hresult, hlength, hverdict.cons_open hopen hle outer⟩

end Cut

end Phrasebook.Pattern
