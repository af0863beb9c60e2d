/-
  Every cut of a pattern that is read.

  A message that is cut outside of its arguments is derived as far as it is
  left.  A cut that goes through an argument is found out there: what stands in
  front of the argument is read, and the argument reports what its marks tell.
-/
import Phrasebook.Proofs.Pattern.Cut
import Phrasebook.Proofs.Pattern.Grammar

set_option autoImplicit false

namespace Phrasebook.Pattern

/-! ## Messages -/

/-- The first characters of what is quoted, at least one. -/
def Quoted.take (span : Quoted) (k : Nat) : Quoted where
  chars := span.chars.take (k + 1)
  opens := by
    obtain ⟨c, rest, hspan, hc⟩ := span.opens
    exact ⟨c, rest.take k, hspan ▸ List.take_succ_cons, hc⟩
  closes hmem := span.closes (List.mem_of_mem_take hmem)

/-- What is in front of a cut through a piece that is no argument is derived, too. -/
theorem Piece.exists_cut {piece : Piece} (hpiece : ∀ source, piece ≠ .argument source) {k : Nat}
    (hk : k < piece.chars.length) :
    ∃ kept, charsOf kept = piece.chars.take k ∧ FitAll none kept ∧ depthOf kept = 0 := by
  cases piece with
  | literal c =>
    obtain rfl : k = 0 := Nat.lt_one_iff.1 hk
    exact ⟨[], rfl, trivial, rfl⟩
  | doubled =>
    match k, hk with
    | 0, _ => exact ⟨[], rfl, trivial, rfl⟩
    | 1, _ => exact ⟨[.lone], rfl, ⟨nofun, trivial⟩, rfl⟩
  | quoted span closed =>
    match k with
    | 0 => exact ⟨[], rfl, trivial, rfl⟩
    | 1 => exact ⟨[.lone], rfl, ⟨nofun, trivial⟩, rfl⟩
    | k + 2 =>
      have hle : k + 1 ≤ span.chars.length := by
        cases closed <;>
          simp only [Piece.chars, List.length_cons, List.length_append, List.length_nil,
            ↓reduceIte, Bool.false_eq_true] at hk <;> omega
      have htake : (Piece.quoted span closed).chars.take (k + 2) =
          '\'' :: span.chars.take (k + 1) := by
        rw [Piece.chars, List.take_succ_cons, List.take_append_of_le_length hle]
      refine ⟨[.quoted (span.take k) false], ?_, ⟨fun _ => rfl, trivial⟩, rfl⟩
      rw [htake]
      simp [Quoted.take, charsOf, Piece.chars]
  | lone =>
    obtain rfl : k = 0 := Nat.lt_one_iff.1 hk
    exact ⟨[], rfl, trivial, rfl⟩
  | argument source => exact absurd rfl (hpiece source)

/-- Every piece fits the end of the pattern in place of what follows it. -/
theorem Piece.Fits.none {piece : Piece} {next : Option Char} (h : piece.Fits next) :
    piece.Fits .none := by
  cases piece with
  | lone => exact nofun
  | quoted span closed => exact fun _ => rfl
  | argument source => exact h
  | _ => trivial

/-- A cut outside of every argument leaves a derivation, and no mark has anything to say of it; any
other cut goes through an argument. -/
theorem cut_cases (pieces : List Piece) (hfit : FitAll none pieces) {k : Nat}
    (hk : k ≤ (charsOf pieces).length) :
    (∃ kept, charsOf kept = (charsOf pieces).take k ∧ FitAll none kept ∧
        depthOf kept ≤ depthOf pieces ∧ ∀ pos, ∀ m ∈ marksOf pos pieces, m.Quiet (pos + k)) ∨
      ∃ before source after j, pieces = before ++ .argument source :: after ∧
        k = (charsOf before).length + j ∧ 0 < j ∧ j < source.chars.length := by
  induction pieces generalizing k with
  | nil => exact .inl ⟨[], List.take_nil.symm, trivial, Nat.le_refl _, nofun⟩
  | cons piece rest ih =>
    obtain ⟨hpiece, hrest⟩ := hfit
    rw [charsOf]
    rw [charsOf, List.length_append] at hk
    rcases take_append_cases piece.chars (charsOf rest) k with ⟨hlt, htake⟩ | ⟨j, rfl, htake⟩
    · have hbehind : ∀ pos, ∀ m ∈ marksOf (pos + piece.chars.length) rest, m.Quiet (pos + k) :=
        fun pos => (marksOf_between (pos + piece.chars.length) rest).quiet_of_le
          (Nat.add_le_add_left (Nat.le_of_lt hlt) pos)
      rw [htake]
      by_cases hargument : ∃ source, piece = .argument source
      · obtain ⟨source, rfl⟩ := hargument
        rcases Nat.eq_zero_or_pos k with rfl | hpos
        · refine .inl ⟨[], rfl, trivial, Nat.zero_le _, ?_⟩
          intro pos
          exact (marksOf_between pos _).quiet_of_le (Nat.le_refl _)
        · exact .inr ⟨[], source, rest, k, rfl, (Nat.zero_add k).symm, hpos, hlt⟩
      · obtain ⟨kept, hkept, hfits, hdepth⟩ :=
          Piece.exists_cut (fun source h => hargument ⟨source, h⟩) hlt
        refine .inl ⟨kept, hkept, hfits, hdepth ▸ Nat.zero_le _, ?_⟩
        intro pos m hm
        rw [marksOf] at hm
        rcases List.mem_append.1 hm with hm | hm
        · cases piece with
          | argument source => exact absurd ⟨source, rfl⟩ hargument
          | _ => exact absurd hm List.not_mem_nil
        · exact hbehind pos m hm
    · rcases ih hrest (Nat.le_of_add_le_add_left hk) with ⟨kept, hkept, hfits, hdepth, hquiet⟩ |
        ⟨before, source, after, i, rfl, rfl, hpos, hlt⟩
      · refine .inl ⟨piece :: kept, ?_, ⟨?_, hfits⟩, ?_, ?_⟩
        · rw [htake, charsOf, hkept]
        · rw [hkept]
          cases j with
          | zero => exact hpiece.none
          | succ j =>
            cases hchars : charsOf rest with
            | nil => exact hpiece.none
            | cons c t =>
              rw [hchars] at hpiece
              exact hpiece
        · rw [depthOf, depthOf]
          omega
        · intro pos m hm
          rw [marksOf] at hm
          rw [← Nat.add_assoc]
          rcases List.mem_append.1 hm with hm | hm
          · exact (piece.marks_between pos).quiet_of_finish_le (Nat.le_add_right _ _) m hm
          · exact hquiet _ m hm
      · refine .inr ⟨piece :: before, source, after, i, rfl, ?_, hpos, hlt⟩
        rw [charsOf, List.length_append, Nat.add_assoc]

/-- A rule for arguments that reports what the marks tell of an argument that is cut. -/
def CutArgument (limit : Int) (room : Nat) (body : Option (Reader Message)) : Prop :=
  ∀ (source : ArgumentSource) (pos k outer : Nat), source.Fits → source.depth ≤ room →
    0 < k → k < source.chars.length →
      Cut outer (pos + k) (source.marks pos) (argument limit body (source.chars.take k))

theorem messageOver_take {limit : Int} {room : Nat} {body : Option (Reader Message)}
    (hcomplete : CompleteArgument limit room body) (hcut : CutArgument limit room body)
    (inBranch : Bool) : CutMessage room (messageOver limit body inBranch) := by
  intro pieces pos k hfit hdepth hk
  rcases cut_cases pieces hfit hk with ⟨kept, hkept, hfits, hle, hquiet⟩ |
    ⟨before, source, after, j, rfl, rfl, hpos, hlt⟩
  · refine .inl ⟨⟨messageOf kept, ?_⟩, hquiet pos⟩
    have h := messageOver_complete hcomplete inBranch kept [] (.inl rfl) hfits
      (Nat.le_trans hle hdepth)
    rwa [List.append_nil, hkept] at h
  · obtain ⟨hbefore, hsource, -⟩ := (fitAll_append _ _ _).1 hfit
    rw [depthOf_append, depthOf, Nat.max_le, Nat.max_le] at hdepth
    obtain ⟨i, rfl⟩ := Nat.exists_eq_succ_of_ne_zero (Nat.ne_of_gt hpos)
    obtain ⟨t, ht⟩ : ∃ t, source.chars = '{' :: t := by cases source <;> exact ⟨_, rfl⟩
    have htext : (charsOf (before ++ .argument source :: after)).take
        ((charsOf before).length + (i + 1)) = charsOf before ++ source.chars.take (i + 1) := by
      rw [charsOf_append, List.take_length_add_append, charsOf, Piece.chars,
        List.take_append_of_le_length (Nat.le_of_lt hlt)]
    have hmarks : marksOf pos (before ++ .argument source :: after) =
        marksOf pos before ++ (source.marks (pos + (charsOf before).length) ++
          marksOf (pos + (charsOf before).length + source.chars.length) after) := by
      rw [marksOf_append, marksOf, Piece.marks, Piece.chars]
    have hn : pos + ((charsOf before).length + (i + 1)) =
        pos + (charsOf before).length + (i + 1) := (Nat.add_assoc _ _ _).symm
    rw [htext, hmarks, hn]
    obtain ⟨stop, hmem, hstop⟩ := source.exists_mem_marks (pos + (charsOf before).length)
    refine .inr ⟨⟨_, stop, List.mem_append_right _ (List.mem_append_left _ hmem), by omega,
      by omega⟩, fun outer => ?_⟩
    have hargument := hcut source (pos + (charsOf before).length) (i + 1) outer hsource hdepth.2.1
      hpos hlt
    refine ((hargument.of_error ?_).append_right ?_).append_left ?_
    · -- what fails in the argument fails behind what stands in front of it
      intro fault hfault
      rw [ht, List.take_succ_cons] at hfault ⊢
      rw [messageOver_run, scan_error_behind hcomplete (scan_open_of_error hfault) before ?_
        hdepth.1]
      · rfl
      · rw [charsOf, Piece.chars, ht] at hbefore
        exact hbefore
    · exact (marksOf_between _ after).quiet_of_le (by omega)
    · exact (marksOf_between pos before).quiet_of_finish_le (Nat.le_add_right _ _)

/-- Every message that is cut is read, if no argument is open at the cut, and otherwise reports
what its marks tell. -/
theorem message_take (limit : Int) (room : Nat) (inBranch : Bool) :
    CutMessage room (message limit room inBranch) := by
  induction room generalizing inBranch with
  | zero =>
    rw [message_eq]
    refine messageOver_take (completeArgument_zero limit none) ?_ inBranch
    intro source pos k outer _ hdepth
    cases source <;> cases hdepth
  | succ room ih =>
    rw [message_eq]
    have hcomplete := message_complete limit room true
    refine messageOver_take (argument_complete limit hcomplete) ?_ inBranch
    intro source pos k outer hfit hdepth hk hlt
    exact argument_take limit hcomplete (ih true) source hfit hdepth hk hlt pos outer

/-! ## Parsers -/

/-- A parser that takes a pattern takes a shorter one. -/
theorem Parser.rejects_of_le {p : Parser} {size size' : Nat} (h : p.rejects size = false)
    (hle : size' ≤ size) : p.rejects size' = false := by
  simp only [Parser.rejects, Bool.and_eq_false_iff, decide_eq_false_iff_not] at h ⊢
  exact h.imp id fun hsize => by omega

/-- A parser reports of a cut what its rule does. -/
theorem Parser.parse_of_cut {p : Parser} {s : List Char} {outer n : Nat} {marks : List Mark}
    (hsize : p.rejects s.length = false) (hlength : s.length = n)
    (h : Cut outer n marks (p.rule.run s)) :
    ∃ pos cause, p.parse (String.ofList s) = .error (.malformed ⟨String.ofList s, pos, cause⟩) ∧
      Verdict outer n marks pos cause := by
  obtain ⟨cause, rest, pos, herror, hsum, hverdict⟩ := h
  refine ⟨pos, cause, Parser.parse_eq_malformed_iff.2 ?_, hverdict⟩
  rw [String.toList_ofList]
  exact ⟨hsize, cause, rest, herror, by rw [hlength, ← hsum, Nat.add_sub_cancel_left]⟩

/-- A derivation of a pattern with no more arguments open at once than a parser allows. -/
structure Parser.Spells (p : Parser) (pattern : String) (pieces : List Piece) : Prop where
  chars : charsOf pieces = pattern.toList
  fits : FitAll none pieces
  depth : depthOf pieces ≤ p.maxNestingDepth.toNat

/-- A pattern that is read is derived, and a cut of it anywhere tells by the marks of any
derivation what is reported.  Outside of every argument nothing is.  Inside of one it is the last
brace that is open at the cut, of an argument or of a body, unless the cut leaves letters of a
keyword that are none, or no digit of a number that was begun: then it is that keyword, or that
number. -/
theorem Parser.parse_take (p : Parser) (pattern : String) (nodes : Message)
    (h : p.parse pattern = .ok nodes) :
    (∃ pieces, p.Spells pattern pieces) ∧
      ∀ pieces, p.Spells pattern pieces →
        let marks := marksOf 0 pieces
        (∀ m ∈ marks, m.StandsIn pattern.toList) ∧
          ∀ n < pattern.toList.length,
            let cut := String.ofList (pattern.toList.take n)
            (¬ Inside n marks → ∃ nodes, p.parse cut = .ok nodes) ∧
              (Inside n marks →
                ((∀ m ∈ marks, m.cutFault? n = none) → ∃ m, Innermost n marks m ∧
                  p.parse cut = .error (.malformed ⟨cut, m.start, .unterminatedArgument⟩)) ∧
                ∀ m ∈ marks, ∀ pos cause, m.cutFault? n = some (pos, cause) →
                  p.parse cut = .error (.malformed ⟨cut, pos, cause⟩)) := by
  obtain ⟨hsize, rest, hrun⟩ := Parser.parse_eq_ok_iff.1 h
  rw [Parser.rule] at hrun
  obtain ⟨-, pieces, hspell, hfit, hdepth, -⟩ := message_run_eq_ok_iff.1 hrun
  refine ⟨⟨pieces, hspell, hfit, hdepth⟩, ?_⟩
  clear hspell hfit hdepth pieces
  rintro pieces ⟨hspell, hfit, hdepth⟩
  refine ⟨marksOf_standIn pieces ⟨[], by simp [hspell]⟩, ?_⟩
  intro n hn
  have hlength : (pattern.toList.take n).length = n := List.length_take_of_le (Nat.le_of_lt hn)
  have hsize' := Parser.rejects_of_le hsize (hlength.trans_le (Nat.le_of_lt hn))
  have htake := message_take p.maxNestingDepth p.maxNestingDepth.toNat false pieces 0 n hfit hdepth
  rw [hspell, Nat.zero_add] at htake
  rcases htake (Nat.le_of_lt hn) with ⟨⟨message, hread⟩, hquiet⟩ | ⟨hinside, hcut⟩
  · refine ⟨fun _ => ⟨message, Parser.parse_eq_ok_iff.2 ?_⟩, ?_⟩
    · rw [String.toList_ofList]
      exact ⟨hsize', [], hread⟩
    · rintro ⟨start, stop, hmem, hopen⟩
      exact absurd hopen (hquiet _ hmem).closed
  · obtain ⟨pos, cause, hparse, hverdict⟩ := Parser.parse_of_cut hsize' hlength (hcut 0)
    refine ⟨fun houtside => absurd hinside houtside, fun _ => ⟨?_, ?_⟩⟩
    · intro hwhole
      obtain ⟨rfl, m, hinnermost, rfl⟩ := hverdict.innermost hinside hwhole
      exact ⟨m, hinnermost, hparse⟩
    · intro m hmem pos' cause' hfault
      obtain ⟨rfl, rfl⟩ := Prod.mk.inj (hverdict.spoiled m hmem _ hfault)
      exact hparse

/-- A number that is begun with its sign, and a body behind one that is read. -/
theorem Parser.parse_take_minus :
    (⟨0, 1, by decide⟩ : Parser).parse "\x7bn,plural,=-" =
        .error (.malformed ⟨"\x7bn,plural,=-", 11, .expectedInteger⟩) ∧
      (⟨0, 1, by decide⟩ : Parser).parse "\x7bn,plural,=-1\x7bx" =
        .error (.malformed ⟨"\x7bn,plural,=-1\x7bx", 13, .unterminatedArgument⟩) := by
  let p : Parser := ⟨0, 1, by decide⟩
  let number : Numeral := ⟨true, ['1'], by decide, List.all_eq_true.1 (by decide), by decide⟩
  let n : Head := ⟨.none, ⟨['n'], by decide, List.all_eq_true.1 (by decide)⟩, .none⟩
  let pieces : List Piece :=
    [.argument (.plural n .none .cardinal .none none
      [(⟨.none, .exact number, .none⟩, [.literal ⟨'x', rfl⟩])] .none)]
  have hmarks : marksOf 0 pieces = [.argument 0 16, .keyword 3 (.plural .cardinal),
      .exact 10 number, .body 13 15] := rfl
  have hfit : FitAll none pieces := by
    simp [pieces, FitAll, Piece.Fits, ArgumentSource.Fits, BranchesFit]
  have hspells : p.Spells "\x7bn,plural,=-1\x7bx\x7d\x7d" pieces := ⟨rfl, hfit, by decide⟩
  have hread : p.parse "\x7bn,plural,=-1\x7bx\x7d\x7d" =
      .ok [.plural .cardinal "n" 0 ⟨[(.exact (-1), [.text "x"])]⟩] := by
    decide +kernel
  obtain ⟨-, hcut⟩ := (Parser.parse_take p _ _ hread).2 pieces hspells
  rw [hmarks] at hcut
  refine ⟨?_, ?_⟩
  · obtain ⟨-, hinside⟩ := hcut 12 (by decide)
    obtain ⟨-, hspoiled⟩ := hinside ⟨0, 16, by simp, by decide, by decide⟩
    exact hspoiled (.exact 10 number) (by simp) 11 .expectedInteger rfl
  · obtain ⟨-, hinside⟩ := hcut 15 (by decide)
    obtain ⟨hunclosed, -⟩ := hinside ⟨0, 16, by simp, by decide, by decide⟩
    obtain ⟨m, hinnermost, herror⟩ := hunclosed (by decide)
    have hlast := hinnermost.last (.body 13 15) (by simp) ⟨by decide, by decide⟩
    have hmem := hinnermost.mem
    simp only [List.mem_cons, List.not_mem_nil, or_false] at hmem
    rcases hmem with rfl | rfl | rfl | rfl
    · exact absurd hlast (by decide)
    · exact absurd hinnermost.openAt id
    · exact absurd hinnermost.openAt id
    · exact herror

end Phrasebook.Pattern
