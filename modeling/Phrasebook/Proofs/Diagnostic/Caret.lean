/-
  The caret of a report stands under the character that the report is about.

  A report counts the line and the column of its position, and cuts the line out
  of the pattern, each on its own.  All three agree with the lines in front of
  the position (`exists_line`): the line shown is the one that the position is
  in, and the column is where in it.  The line and the caret are set off by
  margins of one width, however wide the number of the line is, so the caret has
  the place of the character, or the one behind the line if there is none.
-/
import Phrasebook.Proofs.Pattern.Reported
import Phrasebook.Proofs.Source.Lines

set_option autoImplicit false

namespace Phrasebook

open Phrasebook.Source

/-! ## The line of a position -/

theorem newlinesBefore_natCast {s : List Char} {k : Nat} (h : k ≤ s.length) :
    newlinesBefore s k = (s.take k).count '\n' := by
  rw [newlinesBefore, charsBefore_natCast h]

theorem columnNumber_natCast {s : List Char} {k : Nat} (h : k ≤ s.length) :
    columnNumber s k = tailLength (s.take k) + 1 := by
  simp only [columnNumber, lastNewline, charsBefore_natCast h, List.length_take]
  omega

/-- A position is some characters into one of the lines of a text, behind the lines in front of it
and their line feeds. -/
theorem exists_line {s : List Char} {k : Nat} (h : k ≤ s.length) :
    ∃ whole start later,
      s.splitOn '\n' = whole ++ (start ++ (s.drop k).takeWhile (· ≠ '\n')) :: later ∧
      lineNumber s k = whole.length + 1 ∧ columnNumber s k = start.length + 1 ∧
      k = (whole.map fun line => line.length + 1).sum + start.length ∧ '\n' ∉ start := by
  obtain ⟨whole, start, hwhole, hstart, hfree, hlength, hsplit⟩ := exists_linesBefore (s.take k)
  have hstays : ∀ c ∈ start, (decide (c ≠ '\n')) = true := by
    intro c hc
    exact decide_eq_true fun heq => hfree (heq ▸ hc)
  have hline := hsplit (s.drop k)
  rw [List.take_append_drop, splitOn_newline (start ++ s.drop k),
    List.takeWhile_append_of_pos hstays] at hline
  refine ⟨whole, start, _, hline, ?_, ?_, ?_, hfree⟩
  · rw [lineNumber, newlinesBefore_natCast h, hwhole]
  · rw [columnNumber_natCast h, hstart]
  · rw [← hlength, List.length_take, Nat.min_eq_left h]

/-- Behind some line feeds a new line begins. -/
theorem place_behind_newlines (n : Nat) (rest : List Char) :
    lineNumber (List.replicate n '\n' ++ rest) n = n + 1 ∧
      columnNumber (List.replicate n '\n' ++ rest) n = 1 := by
  have hle : n ≤ (List.replicate n '\n' ++ rest).length := by simp
  have hfront : (List.replicate n '\n' ++ rest).take n = List.replicate n '\n' :=
    List.take_left' List.length_replicate
  constructor
  · rw [lineNumber, newlinesBefore_natCast hle, hfront, List.count_replicate_self]
  · rw [columnNumber_natCast hle, hfront]
    simp [tailLength]

/-! ## Numbers have no line feeds -/

theorem newline_not_mem_toString (n : Nat) : '\n' ∉ (toString n).toList := by
  intro hmem
  rw [Nat.toString_eq_repr, Nat.toList_repr] at hmem
  have hdigit := Nat.isDigit_of_mem_toDigits (by decide) (by decide) hmem
  exact absurd hdigit (by decide)

theorem newline_not_mem_toString_int (i : Int) : '\n' ∉ (toString i).toList := by
  cases i with
  | ofNat n => exact newline_not_mem_toString n
  | negSucc n =>
    have htext : toString (Int.negSucc n) = "-" ++ toString (n + 1) := rfl
    rw [htext, String.toList_append, List.mem_append]
    rintro (hsign | hdigits)
    · exact absurd hsign (by decide)
    · exact newline_not_mem_toString (n + 1) hdigits

/-! ## The text of a report -/

/-- What stands in front of the line that is shown. -/
def margin (line : Nat) : String := alignRight 4 (toString line) ++ " | "

theorem newline_not_mem_margin (line : Nat) : '\n' ∉ (margin line).toList := by
  rw [margin, alignRight, String.toList_append, String.toList_append, String.toList_ofList,
    List.mem_append, List.mem_append]
  rintro ((hblank | hnumber) | hbar)
  · exact absurd (List.eq_of_mem_replicate hblank) (by decide)
  · exact newline_not_mem_toString line hnumber
  · exact absurd hbar (by decide)

/-- What stands in front of the caret: blanks and a bar, as wide as the margin and the part of the
line in front of the character. -/
def underline (line : Nat) (column : Int) : List Char :=
  List.replicate ((margin line).length - 2) ' ' ++ ['|', ' '] ++
    List.replicate (column - 1).toNat ' '

theorem length_underline (line : Nat) (column : Int) :
    (underline line column).length = (margin line).length + (column - 1).toNat := by
  have hbar : 2 ≤ (margin line).length := by
    have hthree : (" | " : String).length = 3 := by decide
    rw [margin, String.length_append, hthree]
    omega
  simp only [underline, List.length_append, List.length_replicate, List.length_cons,
    List.length_nil]
  omega

theorem not_mem_underline {c : Char} (hblank : c ≠ ' ') (hbar : c ≠ '|') (line : Nat)
    (column : Int) : c ∉ underline line column := by
  simp [underline, hblank, hbar]

/-- A summary in one line is shown over an empty line, the line of the pattern, and the caret. -/
theorem splitOn_contextText {summary : String} (h : '\n' ∉ summary.toList) (s : List Char)
    (position : Int) :
    (contextText summary s position).toList.splitOn '\n' =
      [(toString (lineNumber s position) ++ ":" ++ toString (columnNumber s position) ++ ": " ++
          summary).toList,
        [],
        (margin (lineNumber s position)).toList ++ lineText s (lineNumber s position - 1),
        underline (lineNumber s position) (columnNumber s position) ++ ['^']] := by
  have hpieces : (contextText summary s position).toList = ['\n'].intercalate
      [(toString (lineNumber s position) ++ ":" ++ toString (columnNumber s position) ++ ": " ++
          summary).toList,
        [],
        (margin (lineNumber s position)).toList ++ lineText s (lineNumber s position - 1),
        underline (lineNumber s position) (columnNumber s position) ++ ['^']] := by
    rw [contextText, String.toList_intercalate]
    simp only [List.map_cons, List.map_nil, String.toList_append, String.toList_ofList, underline,
      margin]
    rfl
  rw [hpieces]
  refine List.splitOn_intercalate '\n' ?_ (List.cons_ne_nil _ _)
  simp only [List.forall_mem_cons]
  refine ⟨?_, List.not_mem_nil, ?_, ?_, fun _ hmem => nomatch hmem⟩
  · simp only [String.toList_append, List.mem_append]
    rintro ((((hline | hcolon) | hcolumn) | hspace) | hsummary)
    · exact newline_not_mem_toString _ hline
    · exact absurd hcolon (by decide)
    · exact newline_not_mem_toString_int _ hcolumn
    · exact absurd hspace (by decide)
    · exact h hsummary
  · rw [List.mem_append]
    rintro (hmargin | htext)
    · exact newline_not_mem_margin _ hmargin
    · simpa using List.mem_takeWhile_imp htext
  · rw [List.mem_append]
    rintro (hunder | hcaret)
    · exact not_mem_underline (by decide) (by decide) _ _ hunder
    · exact absurd hcaret (by decide)

/-- The text of a report whose summary has no line feed shows the place that the report is about.
Its line and column are those that a cursor at the position counts; the position is as many
characters in as the lines in front of this one have, with a line feed for each, and the column less
one.  Of the four lines of the text the third is the line of the pattern behind a margin, and in the
last the caret follows blanks and a bar.  Where the position is a character of the line, the caret
has the place that this character has in the line above; where it is the end of the line, the caret
has the place behind that line. -/
theorem contextText_caret (headline : Headline) (pattern : String) (k : Nat)
    (hk : k ≤ pattern.toList.length)
    (hsummary : '\n' ∉ (Report.mk headline (.parse k pattern)).summary.toList) :
    let s := pattern.toList
    let line := lineNumber s k
    let column := columnNumber s k
    (Cursor.mk s k).lineColumn = ((line : Int), column) ∧ 1 ≤ column ∧
      (k : Int) =
        ((((s.splitOn '\n').take (line - 1)).map fun text => text.length + 1).sum : Nat) +
          (column - 1) ∧
      ∃ text under, (s.splitOn '\n')[line - 1]? = some text ∧
        (contextText (Report.mk headline (.parse k pattern)).summary s k).toList.splitOn '\n' =
          [(toString line ++ ":" ++ toString column ++ ": " ++
              (Report.mk headline (.parse k pattern)).summary).toList,
            [], (margin line).toList ++ text, under ++ ['^']] ∧
        (∀ c ∈ under, c = ' ' ∨ c = '|') ∧
        under.length = (margin line).length + (column - 1).toNat ∧
        (∀ c, s[k]? = some c → c ≠ '\n' →
          ((margin line).toList ++ text)[under.length]? = some c) ∧
        (s[k]? = none ∨ s[k]? = some '\n' →
          under.length = ((margin line).toList ++ text).length) := by
  intro s line column
  obtain ⟨whole, start, later, hlines, hline, hcolumn, hposition, -⟩ := exists_line (s := s) hk
  have hbefore : line - 1 = whole.length := Nat.sub_eq_of_eq_add hline
  have hstart : column - 1 = start.length := Int.sub_eq_iff_eq_add.2 hcolumn
  have htake : (s.splitOn '\n').take (line - 1) = whole := by
    rw [hlines, hbefore, List.take_left]
  have htext : (s.splitOn '\n')[line - 1]? =
      some (start ++ (s.drop k).takeWhile (· ≠ '\n')) := by
    rw [hlines, hbefore, List.getElem?_append_right (Nat.le_refl _), Nat.sub_self]
    rfl
  have hshown := splitOn_contextText hsummary s k
  rw [lineText_eq, htext, Option.getD_some] at hshown
  have hunder : (underline line column).length = ((margin line).toList ++ start).length := by
    rw [length_underline, hstart, Int.toNat_natCast, List.length_append, String.length_toList]
  refine ⟨Pattern.lineColumn_eq s k, by omega, ?_, _, underline line column, htext, hshown, ?_,
    length_underline line column, ?_, ?_⟩
  · rw [htake, hstart]
    exact_mod_cast hposition
  · intro c hc
    by_contra hother
    rw [not_or] at hother
    exact not_mem_underline hother.1 hother.2 line column hc
  · intro c hc hne
    obtain ⟨rest, hrest⟩ := takeWhile_drop_of_getElem? hc hne
    rw [hunder, hrest, ← List.append_assoc, List.getElem?_append_right (Nat.le_refl _),
      Nat.sub_self, List.getElem?_cons_zero]
  · intro hend
    rw [hunder, takeWhile_drop_eq_nil hend, List.append_nil]

/-- The number of a line in the ten thousands is wider than the field it is set in, and the caret
still stands under the brace at the beginning of the line. -/
theorem contextText_caret_wide :
    let pattern := String.ofList (List.replicate 12344 '\n' ++ ['\x7d'])
    ∃ text under, (contextText "bad" pattern.toList 12344).toList.splitOn '\n' =
        ["12345:1: bad".toList, [], "12345 | ".toList ++ text, under ++ ['^']] ∧
      under.length = 8 ∧ ("12345 | ".toList ++ text)[8]? = some '\x7d' := by
  intro pattern
  have hpattern : pattern.toList = List.replicate 12344 '\n' ++ ['\x7d'] := String.toList_ofList
  obtain ⟨hline, hcolumn⟩ := place_behind_newlines 12344 ['\x7d']
  rw [← hpattern] at hline hcolumn
  have hk : 12344 ≤ pattern.toList.length := by
    rw [hpattern, List.length_append, List.length_replicate]
    exact Nat.le_add_right _ _
  have hbrace : pattern.toList[12344]? = some '\x7d' := by
    rw [hpattern, List.getElem?_append_right (by rw [List.length_replicate]), List.length_replicate]
    rfl
  obtain ⟨-, -, -, text, under, -, hshown, -, hwidth, hunder, -⟩ :=
    contextText_caret (.text "bad") pattern 12344 hk (by decide)
  have hmargin : (margin 12345).toList = "12345 | ".toList := by decide +kernel
  have hfirst : (toString 12345 ++ ":" ++ toString (1 : Int) ++ ": " ++ "bad").toList =
      "12345:1: bad".toList := by decide +kernel
  have height : under.length = 8 := by
    rw [hwidth, hline, hcolumn]
    decide +kernel
  rw [hline, hmargin] at hshown hunder
  rw [hcolumn] at hshown
  rw [height] at hunder
  exact ⟨text, under, hshown.trans (congrArg (· :: _) hfirst), height,
    hunder _ hbrace (by decide)⟩

end Phrasebook
