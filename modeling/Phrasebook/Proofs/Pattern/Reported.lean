/-
  What is reported of a malformed pattern.

  A walk over a pattern stops because the pattern is too long, because a whole
  number in it is, or with a report of a defect, and for nothing else.  The
  report is about that pattern.  Its diagnostic has a span that begins at the
  position of the report and ends in the pattern, on the line and in the column
  that the report has, and what stands there is what the defect is about.
-/
import Phrasebook.Proofs.Pattern.Grammar
import Phrasebook.Proofs.Pattern.Walk

set_option autoImplicit false

namespace Phrasebook.Pattern

open Phrasebook.Source

/-! ## Spans and lines -/

theorem neg_one_le_lastNewline (s : List Char) (position : Int) : -1 ≤ lastNewline s position := by
  have htail := tailLength_le (s.take (charsBefore s.length position))
  simp only [lastNewline]
  omega

/-- A cursor counts columns as a report does: without a line feed in front, the last one is taken to
stand at -1. -/
theorem lineColumn_eq (s : List Char) (position : Int) :
    (Cursor.mk s position).lineColumn = ((lineNumber s position : Int), columnNumber s position) := by
  have hlast := neg_one_le_lastNewline s position
  simp only [Cursor.lineColumn, lineNumber, columnNumber, Prod.mk.injEq]
  refine ⟨by omega, ?_⟩
  by_cases h : 0 ≤ lastNewline s position
  · rw [if_pos h]
  · rw [if_neg h]
    omega

/-- The column of a span is that of its position. -/
theorem column_spanFrom (s : List Char) (position length : Nat) :
    ((spanFrom s position length).column : Int) = columnNumber s position := by
  have hcolumn := one_le_column s position
  rw [lineColumn_eq] at hcolumn
  simp only [spanFrom, lineColumn_eq]
  omega

theorem Cause.span_diagnostic (cause : Cause) (span : Span) :
    (cause.diagnostic span).span = some span := by
  cases cause <;> rfl

theorem stop_spanFrom_le {s : List Char} {position : Nat} (h : position ≤ s.length)
    (length : Nat) : (spanFrom s position length).stop ≤ s.length := by
  simp only [spanFrom]
  omega

/-- The span of a text that stands at its position covers that text. -/
theorem slice_spanFrom (front w t : List Char) :
    slice (front ++ (w ++ t)) (spanFrom (front ++ (w ++ t)) front.length w.length).start
      (spanFrom (front ++ (w ++ t)) front.length w.length).stop = w := by
  have hstop : (spanFrom (front ++ (w ++ t)) front.length w.length).stop = (front ++ w).length := by
    simp only [spanFrom, List.length_append]
    omega
  rw [hstop]
  simp only [spanFrom, slice]
  rw [charsBefore_natCast (by simp), charsBefore_natCast (by simp), ← List.append_assoc,
    List.take_left, List.drop_left]

/-! ## Faults of parsers -/

/-- The fault of a pattern stands in it, and is about what stands there. -/
theorem Parser.exists_standsAt {p : Parser} {pattern : String} {e : ParseError}
    (h : p.parse pattern = .error (.malformed e)) :
    ∃ front rest, pattern.toList = front ++ rest ∧ e.pattern = pattern ∧
      e.position = front.length ∧ e.cause.StandsAt front rest := by
  obtain ⟨-, cause, rest, hrun, rfl⟩ := Parser.parse_eq_malformed_iff.1 h
  obtain ⟨front, hspell, hstands⟩ :=
    message_failsIn pattern.toList _ _ false _ (List.suffix_refl _) _ hrun
  refine ⟨front, rest, hspell, rfl, ?_, hstands⟩
  simp [hspell]

/-- A walk over a pattern that has no message stops for one of three reasons; the cursor is never
asked for a character that is not there, no span is refused and no loop goes on without end.  If
the walk reports a defect, the report is that of the parser, it is about the pattern, its
diagnostic has a span that begins at the position of the report and ends in the pattern, with the
line and the column of the report, and what the defect is about stands there; the span of an
unknown keyword covers the keyword. -/
theorem Parser.walk_reported (p : Parser) (pattern : String) (stop : Stop)
    (h : p.walk pattern = .error stop) :
    stop = .tooLong pattern.toList.length p.maxSourceSize ∨ stop = .integerTooLong ∨
      ∃ e : ParseError, p.parse pattern = .error (.malformed e) ∧ stop = .reported e.report ∧
        e.pattern = pattern ∧ e.diagnostic.span = some e.span ∧
        e.span.start = e.position ∧ e.position ≤ e.span.stop ∧
        e.span.stop ≤ pattern.toList.length ∧
        e.span.line = lineNumber pattern.toList e.position ∧
        (e.span.column : Int) = columnNumber pattern.toList e.position ∧
        e.cause.StandsAt (pattern.toList.take e.position) (pattern.toList.drop e.position) ∧
        ∀ keyword, e.cause = .unknownArgumentType keyword →
          slice pattern.toList e.span.start e.span.stop = keyword.toList := by
  rw [Parser.walk_eq] at h
  cases hparse : p.parse pattern with
  | ok nodes =>
    rw [hparse] at h
    cases h
  | error failure =>
    rw [hparse] at h
    cases h
    cases failure with
    | tooLong size limit =>
      obtain ⟨-, rfl, rfl⟩ := Parser.parse_eq_tooLong_iff.1 hparse
      exact .inl rfl
    | integerTooLong => exact .inr (.inl rfl)
    | malformed e =>
      refine .inr (.inr ⟨e, rfl, rfl, ?_⟩)
      obtain ⟨front, rest, hspell, hpattern, hposition, hstands⟩ := Parser.exists_standsAt hparse
      have hspan : e.span = spanFrom pattern.toList e.position e.cause.width := by
        rw [ParseError.span, hpattern]
      have hle : e.position ≤ pattern.toList.length := by
        rw [hspell, hposition, List.length_append]
        omega
      refine ⟨hpattern, e.cause.span_diagnostic e.span, ?_⟩
      rw [hspan]
      refine ⟨rfl, Nat.le_max_right _ _, stop_spanFrom_le hle _, rfl, column_spanFrom _ _ _, ?_, ?_⟩
      · rw [hspell, hposition, List.take_left, List.drop_left]
        exact hstands
      · intro keyword hkeyword
        rw [hkeyword] at hstands ⊢
        obtain ⟨-, w, t, rfl, rfl, -, -⟩ := hstands
        have hwidth : (Cause.unknownArgumentType w.name).width = w.chars.length := by
          rw [Cause.width, Word.name, String.length_ofList]
        rw [hspell, hposition, hwidth, slice_spanFrom, Word.name, String.toList_ofList]

/-- A keyword on the second line is misspelled, and reported with its place there. -/
theorem Parser.walk_reported_keyword :
    ∃ e : ParseError, (⟨0, 1, by decide⟩ : Parser).walk "a\n\x7bn, nunber\x7d" =
        .error (.reported e.report) ∧
      e.cause = .unknownArgumentType "nunber" ∧ e.span.line = 2 ∧ e.span.column = 5 ∧
      slice "a\n\x7bn, nunber\x7d".toList e.span.start e.span.stop = "nunber".toList := by
  have hparse : (⟨0, 1, by decide⟩ : Parser).parse "a\n\x7bn, nunber\x7d" =
      .error (.malformed ⟨"a\n\x7bn, nunber\x7d", 6, .unknownArgumentType "nunber"⟩) := by
    decide +kernel
  have hwalk := Parser.walk_eq ⟨0, 1, by decide⟩ "a\n\x7bn, nunber\x7d"
  rw [hparse] at hwalk
  rcases Parser.walk_reported _ _ _ hwalk with h | h | ⟨e, he, hstop, -, -, -, -, -, hline, hcolumn, -,
    hslice⟩
  · cases h
  · cases h
  · rw [hparse] at he
    cases he
    refine ⟨_, hwalk, rfl, ?_, ?_, hslice _ rfl⟩
    · rw [hline]
      decide +kernel
    · have hat : columnNumber "a\n\x7bn, nunber\x7d".toList 6 = 5 := by decide +kernel
      exact Int.ofNat.inj (hcolumn.trans hat)

end Phrasebook.Pattern
