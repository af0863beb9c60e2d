/-
  Where faults are reported.

  The position of a fault of one character is the first that is wrong: the
  pattern up to it can be completed, and no pattern that is read begins with it
  and that character.  A pattern with an argument that is never closed can be
  completed as a whole.
-/
import Phrasebook.Proofs.Pattern.Failure
import Phrasebook.Proofs.Pattern.Grammar

set_option autoImplicit false

namespace Phrasebook.Pattern

/-- The rule of a parser fails as `Failure` says. -/
theorem Parser.failure_of_parse {p : Parser} {pattern : String} {e : ParseError}
    (h : p.parse pattern = .error (.malformed e)) :
    ∃ rest, e.position = pattern.toList.length - rest.length ∧
      Failure (fun _ => p.rule.run) (MessageText p.maxNestingDepth.toNat) pattern.toList
        (.malformed e.cause rest) := by
  obtain ⟨-, cause, rest, hrun, rfl⟩ := Parser.parse_eq_malformed_iff.1 h
  exact ⟨rest, rfl, message_failure _ _ false _ _ hrun⟩

/-- The text of a message is a pattern that is read. -/
theorem Parser.parse_of_messageText {p : Parser} (hsize : p.maxSourceSize ≤ 0) {v : List Char}
    (h : MessageText p.maxNestingDepth.toNat v) :
    ∃ message, p.parse (String.ofList v) = .ok message := by
  obtain ⟨pieces, rfl, hfit, hdepth⟩ := h
  refine ⟨messageOf pieces, (Parser.parse_eq_ok_iff_run hsize).2 ⟨[], ?_⟩⟩
  rw [Parser.rule, String.toList_ofList]
  exact message_run_eq_ok_iff.2 ⟨rfl, pieces, rfl, hfit.of_quotable rfl none, hdepth, rfl⟩

/-- What begins the text of a message begins a pattern that is read. -/
theorem Parser.exists_parse_of_prefix {p : Parser} (hsize : p.maxSourceSize ≤ 0) {u : List Char}
    (h : ∃ w, MessageText p.maxNestingDepth.toNat (u ++ w)) :
    ∃ q message, p.parse q = .ok message ∧ u <+: q.toList := by
  obtain ⟨w, hw⟩ := h
  obtain ⟨message, hparse⟩ := Parser.parse_of_messageText hsize hw
  refine ⟨_, message, hparse, ?_⟩
  rw [String.toList_ofList]
  exact List.prefix_append u w

/-- A character with which every text fails begins no pattern that is read. -/
theorem Parser.not_prefix_of_again {p : Parser} {u : List Char} {c : Char}
    {fault : List Char → Fault} (h : ∀ t, p.rule.run (u ++ c :: t) = .error (fault t)) (q : String)
    (message : Message) (hparse : p.parse q = .ok message) : ¬ u ++ [c] <+: q.toList := by
  rintro ⟨t, ht⟩
  obtain ⟨-, left, hrun⟩ := Parser.parse_eq_ok_iff.1 hparse
  rw [← ht, List.append_assoc, List.singleton_append, h t] at hrun
  cases hrun

/-- A fault of one character is reported at the first character that is wrong: what stands in front
of it begins a pattern that the parser reads, and with that character it begins none.  A pattern in
which an argument is never closed begins a longer one that the parser reads. -/
theorem Parser.position_of_parse (p : Parser) (hsize : p.maxSourceSize ≤ 0) (pattern : String)
    (e : ParseError) (h : p.parse pattern = .error (.malformed e)) :
    (e.cause.AtCharacter →
      e.position < pattern.toList.length ∧
        (∃ q message, p.parse q = .ok message ∧ pattern.toList.take e.position <+: q.toList) ∧
        ∀ q message, p.parse q = .ok message →
          ¬ pattern.toList.take (e.position + 1) <+: q.toList) ∧
      (e.cause = .unterminatedArgument →
        ∃ q message, p.parse q = .ok message ∧ pattern.toList <+: q.toList ∧ q ≠ pattern) := by
  obtain ⟨rest, hposition, hfail⟩ := Parser.failure_of_parse h
  generalize hfault : Fault.malformed e.cause rest = fault at hfail
  cases hfail with
  | @atCharacter cause u t c hcause hspell hagain hmend =>
    obtain ⟨hsame, rfl⟩ := Fault.malformed.inj hfault
    have hat : e.position = u.length := by
      rw [hposition, hspell, List.length_append, Nat.add_sub_cancel]
    have hbehind : (u ++ c :: t).take (u.length + 1) = u ++ [c] := by
      rw [List.take_length_add_append, List.take_succ_cons, List.take_zero]
    rw [hat, hspell, hbehind, List.take_left]
    refine ⟨fun _ => ⟨?_, Parser.exists_parse_of_prefix hsize hmend, ?_⟩, ?_⟩
    · simp
    · exact Parser.not_prefix_of_again (hagain [])
    · intro hunterminated
      rw [← hsame, hunterminated] at hcause
      exact absurd hcause id
  | atEnd hmend =>
    obtain ⟨hsame, -⟩ := Fault.malformed.inj hfault
    refine ⟨?_, ?_⟩
    · intro hcause
      rw [hsame] at hcause
      exact absurd hcause id
    · intro _
      obtain ⟨q, message, hparse, hprefix⟩ := Parser.exists_parse_of_prefix hsize hmend
      refine ⟨q, message, hparse, hprefix, ?_⟩
      rintro rfl
      rw [h] at hparse
      cases hparse
  | inToken htoken =>
    subst hfault
    refine ⟨?_, ?_⟩
    · intro hcause
      cases hkind : e.cause <;> rw [hkind] at htoken hcause <;> contradiction
    · intro hunterminated
      rw [hunterminated] at htoken
      exact absurd htoken id

/-- Behind a name only a comma or a closing brace may come. -/
theorem Parser.position_of_second_brace :
    (∃ q message, (⟨0, 1, by decide⟩ : Parser).parse q = .ok message ∧
        ['{', 'a'] <+: q.toList) ∧
      ∀ q message, (⟨0, 1, by decide⟩ : Parser).parse q = .ok message →
        ¬ ['{', 'a', '{'] <+: q.toList := by
  have h : (⟨0, 1, by decide⟩ : Parser).parse "\x7ba\x7bb\x7d" =
      .error (.malformed ⟨"\x7ba\x7bb\x7d", 2, .expectedCharacter "\x7d"⟩) := by
    decide +kernel
  exact ((Parser.position_of_parse ⟨0, 1, by decide⟩ (by decide) _ _ h).1 trivial).2

end Phrasebook.Pattern
