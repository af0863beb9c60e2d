/-
  The parser accepts its grammar, and nothing else.

  A parser without a limit on the length of patterns gives a message for a
  pattern exactly if the pattern derives that message with no more arguments
  open at once than the parser allows.  In particular the grammar is
  unambiguous: the derivations of a pattern may differ, but they all stand for
  one message.
-/
import Phrasebook.Pattern.Parser
import Phrasebook.Proofs.Pattern.Completeness
import Phrasebook.Proofs.Pattern.Soundness

set_option autoImplicit false

namespace Phrasebook.Pattern

/-! ## The rule for whole patterns -/

/-- Outside a branch a message is read to the end of the text, and reading it is deriving it. -/
theorem message_run_eq_ok_iff {limit : Int} {room : Nat} {pattern rest : List Char}
    {nodes : Message} :
    (message limit room false).run pattern = .ok (nodes, rest) ↔
      rest = [] ∧ Derives room pattern nodes := by
  constructor
  · intro h
    obtain ⟨hend, pieces, hspell, hfit, hdepth, hmessage⟩ :=
      message_sound limit room false pattern nodes rest h
    rcases hend with rfl | ⟨hbranch, -⟩
    · rw [List.append_nil] at hspell
      exact ⟨rfl, pieces, hspell.symm, hfit, hdepth, hmessage⟩
    · cases hbranch
  · rintro ⟨rfl, pieces, rfl, hfit, hdepth, rfl⟩
    have h := message_complete limit room false pieces [] (.inl rfl) hfit hdepth
    rwa [List.append_nil] at h

/-- More room takes no derivation away. -/
theorem Derives.mono {room room' : Nat} {pattern : List Char} {nodes : Message}
    (h : Derives room pattern nodes) (hroom : room ≤ room') : Derives room' pattern nodes := by
  obtain ⟨pieces, hspell, hfit, hdepth, hmessage⟩ := h
  exact ⟨pieces, hspell, hfit, Nat.le_trans hdepth hroom, hmessage⟩

/-- Two derivations of one pattern stand for the same message. -/
theorem Derives.unique {room room' : Nat} {pattern : List Char} {nodes nodes' : Message}
    (h : Derives room pattern nodes) (h' : Derives room' pattern nodes') : nodes = nodes' := by
  have hread : (message 0 (max room room') false).run pattern = .ok (nodes, []) :=
    message_run_eq_ok_iff.2 ⟨rfl, h.mono (Nat.le_max_left _ _)⟩
  have hread' : (message 0 (max room room') false).run pattern = .ok (nodes', []) :=
    message_run_eq_ok_iff.2 ⟨rfl, h'.mono (Nat.le_max_right _ _)⟩
  rw [hread] at hread'
  cases hread'
  rfl

/-! ## Parsers -/

/-- A limit on size that is not positive turns no pattern away. -/
theorem Parser.rejects_eq_false {p : Parser} (hsize : p.maxSourceSize ≤ 0) (size : Nat) :
    p.rejects size = false := by
  have h : ¬ 0 < p.maxSourceSize := Int.not_lt.2 hsize
  simp [Parser.rejects, h]

/-- A parser gives the message that its rule reads, if the pattern is not too long. -/
theorem Parser.parse_eq_ok_iff {p : Parser} {pattern : String} {nodes : Message} :
    p.parse pattern = .ok nodes ↔
      p.rejects pattern.toList.length = false ∧
        ∃ rest, p.rule.run pattern.toList = .ok (nodes, rest) := by
  simp only [Parser.parse]
  cases p.rejects pattern.toList.length with
  | true => simp
  | false =>
    cases p.rule.run pattern.toList with
    | error fault => cases fault <;> simp
    | ok r => simp [Prod.ext_iff]

/-- A pattern is malformed where its rule fails, counted from the end of what the fault leaves. -/
theorem Parser.parse_eq_malformed_iff {p : Parser} {pattern : String} {e : ParseError} :
    p.parse pattern = .error (.malformed e) ↔
      p.rejects pattern.toList.length = false ∧
        ∃ cause rest, p.rule.run pattern.toList = .error (.malformed cause rest) ∧
          e = ⟨pattern, pattern.toList.length - rest.length, cause⟩ := by
  simp only [Parser.parse]
  cases p.rejects pattern.toList.length with
  | true => simp
  | false =>
    cases p.rule.run pattern.toList with
    | error fault => cases fault <;> simp [eq_comm]
    | ok r => simp

theorem Parser.parse_eq_integerTooLong_iff_run {p : Parser} {pattern : String} :
    p.parse pattern = .error .integerTooLong ↔
      p.rejects pattern.toList.length = false ∧
        p.rule.run pattern.toList = .error .integerTooLong := by
  simp only [Parser.parse]
  cases p.rejects pattern.toList.length with
  | true => simp
  | false =>
    cases p.rule.run pattern.toList with
    | error fault => cases fault <;> simp
    | ok r => simp

theorem Parser.parse_eq_tooLong_iff {p : Parser} {pattern : String} {size : Nat} {limit : Int} :
    p.parse pattern = .error (.tooLong size limit) ↔
      p.rejects pattern.toList.length = true ∧ size = pattern.toList.length ∧
        limit = p.maxSourceSize := by
  simp only [Parser.parse]
  cases p.rejects pattern.toList.length with
  | true => simp [eq_comm]
  | false =>
    cases p.rule.run pattern.toList with
    | error fault => cases fault <;> simp
    | ok r => simp

theorem Parser.parse_eq_ok_iff_run {p : Parser} (hsize : p.maxSourceSize ≤ 0) {pattern : String}
    {nodes : Message} :
    p.parse pattern = .ok nodes ↔ ∃ rest, p.rule.run pattern.toList = .ok (nodes, rest) := by
  rw [Parser.parse_eq_ok_iff, Parser.rejects_eq_false hsize, and_iff_right rfl]

/-- A pattern has a message exactly if it derives it. -/
theorem Parser.parse_eq_ok_iff_derives (p : Parser) (hsize : p.maxSourceSize ≤ 0)
    (pattern : String) (nodes : Message) :
    p.parse pattern = .ok nodes ↔ Derives p.maxNestingDepth.toNat pattern.toList nodes := by
  rw [Parser.parse_eq_ok_iff_run hsize, Parser.rule]
  simp only [message_run_eq_ok_iff, exists_eq_left]

/-- Two apostrophes, a quoted brace and a repeated key, as the grammar has them. -/
theorem Parser.derives_of_parse_select :
    Derives 2 "It''s '\x7b'{g, select, a {x} b {{n}} a {y}}".toList
      [.text "It's \x7b", .select "g" ⟨[(.name "a", [.text "y"]), (.name "b", [.argument "n"])]⟩] :=
  (Parser.parse_eq_ok_iff_derives ⟨0, 2, by decide⟩ (by decide)
    "It''s '\x7b'{g, select, a {x} b {{n}} a {y}}" _).1 (by decide +kernel)

end Phrasebook.Pattern
