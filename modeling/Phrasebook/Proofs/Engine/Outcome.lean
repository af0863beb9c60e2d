/-
  What formatting comes to.

  An engine with the localizer of the library over any directory and no rules
  but bundled ones gives a text or reports what is wrong with an argument, unless
  the rendering reaches a node that is strained; then a fault of arithmetic gets
  out.
-/
import Phrasebook.Proofs.Engine.Transparency
import Phrasebook.Proofs.Pattern.Grammar
import Phrasebook.Proofs.Pattern.Image
import Phrasebook.Proofs.Render.Strain

set_option autoImplicit false

namespace Phrasebook

open Phrasebook.Number Phrasebook.Pattern

/-- A pattern gives well-formed messages only. -/
theorem Pattern.Parser.wellFormed_of_parse {p : Parser} {pattern : String} {message : Message}
    (h : p.parse pattern = .ok message) : WellFormed p.maxNestingDepth.toNat message := by
  obtain ⟨-, rest, hrun⟩ := Parser.parse_eq_ok_iff.1 h
  exact exists_derives_iff_wellFormed.1 ⟨_, (message_run_eq_ok_iff.1 hrun).2⟩

namespace Engine

/-- A pattern without dates and times, formatted for plain arguments by an engine with the localizer
of the library over a directory and no rules but bundled ones, gives a text or a failure that is
reported of an argument exactly if no strained node is reached.  Otherwise a fault of arithmetic
gets out, and it is the one of such a node. -/
theorem format_ok_or_reported_iff {e : Engine} (h : Sound e) {directory : Locale.Directory}
    (hlocalizer : e.localizer = .standard directory) (hrules : e.rules.OnlyBundled)
    {pattern : String} {message : Message} (hparse : e.parser.parse pattern = .ok message)
    (hkinds : ∀ use ∈ argumentUses message, use.kind ≠ .date ∧ use.kind ≠ .time)
    {arguments : Arguments} (harguments : ∀ v ∈ Entries.values arguments, v.IsScalar)
    (locale : Option String) :
    (((∃ text, (e.format pattern arguments locale).1 = .ok text) ∨
        ∃ failure, (e.format pattern arguments locale).1 = .error (.render failure) ∧
          failure.IsReported) ↔
      ¬ ∃ node fault, Reaches (e.setting arguments locale) message node ∧
        Strained directory (e.setting arguments locale) node fault) ∧
    ∀ fault, (∃ failure, (e.format pattern arguments locale).1 = .error (.render failure) ∧
        failure.report? = none ∧ failure.fault? = some fault) ↔
      ∃ node, Reaches (e.setting arguments locale) message node ∧
        Strained directory (e.setting arguments locale) node fault := by
  have hplain : (e.setting arguments locale).IsPlain directory := ⟨hlocalizer, hrules, harguments⟩
  have hsettles := settles_render hplain (Parser.wellFormed_of_parse hparse) hkinds
  have hformat : (e.format pattern arguments locale).1 =
      (render (e.setting arguments locale) message).mapError .render := by
    rw [format_eq h, plainFormat, hparse]
    rfl
  have hok : ∀ text, (e.format pattern arguments locale).1 = .ok text ↔
      render (e.setting arguments locale) message = .ok text := by
    intro text
    rw [hformat]
    cases render (e.setting arguments locale) message <;> simp [Except.mapError]
  have herror : ∀ failure, (e.format pattern arguments locale).1 = .error (.render failure) ↔
      render (e.setting arguments locale) message = .error failure := by
    intro failure
    rw [hformat]
    cases render (e.setting arguments locale) message <;> simp [Except.mapError]
  simp only [hok, herror]
  refine ⟨?_, fun fault => ?_⟩
  · rw [hsettles.ok_or_reported_iff, exists_comm]
  · rw [hsettles.faults_iff]
    constructor
    · rintro ⟨failure, hrender, -, hfault⟩
      exact ⟨failure, hrender, hfault⟩
    · rintro ⟨failure, hrender, hfault⟩
      exact ⟨failure, hrender, RenderFailure.report?_of_fault? hfault, hfault⟩

/-- A signaling NaN, from which no offset can be taken away. -/
theorem format_signaling_plural :
    ∃ failure, (format {} "{n, plural, other {#}}" [("n", .number (.decimal (.nan false true 0)))]
        none).1 = .error (.render failure) ∧
      failure.report? = none ∧ failure.fault? = some .invalidOperation := by
  have hsound : Sound {} := by
    intro entry hmem
    cases hmem
  have hparse : ({} : Engine).parser.parse "{n, plural, other {#}}" =
      .ok [.plural .cardinal "n" 0 ⟨[(.other, [.text "#"])]⟩] := by
    decide +kernel
  have hkinds : ∀ use ∈ argumentUses [.plural .cardinal "n" 0 ⟨[(.other, [.text "#"])]⟩],
      use.kind ≠ .date ∧ use.kind ≠ .time := by
    decide +kernel
  have harguments : ∀ v ∈ Entries.values [("n", Value.number (.decimal (.nan false true 0)))],
      v.IsScalar := by
    intro v hmem
    rw [List.mem_singleton.1 hmem]
    trivial
  refine ((format_ok_or_reported_iff hsound rfl Plural.Registry.onlyBundled_empty hparse hkinds
    harguments none).2 .invalidOperation).2 ⟨_, .first _ _, ?_⟩
  exact .difference rfl (.decimal (.signaling false 0))

/-- An engine with the English endings, and the ordinal number of an infinite decimal. -/
theorem format_infinite_ordinal :
    ¬ ((∃ text, (format { rules := Plural.Registry.empty.installAllOrdinals }
          "{n, selectordinal, other {#}}" [("n", .number (.decimal (.infinite false)))] none).1 =
            .ok text) ∨
      ∃ failure, (format { rules := Plural.Registry.empty.installAllOrdinals }
          "{n, selectordinal, other {#}}" [("n", .number (.decimal (.infinite false)))] none).1 =
            .error (.render failure) ∧ failure.IsReported) := by
  have hformat : (format { rules := Plural.Registry.empty.installAllOrdinals }
      "{n, selectordinal, other {#}}" [("n", .number (.decimal (.infinite false)))] none).1 =
        .error (.render (.number .invalidOperation)) := by
    decide +kernel
  rw [hformat]
  rintro (⟨text, htext⟩ | ⟨failure, herror, hreported⟩)
  · cases htext
  · cases herror
    exact RenderFailure.not_isReported_of_fault? rfl hreported

end Engine

end Phrasebook
