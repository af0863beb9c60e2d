/-
  The rules that come with the library.

  A registry that holds bundled rules only sorts every quiet number, with one
  exception: the English endings go by a remainder, which decimals that are
  infinite or very large do not have (`category_eq_error_iff`).  Registering a
  bundled rule keeps a registry so.
-/
import Phrasebook.Plural.Rules
import Phrasebook.Proofs.Entries
import Phrasebook.Proofs.Number.Faults

set_option autoImplicit false

namespace Phrasebook.Plural

open Phrasebook.Number

/-! ## The rules -/

/-- A computation gives a result if its first step does, and the others do with that result. -/
theorem exists_ok_bind {α β : Type} {first : Except Fault α} {a : α} {next : α → Except Fault β}
    (hfirst : first = .ok a) (hnext : ∃ b, next a = .ok b) : ∃ b, (first >>= next) = .ok b := by
  rw [hfirst]
  exact hnext

namespace Rule

/-- A quiet number is one or it is not. -/
theorem exists_defaultCardinal {n : Numeric} (h : n.Quiet) :
    ∃ name, defaultCardinal.category n = .ok name := by
  obtain ⟨same, hsame⟩ := Numeric.equalsInt_of_quiet h 1
  exact exists_ok_bind hsame ⟨_, rfl⟩

/-- The English endings are refused to the numbers that have no last digit. -/
theorem englishOrdinal_cases {n : Numeric} (h : n.Quiet) :
    (englishOrdinal.category n = .error .invalidOperation ∧
      ∃ d, n = .decimal d ∧ d.Indivisible 10) ∨
    ((∃ name, englishOrdinal.category n = .ok name) ∧
      ¬ ∃ d, n = .decimal d ∧ d.Indivisible 10) := by
  have hten : digitCount 10 ≤ Decimal.precision := by decide
  have hhundred : digitCount 100 ≤ Decimal.precision := by decide
  rcases Numeric.remainder_cases (by decide) hten h with
    ⟨hlast, hfault⟩ | ⟨⟨last, hlast, hquiet⟩, hnone⟩
  · exact .inl ⟨by simp only [englishOrdinal, hlast]; rfl, hfault⟩
  rcases Numeric.remainder_cases (by decide) hhundred h with
    ⟨-, d, hd, hfault⟩ | ⟨⟨lastTwo, hlastTwo, hquiet'⟩, -⟩
  · exact absurd ⟨d, hd, hfault.mono (by decide)⟩ hnone
  -- with both remainders at hand each ending is asked for by comparisons
  have hends : ∀ digit teen : Int, ∃ b : Bool, (do
      if ← last.equalsInt digit then return !(← lastTwo.equalsInt teen) else return false) =
        (.ok b : Except Fault Bool) := by
    intro digit teen
    obtain ⟨same, hsame⟩ := Numeric.equalsInt_of_quiet hquiet digit
    refine exists_ok_bind hsame ?_
    cases same with
    | false => exact ⟨_, rfl⟩
    | true =>
      obtain ⟨sameTeen, hteen⟩ := Numeric.equalsInt_of_quiet hquiet' teen
      exact exists_ok_bind hteen ⟨_, rfl⟩
  obtain ⟨first, hfirst⟩ := hends 1 11
  obtain ⟨second, hsecond⟩ := hends 2 12
  obtain ⟨third, hthird⟩ := hends 3 13
  refine .inr ⟨exists_ok_bind hlast (exists_ok_bind hlastTwo (exists_ok_bind hfirst ?_)), hnone⟩
  cases first with
  | true => exact ⟨_, rfl⟩
  | false =>
    refine exists_ok_bind hsecond ?_
    cases second with
    | true => exact ⟨_, rfl⟩
    | false =>
      refine exists_ok_bind hthird ?_
      cases third <;> exact ⟨_, rfl⟩

end Rule

/-! ## The registries -/

namespace Registry

/-- A registry without rules of the caller: it has no cardinal rules, and its ordinal rules are
bundled ones. -/
structure OnlyBundled (r : Registry) : Prop where
  cardinal : r.cardinal = []
  ordinal : ∀ rule ∈ Entries.values r.ordinal, rule ∈ Entries.values bundledOrdinals

theorem onlyBundled_empty : empty.OnlyBundled := ⟨rfl, nofun⟩

/-- Installing a bundled rule keeps a registry free of other rules. -/
theorem OnlyBundled.installOrdinal? {r r' : Registry} (h : r.OnlyBundled) {locale : String}
    (hinstall : r.installOrdinal? locale = some r') : r'.OnlyBundled := by
  rw [Registry.installOrdinal?, Option.map_eq_some_iff] at hinstall
  obtain ⟨rule, hfind, rfl⟩ := hinstall
  refine ⟨h.cardinal, fun other hmem => ?_⟩
  rcases Entries.mem_values_insert hmem with rfl | hmem
  · exact List.mem_map_of_mem (f := Prod.snd) (Entries.mem_of_find?_eq_some hfind)
  · exact h.ordinal other hmem

theorem OnlyBundled.installAllOrdinals {r : Registry} (h : r.OnlyBundled) :
    r.installAllOrdinals.OnlyBundled := by
  rw [Registry.installAllOrdinals]
  generalize Entries.keys bundledOrdinals = languages
  induction languages generalizing r with
  | nil => exact h
  | cons language rest ih =>
    rw [List.foldl_cons]
    refine ih ?_
    cases hinstall : r.installOrdinal? language with
    | none => exact h
    | some r' => exact h.installOrdinal? hinstall

section

variable {r : Registry} {n : Numeric} {kind : PluralKind} {locale : String} {fault : Fault}

/-- A rule in force is the bundled one. -/
theorem OnlyBundled.eq_of_rule? (h : r.OnlyBundled) {rule : Rule}
    (hrule : r.rule? kind locale = some rule) : kind = .ordinal ∧ rule = Rule.englishOrdinal := by
  obtain ⟨key, hfind⟩ : ∃ key, Entries.find? key (r.table kind) = some rule := by
    rw [rule?] at hrule
    split at hrule
    · next hfind => exact ⟨_, hfind.trans hrule⟩
    · exact ⟨_, hrule⟩
  have hmem := List.mem_map_of_mem (f := Prod.snd) (Entries.mem_of_find?_eq_some hfind)
  cases kind with
  | cardinal =>
    rw [table, h.cardinal] at hmem
    cases hmem
  | ordinal => exact ⟨rfl, List.mem_singleton.1 (h.ordinal rule hmem)⟩

/-- Sorting a quiet number fails only in the English endings. -/
theorem OnlyBundled.category_eq_error_iff (h : r.OnlyBundled) (hquiet : n.Quiet) :
    r.category kind n locale = .error fault ↔
      fault = .invalidOperation ∧ (r.rule? kind locale).isSome = true ∧
        ∃ d, n = .decimal d ∧ d.Indivisible 10 := by
  rw [category]
  cases hrule : r.rule? kind locale with
  | none =>
    have hdefault : ∃ name, (Rule.default kind).category n = .ok name := by
      cases kind with
      | cardinal => exact Rule.exists_defaultCardinal hquiet
      | ordinal => exact ⟨_, rfl⟩
    obtain ⟨name, hname⟩ := hdefault
    rw [Option.getD_none, hname]
    exact iff_of_false nofun fun hfault => nomatch hfault.2.1
  | some rule =>
    obtain ⟨rfl, rfl⟩ := h.eq_of_rule? hrule
    rw [Option.getD_some]
    rcases Rule.englishOrdinal_cases hquiet with ⟨hcategory, hfault⟩ | ⟨⟨name, hname⟩, hnone⟩
    · rw [hcategory]
      simp only [Except.error.injEq, Option.isSome_some, hfault, and_true, eq_comm]
    · rw [hname]
      exact iff_of_false nofun fun hfault => hnone hfault.2.2

end

end Registry

end Phrasebook.Plural
