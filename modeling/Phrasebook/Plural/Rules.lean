/-
  The registry of rules by locale.

  The registry keeps one cardinal and one ordinal rule for each normalized
  locale code.  A locale without a rule uses the rule of its language, and a
  language without a rule the rule of the library.
-/
import Phrasebook.Entries
import Phrasebook.Locale.Listed

set_option autoImplicit false

namespace Phrasebook.Plural

open Phrasebook.Number

/-- Rules by normalized locale code. -/
structure Registry where
  cardinal : List (String × Rule) := []
  ordinal : List (String × Rule) := []
  deriving Inhabited

namespace Registry

/-- No rules. -/
def empty : Registry := {}

/-- The rules of a kind. -/
def table (r : Registry) : PluralKind → List (String × Rule)
  | .cardinal => r.cardinal
  | .ordinal => r.ordinal

/-- Registers a rule for a locale, in the place of any before it. -/
def register (r : Registry) (kind : PluralKind) (locale : String) (rule : Rule) : Registry :=
  match kind with
  | .cardinal => { r with cardinal := Entries.insert (Locale.normalize locale) rule r.cardinal }
  | .ordinal => { r with ordinal := Entries.insert (Locale.normalize locale) rule r.ordinal }

/-- The rule registered for a locale, or else for its language. -/
def rule? (r : Registry) (kind : PluralKind) (locale : String) : Option Rule :=
  match Entries.find? (Locale.normalize locale) (r.table kind) with
  | some rule => some rule
  | none => Entries.find? (Locale.language locale) (r.table kind)

/-- The category of a number in a locale. -/
def category (r : Registry) (kind : PluralKind) (n : Numeric) (locale : String) :
    Except Fault String :=
  ((r.rule? kind locale).getD (Rule.default kind)).category n

/-- The ordinal rules that come with the library, by language. -/
def bundledOrdinals : List (String × Rule) := [("en", Rule.englishOrdinal)]

/-- Registers the bundled ordinal rule of a locale's language, if there is one. -/
def installOrdinal? (r : Registry) (locale : String) : Option Registry :=
  (Entries.find? (Locale.language locale) bundledOrdinals).map (r.register .ordinal locale)

/-- Registers every bundled ordinal rule for its language. -/
def installAllOrdinals (r : Registry) : Registry :=
  (Entries.keys bundledOrdinals).foldl (fun r language => (r.installOrdinal? language).getD r) r

/-- Registers the rules that a directory has for a locale, for both kinds. -/
def installLanguage? (r : Registry) (locale : String) (directory : Locale.Directory := .listed) :
    Option Registry :=
  match Locale.find locale directory with
  | .ok profile =>
    some ((r.register .cardinal locale (profile.rule .cardinal)).register
      .ordinal locale (profile.rule .ordinal))
  | .error _ => none

end Registry

/-! ## What registering does to the tables -/

@[simp] theorem Registry.table_register_self (r : Registry) (kind : PluralKind) (locale : String)
    (rule : Rule) : (r.register kind locale rule).table kind =
      Entries.insert (Locale.normalize locale) rule (r.table kind) := by
  cases kind <;> rfl

theorem Registry.table_register_of_ne (r : Registry) {kind kind' : PluralKind} (h : kind' ≠ kind)
    (locale : String) (rule : Rule) :
    (r.register kind locale rule).table kind' = r.table kind' := by
  cases kind <;> cases kind' <;> simp_all [Registry.register, Registry.table]

end Phrasebook.Plural
