/-
  What the offset of a plural selector leaves of a number.

  Without an exact branch a plural selector sorts what is left of its number
  behind the offset, and under the rule of the library that is one only if it is
  equal to one.  From a whole number the offset is taken away exactly, but the
  text of what is left may be refused.  From a decimal it is taken away with as
  many digits as decimal arithmetic keeps, also if it is zero: what is sorted and
  shown is the rounded difference (`choosePlural_default`).
-/
import Phrasebook.Proofs.Number.Nearest
import Phrasebook.Proofs.Number.Notation
import Phrasebook.Proofs.Render.Choice
import Phrasebook.Proofs.Render.Precedence

set_option autoImplicit false

namespace Phrasebook

open Phrasebook.Number

/-! ## One and other -/

/-- Whether cardinal numbers are sorted by the rule of the library. -/
def Setting.SortsByDefault (setting : Setting) : Prop :=
  ∀ n, setting.rules.category .cardinal n setting.locale = Plural.Rule.defaultCardinal.category n

/-- The name of the category of a number that is equal to one or not. -/
def oneOrOther (one : Prop) [Decidable one] : String := if one then "one" else "other"

theorem defaultCardinal_of_equalsInt {n : Numeric} {one : Prop} [Decidable one]
    (h : n.equalsInt 1 = .ok (decide one)) :
    Plural.Rule.defaultCardinal.category n = .ok (oneOrOther one) := by
  simp only [Plural.Rule.defaultCardinal, h, oneOrOther, bind, Except.bind, decide_eq_true_iff]
  split <;> rfl

theorem defaultCardinal_int (i : Int) :
    Plural.Rule.defaultCardinal.category (.int i) = .ok (oneOrOther (i = 1)) :=
  defaultCardinal_of_equalsInt (Numeric.equalsInt_int i 1)

theorem defaultCardinal_finite (s : Bool) (c : Nat) (e : Int) :
    Plural.Rule.defaultCardinal.category (.decimal (.finite s c e)) =
      .ok (oneOrOther (Decimal.worth s c e = 1)) := by
  refine defaultCardinal_of_equalsInt ?_
  rw [Numeric.equalsInt, Decimal.equalsInt_finite, Int.cast_one]

/-- What rounding gives is within the bounds of decimals, so its text denotes it. -/
theorem Number.Decimal.Kept.denotes_text {c : Nat} {e : Int} (h : Decimal.Kept c e) (s : Bool) :
    Denotes (Decimal.text (.finite s c e)) (Decimal.worth s c e) := by
  have hleast : Decimal.leastExponent ≤ Decimal.tinyExponent := by decide
  have hgreatest : Decimal.maxExponent ≤ Decimal.greatestExponent := by decide
  have hle := h.le_max
  refine ⟨s, c, e, Decimal.read?_text (hleast.trans h.tiny_le) ?_, rfl⟩
  rw [Decimal.leadingExponent]
  omega

section Branch

variable {setting : Setting} {name : String} {offset : Int} {entries : List (BranchKey × Message)}
  {n shifted : Numeric}

/-- The branch for one is entered by what is equal to one, if there is such a branch. -/
theorem chooseNamed_eq_one_iff {typeName argumentName : String} {one : Prop} [Decidable one] :
    chooseNamed ⟨entries⟩ typeName argumentName (oneOrOther one) =
        .ok (.name "one") ↔
      one ∧ hasKey entries (.name "one") = true := by
  rw [← run_named, Probe.named, oneOrOther]
  by_cases hone : one
  · rw [if_pos hone]
    cases hkey : hasKey entries (.name "one") with
    | true => simp only [Probe.run_look_of_present hkey, hone, and_self]
    | false =>
      rw [Probe.run_look_of_absent hkey]
      simp only [Probe.run]
      split <;> simp [BranchKey.other]
  · -- neither of the keys that are tried is the one for one
    rw [if_neg hone]
    simp only [Probe.run]
    repeat' split
    all_goals simp [BranchKey.other, hone]

/-- Without an exact branch the category decides. -/
theorem choosePlural_of_noExactBranch {one : Prop} [Decidable one]
    (hrule : setting.SortsByDefault) (hvalue : setting.value name = .ok (.number n))
    (hexact : NoExactBranch entries n) (hshifted : n.subInt offset = .ok shifted)
    (hone : Plural.Rule.defaultCardinal.category shifted = .ok (oneOrOther one)) :
    choosePlural setting .cardinal name offset ⟨entries⟩ = (do
      let key ← chooseNamed ⟨entries⟩ PluralKind.cardinal.name name (oneOrOther one)
      return (key, ← onNumber shifted.text)) := by
  have hcategory := (hrule shifted).trans hone
  simp only [choosePlural, hvalue, numberOf, hshifted, onNumber, bind, Except.bind,
    chooseExact?_eq_none_iff.2 hexact, hcategory]

/-- The key that is chosen for what is left, if that has a text. -/
theorem choosePlural_of_text {one : Prop} [Decidable one] {number : String}
    (hrule : setting.SortsByDefault) (hvalue : setting.value name = .ok (.number n))
    (hexact : NoExactBranch entries n) (hshifted : n.subInt offset = .ok shifted)
    (hone : Plural.Rule.defaultCardinal.category shifted = .ok (oneOrOther one))
    (htext : shifted.text = .ok number) :
    choosePlural setting .cardinal name offset ⟨entries⟩ =
      (chooseNamed ⟨entries⟩ PluralKind.cardinal.name name (oneOrOther one)).map (·, number) := by
  rw [choosePlural_of_noExactBranch hrule hvalue hexact hshifted hone, htext]
  cases chooseNamed ⟨entries⟩ PluralKind.cardinal.name name (oneOrOther one) <;> rfl

/-- What is left of a whole number is exact. -/
theorem choosePlural_int (offset : Int) {i : Int} (hrule : setting.SortsByDefault)
    (hvalue : setting.value name = .ok (.number (.int i)))
    (hexact : NoExactBranch entries (.int i)) :
    (IsShort (i - offset) → ∃ number, Denotes number ((i - offset : Int) : ℚ) ∧
      choosePlural setting .cardinal name offset ⟨entries⟩ =
        (chooseNamed ⟨entries⟩ PluralKind.cardinal.name name
          (oneOrOther (i = offset + 1))).map (·, number)) ∧
    (¬ IsShort (i - offset) →
      choosePlural setting .cardinal name offset ⟨entries⟩ = (do
        let _ ← chooseNamed ⟨entries⟩ PluralKind.cardinal.name name
          (oneOrOther (i = offset + 1))
        .error (.number .tooManyDigits))) := by
  have hone : Plural.Rule.defaultCardinal.category (.int (i - offset)) =
      .ok (oneOrOther (i = offset + 1)) := by
    have hiff : i - offset = 1 ↔ i = offset + 1 := by omega
    rw [defaultCardinal_int]
    simp only [oneOrOther, hiff]
  refine ⟨fun hshort => ?_, fun hlong => ?_⟩
  · refine ⟨toString (i - offset), denotes_toString hshort, ?_⟩
    exact choosePlural_of_text hrule hvalue hexact rfl hone
      (integerText_eq_ok (isShort_iff.1 hshort))
  · have htext : Numeric.text (.int (i - offset)) = .error .tooManyDigits :=
      integerText_eq_error_iff.2 ⟨rfl, hlong⟩
    rw [choosePlural_of_noExactBranch hrule hvalue hexact rfl hone, htext]
    rfl

/-- What is left of a decimal is the rounded difference. -/
theorem choosePlural_finite (offset : Int) {s : Bool} {c : Nat} {e : Int} {x : ℚ}
    (hrule : setting.SortsByDefault)
    (hvalue : setting.value name = .ok (.number (.decimal (.finite s c e))))
    (hexact : NoExactBranch entries (.decimal (.finite s c e)))
    (hx : x = Decimal.worth s c e - offset) :
    (|x| < Decimal.ceiling → ∃ number y, Decimal.Rounds x y ∧ Denotes number y ∧
      choosePlural setting .cardinal name offset ⟨entries⟩ =
        (chooseNamed ⟨entries⟩ PluralKind.cardinal.name name
          (oneOrOther (y = 1))).map (·, number)) ∧
    (Decimal.ceiling ≤ |x| →
      choosePlural setting .cardinal name offset ⟨entries⟩ =
        .error (.number .decimalOverflow)) := by
  subst hx
  refine ⟨fun hless => ?_, fun hlarge => ?_⟩
  · rcases Decimal.subInt_cases (.finite s c e) offset with ⟨fault, -, hfault⟩ | ⟨⟨d, hsub, -⟩, -⟩
    · cases hfault with
      | large hlarge => exact absurd hless (not_lt.2 hlarge)
    · obtain ⟨s', c', e', rfl, hkept, hrounds⟩ := Decimal.subInt_rounds hsub
      have hshifted : Numeric.subInt (.decimal (.finite s c e)) offset =
          .ok (.decimal (.finite s' c' e')) := by
        rw [Numeric.subInt, hsub]
        rfl
      exact ⟨_, _, hrounds, hkept.denotes_text s',
        choosePlural_of_text hrule hvalue hexact hshifted (defaultCardinal_finite s' c' e') rfl⟩
  · have hshifted : Numeric.subInt (.decimal (.finite s c e)) offset = .error .decimalOverflow :=
      Numeric.subInt_eq_error_iff.2 (.decimal (.large hlarge))
    simp only [choosePlural, hvalue, numberOf, hshifted, onNumber, bind, Except.bind]

theorem exists_map_eq_ok_iff {chosen : Except RenderFailure BranchKey} {key : BranchKey}
    {number : String} :
    (∃ number', chosen.map (·, number) = .ok (key, number')) ↔ chosen = .ok key := by
  cases chosen <;> simp [Except.map]

/-- A whole number is taken for one if it is one more than the offset. -/
theorem choosePlural_int_one_iff {i : Int} (hrule : setting.SortsByDefault)
    (hvalue : setting.value name = .ok (.number (.int i)))
    (hexact : NoExactBranch entries (.int i)) :
    (∃ number, choosePlural setting .cardinal name offset ⟨entries⟩ = .ok (.name "one", number)) ↔
      i = offset + 1 ∧ hasKey entries (.name "one") = true := by
  obtain ⟨hshort, hlong⟩ := choosePlural_int offset hrule hvalue hexact
  by_cases h : IsShort (i - offset)
  · obtain ⟨number, -, hchosen⟩ := hshort h
    rw [hchosen, exists_map_eq_ok_iff, chooseNamed_eq_one_iff]
  · -- a number with too many digits is not one
    have hne : i ≠ offset + 1 := by
      rintro rfl
      rw [add_sub_cancel_left] at h
      exact h (isShort_iff.2 (Nat.one_lt_pow (by decide) (by decide)))
    rw [hlong h]
    refine iff_of_false ?_ fun hone => hne hone.1
    cases chooseNamed ⟨entries⟩ PluralKind.cardinal.name name (oneOrOther (i = offset + 1)) <;>
      exact fun ⟨_, hchosen⟩ => nomatch hchosen

/-- Numbers that are rounded to one are no larger than others that are not too large. -/
theorem lt_ceiling_near_one {x : ℚ} (h : 1 - 5 / 10 ^ 29 ≤ x ∧ x ≤ 1 + 5 / 10 ^ 28) :
    |x| < Decimal.ceiling := by
  obtain ⟨hlow, hhigh⟩ := h
  norm_num at hlow hhigh
  refine Decimal.lt_ceiling_of_lt (a := 1) (by decide) ?_
  rw [zpow_one, abs_of_nonneg (by linarith)]
  linarith

/-- A decimal is taken for one if the difference is rounded to one. -/
theorem choosePlural_finite_one_iff {s : Bool} {c : Nat} {e : Int} {x : ℚ}
    (hrule : setting.SortsByDefault)
    (hvalue : setting.value name = .ok (.number (.decimal (.finite s c e))))
    (hexact : NoExactBranch entries (.decimal (.finite s c e)))
    (hx : x = Decimal.worth s c e - offset) :
    (∃ number, choosePlural setting .cardinal name offset ⟨entries⟩ = .ok (.name "one", number)) ↔
      (1 - 5 / 10 ^ 29 ≤ x ∧ x ≤ 1 + 5 / 10 ^ 28) ∧ hasKey entries (.name "one") = true := by
  obtain ⟨hless, hlarge⟩ := choosePlural_finite offset hrule hvalue hexact hx
  by_cases h : |x| < Decimal.ceiling
  · obtain ⟨number, y, hrounds, -, hchosen⟩ := hless h
    have hone : y = 1 ↔ 1 - 5 / 10 ^ 29 ≤ x ∧ x ≤ 1 + 5 / 10 ^ 28 := by
      rw [← Decimal.rounds_one_iff]
      exact ⟨fun heq => heq ▸ hrounds, fun hrounds' => hrounds'.unique hrounds⟩
    rw [hchosen, exists_map_eq_ok_iff, chooseNamed_eq_one_iff, hone]
  · rw [hlarge (not_lt.1 h)]
    exact iff_of_false nofun fun hone => h (lt_ceiling_near_one hone.1)

/-- Without an exact branch, and under the rule of the library, a plural selector takes a whole number
for one exactly if it is one more than the offset, and shows the exact difference, unless that has too
many digits.  A decimal it takes for one if the difference is rounded to one, and shows the rounded
difference, which is the exact one for no other differences than those of as many digits as are kept;
it fails if the difference is rounded to too large a number. -/
theorem choosePlural_default (hrule : setting.SortsByDefault)
    (hvalue : setting.value name = .ok (.number n)) (hexact : NoExactBranch entries n) :
    (∀ i, n = .int i →
      ((∃ number, choosePlural setting .cardinal name offset ⟨entries⟩ = .ok (.name "one", number)) ↔
        i = offset + 1 ∧ hasKey entries (.name "one") = true) ∧
      (IsShort (i - offset) → ∃ number, Denotes number ((i - offset : Int) : ℚ) ∧
        choosePlural setting .cardinal name offset ⟨entries⟩ =
          (chooseNamed ⟨entries⟩ PluralKind.cardinal.name name
            (oneOrOther (i = offset + 1))).map (·, number)) ∧
      (¬ IsShort (i - offset) →
        choosePlural setting .cardinal name offset ⟨entries⟩ = (do
          let _ ← chooseNamed ⟨entries⟩ PluralKind.cardinal.name name
            (oneOrOther (i = offset + 1))
          .error (.number .tooManyDigits)))) ∧
    ∀ s c e, n = .decimal (.finite s c e) → ∀ x, x = Decimal.worth s c e - offset →
      ((∃ number, choosePlural setting .cardinal name offset ⟨entries⟩ = .ok (.name "one", number)) ↔
        (1 - 5 / 10 ^ 29 ≤ x ∧ x ≤ 1 + 5 / 10 ^ 28) ∧ hasKey entries (.name "one") = true) ∧
      (|x| < Decimal.ceiling → ∃ number y, Decimal.Rounds x y ∧ (y = x ↔ Decimal.Fits x) ∧
        Denotes number y ∧ choosePlural setting .cardinal name offset ⟨entries⟩ =
          (chooseNamed ⟨entries⟩ PluralKind.cardinal.name name
            (oneOrOther (y = 1))).map (·, number)) ∧
      (Decimal.ceiling ≤ |x| →
        choosePlural setting .cardinal name offset ⟨entries⟩ =
          .error (.number .decimalOverflow)) := by
  refine ⟨?_, ?_⟩
  · rintro i rfl
    obtain ⟨hshort, hlong⟩ := choosePlural_int offset hrule hvalue hexact
    exact ⟨choosePlural_int_one_iff hrule hvalue hexact, hshort, hlong⟩
  · rintro s c e rfl x hx
    obtain ⟨hless, hlarge⟩ := choosePlural_finite offset hrule hvalue hexact hx
    refine ⟨choosePlural_finite_one_iff hrule hvalue hexact hx, fun h => ?_, hlarge⟩
    obtain ⟨number, y, hrounds, hdenotes, hchosen⟩ := hless h
    exact ⟨number, y, hrounds, hrounds.eq_iff_fits, hdenotes, hchosen⟩

/-- Three tenths above two are not one above one. -/
theorem choosePlural_default_fraction :
    let n : Numeric := .decimal (.finite false 23 (-1))
    let setting : Setting := ⟨[("n", .number n)], "en", .empty, default⟩
    let entries : List (BranchKey × Message) := [(.exact 2, []), (.name "one", []), (.other, [])]
    setting.SortsByDefault ∧ setting.value "n" = .ok (.number n) ∧ NoExactBranch entries n ∧
      ¬ ∃ number, choosePlural setting .cardinal "n" 1 ⟨entries⟩ = .ok (.name "one", number) := by
  intro n setting entries
  have hrule : setting.SortsByDefault := fun _ => rfl
  have hvalue : setting.value "n" = .ok (.number n) := rfl
  have hexact : NoExactBranch entries n := by
    intro N hworth
    have htenths : (23 : ℚ) = 10 * N := by
      norm_num [n, Numeric.worth?, Decimal.worth, Decimal.signed] at hworth
      linarith
    have : (23 : Int) = 10 * N := by exact_mod_cast htenths
    omega
  refine ⟨hrule, hvalue, hexact, fun hone => ?_⟩
  obtain ⟨⟨-, hle⟩, -⟩ :=
    (((choosePlural_default hrule hvalue hexact).2 false 23 (-1) rfl _ rfl).1).1 hone
  norm_num [Decimal.worth, Decimal.signed] at hle

/-- A decimal that differs from one in its last digit of thirty is taken and shown for one, without an
offset too. -/
theorem choosePlural_almost_one :
    let n : Numeric := .decimal (.finite false (10 ^ 29 + 1) (-29))
    let setting : Setting := ⟨[("n", .number n)], "en", .empty, default⟩
    let entries : List (BranchKey × Message) := [(.name "one", [.text "one"]), (.other, [.text "#"])]
    n.worth? ≠ some 1 ∧ NoExactBranch entries n ∧
      choosePlural setting .cardinal "n" 0 ⟨entries⟩ =
        .ok (.name "one", "1.000000000000000000000000000") := by
  intro n setting entries
  refine ⟨?_, fun _ _ => rfl, by decide +kernel⟩
  norm_num [n, Numeric.worth?, Decimal.worth, Decimal.signed]

end Branch

end Phrasebook
