/-
  Tokens as data, and what their readers accept.

  A token is a list of characters of its class: blanks, the word of an
  identifier, the digits of a numeral.  The types below hold such lists and no
  others.  A reader of tokens takes the longest one, so it accepts a text
  exactly if the text is a token followed by a text that does not go on with a
  character of the class (`Stops`).  For each reader this is one equivalence,
  which serves both directions of the theorem about the grammar.
-/
import Mathlib.Data.List.TakeWhile
import Phrasebook.Pattern.Rules

set_option autoImplicit false

namespace Phrasebook.Pattern

open Phrasebook.Text

/-! ## Where a run of characters stops -/

/-- A text that does not begin with a character of a class. -/
def Stops (p : Char → Bool) (s : List Char) : Prop := ∀ c ∈ s.head?, p c = false

@[simp] theorem stops_nil (p : Char → Bool) : Stops p [] := by
  intro c hc
  cases hc

@[simp] theorem stops_cons {p : Char → Bool} {c : Char} {s : List Char} :
    Stops p (c :: s) ↔ p c = false := by
  constructor
  · intro h
    exact h c rfl
  · intro h d hd
    cases hd
    exact h

theorem stops_dropWhile (p : Char → Bool) (s : List Char) : Stops p (s.dropWhile p) := by
  induction s with
  | nil => exact stops_nil p
  | cons c rest ih =>
    by_cases hc : p c = true
    · rw [List.dropWhile_cons_of_pos hc]
      exact ih
    · rw [List.dropWhile_cons_of_neg hc, stops_cons]
      exact Bool.eq_false_iff.2 hc

/-- A run of other characters puts nothing of the class in front. -/
theorem stops_append {p : Char → Bool} {w s : List Char} (hw : ∀ c ∈ w, p c = false)
    (hs : Stops p s) : Stops p (w ++ s) := by
  cases w with
  | nil => exact hs
  | cons c rest => exact stops_cons.2 (hw c List.mem_cons_self)

/-- A run whose first character is not of the class, if it has one. -/
theorem stops_append_of_ne_nil {p : Char → Bool} {w s : List Char} (hw : ∀ c ∈ w, p c = false)
    (hne : w ≠ []) : Stops p (w ++ s) := by
  cases w with
  | nil => exact absurd rfl hne
  | cons c rest => exact stops_cons.2 (hw c List.mem_cons_self)

theorem Stops.left {p : Char → Bool} {w s : List Char} (h : Stops p (w ++ s)) : Stops p w := by
  cases w with
  | nil => exact stops_nil p
  | cons c rest => exact stops_cons.2 (stops_cons.1 h)

theorem Stops.append {p : Char → Bool} {w : List Char} (h : Stops p w) (hne : w ≠ [])
    (s : List Char) : Stops p (w ++ s) := by
  obtain ⟨c, rest, rfl⟩ := List.exists_cons_of_ne_nil hne
  exact stops_cons.2 (stops_cons.1 h)

/-- Whether a text begins with a character of a class is settled by what it begins with. -/
theorem Stops.congr_head? {p : Char → Bool} {s s' : List Char} (h : Stops p s)
    (hhead : s'.head? = s.head?) : Stops p s' :=
  fun c hc => h c (hhead ▸ hc)

theorem head?_append_cons (w : List Char) (c : Char) (s s' : List Char) :
    (w ++ c :: s').head? = (w ++ c :: s).head? := by
  rw [List.head?_append, List.head?_append]
  rfl

theorem takeWhile_append_of_stops {p : Char → Bool} {w s : List Char} (hw : ∀ c ∈ w, p c = true)
    (hs : Stops p s) : (w ++ s).takeWhile p = w := by
  rw [List.takeWhile_append_of_pos hw]
  cases s with
  | nil => simp
  | cons c rest => simp [stops_cons.1 hs]

theorem dropWhile_append_of_stops {p : Char → Bool} {w s : List Char} (hw : ∀ c ∈ w, p c = true)
    (hs : Stops p s) : (w ++ s).dropWhile p = s := by
  rw [List.dropWhile_append_of_pos hw]
  cases s with
  | nil => rfl
  | cons c rest => simp [stops_cons.1 hs]

theorem mem_takeWhile {p : Char → Bool} {s : List Char} {c : Char} (h : c ∈ s.takeWhile p) :
    p c = true := by
  have hall := List.all_takeWhile (p := p) (l := s)
  rw [List.all_eq_true] at hall
  exact hall c h

/-! ## Character classes -/

theorem toNat_ranges_of_isIdentifierChar {c : Char} (h : isIdentifierChar c = true) :
    (48 ≤ c.toNat ∧ c.toNat ≤ 57) ∨ (65 ≤ c.toNat ∧ c.toNat ≤ 90) ∨ c.toNat = 95 ∨
      (97 ≤ c.toNat ∧ c.toNat ≤ 122) := by
  simp only [isIdentifierChar, isAsciiDigit, Bool.or_eq_true, Bool.and_eq_true, decide_eq_true_eq,
    beq_iff_eq, Char.le_def, UInt32.le_iff_toNat_le] at h
  rcases h with ((h | h) | h) | h
  · exact .inr (.inr (.inr h))
  · exact .inr (.inl h)
  · exact .inl h
  · subst h
    exact .inr (.inr (.inl rfl))

theorem toNat_ranges_of_isBlank {c : Char} (h : isBlank c = true) :
    c.toNat ≤ 32 ∨ 133 ≤ c.toNat := by
  obtain ⟨range, hmem, hlow, hhigh⟩ := covers_iff.1 h
  simp only [blankRanges, List.mem_cons, List.not_mem_nil, or_false] at hmem
  rcases hmem with rfl | rfl | rfl | rfl | rfl | rfl | rfl | rfl | rfl | rfl <;>
    simp only at hlow hhigh <;> omega

theorem isIdentifierChar_of_isBlank {c : Char} (h : isBlank c = true) :
    isIdentifierChar c = false := by
  have hb := toNat_ranges_of_isBlank h
  rw [Bool.eq_false_iff]
  intro hi
  have hr := toNat_ranges_of_isIdentifierChar hi
  omega

theorem isBlank_of_isIdentifierChar {c : Char} (h : isIdentifierChar c = true) :
    isBlank c = false := by
  rw [Bool.eq_false_iff]
  intro hb
  rw [isIdentifierChar_of_isBlank hb] at h
  cases h

theorem isIdentifierChar_of_isAsciiDigit {c : Char} (h : isAsciiDigit c = true) :
    isIdentifierChar c = true := by
  simp [isIdentifierChar, h]

theorem isAsciiDigit_of_isIdentifierChar_eq_false {c : Char} (h : isIdentifierChar c = false) :
    isAsciiDigit c = false := by
  rw [Bool.eq_false_iff]
  intro hd
  rw [isIdentifierChar_of_isAsciiDigit hd] at h
  cases h

theorem Stops.digit {s : List Char} (h : Stops isIdentifierChar s) : Stops isAsciiDigit s :=
  fun c hc => isAsciiDigit_of_isIdentifierChar_eq_false (h c hc)

/-! ## Tokens -/

/-- Blanks between two tokens, or none. -/
structure Blanks where
  chars : List Char
  blank : ∀ c ∈ chars, isBlank c = true

/-- No blank. -/
def Blanks.none : Blanks where
  chars := []
  blank _ hc := nomatch hc

/-- The characters of an identifier. -/
structure Word where
  chars : List Char
  ne_nil : chars ≠ []
  letters : ∀ c ∈ chars, isIdentifierChar c = true

/-- The name that a word spells. -/
def Word.name (w : Word) : String := String.ofList w.chars

/-- A whole number as it is written, with no more digits than are read. -/
structure Numeral where
  negative : Bool
  digits : List Char
  ne_nil : digits ≠ []
  decimal : ∀ c ∈ digits, isAsciiDigit c = true
  length_le : digits.length ≤ Number.maxIntegerDigits

namespace Numeral

/-- The sign of a numeral and its digits. -/
def chars (n : Numeral) : List Char := if n.negative then '-' :: n.digits else n.digits

/-- The number that a numeral denotes. -/
def value (n : Numeral) : Int := signedValue n.negative n.digits

theorem length_pos (n : Numeral) : 0 < n.chars.length := by
  have hdigits : 0 < n.digits.length := List.length_pos_iff.2 n.ne_nil
  rw [chars]
  split
  · exact Nat.succ_pos _
  · exact hdigits

theorem one_lt_length {n : Numeral} (h : n.negative = true) : 1 < n.chars.length := by
  have hdigits : 0 < n.digits.length := List.length_pos_iff.2 n.ne_nil
  rw [chars, if_pos h]
  exact Nat.succ_lt_succ hdigits

/-- A numeral begins with a minus sign or a digit. -/
theorem exists_chars_eq_cons (n : Numeral) :
    ∃ c rest, n.chars = c :: rest ∧ (c = '-' ∨ isAsciiDigit c = true) := by
  unfold chars
  split
  · exact ⟨'-', n.digits, rfl, .inl rfl⟩
  · cases hd : n.digits with
    | nil => exact absurd hd n.ne_nil
    | cons c rest => exact ⟨c, rest, rfl, .inr (n.decimal c (hd ▸ List.mem_cons_self))⟩

end Numeral

theorem Word.exists_chars_eq_cons (w : Word) :
    ∃ c rest, w.chars = c :: rest ∧ isIdentifierChar c = true := by
  cases hw : w.chars with
  | nil => exact absurd hw w.ne_nil
  | cons c rest => exact ⟨c, rest, rfl, w.letters c (hw ▸ List.mem_cons_self)⟩

/-- Blanks do not go on an identifier. -/
theorem Blanks.stops_identifier (b : Blanks) {s : List Char} (h : Stops isIdentifierChar s) :
    Stops isIdentifierChar (b.chars ++ s) :=
  stops_append (fun c hc => isIdentifierChar_of_isBlank (b.blank c hc)) h

theorem Word.stops_blank (w : Word) (s : List Char) : Stops isBlank (w.chars ++ s) :=
  stops_append_of_ne_nil (fun c hc => isBlank_of_isIdentifierChar (w.letters c hc)) w.ne_nil

theorem Numeral.stops_blank (n : Numeral) (s : List Char) : Stops isBlank (n.chars ++ s) := by
  obtain ⟨c, rest, hn, hor⟩ := n.exists_chars_eq_cons
  rw [hn]
  refine stops_cons.2 ?_
  rcases hor with rfl | hdigit
  · decide
  · exact isBlank_of_isIdentifierChar (isIdentifierChar_of_isAsciiDigit hdigit)

/-! ## Readers -/

theorem identifier_eq_ok_iff {s rest : List Char} {name : String} :
    identifier s = .ok (name, rest) ↔
      ∃ w : Word, s = w.chars ++ rest ∧ w.name = name ∧ Stops isIdentifierChar rest := by
  constructor
  · intro h
    simp only [identifier] at h
    split at h
    · cases h
    · rename_i hne
      cases h
      refine ⟨⟨s.takeWhile isIdentifierChar, ?_, fun c hc => mem_takeWhile hc⟩, ?_, rfl, ?_⟩
      · intro hnil
        exact hne (by rw [hnil]; rfl)
      · exact List.takeWhile_append_dropWhile.symm
      · exact stops_dropWhile _ _
  · rintro ⟨w, rfl, rfl, hstop⟩
    have htake := takeWhile_append_of_stops w.letters hstop
    have hdrop := dropWhile_append_of_stops w.letters hstop
    have hne : w.chars.isEmpty = false := by
      rw [Bool.eq_false_iff]
      intro hnil
      exact w.ne_nil (List.isEmpty_iff.1 hnil)
    simp [identifier, htake, hdrop, hne, Word.name]

/-- Splitting a minus sign off takes it and nothing else. -/
theorem splitMinus_eq (s : List Char) :
    s = (if (splitMinus s).1 then ['-'] else []) ++ (splitMinus s).2 := by
  cases s with
  | nil => rfl
  | cons c rest =>
    by_cases hc : c = '-'
    · simp [splitMinus, hc]
    · simp [splitMinus, hc]

theorem splitMinus_chars_append (n : Numeral) (rest : List Char) :
    splitMinus (n.chars ++ rest) = (n.negative, n.digits ++ rest) := by
  obtain ⟨c, ds, hd⟩ : ∃ c ds, n.digits = c :: ds := List.exists_cons_of_ne_nil n.ne_nil
  have hdigit : isAsciiDigit c = true := n.decimal c (hd ▸ List.mem_cons_self)
  cases hn : n.negative with
  | true => simp [Numeral.chars, hn, splitMinus]
  | false =>
    have hc : c ≠ '-' := by
      rintro rfl
      revert hdigit
      decide
    simp [Numeral.chars, hn, hd, splitMinus, hc]

theorem integer_eq_ok_iff {s rest : List Char} {n : Int} :
    integer s = .ok (n, rest) ↔
      ∃ m : Numeral, s = m.chars ++ rest ∧ m.value = n ∧ Stops isAsciiDigit rest := by
  constructor
  · intro h
    simp only [integer] at h
    split at h
    · cases h
    · rename_i hne
      split at h
      · cases h
      · rename_i hlen
        cases h
        refine ⟨⟨(splitMinus s).1, (splitMinus s).2.takeWhile isAsciiDigit, ?_,
          fun c hc => mem_takeWhile hc, Nat.le_of_not_lt hlen⟩, ?_, rfl, stops_dropWhile _ _⟩
        · intro hnil
          exact hne (by rw [hnil]; rfl)
        · have hsplit := splitMinus_eq s
          rw [Numeral.chars]
          cases hneg : (splitMinus s).1 with
          | true =>
            rw [hneg] at hsplit
            simpa [List.takeWhile_append_dropWhile] using hsplit
          | false =>
            rw [hneg] at hsplit
            simpa [List.takeWhile_append_dropWhile] using hsplit
  · rintro ⟨m, rfl, rfl, hstop⟩
    have htake := takeWhile_append_of_stops m.decimal hstop
    have hdrop := dropWhile_append_of_stops m.decimal hstop
    have hne : m.digits.isEmpty = false := by
      rw [Bool.eq_false_iff]
      intro hnil
      exact m.ne_nil (List.isEmpty_iff.1 hnil)
    have hlen : ¬ Number.maxIntegerDigits < m.digits.length := Nat.not_lt.2 m.length_le
    simp only [integer, splitMinus_chars_append, htake, hdrop, hne, hlen, ↓reduceIte,
      Bool.false_eq_true, Numeral.value]

theorem skipBlanks_eq_ok_iff {opened s rest : List Char} :
    skipBlanks opened s = .ok rest ↔
      ∃ b : Blanks, s = b.chars ++ rest ∧ rest ≠ [] ∧ Stops isBlank rest := by
  constructor
  · intro h
    simp only [skipBlanks] at h
    split at h
    · cases h
    · rename_i c r hs
      cases h
      refine ⟨⟨s.takeWhile isBlank, fun c hc => mem_takeWhile hc⟩, ?_, List.cons_ne_nil c r, ?_⟩
      · rw [← hs]
        exact List.takeWhile_append_dropWhile.symm
      · rw [← hs]
        exact stops_dropWhile _ _
  · rintro ⟨b, rfl, hne, hstop⟩
    have hdrop : skipBlank (b.chars ++ rest) = rest := dropWhile_append_of_stops b.blank hstop
    cases rest with
    | nil => exact absurd rfl hne
    | cons c r => simp only [skipBlanks, hdrop]

theorem expect_eq_ok_iff {expected : Char} {s rest : List Char} :
    expect expected s = .ok rest ↔ s = expected :: rest := by
  constructor
  · exact expect_eq_ok
  · rintro rfl
    simp [expect]

theorem closeArgument_eq_ok_iff {opened s rest : List Char} :
    closeArgument opened s = .ok rest ↔ s = '}' :: rest := by
  constructor
  · exact closeArgument_eq_ok
  · rintro rfl
    simp [closeArgument, expect]

theorem afterComma?_eq_some_iff {s rest : List Char} :
    afterComma? s = some rest ↔ s = ',' :: rest := by
  constructor
  · exact afterComma?_eq_some
  · rintro rfl
    simp [afterComma?]

theorem afterComma?_eq_none_of_head {c : Char} {s : List Char} (h : c ≠ ',') :
    afterComma? (c :: s) = none := by
  simp [afterComma?, h]

/-- A comma, with blanks in front of it. -/
theorem comma_eq_ok_iff {opened s rest : List Char} :
    comma opened s = .ok rest ↔ ∃ b : Blanks, s = b.chars ++ ',' :: rest := by
  simp only [comma, bind_eq_ok, skipBlanks_eq_ok_iff, expect_eq_ok_iff]
  constructor
  · rintro ⟨s₁, ⟨b, rfl, -, -⟩, rfl⟩
    exact ⟨b, rfl⟩
  · rintro ⟨b, rfl⟩
    exact ⟨',' :: rest, ⟨b, rfl, List.cons_ne_nil _ _, stops_cons.2 (by decide)⟩, rfl⟩

end Phrasebook.Pattern
