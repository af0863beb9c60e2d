/-
  The text of a decimal reads back as the decimal.

  A decimal is written with digits before the point, digits behind it and an
  exponent, some of which may be left out.  Where the point stands depends on the
  exponent, but the digits are those of the coefficient with zeros in front, and
  what the point and the exponent take away from each other is the exponent
  (`Layout`).  Reading needs to know no more (`Literal.read?_layout`).
-/
import Phrasebook.Number.Numeric
import Phrasebook.Proofs.Number.Whole
import Phrasebook.Proofs.Pattern.Image

set_option autoImplicit false

namespace Phrasebook.Number

open Phrasebook.Text Phrasebook.Pattern

/-! ## Digits -/

theorem isAsciiDigit_of_mem_digits {n : Nat} {c : Char} (h : c ∈ digits n) :
    isAsciiDigit c = true :=
  isAsciiDigit_of_isDigit (Nat.isDigit_of_mem_toDigits (by decide) (by decide) h)

theorem digits_ne_nil (n : Nat) : digits n ≠ [] := Nat.toDigits_ne_nil

theorem natOfDigits_digits (n : Nat) : natOfDigits (digits n) = n := by
  rw [natOfDigits_eq_ofDigitChars, digits, Nat.ofDigitChars_ten_toDigits]

/-- Zeros in front do not count. -/
theorem natOfDigits_zeros (k : Nat) (ds : List Char) :
    natOfDigits (List.replicate k '0' ++ ds) = natOfDigits ds := by
  induction k with
  | zero => rfl
  | succ k ih =>
    rw [List.replicate_succ, List.cons_append]
    exact ih

theorem nat?_digits (n : Nat) : nat? (digits n) = some n := by
  have hall : (digits n).all isAsciiDigit = true :=
    List.all_eq_true.2 fun c hc => isAsciiDigit_of_mem_digits hc
  rw [nat?, if_pos ⟨digits_ne_nil n, hall⟩, natOfDigits_digits]

/-! ## Parts of a number -/

/-- The digits behind the point, with the point if there are any. -/
def fractionPart (fraction : List Char) : List Char :=
  if fraction.isEmpty then [] else '.' :: fraction

/-- An exponent with its sign, unless it is zero. -/
def exponentPart (shift : Int) : List Char :=
  if shift = 0 then [] else 'E' :: (if 0 < shift then '+' else '-') :: digits shift.natAbs

/-- How a coefficient and an exponent are written. -/
structure Layout (c : Nat) (e : Int) (s : List Char) : Type where
  whole : List Char
  fraction : List Char
  shift : Int
  eq_append : s = whole ++ (fractionPart fraction ++ exponentPart shift)
  whole_ne_nil : whole ≠ []
  whole_digits : ∀ d ∈ whole, isAsciiDigit d = true
  fraction_digits : ∀ d ∈ fraction, isAsciiDigit d = true
  coefficient_eq : natOfDigits (whole ++ fraction) = c
  exponent_eq : shift - fraction.length = e

theorem readExponent?_exponentPart (shift : Int) :
    readExponent? (exponentPart shift) = some shift := by
  rw [exponentPart]
  split
  · next hzero =>
    rw [hzero]
    rfl
  · next hne =>
    by_cases hpos : 0 < shift
    · have hsplit : splitSign ('+' :: digits shift.natAbs) = (false, digits shift.natAbs) := rfl
      simp only [if_pos hpos, readExponent?, or_true, if_true, hsplit, nat?_digits]
      exact congrArg some (show (shift.natAbs : Int) = shift by omega)
    · have hsplit : splitSign ('-' :: digits shift.natAbs) = (true, digits shift.natAbs) := rfl
      simp only [if_neg hpos, readExponent?, or_true, if_true, hsplit, nat?_digits]
      exact congrArg some (show -(shift.natAbs : Int) = shift by omega)

theorem stops_exponentPart (shift : Int) : Stops isAsciiDigit (exponentPart shift) := by
  rw [exponentPart]
  split
  · exact stops_nil _
  · exact stops_cons.2 (by decide)

theorem exponentPart_ne_point (shift : Int) (t : List Char) : exponentPart shift ≠ '.' :: t := by
  rw [exponentPart]
  split <;> simp

/-- A literal is read as its parts say. -/
theorem Literal.read?_layout {c : Nat} {e : Int} {s : List Char} (l : Layout c e s) :
    Literal.read? s = some ⟨c, e⟩ := by
  obtain ⟨whole, fraction, shift, rfl, hne, hwhole, hfraction, rfl, rfl⟩ := l
  have hempty : whole.isEmpty = false := by
    rw [Bool.eq_false_iff]
    exact fun h => hne (List.isEmpty_iff.1 h)
  have hexponent := stops_exponentPart shift
  have hread := readExponent?_exponentPart shift
  cases fraction with
  | nil =>
    have htake := takeWhile_append_of_stops hwhole hexponent
    have hdrop := dropWhile_append_of_stops hwhole hexponent
    simp only [Literal.read?, fractionPart, List.isEmpty_nil, if_true, List.nil_append, htake, hdrop]
    split
    · next hpoint => exact absurd hpoint (exponentPart_ne_point shift _)
    · simp only [hempty, hread, Bool.false_and, List.append_nil]
      rfl
  | cons d ds =>
    have hpoint : Stops isAsciiDigit ('.' :: (d :: ds ++ exponentPart shift)) :=
      stops_cons.2 (by decide)
    have htake := takeWhile_append_of_stops hwhole hpoint
    have hdrop := dropWhile_append_of_stops hwhole hpoint
    have htake' := takeWhile_append_of_stops hfraction hexponent
    have hdrop' := dropWhile_append_of_stops hfraction hexponent
    simp only [Literal.read?, fractionPart, List.isEmpty_cons, Bool.false_eq_true, if_false,
      List.cons_append] at *
    simp only [htake, hdrop, htake', hdrop', hempty, hread, Bool.false_and]
    rfl

/-! ## The layout of a decimal -/

/-- The digits before and behind a point that stands behind a number of them, with zeros in front as
needed. -/
def splitDigits (ds : List Char) (point : Int) : List Char × List Char :=
  if point ≤ 0 then (['0'], List.replicate (-point).toNat '0' ++ ds)
  else if (ds.length : Int) ≤ point then
    (ds ++ List.replicate (point - ds.length).toNat '0', [])
  else (ds.take point.toNat, ds.drop point.toNat)

/-- Wherever the point stands, an exponent makes up for it. -/
theorem layout_splitDigits (c : Nat) (e : Int) {point : Int} (h : point ≤ digitCount c) :
    Nonempty (Layout c e ((splitDigits (digits c) point).1 ++
      (fractionPart (splitDigits (digits c) point).2 ++
        exponentPart (e + digitCount c - point)))) := by
  have hdigits : ∀ d ∈ digits c, isAsciiDigit d = true := fun d => isAsciiDigit_of_mem_digits
  have hzeros : ∀ k, ∀ d ∈ List.replicate k '0', isAsciiDigit d = true := by
    intro k d hd
    rw [(List.mem_replicate.1 hd).2]
    decide
  have hlength : (digits c).length = digitCount c := rfl
  have hpos := digitCount_pos c
  rw [splitDigits]
  split
  · next hle =>
    refine ⟨⟨['0'], _, _, rfl, List.cons_ne_nil _ _, hzeros 1, ?_, ?_, ?_⟩⟩
    · intro d hd
      exact (List.mem_append.1 hd).elim (hzeros _ d) (hdigits d)
    · rw [List.singleton_append, ← List.cons_append, ← List.replicate_succ, natOfDigits_zeros,
        natOfDigits_digits]
    · rw [List.length_append, List.length_replicate, hlength]
      omega
  split
  · next hge =>
    have hnone : (point - (digits c).length).toNat = 0 := by omega
    rw [hnone, List.replicate_zero, List.append_nil]
    refine ⟨⟨digits c, [], _, rfl, digits_ne_nil c, hdigits, by simp, ?_, ?_⟩⟩
    · rw [List.append_nil, natOfDigits_digits]
    · rw [List.length_nil]
      omega
  · next hlt =>
    refine ⟨⟨_, _, _, rfl, ?_, ?_, ?_, ?_, ?_⟩⟩
    · rw [← List.length_pos_iff, List.length_take]
      omega
    · exact fun d hd => hdigits d (List.mem_of_mem_take hd)
    · exact fun d hd => hdigits d (List.mem_of_mem_drop hd)
    · rw [List.take_append_drop, natOfDigits_digits]
    · rw [List.length_drop, hlength]
      omega

namespace Decimal

theorem toList_power (shift : Int) :
    (if shift = 0 then "" else if 0 < shift then "E+" ++ toString shift
      else "E" ++ toString shift).toList = exponentPart shift := by
  rw [exponentPart]
  split
  · rfl
  · next hne =>
    split
    · next hpos =>
      rw [String.toList_append, Int.toString_eq_repr, Int.repr_eq_if, if_pos (by omega),
        Nat.toList_repr, show shift.toNat = shift.natAbs by omega]
      rfl
    · next hpos =>
      rw [String.toList_append, Int.toString_eq_repr, Int.repr_eq_if, if_neg (by omega),
        String.toList_append, Nat.toList_repr, show (-shift).toNat = shift.natAbs by omega]
      rfl

theorem magnitudeText_eq (c : Nat) (e : Int) :
    let left := e + (digitCount c : Int)
    let point := if e ≤ 0 ∧ -6 < left then left else 1
    let parts := splitDigits (digits c) point
    magnitudeText c e =
      String.ofList (if parts.2.isEmpty then parts.1 else parts.1 ++ '.' :: parts.2) ++
        (if left - point = 0 then "" else if 0 < left - point then "E+" ++ toString (left - point)
          else "E" ++ toString (left - point)) := rfl

/-- The text of a decimal without sign is laid out by its coefficient and exponent. -/
theorem layout_magnitudeText (c : Nat) (e : Int) :
    Nonempty (Layout c e (magnitudeText c e).toList) := by
  generalize hpoint : (if e ≤ 0 ∧ -6 < e + (digitCount c : Int) then e + (digitCount c : Int)
    else 1) = point
  have hpos := digitCount_pos c
  have hle : point ≤ digitCount c := by
    rw [← hpoint]
    split <;> omega
  have htext : (magnitudeText c e).toList = (splitDigits (digits c) point).1 ++
      (fractionPart (splitDigits (digits c) point).2 ++
        exponentPart (e + digitCount c - point)) := by
    rw [magnitudeText_eq, hpoint, String.toList_append, toList_power, String.toList_ofList,
      fractionPart]
    split <;> simp
  rw [htext]
  exact layout_splitDigits c e hle

end Decimal

/-! ## Reading -/

/-- The characters that finite decimals are written with. -/
def isNumberChar (c : Char) : Bool := isAsciiDigit c || c ∈ ['.', 'E', '+', '-']

theorem toNat_of_isNumberChar {c : Char} (h : isNumberChar c = true) :
    33 ≤ c.toNat ∧ c.toNat ≤ 70 := by
  simp only [isNumberChar, isAsciiDigit, Bool.or_eq_true, Bool.and_eq_true, decide_eq_true_eq,
    Char.le_def, UInt32.le_iff_toNat_le, List.mem_cons, List.not_mem_nil, or_false] at h
  rcases h with ⟨hlow, hhigh⟩ | rfl | rfl | rfl | rfl
  · have hlow : 48 ≤ c.toNat := hlow
    have hhigh : c.toNat ≤ 57 := hhigh
    omega
  all_goals decide

theorem toLower_of_isAsciiDigit {c : Char} (h : isAsciiDigit c = true) : c.toLower = c := by
  simp only [isAsciiDigit, Bool.and_eq_true, decide_eq_true_eq, Char.le_def,
    UInt32.le_iff_toNat_le] at h
  have hhigh : c.toNat ≤ 57 := h.2
  refine dif_neg ?_
  rintro ⟨hge, -⟩
  have hupper : 65 ≤ c.toNat := UInt32.le_iff_toNat_le.1 hge
  omega

theorem Layout.numberChars {c : Nat} {e : Int} {s : List Char} (l : Layout c e s) :
    ∀ d ∈ s, isNumberChar d = true := by
  have hdigit : ∀ d, isAsciiDigit d = true → isNumberChar d = true := fun d hd => by
    rw [isNumberChar, hd, Bool.true_or]
  have hfraction : ∀ d ∈ fractionPart l.fraction, isNumberChar d = true := by
    intro d hd
    rw [fractionPart] at hd
    split at hd
    · cases hd
    · rcases List.mem_cons.1 hd with rfl | hd
      · decide
      · exact hdigit d (l.fraction_digits d hd)
  have hexponent : ∀ d ∈ exponentPart l.shift, isNumberChar d = true := by
    intro d hd
    rw [exponentPart] at hd
    split at hd
    · cases hd
    · rcases List.mem_cons.1 hd with rfl | hd
      · decide
      rcases List.mem_cons.1 hd with rfl | hd
      · split <;> decide
      · exact hdigit d (isAsciiDigit_of_mem_digits hd)
  intro d hd
  rw [l.eq_append, List.mem_append, List.mem_append] at hd
  rcases hd with hd | hd | hd
  · exact hdigit d (l.whole_digits d hd)
  · exact hfraction d hd
  · exact hexponent d hd

theorem Layout.exists_eq_cons {c : Nat} {e : Int} {s : List Char} (l : Layout c e s) :
    ∃ d rest, s = d :: rest ∧ isAsciiDigit d = true := by
  obtain ⟨whole, fraction, shift, rfl, hne, hwhole, -⟩ := l
  cases whole with
  | nil => exact absurd rfl hne
  | cons d rest => exact ⟨d, _, rfl, hwhole d List.mem_cons_self⟩

theorem trimBlank_of_forall {s : List Char} (h : ∀ c ∈ s, isBlank c = false) : trimBlank s = s := by
  have hskip : ∀ t : List Char, (∀ c ∈ t, isBlank c = false) → skipBlank t = t := by
    intro t ht
    cases t with
    | nil => rfl
    | cons c rest => rw [skipBlank, List.dropWhile_cons_of_neg (by simp [ht c List.mem_cons_self])]
  rw [trimBlank, hskip s h, hskip _ fun c hc => h c (List.mem_reverse.1 hc), List.reverse_reverse]

theorem mapM_of_forall {f : Char → Option Char} {s : List Char} (h : ∀ c ∈ s, f c = some c) :
    s.mapM f = some s := by
  induction s with
  | nil => rfl
  | cons c rest ih =>
    rw [List.mapM_cons, h c List.mem_cons_self, ih fun d hd => h d (List.mem_cons_of_mem c hd)]
    rfl

namespace Decimal

/-- Nothing is passed over in a text of such characters. -/
theorem read?_of_numberChars {s : String} (h : ∀ c ∈ s.toList, isNumberChar c = true) :
    read? s = readAscii? s.toList := by
  have hblank : ∀ c ∈ s.toList, isBlank c = false := by
    intro c hc
    have hrange := toNat_of_isNumberChar (h c hc)
    rw [Bool.eq_false_iff]
    intro hb
    have hranges := toNat_ranges_of_isBlank hb
    omega
  have hunderscore : s.toList.filter (· ≠ '_') = s.toList := by
    refine List.filter_eq_self.2 fun c hc => decide_eq_true ?_
    rintro rfl
    exact absurd (h '_' hc) (by decide)
  have hascii : ∀ c ∈ s.toList, (if c.toNat < 128 then some c
      else (decimalDigit? c).map fun d => Char.ofNat (48 + d)) = some c := by
    intro c hc
    have hrange := toNat_of_isNumberChar (h c hc)
    exact if_pos (by omega)
  simp only [read?, trimBlank_of_forall hblank]
  rw [hunderscore, mapM_of_forall hascii]
  rfl

/-- The text of a decimal begins with its sign, and goes on with its coefficient and exponent. -/
theorem readAscii?_layout (s : Bool) {c : Nat} {e : Int} {body : List Char} (l : Layout c e body) :
    readAscii? ((signText s).toList ++ body) = finite? s c e := by
  obtain ⟨d, rest, hbody, hdigit⟩ := l.exists_eq_cons
  have hsplit : splitSign ((signText s).toList ++ body) = (s, body) := by
    cases s with
    | true => rfl
    | false =>
      rw [hbody]
      show splitSign (d :: rest) = (false, d :: rest)
      unfold splitSign
      split
      · next heq =>
        cases heq
        exact absurd hdigit (by decide)
      · next heq =>
        cases heq
        exact absurd hdigit (by decide)
      · rfl
  have hlower : body.map Char.toLower = d :: rest.map Char.toLower := by
    rw [hbody, List.map_cons, toLower_of_isAsciiDigit hdigit]
  have hread : Literal.read? (d :: rest) = some ⟨c, e⟩ := hbody ▸ Literal.read?_layout l
  have hi : d ≠ 'i' := by
    rintro rfl
    exact absurd hdigit (by decide)
  simp only [readAscii?, hsplit, hlower, List.cons.injEq, hi, false_and, or_self, if_false]
  split
  · next heq =>
    rw [(List.cons.inj heq).1] at hdigit
    exact absurd hdigit (by decide)
  · next heq =>
    rw [(List.cons.inj heq).1] at hdigit
    exact absurd hdigit (by decide)
  · rw [hbody, hread]
    rfl

/-- The text of a finite decimal reads back as the decimal, if its exponents are within the
bounds. -/
theorem read?_text {s : Bool} {c : Nat} {e : Int} (hleast : leastExponent ≤ e)
    (hgreatest : leadingExponent c e ≤ greatestExponent) :
    read? (text (.finite s c e)) = some (.finite s c e) := by
  obtain ⟨l⟩ := layout_magnitudeText c e
  have hchars : ∀ d ∈ (text (.finite s c e)).toList, isNumberChar d = true := by
    intro d hd
    rw [text, String.toList_append, List.mem_append] at hd
    rcases hd with hd | hd
    · cases s
      · cases hd
      · rw [List.mem_singleton.1 hd]
        decide
    · exact l.numberChars d hd
  rw [read?_of_numberChars hchars, text, String.toList_append, readAscii?_layout s l, finite?,
    if_pos ⟨hleast, hgreatest⟩]

end Decimal

/-! ## What a text denotes -/

/-- Whether a text denotes a rational number. -/
def Denotes (text : String) (x : ℚ) : Prop :=
  ∃ s c e, Decimal.read? text = some (.finite s c e) ∧ Decimal.worth s c e = x

/-- Without an exponent the digits are all that is written. -/
theorem magnitudeText_zero (n : Nat) : Decimal.magnitudeText n 0 = n.repr := by
  have hpos := digitCount_pos n
  have hpoint : (if (0 : Int) ≤ 0 ∧ -6 < 0 + (digitCount n : Int) then 0 + (digitCount n : Int)
      else 1) = digitCount n := by
    rw [if_pos (by omega)]
    omega
  have hparts : splitDigits (digits n) (digitCount n) = (digits n, []) := by
    rw [splitDigits, if_neg (by omega), digitCount, if_pos (by omega), sub_self, Int.toNat_zero,
      List.replicate_zero, List.append_nil]
  rw [Decimal.magnitudeText_eq, hpoint, hparts, zero_add, sub_self, if_pos rfl]
  exact String.append_empty

/-- A whole number is written as the decimal that it is. -/
theorem toString_int (i : Int) : toString i = (Decimal.ofInt i).text := by
  rw [Int.toString_eq_repr, Int.repr_eq_if, Decimal.ofInt, Decimal.text, magnitudeText_zero]
  by_cases hneg : i < 0
  · rw [if_neg (by omega), decide_eq_true hneg, show (-i).toNat = i.natAbs by omega]
    rfl
  · rw [if_pos (by omega), decide_eq_false hneg, show i.toNat = i.natAbs by omega,
      Decimal.signText, if_neg Bool.false_ne_true, String.empty_append]

/-- The text of a whole number denotes it, unless it has too many digits. -/
theorem denotes_toString {i : Int} (h : IsShort i) : Denotes (toString i) i := by
  have hgreatest : Decimal.leadingExponent i.natAbs 0 ≤ Decimal.greatestExponent := by
    have hshort : digitCount i.natAbs ≤ maxIntegerDigits := h
    rw [Decimal.leadingExponent, Decimal.greatestExponent]
    rw [maxIntegerDigits] at hshort
    omega
  rw [toString_int]
  exact ⟨_, _, _, Decimal.read?_text (by decide) hgreatest, Decimal.worth_ofInt i⟩

end Phrasebook.Number
