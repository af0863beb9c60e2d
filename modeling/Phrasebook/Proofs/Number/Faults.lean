/-
  Where arithmetic fails.

  Of the operations that a message makes on a number, taking a whole number
  away fails on a signaling NaN, on decimals whose difference reaches the
  ceiling, and on binary numbers if the whole number itself is too large to be
  one.  A remainder is refused to infinite decimals and to those whose quotient
  has more digits than are kept.  A text is refused to whole numbers that have
  more digits than are written.  Nothing else fails.
-/
import Phrasebook.Number.Numeric
import Phrasebook.Proofs.Message.WellFormed
import Phrasebook.Proofs.Number.Ceiling

set_option autoImplicit false

namespace Phrasebook.Number

/-! ## Whole numbers as binary numbers -/

namespace Binary64

/-- The exponent of half a unit of the last digit of the largest values. -/
@[irreducible] def halfExponent : Nat := 970

theorem halfExponent_add_one : (halfExponent : Int) + 1 = maxExponent := by
  unfold halfExponent
  rfl

/-- Where the whole numbers begin that are too large for binary numbers: the largest of these and
half a unit of its last digit. -/
def ceiling : Nat := (2 * (2 ^ 53 - 1) + 1) * 2 ^ halfExponent

/-- A whole number has a whole part of 53 bits at the exponent that its first bit says. -/
theorem fullExponent_one {n : Nat} (h : n ≠ 0) : fullExponent n 1 = (Nat.log2 n : Int) - 52 := by
  have hlow : 2 ^ Nat.log2 n ≤ n := Nat.log2_self_le h
  have hone : Nat.log2 1 = 0 := by decide
  simp only [fullExponent, scaleDown, hone, Nat.cast_zero, sub_zero, one_mul]
  split
  · next hle =>
    refine if_neg (Nat.not_lt.2 ?_)
    rw [Nat.le_div_iff_mul_le (Nat.two_pow_pos _), ← Nat.pow_add]
    have hexponent : 52 + ((Nat.log2 n : Int) - 52).toNat = Nat.log2 n := by omega
    rwa [hexponent]
  · next hlt =>
    refine if_neg (Nat.not_lt.2 ?_)
    rw [Nat.div_one]
    have hexponent : Nat.log2 n + (-((Nat.log2 n : Int) - 52)).toNat = 52 := by omega
    calc 2 ^ 52 = 2 ^ Nat.log2 n * 2 ^ (-((Nat.log2 n : Int) - 52)).toNat := by
          rw [← Nat.pow_add, hexponent]
      _ ≤ n * 2 ^ (-((Nat.log2 n : Int) - 52)).toNat := Nat.mul_le_mul_right _ hlow

section Ceiling

variable {n : Nat}

theorem ceiling_pos : 0 < ceiling := Nat.mul_pos (by decide) (Nat.two_pow_pos halfExponent)

/-- A number with fewer bits than the largest binary numbers lies below the ceiling. -/
theorem lt_ceiling_of_log2_lt (h : Nat.log2 n < 53 + halfExponent) :
    n < ceiling := by
  have hhigh : n < 2 ^ (Nat.log2 n + 1) := Nat.lt_log2_self
  have hpow : 2 ^ (Nat.log2 n + 1) ≤ 2 ^ (53 + halfExponent) := Nat.pow_le_pow_right Nat.two_pos h
  have hmul : 2 ^ 53 * 2 ^ halfExponent ≤ ceiling := by
    rw [ceiling]
    exact Nat.mul_le_mul_right _ (by decide)
  rw [← Nat.pow_add] at hmul
  exact hhigh.trans_le (hpow.trans hmul)

/-- One with more bits lies above it. -/
theorem ceiling_le_of_lt_log2 (hn : n ≠ 0)
    (h : 53 + halfExponent < Nat.log2 n) : ceiling ≤ n := by
  have hlow : 2 ^ Nat.log2 n ≤ n := Nat.log2_self_le hn
  have hpow : 2 ^ (54 + halfExponent) ≤ 2 ^ Nat.log2 n := Nat.pow_le_pow_right Nat.two_pos (by omega)
  have hmul : ceiling ≤ 2 ^ 54 * 2 ^ halfExponent := by
    rw [ceiling]
    exact Nat.mul_le_mul_right _ (by decide)
  rw [← Nat.pow_add] at hmul
  exact hmul.trans (hpow.trans hlow)

/-- One with as many bits lies above it if it is rounded to a power of two above them all. -/
theorem divNearest_eq_iff_ceiling_le (h : Nat.log2 n = 53 + halfExponent) :
    divNearest n (1 * 2 ^ (halfExponent + 1)) = 2 ^ 53 ↔ ceiling ≤ n := by
  have hhigh : n < 2 ^ (Nat.log2 n + 1) := Nat.lt_log2_self
  have hpow : 2 ^ (Nat.log2 n + 1) = (2 ^ 53 - 1 + 1) * 2 ^ (halfExponent + 1) := by
    rw [show 2 ^ 53 - 1 + 1 = 2 ^ 53 by decide, ← Nat.pow_add, h, Nat.add_assoc]
  rw [Nat.one_mul, ceiling]
  refine (divNearest_eq_succ_iff (Nat.two_pow_pos _) (by decide) (hpow ▸ hhigh.le)).trans ?_
  rw [Nat.pow_succ', Nat.mul_left_comm]
  exact Nat.mul_le_mul_left_iff Nat.two_pos

end Ceiling

/-- Whole numbers are too large for binary numbers from the ceiling on. -/
theorem ofRatio_one_cases (s : Bool) (n : Nat) :
    (ofRatio s n 1 = .infinite s ∧ ceiling ≤ n) ∨
    ((∃ m e, ofRatio s n 1 = .finite s m e) ∧ n < ceiling) := by
  by_cases hn : n = 0
  · rw [hn, ofRatio, if_pos rfl]
    exact .inr ⟨⟨_, _, rfl⟩, ceiling_pos⟩
  have hmaximum := halfExponent_add_one
  have hmax : max (fullExponent n 1) minExponent = (Nat.log2 n : Int) - 52 := by
    rw [fullExponent_one hn, minExponent]
    omega
  rw [ofRatio, if_neg hn, hmax]
  dsimp only
  rcases Nat.lt_trichotomy (Nat.log2 n) (53 + halfExponent) with hless | heq | hmore
  · refine .inr ⟨?_, lt_ceiling_of_log2_lt hless⟩
    split
    · exact ⟨_, _, if_neg (by omega)⟩
    · exact ⟨_, _, if_neg (by omega)⟩
  · have hscale : scaleDown n 1 ((Nat.log2 n : Int) - 52) = (n, 1 * 2 ^ (halfExponent + 1)) := by
      have hexponent : ((Nat.log2 n : Int) - 52).toNat = halfExponent + 1 := by omega
      rw [scaleDown, if_pos (by omega), hexponent]
    rw [hscale]
    dsimp only
    split
    · next hfull =>
      exact .inl ⟨if_pos (by omega), (divNearest_eq_iff_ceiling_le heq).1 hfull⟩
    · next hfull =>
      refine .inr ⟨⟨_, _, if_neg (by omega)⟩, Nat.lt_of_not_le fun hceiling => ?_⟩
      exact hfull ((divNearest_eq_iff_ceiling_le heq).2 hceiling)
  · refine .inl ⟨?_, ceiling_le_of_lt_log2 hn hmore⟩
    split
    · exact if_pos (by omega)
    · exact if_pos (by omega)

/-- A whole number fails to be a binary number exactly if it is too large. -/
theorem ofInt_eq_error_iff {n : Int} {fault : Fault} :
    ofInt n = .error fault ↔ fault = .outOfRange ∧ ceiling ≤ n.natAbs := by
  rw [ofInt]
  rcases ofRatio_one_cases (n < 0) n.natAbs with ⟨hratio, hceiling⟩ | ⟨⟨m, e, hratio⟩, hceiling⟩
  · rw [hratio]
    simp only [Except.error.injEq, hceiling, and_true, eq_comm]
  · rw [hratio]
    simp only [reduceCtorEq, Nat.not_le.2 hceiling, and_false]

end Binary64

/-! ## Decimals -/

namespace Decimal

/-- Whether a decimal is no signaling NaN. -/
def Quiet : Decimal → Prop
  | .nan _ signaling _ => signaling = false
  | _ => True

/-- What a NaN is passed on as is quiet, and only a signaling one is not passed on. -/
theorem passNaN_cases (s signaling : Bool) (payload : Nat) :
    (passNaN s signaling payload = .error .invalidOperation ∧ signaling = true) ∨
    ((∃ payload', passNaN s signaling payload = .ok (.nan s false payload')) ∧
      signaling = false) := by
  cases signaling with
  | false => exact .inr ⟨⟨_, rfl⟩, rfl⟩
  | true => exact .inl ⟨rfl, rfl⟩

/-- How taking a whole number away from a decimal fails. -/
inductive SubFault (k : Int) : Decimal → Fault → Prop
  | signaling (s : Bool) (payload : Nat) : SubFault k (.nan s true payload) .invalidOperation
  | large {s : Bool} {c : Nat} {e : Int} (large : ceiling ≤ |worth s c e - k|) :
    SubFault k (.finite s c e) .decimalOverflow

/-- A whole number that is taken away is one that is added with the other sign. -/
theorem worth_neg_int (k : Int) : worth (0 ≤ k) k.natAbs 0 = -k := by
  rw [worth, zpow_zero, mul_one]
  norm_cast
  by_cases hk : 0 ≤ k
  · simp only [signed, hk, decide_true, if_true]
    omega
  · simp only [signed, hk, decide_false, Bool.false_eq_true, if_false]
    omega

/-- What is left of a decimal is quiet, unless the subtraction fails. -/
theorem subInt_cases (d : Decimal) (k : Int) :
    (∃ fault, d.subInt k = .error fault ∧ SubFault k d fault) ∨
    ((∃ d', d.subInt k = .ok d' ∧ d'.Quiet) ∧ ∀ fault, ¬ SubFault k d fault) := by
  cases d with
  | finite s c e =>
    have hsum := roundedSum_cases s c e (0 ≤ k) k.natAbs 0
    rw [worth_neg_int, ← sub_eq_add_neg] at hsum
    rcases hsum with ⟨hround, hlarge⟩ | ⟨⟨s', c', e', hround⟩, hless⟩
    · exact .inl ⟨_, hround, .large hlarge⟩
    · refine .inr ⟨⟨_, hround, trivial⟩, ?_⟩
      rintro fault ⟨⟩
      exact absurd hless (not_lt.2 ‹_›)
  | infinite s => exact .inr ⟨⟨_, rfl, trivial⟩, nofun⟩
  | nan s signaling payload =>
    rcases passNaN_cases s signaling payload with ⟨hpass, rfl⟩ | ⟨⟨payload', hpass⟩, rfl⟩
    · exact .inl ⟨_, hpass, .signaling s payload⟩
    · exact .inr ⟨⟨_, hpass, rfl⟩, nofun⟩

/-- A decimal that has no remainder: the quotient would be infinite, or have more digits than are
kept. -/
inductive Indivisible (m : Nat) : Decimal → Prop
  | infinite (s : Bool) : Indivisible m (.infinite s)
  | large {s : Bool} {c : Nat} {e : Int} (large : m * 10 ^ precision ≤ magnitude c e) :
    Indivisible m (.finite s c e)

/-- A decimal that has no remainder by a divisor has none by a smaller one. -/
theorem Indivisible.mono {m m' : Nat} (hle : m ≤ m') {d : Decimal} (h : Indivisible m' d) :
    Indivisible m d := by
  cases h with
  | infinite s => exact .infinite s
  | large hlarge =>
    have hcast : (m : ℚ) ≤ m' := by exact_mod_cast hle
    exact .large ((mul_le_mul_of_nonneg_right hcast (by positivity)).trans hlarge)

/-- A divisor brought to a smaller exponent. -/
theorem magnitude_divisor (m : Nat) (e : Int) :
    magnitude (m * 10 ^ (0 - min e 0).toNat) (min e 0) = m := by
  rw [← timesTenPow_eq, ← magnitude_timesTenPow m (min_le_right e 0), magnitude, zpow_zero,
    mul_one]

/-- The whole quotient has as many digits as are kept exactly if the number is that much larger
than the divisor. -/
theorem quotient_lt_iff {c m : Nat} (hm : 0 < m) (e : Int) :
    c * 10 ^ (e - min e 0).toNat / (m * 10 ^ (0 - min e 0).toNat) < 10 ^ precision ↔
      magnitude c e < m * 10 ^ precision := by
  rw [Nat.div_lt_iff_lt_mul (Nat.mul_pos hm (Nat.pow_pos (by decide))),
    magnitude_timesTenPow c (min_le_left e 0), timesTenPow_eq, ← magnitude_divisor m e, magnitude,
    magnitude, mul_right_comm, mul_lt_mul_iff_left₀ (ten_zpow_pos _), mul_comm (10 ^ precision)]
  exact_mod_cast Iff.rfl

/-- A number below a divisor that decimal arithmetic keeps in full is far from the ceiling. -/
theorem roundFinite_of_lt_divisor {m : Nat} (hm : digitCount m ≤ precision) (s : Bool) {c : Nat}
    {e : Int} (h : magnitude c e < m) : ∃ r, roundFinite s c e = .ok r ∧ r.Quiet := by
  have hdigits : (m : ℚ) ≤ 10 ^ (precision : Int) := by
    have hpow := Nat.pow_le_pow_right (show 0 < 10 by decide) hm
    rw [zpow_natCast]
    exact_mod_cast (lt_ten_pow_digitCount m).le.trans hpow
  have hpos : 0 < topExponent := by decide
  have hless : magnitude c e < ceiling := lt_ceiling_of_lt (by omega) (h.trans_le hdigits)
  rcases roundFinite_cases s c e with ⟨-, hceiling⟩ | ⟨⟨c', e', hround⟩, -⟩
  · exact absurd hless (not_lt.2 hceiling)
  · exact ⟨_, hround, trivial⟩

/-- The powers of ten around a divisor. -/
theorem divisor_bounds {m : Nat} (hm : 0 < m) :
    (10 : ℚ) ^ ((digitCount m : Int) - 1) ≤ m ∧ (m : ℚ) ≤ 10 ^ (digitCount m : Int) := by
  have hlow := le_magnitude hm.ne' 0
  have hhigh := magnitude_lt m 0
  rw [magnitude, zpow_zero, mul_one] at hlow hhigh
  rw [leadingExponent] at hlow
  simp only [zero_add] at hlow hhigh
  exact ⟨hlow, hhigh.le⟩

/-- A remainder is refused to infinite decimals and to those with too large a quotient. -/
theorem remainder_cases {m : Nat} (hm : 0 < m) (hdigits : digitCount m ≤ precision) {d : Decimal}
    (hquiet : d.Quiet) :
    (d.remainder m = .error .invalidOperation ∧ Indivisible m d) ∨
    ((∃ r, d.remainder m = .ok r ∧ r.Quiet) ∧ ¬ Indivisible m d) := by
  cases d with
  | infinite s => exact .inl ⟨rfl, .infinite s⟩
  | nan s signaling payload =>
    obtain rfl : signaling = false := hquiet
    exact .inr ⟨⟨_, rfl, rfl⟩, nofun⟩
  | finite s c e =>
    have hdivisible : magnitude c e < m * 10 ^ precision → ¬ Indivisible m (.finite s c e) := by
      rintro hless ⟨⟩
      rename_i hlarge
      exact not_le.2 hless hlarge
    simp only [remainder]
    split
    · next hsmall =>
      have hless : magnitude c e < m := by
        rcases hsmall with rfl | hgap
        · rw [magnitude_zero]
          exact_mod_cast hm
        · have hpow : e + digitCount c ≤ (digitCount m : Int) - 1 := by omega
          exact (magnitude_lt c e).trans_le ((ten_zpow_le hpow).trans (divisor_bounds hm).1)
      have hone : (m : ℚ) ≤ m * 10 ^ precision :=
        le_mul_of_one_le_right (Nat.cast_nonneg m) (one_le_pow₀ (by norm_num))
      refine .inr ⟨roundFinite_of_lt_divisor hdigits s ?_, hdivisible (hless.trans_le hone)⟩
      rwa [← magnitude_timesTenPow c (min_le_left e 0)]
    split
    · split
      · next hquotient =>
        refine .inr ⟨roundFinite_of_lt_divisor hdigits s ?_,
          hdivisible ((quotient_lt_iff hm e).1 hquotient)⟩
        have hmod := Nat.mod_lt (c * 10 ^ (e - min e 0).toNat)
          (Nat.mul_pos hm (Nat.pow_pos (show 0 < 10 by decide) : 0 < 10 ^ (0 - min e 0).toNat))
        rw [← magnitude_divisor m e, magnitude, magnitude]
        exact mul_lt_mul_of_pos_right (by exact_mod_cast hmod) (ten_zpow_pos _)
      · next hquotient =>
        rw [quotient_lt_iff hm, not_lt] at hquotient
        exact .inl ⟨rfl, .large hquotient⟩
    · next hfirst hgap =>
      have hc : c ≠ 0 := fun hzero => hfirst (.inl hzero)
      refine .inl ⟨rfl, .large ?_⟩
      calc (m : ℚ) * 10 ^ precision
          ≤ 10 ^ (digitCount m : Int) * 10 ^ (precision : Int) := by
            rw [zpow_natCast 10 precision]
            exact mul_le_mul_of_nonneg_right (divisor_bounds hm).2 (by positivity)
        _ = 10 ^ ((digitCount m : Int) + precision) := (ten_zpow_add _ _).symm
        _ ≤ 10 ^ leadingExponent c e := ten_zpow_le (by rw [leadingExponent]; omega)
        _ ≤ magnitude c e := le_magnitude hc e

end Decimal

/-! ## Numbers of every kind -/

theorem isShort_iff {n : Int} : IsShort n ↔ n.natAbs < 10 ^ maxIntegerDigits :=
  Nat.length_toDigits_le_iff (by decide) (by decide)

/-- The text of a whole number is refused exactly if it has more digits than are written. -/
theorem integerText_eq_error_iff {n : Int} {fault : Fault} :
    integerText n = .error fault ↔ fault = .tooManyDigits ∧ ¬ IsShort n := by
  rw [isShort_iff, not_lt]
  by_cases hlong : 10 ^ maxIntegerDigits ≤ n.natAbs
  · simp only [integerText, integerText.digitCountOver, hlong, decide_true, if_true,
      Except.error.injEq, and_true, eq_comm]
  · simp only [integerText_eq_ok (not_le.1 hlong), reduceCtorEq, hlong, and_false]

namespace Numeric

/-- Whether a number is no signaling NaN. -/
def Quiet : Numeric → Prop
  | .decimal d => d.Quiet
  | _ => True

/-- How taking a whole number away from a number fails. -/
inductive SubFault (k : Int) : Numeric → Fault → Prop
  | float (x : Binary64) (large : Binary64.ceiling ≤ k.natAbs) :
    SubFault k (.float x) .outOfRange
  | decimal {d : Decimal} {fault : Fault} (h : d.SubFault k fault) :
    SubFault k (.decimal d) fault

/-- What is left of a number is quiet, unless the subtraction fails. -/
theorem subInt_cases (n : Numeric) (k : Int) :
    (∃ fault, n.subInt k = .error fault ∧ n.SubFault k fault) ∨
    ((∃ n', n.subInt k = .ok n' ∧ n'.Quiet) ∧ ∀ fault, ¬ n.SubFault k fault) := by
  cases n with
  | int i => exact .inr ⟨⟨_, rfl, trivial⟩, nofun⟩
  | float x =>
    cases hof : Binary64.ofInt k with
    | error fault =>
      obtain ⟨rfl, hlarge⟩ := Binary64.ofInt_eq_error_iff.1 hof
      refine .inl ⟨_, ?_, .float x hlarge⟩
      simp only [subInt, Binary64.subInt, hof, bind, Except.bind, Except.map]
    | ok y =>
      refine .inr ⟨⟨.float (x.sub y), ?_, trivial⟩, ?_⟩
      · simp only [subInt, Binary64.subInt, hof, bind, Except.bind, pure, Except.pure, Except.map]
      · rintro fault ⟨⟩
        have herror := Binary64.ofInt_eq_error_iff.2 ⟨rfl, ‹_›⟩
        rw [hof] at herror
        cases herror
  | decimal d =>
    rcases d.subInt_cases k with ⟨fault, hsub, hfault⟩ | ⟨⟨d', hsub, hquiet⟩, hnone⟩
    · exact .inl ⟨fault, by rw [subInt, hsub]; rfl, .decimal hfault⟩
    · refine .inr ⟨⟨.decimal d', by rw [subInt, hsub]; rfl, hquiet⟩, ?_⟩
      rintro fault ⟨⟩
      exact hnone fault ‹_›

theorem subInt_eq_error_iff {n : Numeric} {k : Int} {fault : Fault} :
    n.subInt k = .error fault ↔ n.SubFault k fault := by
  rcases n.subInt_cases k with ⟨fault', hsub, hfault⟩ | ⟨⟨n', hsub, -⟩, hnone⟩
  · rw [hsub, Except.error.injEq]
    constructor
    · rintro rfl
      exact hfault
    · intro h
      -- two faults of one subtraction are the same
      cases hfault with
      | float x hlarge => cases h; rfl
      | decimal hd =>
        cases h with
        | decimal h => cases hd <;> cases h <;> rfl
  · rw [hsub]
    exact iff_of_false nofun (hnone fault)

theorem quiet_of_subInt {n n' : Numeric} {k : Int} (h : n.subInt k = .ok n') : n'.Quiet := by
  rcases n.subInt_cases k with ⟨fault, hsub, -⟩ | ⟨⟨m, hsub, hquiet⟩, -⟩
  · rw [hsub] at h
    cases h
  · rw [hsub] at h
    cases h
    exact hquiet

/-- Only whole numbers have texts that are refused. -/
theorem text_eq_error_iff {n : Numeric} {fault : Fault} :
    n.text = .error fault ↔ fault = .tooManyDigits ∧ ∃ i, n = .int i ∧ ¬ IsShort i := by
  cases n with
  | int i =>
    rw [text, integerText_eq_error_iff]
    simp only [int.injEq, exists_eq_left']
  | float x => exact iff_of_false nofun fun h => nomatch h.2
  | decimal d => exact iff_of_false nofun fun h => nomatch h.2

/-- Only decimals have remainders that are refused. -/
theorem remainder_cases {m : Nat} (hm : 0 < m) (hdigits : digitCount m ≤ Decimal.precision)
    {n : Numeric} (hquiet : n.Quiet) :
    (n.remainder m = .error .invalidOperation ∧ ∃ d, n = .decimal d ∧ d.Indivisible m) ∨
    ((∃ r, n.remainder m = .ok r ∧ r.Quiet) ∧ ¬ ∃ d, n = .decimal d ∧ d.Indivisible m) := by
  cases n with
  | int i => exact .inr ⟨⟨_, rfl, trivial⟩, nofun⟩
  | float x => exact .inr ⟨⟨_, rfl, trivial⟩, nofun⟩
  | decimal d =>
    rcases Decimal.remainder_cases hm hdigits (d := d) hquiet with
      ⟨hrem, hfault⟩ | ⟨⟨r, hrem, hr⟩, hnone⟩
    · exact .inl ⟨by rw [remainder, hrem]; rfl, d, rfl, hfault⟩
    · refine .inr ⟨⟨.decimal r, by rw [remainder, hrem]; rfl, hr⟩, ?_⟩
      rintro ⟨d', heq, hfault⟩
      cases heq
      exact hnone hfault

/-- A quiet number can be compared. -/
theorem equalsInt_of_quiet {n : Numeric} (h : n.Quiet) (k : Int) :
    ∃ same, n.equalsInt k = .ok same := by
  cases n with
  | int i => exact ⟨_, rfl⟩
  | float x => exact ⟨_, rfl⟩
  | decimal d =>
    cases d with
    | finite s c e => exact ⟨_, rfl⟩
    | infinite s => exact ⟨_, rfl⟩
    | nan s signaling payload =>
      obtain rfl : signaling = false := h
      exact ⟨_, rfl⟩

end Numeric

end Phrasebook.Number
