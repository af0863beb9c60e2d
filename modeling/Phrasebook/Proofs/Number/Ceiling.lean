/-
  The largest numbers that decimal arithmetic gives.

  Rounding fails for one reason only: the number is too large.  The numbers that
  are too large start half a unit above the largest result (`ceiling`), which is
  where the even neighbour of that result begins to draw numbers to it.  A sum
  is rounded from operands of which one may be replaced by a number that stands
  for it; the replacement leaves it on the side of the ceiling on which the
  exact sum lies, since there is a digit to spare below the last one that is
  kept.
-/
import Mathlib.Tactic.NormNum
import Phrasebook.Proofs.Number.Worth

set_option autoImplicit false

namespace Phrasebook.Number.Decimal

/-! ## The ceiling -/

/-- Where the numbers that are rounded to too large a result begin: the largest result and half a
unit of its last digit. -/
def ceiling : ℚ := (10 ^ precision - 1 / 2) * 10 ^ topExponent

theorem ten_zpow_add (a b : Int) : (10 : ℚ) ^ (a + b) = 10 ^ a * 10 ^ b :=
  zpow_add₀ (by norm_num) a b

theorem ten_zpow_le {a b : Int} (h : a ≤ b) : (10 : ℚ) ^ a ≤ 10 ^ b :=
  zpow_le_zpow_right₀ (by norm_num) h

theorem ten_zpow_pos (a : Int) : (0 : ℚ) < 10 ^ a := zpow_pos (by norm_num) a

theorem ceiling_pos : 0 < ceiling := by
  have hfactor : (0 : ℚ) < 10 ^ precision - 1 / 2 := by norm_num [precision]
  exact mul_pos hfactor (ten_zpow_pos topExponent)

/-- A number is too large if it has a digit above those of the largest results. -/
theorem ceiling_le_of_le {x : ℚ} {a : Int} (ha : topExponent + precision ≤ a) (h : 10 ^ a ≤ x) :
    ceiling ≤ x := by
  have hpow : (10 : ℚ) ^ (topExponent + precision) ≤ x := (ten_zpow_le ha).trans h
  rw [ten_zpow_add, zpow_natCast] at hpow
  have hpos := ten_zpow_pos topExponent
  rw [ceiling]
  linarith

/-- It is not if it has its first digit below the first one of those. -/
theorem lt_ceiling_of_lt {x : ℚ} {a : Int} (ha : a < topExponent + precision) (h : x < 10 ^ a) :
    x < ceiling := by
  have hpow : x < 10 ^ (topExponent + (precision - 1)) := h.trans_le (ten_zpow_le (by omega))
  have hpos := ten_zpow_pos topExponent
  rw [ten_zpow_add] at hpow
  rw [ceiling]
  have hfactor : (10 : ℚ) ^ ((precision : Int) - 1) ≤ 10 ^ precision - 1 / 2 := by
    norm_num [precision]
  nlinarith

/-- At the exponents of the largest results the ceiling is a number of half units. -/
theorem ceiling_le_magnitude_iff {c : Nat} {e : Int} (h : e ≤ topExponent) :
    ceiling ≤ magnitude c e ↔
      (2 * (10 ^ precision - 1) + 1) * 10 ^ (topExponent - e).toNat ≤ 2 * c := by
  obtain ⟨k, hk⟩ := Int.le.dest h
  have hunit : (topExponent - e).toNat = k := by omega
  have hceiling : ceiling = ((10 ^ precision - 1 / 2) * 10 ^ k) * 10 ^ e := by
    rw [ceiling, ← hk, ten_zpow_add, zpow_natCast]
    ring
  have hcast : (((2 * (10 ^ precision - 1) + 1) * 10 ^ k : Nat) : ℚ) =
      2 * ((10 ^ precision - 1 / 2) * 10 ^ k) := by
    have hpow : 1 ≤ 10 ^ precision := Nat.one_le_pow _ _ (by decide)
    push_cast [Nat.cast_sub hpow]
    ring
  rw [hunit, hceiling, magnitude, mul_le_mul_iff_left₀ (ten_zpow_pos e), ← Nat.cast_le (α := ℚ),
    hcast, Nat.cast_mul]
  norm_num

/-! ## Rounding -/

/-- A number whose digits are all kept lies below the ceiling. -/
theorem lt_ceiling_of_kept {c : Nat} {e : Int}
    (htop : digitCount c + e - precision ≤ topExponent)
    (hkept : digitCount c + e - precision ≤ e) : magnitude c e < ceiling := by
  rcases htop.lt_or_eq with hlt | heq
  · exact lt_ceiling_of_lt (by omega) (magnitude_lt c e)
  · have hexponent : e + digitCount c = topExponent + precision := by omega
    have hunit : (10 : ℚ) ^ topExponent ≤ 10 ^ e := ten_zpow_le (by omega)
    have hbound := magnitude_add_le c e
    have hpos := ten_zpow_pos topExponent
    rw [hexponent, ten_zpow_add, zpow_natCast] at hbound
    rw [ceiling]
    linarith

/-- What is left of a number that loses digits is at most a power of ten. -/
theorem le_of_loses {c : Nat} {e target : Int} (hexponent : e < target)
    (hleast : digitCount c + e - precision ≤ target) :
    c ≤ 10 ^ precision * 10 ^ (target - e).toNat := by
  have hdigits : digitCount c ≤ precision + (target - e).toNat := by omega
  rw [← Nat.pow_add]
  exact (lt_ten_pow_digitCount c).le.trans (Nat.pow_le_pow_right (by decide) hdigits)

/-- A number that loses digits reaches the ceiling if it is rounded to a power of ten at the
largest exponent. -/
theorem ceiling_le_iff_of_loses {c : Nat} {e target : Int} (hexponent : e < target)
    (hleast : digitCount c + e - precision ≤ target) (htop : target ≤ topExponent) :
    ceiling ≤ magnitude c e ↔
      divNearestTenPow c (target - e).toNat = 10 ^ precision ∧ target = topExponent := by
  rcases htop.lt_or_eq with hlt | rfl
  · have hbelow : magnitude c e < ceiling := lt_ceiling_of_lt (by omega) (magnitude_lt c e)
    constructor
    · intro hceiling
      exact absurd hceiling (not_le.2 hbelow)
    · rintro ⟨-, heq⟩
      exact absurd heq hlt.ne
  · have hsucc : 10 ^ precision - 1 + 1 = 10 ^ precision := by decide
    have hle := le_of_loses hexponent hleast
    rw [← hsucc] at hle
    rw [ceiling_le_magnitude_iff hexponent.le, divNearestTenPow_eq, ← hsucc,
      divNearest_eq_succ_iff (Nat.pow_pos (by decide)) (by decide) hle, hsucc]
    simp only [and_true]

/-- Rounding fails on the numbers from the ceiling on, and gives a finite number for the others. -/
theorem roundFinite_cases (s : Bool) (c : Nat) (e : Int) :
    (roundFinite s c e = .error .decimalOverflow ∧ ceiling ≤ magnitude c e) ∨
    ((∃ c' e', roundFinite s c e = .ok (.finite s c' e')) ∧ magnitude c e < ceiling) := by
  rw [roundFinite]
  split
  · next hzero =>
    rw [hzero, magnitude_zero]
    exact .inr ⟨⟨_, _, rfl⟩, ceiling_pos⟩
  next hc =>
  dsimp only
  split
  · next htop =>
    refine .inl ⟨rfl, ceiling_le_of_le ?_ (le_magnitude hc e)⟩
    rw [leadingExponent]
    omega
  next htop =>
  rw [not_lt] at htop
  split
  · next hloses =>
    have htiny : tinyExponent ≤ topExponent := by decide
    have htarget := max_le htop htiny
    have hiff := ceiling_le_iff_of_loses hloses (le_max_left _ _) htarget
    by_cases hfull : divNearestTenPow c
        (max (digitCount c + e - precision) tinyExponent - e).toNat = 10 ^ precision
    · simp only [if_pos hfull]
      split
      · next hover =>
        exact .inl ⟨rfl, hiff.2 ⟨hfull, by omega⟩⟩
      · next hfits =>
        exact .inr ⟨⟨_, _, rfl⟩, not_le.1 fun hceiling => by have := (hiff.1 hceiling).2; omega⟩
    · simp only [if_neg hfull, if_neg (not_lt.2 htarget)]
      exact .inr ⟨⟨_, _, rfl⟩, not_le.1 fun hceiling => hfull (hiff.1 hceiling).1⟩
  · next hkept =>
    rw [not_lt] at hkept
    exact .inr ⟨⟨_, _, rfl⟩, lt_ceiling_of_kept htop ((le_max_left _ _).trans hkept)⟩

/-! ## Sums -/

section Multiples

variable {u y : ℚ} {m k : Int}

/-- A multiple of a unit is not passed on the way up from another one to less than a unit above. -/
theorem le_add_iff_of_pos (hu : 0 < u) (hpos : 0 < y) (hlt : y < u) :
    m * u ≤ k * u + y ↔ m ≤ k := by
  constructor
  · intro hle
    have hlt : (m : ℚ) * u < (k + 1) * u := by linarith
    have hcast : (m : ℚ) < k + 1 := lt_of_mul_lt_mul_right hlt hu.le
    exact Int.lt_add_one_iff.1 (by exact_mod_cast hcast)
  · intro hle
    have hcast : (m : ℚ) ≤ k := by exact_mod_cast hle
    have hmul := mul_le_mul_of_nonneg_right hcast hu.le
    linarith

theorem le_add_iff_of_neg (hu : 0 < u) (hneg : y < 0) (hlt : -u < y) :
    m * u ≤ k * u + y ↔ m < k := by
  constructor
  · intro hle
    have hlt : (m : ℚ) * u < k * u := by linarith
    exact_mod_cast lt_of_mul_lt_mul_right hlt hu.le
  · intro hlt'
    have hcast : (m : ℚ) + 1 ≤ k := by exact_mod_cast hlt'
    have hmul := mul_le_mul_of_nonneg_right hcast hu.le
    linarith

end Multiples

/-- The ceiling is a multiple of every power of ten below the last digit of the largest results. -/
theorem exists_ceiling_eq {p : Int} (h : p < topExponent) : ∃ m : Int, ceiling = m * 10 ^ p := by
  obtain ⟨k, hk⟩ := Int.le.dest (Int.add_one_le_iff.2 h)
  refine ⟨(2 * 10 ^ precision - 1) * 5 * 10 ^ k, ?_⟩
  rw [ceiling, ← hk, ten_zpow_add, ten_zpow_add, zpow_natCast, zpow_one]
  push_cast
  ring

section Addends

variable {x y y' : ℚ} {p k : Int}

/-- A number with a digit above those of the largest results stays above the ceiling when something
small is added to it. -/
theorem ceiling_le_abs_add (hp : topExponent ≤ p + 1) (hbig : 10 ^ (p + precision + 1) ≤ |x|)
    (hy : |y| ≤ 10 ^ p) : ceiling ≤ |x + y| := by
  have hsub : |x| - |y| ≤ |x + y| := by
    have htriangle := abs_sub_abs_le_abs_sub x (-y)
    rwa [abs_neg, sub_neg_eq_add] at htriangle
  have hpos := ten_zpow_pos p
  have htop : (10 : ℚ) ^ topExponent ≤ 10 ^ p * 10 := by
    have hle := ten_zpow_le hp
    rwa [ten_zpow_add, zpow_one] at hle
  rw [ten_zpow_add, ten_zpow_add, zpow_natCast, zpow_one] at hbig
  have hfactor : (0 : ℚ) ≤ 10 ^ precision - 1 / 2 := by norm_num [precision]
  have hmul := mul_le_mul_of_nonneg_left htop hfactor
  rw [ceiling]
  linarith

/-- What is added to a large multiple of a unit matters only by its sign, if it is less than a
unit. -/
theorem ceiling_le_add_congr (hx : x = k * 10 ^ (p + 1)) (hp : p + 1 < topExponent)
    (hy : |y| ≤ 10 ^ p) (hy' : |y'| ≤ 10 ^ p) (hsign : 0 < y ∧ 0 < y' ∨ y < 0 ∧ y' < 0) :
    ceiling ≤ x + y ↔ ceiling ≤ x + y' := by
  obtain ⟨m, hm⟩ := exists_ceiling_eq hp
  have hunit := ten_zpow_pos (p + 1)
  have hless : (10 : ℚ) ^ p < 10 ^ (p + 1) := zpow_lt_zpow_right₀ (by norm_num) (by omega)
  obtain ⟨hlow, hhigh⟩ := abs_le.1 hy
  obtain ⟨hlow', hhigh'⟩ := abs_le.1 hy'
  rw [hx, hm]
  rcases hsign with ⟨hpos, hpos'⟩ | ⟨hneg, hneg'⟩
  · rw [le_add_iff_of_pos hunit hpos (by linarith), le_add_iff_of_pos hunit hpos' (by linarith)]
  · rw [le_add_iff_of_neg hunit hneg (by linarith), le_add_iff_of_neg hunit hneg' (by linarith)]

theorem ceiling_le_abs_add_congr (hx : x = k * 10 ^ (p + 1))
    (hbig : 10 ^ (p + precision + 1) ≤ |x|) (hy : |y| ≤ 10 ^ p) (hy' : |y'| ≤ 10 ^ p)
    (hsign : 0 < y ∧ 0 < y' ∨ y < 0 ∧ y' < 0) : ceiling ≤ |x + y| ↔ ceiling ≤ |x + y'| := by
  by_cases hp : p + 1 < topExponent
  · have hfar : (10 : ℚ) ^ p ≤ |x| := (ten_zpow_le (by omega)).trans hbig
    obtain ⟨hlow, hhigh⟩ := abs_le.1 hy
    obtain ⟨hlow', hhigh'⟩ := abs_le.1 hy'
    rcases le_total 0 x with hx0 | hx0
    · rw [abs_of_nonneg hx0] at hfar
      rw [abs_of_nonneg (by linarith), abs_of_nonneg (by linarith)]
      exact ceiling_le_add_congr hx hp hy hy' hsign
    · rw [abs_of_nonpos hx0] at hfar
      rw [abs_of_nonpos (by linarith), abs_of_nonpos (by linarith), neg_add, neg_add]
      have hneg : -x = (-k : Int) * 10 ^ (p + 1) := by
        rw [hx]
        push_cast
        ring
      refine ceiling_le_add_congr hneg hp ((abs_neg y).trans_le hy) ((abs_neg y').trans_le hy') ?_
      rcases hsign with ⟨hpos, hpos'⟩ | ⟨hneg, hneg'⟩
      · exact .inr ⟨neg_neg_of_pos hpos, neg_neg_of_pos hpos'⟩
      · exact .inl ⟨neg_pos_of_neg hneg, neg_pos_of_neg hneg'⟩
  · have htop : topExponent ≤ p + 1 := not_lt.1 hp
    simp only [ceiling_le_abs_add htop hbig hy, ceiling_le_abs_add htop hbig hy']

end Addends

/-- A decimal is a multiple of every power of ten up to that of its last digit. -/
theorem exists_worth_eq (s : Bool) (c : Nat) {e p : Int} (h : p ≤ e) :
    ∃ k : Int, worth s c e = k * 10 ^ p := by
  obtain ⟨n, rfl⟩ := Int.le.dest h
  refine ⟨signed s c * 10 ^ n, ?_⟩
  rw [worth, ten_zpow_add, zpow_natCast]
  push_cast
  ring

theorem worth_zero (s : Bool) (e : Int) : worth s 0 e = 0 := by
  rw [worth_eq, magnitude_zero, neg_zero, ite_self]

/-- Decimals of one sign lie on one side of zero. -/
theorem sides_of_sign (s : Bool) {c c' : Nat} (hc : c ≠ 0) (hc' : c' ≠ 0) (e e' : Int) :
    0 < worth s c e ∧ 0 < worth s c' e' ∨ worth s c e < 0 ∧ worth s c' e' < 0 := by
  have hpos : 0 < magnitude c e := (ten_zpow_pos _).trans_le (le_magnitude hc e)
  have hpos' : 0 < magnitude c' e' := (ten_zpow_pos _).trans_le (le_magnitude hc' e')
  cases s with
  | false => exact .inl ⟨(worth_eq _ _ _).symm ▸ hpos, (worth_eq _ _ _).symm ▸ hpos'⟩
  | true =>
    simp only [worth_eq, if_true]
    exact .inr ⟨neg_neg_of_pos hpos, neg_neg_of_pos hpos'⟩

/-- What stands for an operand is worth what the operand is, or both are small and of one sign beside
an operand that is a large multiple of a unit. -/
theorem standIn_cases (s₁ : Bool) (c₁ : Nat) (e₁ : Int) (s₂ : Bool) (c₂ : Nat) (e₂ : Int) :
    worth s₂ (standIn c₁ e₁ c₂ e₂).1 (standIn c₁ e₁ c₂ e₂).2 = worth s₂ c₂ e₂ ∨
    ∃ p k : Int, worth s₁ c₁ e₁ = k * 10 ^ (p + 1) ∧
      10 ^ (p + precision + 1) ≤ |worth s₁ c₁ e₁| ∧
      |worth s₂ (standIn c₁ e₁ c₂ e₂).1 (standIn c₁ e₁ c₂ e₂).2| ≤ 10 ^ p ∧
      |worth s₂ c₂ e₂| ≤ 10 ^ p ∧
      (0 < worth s₂ (standIn c₁ e₁ c₂ e₂).1 (standIn c₁ e₁ c₂ e₂).2 ∧ 0 < worth s₂ c₂ e₂ ∨
        worth s₂ (standIn c₁ e₁ c₂ e₂).1 (standIn c₁ e₁ c₂ e₂).2 < 0 ∧ worth s₂ c₂ e₂ < 0) := by
  rw [standIn]
  split
  · next hreplaced =>
    obtain ⟨hc₁, hfar⟩ := hreplaced
    generalize hplace : e₁ - 1 + min 0 ((digitCount c₁ : Int) - precision - 1) = place at hfar ⊢
    by_cases hc₂ : c₂ = 0
    · left
      rw [hc₂, Nat.zero_min, worth_zero, worth_zero]
    · right
      rw [Nat.min_eq_right (Nat.one_le_iff_ne_zero.2 hc₂)]
      obtain ⟨k, hk⟩ := exists_worth_eq s₁ c₁ (show place + 1 ≤ e₁ by omega)
      refine ⟨place, k, hk, ?_, ?_, ?_, sides_of_sign s₂ one_ne_zero hc₂ _ _⟩
      · rw [abs_worth]
        refine (ten_zpow_le ?_).trans (le_magnitude hc₁ e₁)
        rw [leadingExponent]
        omega
      · rw [abs_worth, magnitude, Nat.cast_one, one_mul]
      · rw [abs_worth]
        refine (magnitude_lt c₂ e₂).le.trans (ten_zpow_le ?_)
        rw [leadingExponent] at hfar
        omega
  · exact .inl rfl

/-- What stands for an operand leaves the sum on the side of the ceiling where it is. -/
theorem ceiling_le_standIn_iff (s₁ : Bool) (c₁ : Nat) (e₁ : Int) (s₂ : Bool) (c₂ : Nat) (e₂ : Int) :
    ceiling ≤ |worth s₁ c₁ e₁ + worth s₂ (standIn c₁ e₁ c₂ e₂).1 (standIn c₁ e₁ c₂ e₂).2| ↔
      ceiling ≤ |worth s₁ c₁ e₁ + worth s₂ c₂ e₂| := by
  rcases standIn_cases s₁ c₁ e₁ s₂ c₂ e₂ with hsame | ⟨p, k, hk, hbig, hsmall, hsmall', hsign⟩
  · rw [hsame]
  · exact ceiling_le_abs_add_congr hk hbig hsmall hsmall' hsign

/-- At most one of two operands is replaced. -/
theorem standIn_self_or (c₁ : Nat) (e₁ : Int) (c₂ : Nat) (e₂ : Int) :
    standIn c₁ e₁ c₂ e₂ = (c₂, e₂) ∨ standIn c₂ e₂ c₁ e₁ = (c₁, e₁) := by
  simp only [standIn]
  split
  · next hfar =>
    refine .inr (if_neg fun hfar' => ?_)
    have h := hfar.2
    have h' := hfar'.2
    simp only [leadingExponent] at h h'
    omega
  · exact .inl rfl

/-- The exact sum is the sum of what its operands are worth. -/
theorem magnitude_exactSum (s₁ : Bool) (c₁ : Nat) (e₁ : Int) (s₂ : Bool) (c₂ : Nat) (e₂ : Int) :
    magnitude (exactSum s₁ c₁ e₁ s₂ c₂ e₂).2.1 (exactSum s₁ c₁ e₁ s₂ c₂ e₂).2.2 =
      |worth s₁ c₁ e₁ + worth s₂ c₂ e₂| := by
  rw [exactSum, worth_timesTenPow s₁ c₁ (min_le_left e₁ e₂),
    worth_timesTenPow s₂ c₂ (min_le_right e₁ e₂), worth, worth, ← add_mul, abs_mul,
    abs_of_pos (ten_zpow_pos _), magnitude, Nat.cast_natAbs]
  push_cast
  rfl

/-- Sums of operands with what stands for them lie on the side of the ceiling where they are. -/
theorem ceiling_le_replaced_iff (s₁ : Bool) (c₁ : Nat) (e₁ : Int) (s₂ : Bool) (c₂ : Nat)
    (e₂ : Int) :
    ceiling ≤ |worth s₁ (standIn c₂ e₂ c₁ e₁).1 (standIn c₂ e₂ c₁ e₁).2 +
        worth s₂ (standIn c₁ e₁ c₂ e₂).1 (standIn c₁ e₁ c₂ e₂).2| ↔
      ceiling ≤ |worth s₁ c₁ e₁ + worth s₂ c₂ e₂| := by
  rcases standIn_self_or c₁ e₁ c₂ e₂ with hsecond | hfirst
  · rw [hsecond, add_comm, ceiling_le_standIn_iff, add_comm]
  · rw [hfirst, ceiling_le_standIn_iff]

/-- A sum fails exactly if it is too large, and is a finite number otherwise. -/
theorem roundedSum_cases (s₁ : Bool) (c₁ : Nat) (e₁ : Int) (s₂ : Bool) (c₂ : Nat) (e₂ : Int) :
    (roundedSum s₁ c₁ e₁ s₂ c₂ e₂ = .error .decimalOverflow ∧
      ceiling ≤ |worth s₁ c₁ e₁ + worth s₂ c₂ e₂|) ∨
    ((∃ s c e, roundedSum s₁ c₁ e₁ s₂ c₂ e₂ = .ok (.finite s c e)) ∧
      |worth s₁ c₁ e₁ + worth s₂ c₂ e₂| < ceiling) := by
  have hside := ceiling_le_replaced_iff s₁ c₁ e₁ s₂ c₂ e₂
  rw [← magnitude_exactSum] at hside
  rcases roundFinite_cases _ _ _ with ⟨hround, hceiling⟩ | ⟨⟨c, e, hround⟩, hceiling⟩
  · exact .inl ⟨hround, hside.1 hceiling⟩
  · exact .inr ⟨⟨_, c, e, hround⟩, not_le.1 fun h => not_lt.2 (hside.2 h) hceiling⟩

end Phrasebook.Number.Decimal
