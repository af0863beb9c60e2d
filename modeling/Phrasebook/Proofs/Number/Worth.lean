/-
  What decimals are worth.

  A finite decimal denotes a rational number, and its operations are told by
  those of the rationals.  The number of digits of a coefficient places it
  between two powers of ten, and rounding a quotient to the nearest natural
  number keeps an order with the natural numbers and, where it is odd below,
  with the halves between them.
-/
import Mathlib.Algebra.Order.Field.Power
import Mathlib.Algebra.Order.Ring.Rat
import Mathlib.Tactic.Linarith
import Mathlib.Tactic.Positivity
import Mathlib.Tactic.Ring
import Phrasebook.Number.Decimal.Context

set_option autoImplicit false

namespace Phrasebook.Number

/-! ## Digits -/

theorem digitCount_pos (n : Nat) : 0 < digitCount n := Nat.length_toDigits_pos

theorem ten_pow_le_of_ne_zero {n : Nat} (h : n ≠ 0) : 10 ^ (digitCount n - 1) ≤ n := by
  by_contra hlt
  rw [Nat.not_le] at hlt
  have hpos := digitCount_pos n
  by_cases hone : digitCount n = 1
  · rw [hone] at hlt
    exact h (Nat.lt_one_iff.1 hlt)
  · have hle := (Nat.length_toDigits_le_iff (by decide) (show 0 < digitCount n - 1 by omega)).2 hlt
    have : digitCount n ≤ digitCount n - 1 := hle
    omega

/-! ## Rounded quotients -/

theorem divNearest_le {n d q : Nat} (hd : 0 < d) (h : n ≤ q * d) : divNearest n d ≤ q := by
  have hbound := (divNearest_bounds hd n).2
  by_contra hlt
  have hmul : (q + 1) * d ≤ divNearest n d * d := Nat.mul_le_mul_right d (by omega)
  rw [Nat.add_mul, Nat.one_mul] at hmul
  have hassoc : 2 * divNearest n d * d = 2 * (divNearest n d * d) := Nat.mul_assoc _ _ _
  omega

/-- Half a unit above an odd number is rounded up. -/
theorem lt_divNearest_of_odd {n d q : Nat} (hd : 0 < d) (hq : q % 2 = 1)
    (h : (2 * q + 1) * d ≤ 2 * n) : q < divNearest n d := by
  have hdiv := Nat.div_add_mod n d
  have hrem := Nat.mod_lt n hd
  have hmul : d * (n / d) = n / d * d := Nat.mul_comm _ _
  rw [Nat.add_mul, Nat.mul_assoc, Nat.one_mul] at h
  have hle : q ≤ n / d := by
    rw [Nat.le_div_iff_mul_le hd]
    omega
  simp only [divNearest]
  rcases Nat.lt_or_eq_of_le hle with hlt | heq
  · split <;> omega
  · rw [← heq] at hmul hdiv ⊢
    rw [if_pos (by omega)]
    omega

/-- A quotient of at most the number behind an odd one is rounded to it from half a unit on. -/
theorem divNearest_eq_succ_iff {n d q : Nat} (hd : 0 < d) (hq : q % 2 = 1) (h : n ≤ (q + 1) * d) :
    divNearest n d = q + 1 ↔ (2 * q + 1) * d ≤ 2 * n := by
  constructor
  · intro heq
    have hbound := (divNearest_bounds hd n).2
    rw [heq] at hbound
    have hsplit : 2 * (q + 1) * d = (2 * q + 1) * d + d := by ring
    omega
  · intro hhalf
    have hle := divNearest_le hd h
    have hlt := lt_divNearest_of_odd hd hq hhalf
    omega

/-! ## Decimals -/

namespace Decimal

/-- What a finite decimal without sign is worth. -/
def magnitude (c : Nat) (e : Int) : ℚ := c * 10 ^ e

/-- What a finite decimal is worth. -/
def worth (s : Bool) (c : Nat) (e : Int) : ℚ := signed s c * 10 ^ e

theorem magnitude_nonneg (c : Nat) (e : Int) : 0 ≤ magnitude c e := by
  unfold magnitude
  positivity

theorem worth_eq (s : Bool) (c : Nat) (e : Int) :
    worth s c e = if s then -magnitude c e else magnitude c e := by
  cases s <;> simp [worth, signed, magnitude]

theorem abs_worth (s : Bool) (c : Nat) (e : Int) : |worth s c e| = magnitude c e := by
  rw [worth_eq]
  split
  · rw [abs_neg, abs_of_nonneg (magnitude_nonneg c e)]
  · rw [abs_of_nonneg (magnitude_nonneg c e)]

@[simp] theorem magnitude_zero (e : Int) : magnitude 0 e = 0 := by simp [magnitude]

/-- A coefficient may take up powers of ten from the exponent. -/
theorem magnitude_timesTenPow (c : Nat) {e f : Int} (h : f ≤ e) :
    magnitude c e = magnitude (timesTenPow c (e - f).toNat) f := by
  have hten : (10 : ℚ) ≠ 0 := by norm_num
  obtain ⟨k, rfl⟩ := Int.le.dest h
  rw [timesTenPow_eq, magnitude, magnitude, zpow_add₀ hten, zpow_natCast,
    show (f + k - f).toNat = k by omega]
  push_cast
  ring

theorem worth_timesTenPow (s : Bool) (c : Nat) {e f : Int} (h : f ≤ e) :
    worth s c e = worth s (timesTenPow c (e - f).toNat) f := by
  rw [worth_eq, worth_eq, magnitude_timesTenPow c h]

/-- A decimal lies a unit of its last digit below the power of ten of its digits, or further. -/
theorem magnitude_add_le (c : Nat) (e : Int) : magnitude c e + 10 ^ e ≤ 10 ^ (e + digitCount c) := by
  have hten : (10 : ℚ) ≠ 0 := by norm_num
  have hle : (c : ℚ) + 1 ≤ 10 ^ digitCount c := by exact_mod_cast lt_ten_pow_digitCount c
  rw [magnitude, zpow_add₀ hten, zpow_natCast]
  calc (c : ℚ) * 10 ^ e + 10 ^ e = 10 ^ e * (c + 1) := by ring
    _ ≤ 10 ^ e * 10 ^ digitCount c := mul_le_mul_of_nonneg_left hle (by positivity)

theorem magnitude_lt (c : Nat) (e : Int) : magnitude c e < 10 ^ (e + digitCount c) :=
  lt_of_lt_of_le (lt_add_of_pos_right _ (by positivity)) (magnitude_add_le c e)

theorem le_magnitude {c : Nat} (h : c ≠ 0) (e : Int) : 10 ^ leadingExponent c e ≤ magnitude c e := by
  have hten : (10 : ℚ) ≠ 0 := by norm_num
  have hle : (10 : ℚ) ^ (digitCount c - 1) ≤ c := by exact_mod_cast ten_pow_le_of_ne_zero h
  have hpos := digitCount_pos c
  have hexp : leadingExponent c e = e + ((digitCount c - 1 : Nat) : Int) := by
    rw [leadingExponent]
    omega
  rw [magnitude, hexp, zpow_add₀ hten, zpow_natCast, mul_comm]
  exact mul_le_mul_of_nonneg_right hle (by positivity)

end Decimal

end Phrasebook.Number
