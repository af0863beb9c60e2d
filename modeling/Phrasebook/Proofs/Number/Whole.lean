/-
  What numbers of every kind are worth, and which of them are whole.

  Whole numbers and the finite numbers of the other kinds denote rational
  numbers; infinities and NaNs denote none.  A number is compared with whole
  numbers by what it denotes, whatever its kind and however it is written: the
  whole number that it is found to be equal to is the one that it is worth
  (`integral?_eq_some_iff`), and a decimal is told equal to a whole number
  exactly if it is worth it (`Decimal.equalsInt_finite`).
-/
import Phrasebook.Number.Numeric
import Phrasebook.Proofs.Number.Ceiling

set_option autoImplicit false

namespace Phrasebook.Number

/-- What a number denotes, if it denotes a rational number. -/
def Numeric.worth? : Numeric → Option ℚ
  | .int n => some n
  | .float (.finite s m e) => some (Decimal.signed s m * 2 ^ e)
  | .float (.infinite _) => none
  | .float .nan => none
  | .decimal (.finite s c e) => some (Decimal.worth s c e)
  | .decimal (.infinite _) => none
  | .decimal (.nan _ _ _) => none

/-! ## Whole numbers -/

section Scaled

variable {b : Nat}

/-- The whole number that a multiple of a power is equal to, if it is one. -/
def scaledWhole? (b n : Nat) (e : Int) : Option Nat :=
  if 0 ≤ e then some (n * b ^ e.toNat)
  else if n % b ^ (-e).toNat = 0 then some (n / b ^ (-e).toNat) else none

theorem scaledWhole?_eq_some_iff (hb : 0 < b) {n k : Nat} {e : Int} :
    scaledWhole? b n e = some k ↔ (n : ℚ) * (b : ℚ) ^ e = k := by
  rw [scaledWhole?]
  split
  · next he =>
    have hpow : (b : ℚ) ^ e = (b ^ e.toNat : Nat) := by
      rw [Nat.cast_pow, ← zpow_natCast, Int.toNat_of_nonneg he]
    rw [hpow, Option.some.injEq]
    exact_mod_cast Iff.rfl
  · next he =>
    have hpos : 0 < b ^ (-e).toNat := Nat.pow_pos hb
    have hne : ((b ^ (-e).toNat : Nat) : ℚ) ≠ 0 := by exact_mod_cast hpos.ne'
    have hpow : (b : ℚ) ^ e = ((b ^ (-e).toNat : Nat) : ℚ)⁻¹ := by
      rw [Nat.cast_pow, ← zpow_natCast, Int.toNat_of_nonneg (by omega), zpow_neg, inv_inv]
    have hmul : (n : ℚ) * (b : ℚ) ^ e = k ↔ n = k * b ^ (-e).toNat := by
      rw [hpow, mul_inv_eq_iff_eq_mul₀ hne]
      exact_mod_cast Iff.rfl
    rw [hmul]
    split
    · next hdvd =>
      rw [Option.some.injEq, Nat.div_eq_iff_eq_mul_left hpos (Nat.dvd_of_mod_eq_zero hdvd)]
    · next hdvd =>
      refine iff_of_false nofun ?_
      rintro rfl
      exact hdvd (Nat.mul_mod_left k _)

/-- With a sign on both sides. -/
theorem map_scaledWhole?_eq_some_iff (hb : 0 < b) {s : Bool} {n : Nat} {e k : Int} :
    (scaledWhole? b n e).map (Decimal.signed s) = some k ↔
      (Decimal.signed s n : ℚ) * (b : ℚ) ^ e = k := by
  have hmagnitude : (0 : ℚ) ≤ n * (b : ℚ) ^ e := by positivity
  rw [Option.map_eq_some_iff]
  constructor
  · rintro ⟨m, hm, rfl⟩
    rw [scaledWhole?_eq_some_iff hb] at hm
    cases s with
    | false => simpa [Decimal.signed] using hm
    | true => simpa [Decimal.signed] using hm
  · intro h
    cases s with
    | false =>
      have hk : (n : ℚ) * (b : ℚ) ^ e = k := by simpa [Decimal.signed] using h
      rw [hk] at hmagnitude
      obtain ⟨m, rfl⟩ := Int.eq_ofNat_of_zero_le (by exact_mod_cast hmagnitude)
      exact ⟨m, (scaledWhole?_eq_some_iff hb).2 (by exact_mod_cast hk), rfl⟩
    | true =>
      have hk : (n : ℚ) * (b : ℚ) ^ e = (-k : Int) := by
        have hneg : -((n : ℚ) * (b : ℚ) ^ e) = k := by simpa [Decimal.signed] using h
        push_cast
        linarith
      rw [hk] at hmagnitude
      obtain ⟨m, hm⟩ := Int.eq_ofNat_of_zero_le (show 0 ≤ -k by exact_mod_cast hmagnitude)
      refine ⟨m, (scaledWhole?_eq_some_iff hb).2 (by rw [hk, hm]; rfl), ?_⟩
      simp only [Decimal.signed, if_true]
      omega

end Scaled

theorem Decimal.magnitudeIntegral?_eq (c : Nat) (e : Int) :
    magnitudeIntegral? c e = scaledWhole? 10 c e := by
  rw [magnitudeIntegral?, scaledWhole?]
  simp only [timesTenPow_eq, divTenPow_eq]
  have hdvd : ∀ d, c / d * d = c ↔ c % d = 0 := fun d =>
    ⟨fun h => h ▸ Nat.mul_mod_left _ _, fun h => Nat.div_mul_cancel (Nat.dvd_of_mod_eq_zero h)⟩
  simp only [hdvd]

/-- A number is equal to the whole number that it is worth, and to no other. -/
theorem Numeric.integral?_eq_some_iff {n : Numeric} {k : Int} :
    n.integral? = some k ↔ n.worth? = some (k : ℚ) := by
  cases n with
  | int i =>
    simp only [integral?, worth?, Option.some.injEq]
    exact_mod_cast Iff.rfl
  | float x =>
    cases x with
    | finite s m e =>
      have hwhole : Binary64.integral? (.finite s m e) =
          (scaledWhole? 2 m e).map (Decimal.signed s) := by
        simp only [Binary64.integral?]
        rw [← scaledWhole?]
        cases scaledWhole? 2 m e <;> rfl
      rw [integral?, hwhole, map_scaledWhole?_eq_some_iff Nat.two_pos, worth?, Option.some.injEq]
      rfl
    | infinite s => exact iff_of_false nofun nofun
    | nan => exact iff_of_false nofun nofun
  | decimal d =>
    cases d with
    | finite s c e =>
      have hwhole : Decimal.integral? (.finite s c e) =
          (scaledWhole? 10 c e).map (Decimal.signed s) := by
        rw [Decimal.integral?, Decimal.magnitudeIntegral?_eq]
        cases scaledWhole? 10 c e <;> rfl
      rw [integral?, hwhole, map_scaledWhole?_eq_some_iff (by decide), worth?, Option.some.injEq]
      rfl
    | infinite s => exact iff_of_false nofun nofun
    | nan s signaling payload => exact iff_of_false nofun nofun

/-! ## Equal decimals -/

namespace Decimal

theorem magnitude_eq_zero_iff {c : Nat} {e : Int} : magnitude c e = 0 ↔ c = 0 := by
  rw [magnitude, mul_eq_zero, Nat.cast_eq_zero]
  exact or_iff_left (ten_zpow_pos e).ne'

/-- Decimals of one magnitude have their first digits at the same place. -/
theorem leadingExponent_eq_of_magnitude_eq {c₁ c₂ : Nat} {e₁ e₂ : Int} (h₁ : c₁ ≠ 0) (h₂ : c₂ ≠ 0)
    (h : magnitude c₁ e₁ = magnitude c₂ e₂) : leadingExponent c₁ e₁ = leadingExponent c₂ e₂ := by
  have hten : (1 : ℚ) < 10 := by norm_num
  have hle₁ := (le_magnitude h₁ e₁).trans_lt (h.trans_lt (magnitude_lt c₂ e₂))
  have hle₂ := (le_magnitude h₂ e₂).trans_lt (h.symm.trans_lt (magnitude_lt c₁ e₁))
  rw [zpow_lt_zpow_iff_right₀ hten] at hle₁ hle₂
  simp only [leadingExponent] at hle₁ hle₂ ⊢
  omega

theorem sameMagnitude_iff (c₁ : Nat) (e₁ : Int) (c₂ : Nat) (e₂ : Int) :
    sameMagnitude c₁ e₁ c₂ e₂ = true ↔ magnitude c₁ e₁ = magnitude c₂ e₂ := by
  rw [sameMagnitude]
  split
  · next hzero =>
    rw [beq_iff_eq]
    rcases hzero with rfl | rfl
    · rw [magnitude_zero, eq_comm, eq_comm (a := (0 : ℚ)), magnitude_eq_zero_iff]
    · rw [magnitude_zero, magnitude_eq_zero_iff]
  next hnonzero =>
  rw [not_or] at hnonzero
  split
  · rw [beq_iff_eq, magnitude_timesTenPow c₁ (min_le_left e₁ e₂),
      magnitude_timesTenPow c₂ (min_le_right e₁ e₂), timesTenPow_eq, timesTenPow_eq, magnitude,
      magnitude, mul_right_cancel_iff_of_pos (ten_zpow_pos _), Nat.cast_inj,
      show (e₁ - min e₁ e₂).toNat = (e₁ - e₂).toNat by omega,
      show (e₂ - min e₁ e₂).toNat = (e₂ - e₁).toNat by omega]
  · next hleading =>
    exact iff_of_false Bool.false_ne_true fun h =>
      hleading (leadingExponent_eq_of_magnitude_eq hnonzero.1 hnonzero.2 h)

/-- Finite decimals are equal if they are worth the same. -/
theorem equals_finite_iff (s₁ : Bool) (c₁ : Nat) (e₁ : Int) (s₂ : Bool) (c₂ : Nat) (e₂ : Int) :
    (finite s₁ c₁ e₁).equals (.finite s₂ c₂ e₂) = true ↔ worth s₁ c₁ e₁ = worth s₂ c₂ e₂ := by
  rw [equals, Bool.and_eq_true, Bool.or_eq_true, beq_iff_eq, beq_iff_eq, sameMagnitude_iff]
  have hnonneg₁ := magnitude_nonneg c₁ e₁
  have hnonneg₂ := magnitude_nonneg c₂ e₂
  constructor
  · rintro ⟨hsign, hmagnitude⟩
    rcases hsign with rfl | rfl
    · rw [worth_eq, worth_eq, hmagnitude]
    · rw [magnitude_zero] at hmagnitude
      rw [worth_eq, worth_eq, ← hmagnitude, magnitude_zero, neg_zero, ite_self, ite_self]
  · intro hworth
    have hmagnitude : magnitude c₁ e₁ = magnitude c₂ e₂ := by
      rw [← abs_worth s₁, ← abs_worth s₂, hworth]
    refine ⟨?_, hmagnitude⟩
    by_contra hsign
    rw [not_or] at hsign
    -- a number and its opposite are the same only if they are zero
    have hzero : magnitude c₁ e₁ = 0 := by
      rw [worth_eq, worth_eq, ← hmagnitude] at hworth
      cases s₁ <;> cases s₂ <;> simp at hsign hworth ⊢ <;> linarith
    exact hsign.2 (magnitude_eq_zero_iff.1 hzero)

/-- A number is its magnitude with its sign; a zero may have any. -/
theorem signed_natAbs {n : Int} {s : Bool} (hs : n ≠ 0 → s = decide (n < 0)) :
    signed s n.natAbs = n := by
  by_cases hzero : n = 0
  · rw [hzero]
    cases s <;> rfl
  · rw [hs hzero, signed]
    by_cases hneg : n < 0
    · rw [decide_eq_true hneg, if_pos rfl]
      omega
    · rw [decide_eq_false hneg, if_neg Bool.false_ne_true]
      omega

/-- A whole number as a decimal is worth itself. -/
theorem worth_ofInt (k : Int) : worth (k < 0) k.natAbs 0 = k := by
  rw [worth, zpow_zero, mul_one, signed_natAbs fun _ => rfl]

theorem equalsInt_finite (s : Bool) (c : Nat) (e k : Int) :
    (finite s c e).equalsInt k = .ok (decide (worth s c e = k)) := by
  have hequals := equals_finite_iff s c e (k < 0) k.natAbs 0
  rw [worth_ofInt] at hequals
  refine congrArg Except.ok ?_
  rw [ofInt, Bool.eq_iff_iff, hequals, decide_eq_true_iff]

end Decimal

theorem Numeric.equalsInt_int (n k : Int) : (Numeric.int n).equalsInt k = .ok (decide (n = k)) := by
  rw [Numeric.equalsInt]
  · refine congrArg Except.ok ?_
    rw [Bool.eq_iff_iff, beq_iff_eq, Numeric.integral?, Option.some_inj, decide_eq_true_iff]
  · exact nofun

end Phrasebook.Number
