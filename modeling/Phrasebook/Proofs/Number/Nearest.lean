/-
  What decimal arithmetic rounds to.

  A rational number is rounded at the place of the last digit that is kept: the
  one that leaves it the digits of the context, or the place of the tiniest
  numbers if that is higher.  The result is the nearest multiple of the unit
  there, and of two nearest ones the even multiple (`Rounds`).

  Rounding a coefficient does this, and so does a sum: where an operand is
  replaced by a number that stands for it, the exact sum and the replaced one lie
  between the same multiples of half a unit of every place that may be the last
  (`SameSide`), so they are rounded to the same number.
-/
import Mathlib.Data.Int.Log
import Mathlib.Data.Rat.Floor
import Phrasebook.Proofs.Number.Faults
import Phrasebook.Proofs.Number.Whole

set_option autoImplicit false

namespace Phrasebook.Number.Decimal

/-! ## Nearest multiples -/

/-- Whether a multiple of a unit is the nearest to a number, or the even one of the two nearest. -/
def NearestEven (u x : ℚ) (k : Int) : Prop :=
  2 * |x - k * u| ≤ u ∧ (k % 2 = 1 → 2 * |x - k * u| < u)

/-- The place of the last digit that rounding keeps. -/
def lastPlace (x : ℚ) : Int := max (Int.log 10 |x| + 1 - precision) tinyExponent

/-- Whether a number is rounded to another one. -/
def Rounds (x y : ℚ) : Prop :=
  ∃ k : Int, NearestEven (10 ^ lastPlace x) x k ∧ y = k * 10 ^ lastPlace x

section Nearest

variable {u x y : ℚ} {k : Int}

theorem nearestEven_self (hu : 0 < u) (k : Int) : NearestEven u (k * u) k := by
  rw [NearestEven, sub_self, abs_zero, mul_zero]
  exact ⟨hu.le, fun _ => hu⟩

theorem NearestEven.neg (h : NearestEven u x k) : NearestEven u (-x) (-k) := by
  have habs : |(-x) - ((-k : Int) : ℚ) * u| = |x - k * u| := by
    rw [← abs_neg]
    push_cast
    ring_nf
  rw [NearestEven, habs]
  exact ⟨h.1, fun hodd => h.2 (by omega)⟩

/-- The nearest multiple does not depend on the scale. -/
theorem NearestEven.scale {w : ℚ} (hw : 0 < w) (h : NearestEven u x k) :
    NearestEven (u * w) (x * w) k := by
  have habs : |x * w - k * (u * w)| = |x - k * u| * w := by
    rw [← abs_of_pos hw, ← abs_mul, abs_of_pos hw]
    ring_nf
  rw [NearestEven, habs, ← mul_assoc]
  exact ⟨mul_le_mul_of_nonneg_right h.1 hw.le,
    fun hodd => mul_lt_mul_of_pos_right (h.2 hodd) hw⟩

/-- Two multiples that are nearest are the same. -/
theorem NearestEven.unique {k' : Int} (hu : 0 < u) (h : NearestEven u x k)
    (h' : NearestEven u x k') : k' = k := by
  have hgap : |((k' - k : Int) : ℚ)| * u ≤ |x - k' * u| + |x - k * u| := by
    have htriangle := abs_sub_le ((k' : ℚ) * u) x (k * u)
    rw [← sub_mul, abs_mul, abs_of_pos hu, abs_sub_comm ((k' : ℚ) * u) x] at htriangle
    push_cast
    exact htriangle
  by_contra hne
  have hfar : (1 : ℚ) ≤ |((k' - k : Int) : ℚ)| := by
    exact_mod_cast Int.one_le_abs (sub_ne_zero.2 hne)
  have hstep : |k' - k| ≤ 1 := by
    have hle : |((k' - k : Int) : ℚ)| * u ≤ 1 * u := by linarith [h.1, h'.1]
    exact_mod_cast le_of_mul_le_mul_right hle hu
  have hunit : u ≤ |((k' - k : Int) : ℚ)| * u := le_mul_of_one_le_left hu.le hfar
  -- of two neighbours one is odd, and it is less than half a unit away
  have hodd : k % 2 = 1 ∨ k' % 2 = 1 := by
    rw [abs_le] at hstep
    omega
  rcases hodd with hodd | hodd
  · linarith [h.2 hodd, h'.1]
  · linarith [h.1, h'.2 hodd]

theorem Rounds.unique {y' : ℚ} (h : Rounds x y) (h' : Rounds x y') : y' = y := by
  obtain ⟨k, hnear, rfl⟩ := h
  obtain ⟨k', hnear', rfl⟩ := h'
  rw [hnear.unique (ten_zpow_pos _) hnear']

end Nearest

/-! ## Coefficients -/

/-- The rounded quotient is the nearest whole number. -/
theorem nearestEven_divNearest (n : Nat) {d : Nat} (hd : 0 < d) :
    NearestEven d n (divNearest n d) := by
  have hdiv : (n : ℚ) = d * (n / d : Nat) + (n % d : Nat) := by
    exact_mod_cast (Nat.div_add_mod n d).symm
  have hrem := Nat.mod_lt n hd
  rw [NearestEven, hdiv]
  simp only [divNearest]
  generalize n / d = q at *
  generalize n % d = r at *
  have hrest : (r : ℚ) < d := by exact_mod_cast hrem
  split
  · next hup =>
    have hsub : (d : ℚ) * q + r - ((q + 1 : Nat) : Int) * d = -(d - r) := by
      push_cast
      ring
    rw [hsub, abs_neg, abs_of_pos (sub_pos.2 hrest)]
    refine ⟨?_, fun hodd => ?_⟩
    · have hhalf : (d : ℚ) ≤ 2 * r := by exact_mod_cast (show d ≤ 2 * r by omega)
      linarith
    · have hhalf : (d : ℚ) < 2 * r := by exact_mod_cast (show d < 2 * r by omega)
      linarith
  · next hdown =>
    have hsub : (d : ℚ) * q + r - ((q : Nat) : Int) * d = r := by
      push_cast
      ring
    rw [hsub, abs_of_nonneg (Nat.cast_nonneg r)]
    refine ⟨?_, fun hodd => ?_⟩
    · exact_mod_cast (show 2 * r ≤ d by omega)
    · exact_mod_cast (show 2 * r < d by omega)

theorem log_abs_eq {x : ℚ} {a : Int} (hlow : 10 ^ a ≤ |x|) (hhigh : |x| < 10 ^ (a + 1)) :
    Int.log 10 |x| = a := by
  have hten : 1 < 10 := by decide
  have hpos : 0 < |x| := (ten_zpow_pos a).trans_le hlow
  have hle := (Int.zpow_le_iff_le_log hten hpos).1 hlow
  have hlt := (Int.lt_zpow_iff_log_lt hten hpos).1 hhigh
  omega

/-- The last digit that is kept of a coefficient. -/
theorem lastPlace_worth (s : Bool) {c : Nat} (hc : c ≠ 0) (e : Int) :
    lastPlace (worth s c e) = max (digitCount c + e - precision) tinyExponent := by
  have hlog : Int.log 10 |worth s c e| = leadingExponent c e := by
    have hhigh := magnitude_lt c e
    refine log_abs_eq (by rw [abs_worth]; exact le_magnitude hc e) ?_
    rw [abs_worth, leadingExponent, sub_add_cancel]
    exact hhigh
  rw [lastPlace, hlog, leadingExponent]
  congr 1
  ring

/-- A coefficient that rounding gives: it has no more digits than are kept, and its exponents are
those of results. -/
structure Kept (c : Nat) (e : Int) : Prop where
  digits : digitCount c ≤ precision
  tiny_le : tinyExponent ≤ e
  le_max : e + digitCount c ≤ maxExponent + 1

theorem digitCount_le_iff {n k : Nat} (hk : 0 < k) : digitCount n ≤ k ↔ n < 10 ^ k :=
  Nat.length_toDigits_le_iff (by decide) hk

/-- A coefficient rounded at a higher place. -/
theorem nearestEven_worth (s : Bool) (c : Nat) {e target : Int} (h : e ≤ target) :
    NearestEven (10 ^ target) (worth s c e)
      (signed s (divNearestTenPow c (target - e).toNat)) := by
  obtain ⟨j, rfl⟩ := Int.le.dest h
  have hnear : NearestEven (10 ^ (e + j)) (magnitude c e) (divNearest c (10 ^ j)) := by
    have hscaled := (nearestEven_divNearest c (Nat.pow_pos (show 0 < 10 by decide) : 0 < 10 ^ j)).scale
      (ten_zpow_pos e)
    rw [add_comm, ten_zpow_add, zpow_natCast, magnitude]
    exact_mod_cast hscaled
  rw [divNearestTenPow_eq, show (e + j - e).toNat = j by omega, worth_eq]
  cases s with
  | false => exact hnear
  | true => exact hnear.neg

/-- The power of ten behind the coefficients that are kept is written with one digit less. -/
theorem worth_ten_pow_precision (s : Bool) (e : Int) :
    worth s (10 ^ (precision - 1)) (e + 1) = worth s (10 ^ precision) e := by
  have hmagnitude : magnitude (10 ^ (precision - 1)) (e + 1) = magnitude (10 ^ precision) e := by
    rw [magnitude, magnitude, ten_zpow_add, zpow_one, show precision = precision - 1 + 1 from rfl,
      Nat.add_sub_cancel]
    push_cast
    ring
  rw [worth_eq, worth_eq, hmagnitude]

theorem roundFinite_rounds {s : Bool} {c : Nat} {e : Int} {d : Decimal}
    (h : roundFinite s c e = .ok d) :
    ∃ c' e', d = .finite s c' e' ∧ Kept c' e' ∧ Rounds (worth s c e) (worth s c' e') := by
  have htiny : tinyExponent ≤ topExponent := by decide
  have hmax : topExponent + precision = maxExponent + 1 := by decide
  have hprecision : (1 : Int) ≤ precision := by decide
  rw [roundFinite] at h
  split at h
  · next hzero =>
    subst hzero
    cases h
    have hone : digitCount 0 = 1 := by decide
    refine ⟨_, _, rfl, ⟨by decide, by omega, by omega⟩, 0, ?_, ?_⟩
    · have hself := nearestEven_self (ten_zpow_pos (lastPlace (worth s 0 e))) 0
      rwa [Int.cast_zero, zero_mul, ← worth_zero s e] at hself
    · rw [worth_zero, Int.cast_zero, zero_mul]
  next hc =>
  have hplace := lastPlace_worth s hc e
  dsimp only at h
  split at h
  · cases h
  next htop =>
  rw [not_lt] at htop
  rw [← hplace] at h
  have hleast : digitCount c + e - precision ≤ lastPlace (worth s c e) :=
    (le_max_left _ _).trans hplace.ge
  have hlow : tinyExponent ≤ lastPlace (worth s c e) := (le_max_right _ _).trans hplace.ge
  have hhigh : lastPlace (worth s c e) ≤ topExponent := hplace.trans_le (max_le htop htiny)
  split at h
  · next hloses =>
    have hnear := nearestEven_worth s c hloses.le
    have hbound : divNearestTenPow c (lastPlace (worth s c e) - e).toNat ≤ 10 ^ precision := by
      rw [divNearestTenPow_eq]
      exact divNearest_le (Nat.pow_pos (by decide)) (le_of_loses hloses hleast)
    generalize divNearestTenPow c (lastPlace (worth s c e) - e).toNat = kept at *
    by_cases hfull : kept = 10 ^ precision
    · simp only [if_pos hfull] at h
      split at h
      · cases h
      next hfits =>
      cases h
      refine ⟨_, _, rfl, ⟨by decide, by omega, ?_⟩, signed s kept, hnear, ?_⟩
      · have hdigits : digitCount (10 ^ (precision - 1)) = precision := by decide
        omega
      · rw [worth_ten_pow_precision, hfull, worth]
    · simp only [if_neg hfull, if_neg (not_lt.2 hhigh)] at h
      cases h
      have hdigits : digitCount kept ≤ precision :=
        (digitCount_le_iff (by decide)).2 (lt_of_le_of_ne hbound hfull)
      exact ⟨_, _, rfl, ⟨hdigits, hlow, by omega⟩, signed s kept, hnear, rfl⟩
  · next hkept =>
    rw [not_lt] at hkept
    cases h
    refine ⟨c, e, rfl, ⟨by omega, hlow.trans hkept, by omega⟩, ?_⟩
    obtain ⟨k, hk⟩ := exists_worth_eq s c hkept
    refine ⟨k, ?_, hk⟩
    generalize lastPlace (worth s c e) = place at *
    rw [hk]
    exact nearestEven_self (ten_zpow_pos place) k

/-! ## Sums -/

/-- Whether two numbers lie between the same multiples of a unit, or are the same multiple. -/
def SameSide (u x x' : ℚ) : Prop :=
  ∀ m : Int, (m * u ≤ x ↔ m * u ≤ x') ∧ (x ≤ m * u ↔ x' ≤ m * u)

section SameSide

variable {u v x x' y y' : ℚ} {k p : Int}

theorem SameSide.neg (h : SameSide u x x') : SameSide u (-x) (-x') := by
  intro m
  obtain ⟨hge, hle⟩ := h (-m)
  push_cast at hge hle
  rw [neg_mul] at hge hle
  exact ⟨le_neg.trans (hle.trans le_neg), neg_le.trans (hge.trans neg_le)⟩

/-- What is added to a multiple of a unit matters only by its sign, if it is less than a unit. -/
theorem sameSide_add (hu : 0 < u) (hy : |y| < u) (hy' : |y'| < u)
    (hsign : 0 < y ∧ 0 < y' ∨ y < 0 ∧ y' < 0) : SameSide u (k * u + y) (k * u + y') := by
  intro m
  obtain ⟨hlow, hhigh⟩ := abs_lt.1 hy
  obtain ⟨hlow', hhigh'⟩ := abs_lt.1 hy'
  -- neither sum is a multiple of the unit, so not being above one is being below it
  have hstep : ∀ z : ℚ, z ≠ 0 → |z| < u → (k * u + z ≤ m * u ↔ ¬ (m * u ≤ k * u + z)) := by
    intro z hz hzu
    rw [not_le]
    refine ⟨fun hle => lt_of_le_of_ne hle fun heq => hz ?_, le_of_lt⟩
    have hmul : z = ((m - k : Int) : ℚ) * u := by
      push_cast
      linarith
    rw [hmul, abs_mul, abs_of_pos hu, mul_lt_iff_lt_one_left hu] at hzu
    have hzero : |m - k| < 1 := by exact_mod_cast hzu
    rw [hmul, Int.abs_lt_one_iff.1 hzero, Int.cast_zero, zero_mul]
  rcases hsign with ⟨hpos, hpos'⟩ | ⟨hneg, hneg'⟩
  · rw [hstep y hpos.ne' hy, hstep y' hpos'.ne' hy', le_add_iff_of_pos hu hpos hhigh,
      le_add_iff_of_pos hu hpos' hhigh']
    exact ⟨Iff.rfl, Iff.rfl⟩
  · rw [hstep y hneg.ne hy, hstep y' hneg'.ne hy', le_add_iff_of_neg hu hneg hlow,
      le_add_iff_of_neg hu hneg' hlow']
    exact ⟨Iff.rfl, Iff.rfl⟩

/-- The nearest multiple is told by two multiples of half a unit. -/
theorem nearestEven_iff {j : Int} : NearestEven (2 * (j * u)) x k ↔
    (((2 * k - 1) * j : Int) * u ≤ x ∧ x ≤ ((2 * k + 1) * j : Int) * u) ∧
      (k % 2 = 1 → ¬ x ≤ ((2 * k - 1) * j : Int) * u ∧ ¬ ((2 * k + 1) * j : Int) * u ≤ x) := by
  have hlow : (((2 * k - 1) * j : Int) : ℚ) * u = k * (2 * (j * u)) - j * u := by
    push_cast
    ring
  have hhigh : (((2 * k + 1) * j : Int) : ℚ) * u = k * (2 * (j * u)) + j * u := by
    push_cast
    ring
  have hle : 2 * |x - k * (2 * (j * u))| ≤ 2 * (j * u) ↔ |x - k * (2 * (j * u))| ≤ j * u := by
    constructor <;> intro h <;> linarith
  have hlt : 2 * |x - k * (2 * (j * u))| < 2 * (j * u) ↔ |x - k * (2 * (j * u))| < j * u := by
    constructor <;> intro h <;> linarith
  rw [NearestEven, hle, hlt, abs_le, abs_lt, hlow, hhigh, not_le, not_le]
  constructor
  · rintro ⟨⟨h₁, h₂⟩, hodd⟩
    refine ⟨⟨by linarith, by linarith⟩, fun h => ?_⟩
    obtain ⟨h₃, h₄⟩ := hodd h
    exact ⟨by linarith, by linarith⟩
  · rintro ⟨⟨h₁, h₂⟩, hodd⟩
    refine ⟨⟨by linarith, by linarith⟩, fun h => ?_⟩
    obtain ⟨h₃, h₄⟩ := hodd h
    exact ⟨by linarith, by linarith⟩

theorem SameSide.nearestEven (h : SameSide u x x') {j : Int}
    (hnear : NearestEven (2 * (j * u)) x k) : NearestEven (2 * (j * u)) x' k := by
  rw [nearestEven_iff] at hnear ⊢
  rwa [← (h _).1, ← (h _).2, ← (h _).2, ← (h _).1]

/-- A power of ten from a place on is an even multiple of five of the place below. -/
theorem exists_ten_zpow_eq {place : Int} (h : p + 1 ≤ place) :
    ∃ j : Int, (10 : ℚ) ^ place = 2 * (j * (5 * 10 ^ p)) := by
  obtain ⟨i, rfl⟩ := Int.le.dest h
  refine ⟨10 ^ i, ?_⟩
  rw [ten_zpow_add, ten_zpow_add, zpow_natCast, zpow_one]
  push_cast
  ring

/-- Numbers between the same multiples of half a unit have their first digits at the same place, if
it is above that of the unit. -/
theorem SameSide.log_eq (h : SameSide (5 * 10 ^ p) x x') (hx : 10 ^ (p + 1) ≤ |x|) :
    Int.log 10 |x'| = Int.log 10 |x| := by
  have hten : 1 < 10 := by decide
  have hpos : 0 < |x| := (ten_zpow_pos _).trans_le hx
  have hplace : p + 1 ≤ Int.log 10 |x| := (Int.zpow_le_iff_le_log hten hpos).1 hx
  have hlow : (10 : ℚ) ^ Int.log 10 |x| ≤ |x| := Int.zpow_log_le_self hten hpos
  have hhigh : |x| < (10 : ℚ) ^ (Int.log 10 |x| + 1) := Int.lt_zpow_succ_log_self hten |x|
  obtain ⟨j, hj⟩ := exists_ten_zpow_eq hplace
  obtain ⟨j', hj'⟩ := exists_ten_zpow_eq (hplace.trans (Int.le_add_one le_rfl))
  -- on either side of zero the two powers of ten are multiples of the unit
  have hsides : ∀ z z' : ℚ, SameSide (5 * 10 ^ p) z z' → (10 : ℚ) ^ Int.log 10 |x| ≤ z →
      z < 10 ^ (Int.log 10 |x| + 1) → Int.log 10 |z'| = Int.log 10 |x| := by
    intro z z' hz hzlow hzhigh
    have hlow' : (10 : ℚ) ^ Int.log 10 |x| ≤ z' := by
      have hside := (hz (2 * j)).1
      rw [hj, ← mul_assoc] at hzlow ⊢
      push_cast at hside
      exact hside.1 hzlow
    have hhigh' : z' < (10 : ℚ) ^ (Int.log 10 |x| + 1) := by
      have hside := (hz (2 * j')).1
      rw [hj', ← mul_assoc, ← not_le] at hzhigh ⊢
      push_cast at hside
      exact fun hle => hzhigh (hside.2 hle)
    have habs : |z'| = z' := abs_of_pos ((ten_zpow_pos _).trans_le hlow')
    exact log_abs_eq (by rwa [habs]) (by rwa [habs])
  rcases le_total 0 x with hnonneg | hnonpos
  · rw [abs_of_nonneg hnonneg] at hlow hhigh
    exact hsides x x' h (by rwa [abs_of_nonneg hnonneg]) (by rwa [abs_of_nonneg hnonneg])
  · rw [← abs_neg x']
    rw [abs_of_nonpos hnonpos] at hlow hhigh
    exact hsides (-x) (-x') h.neg (by rwa [abs_of_nonpos hnonpos]) (by rwa [abs_of_nonpos hnonpos])

/-- They are rounded to the same number, if it has digits to spare. -/
theorem SameSide.rounds (h : SameSide (5 * 10 ^ p) x x') (hx : 10 ^ (p + precision) ≤ |x|)
    (hrounds : Rounds x y) : Rounds x' y := by
  have hten : 1 < 10 := by decide
  have hprecision : (1 : Int) ≤ precision := by decide
  have hpos : 0 < |x| := (ten_zpow_pos _).trans_le hx
  have hlog : p + precision ≤ Int.log 10 |x| := (Int.zpow_le_iff_le_log hten hpos).1 hx
  have hplace : lastPlace x' = lastPlace x := by
    rw [lastPlace, lastPlace, h.log_eq ((ten_zpow_le (by omega)).trans hx)]
  have hunit : p + 1 ≤ lastPlace x := le_max_of_le_left (by omega)
  obtain ⟨k, hnear, rfl⟩ := hrounds
  obtain ⟨j, hj⟩ := exists_ten_zpow_eq hunit
  refine ⟨k, ?_, by rw [hplace]⟩
  rw [hplace]
  rw [hj] at hnear ⊢
  exact h.nearestEven hnear

end SameSide

/-! ### The rounded sum -/

theorem worth_exactSum (s₁ : Bool) (c₁ : Nat) (e₁ : Int) (s₂ : Bool) (c₂ : Nat) (e₂ : Int) :
    worth (exactSum s₁ c₁ e₁ s₂ c₂ e₂).1 (exactSum s₁ c₁ e₁ s₂ c₂ e₂).2.1
      (exactSum s₁ c₁ e₁ s₂ c₂ e₂).2.2 = worth s₁ c₁ e₁ + worth s₂ c₂ e₂ := by
  rw [worth_timesTenPow s₁ c₁ (min_le_left e₁ e₂), worth_timesTenPow s₂ c₂ (min_le_right e₁ e₂)]
  simp only [exactSum, worth, ← add_mul]
  rw [signed_natAbs fun hne => if_neg hne]
  push_cast
  rfl

/-- A sum with what stands for an operand is rounded as the sum with the operand is. -/
theorem rounds_of_standIn {s₁ : Bool} {c₁ : Nat} {e₁ : Int} {s₂ : Bool} {c₂ : Nat} {e₂ : Int} {y : ℚ}
    (h : Rounds
      (worth s₁ c₁ e₁ + worth s₂ (standIn c₁ e₁ c₂ e₂).1 (standIn c₁ e₁ c₂ e₂).2) y) :
    Rounds (worth s₁ c₁ e₁ + worth s₂ c₂ e₂) y := by
  rcases standIn_cases s₁ c₁ e₁ s₂ c₂ e₂ with hsame | ⟨p, k, hk, hbig, hsmall, hsmall', hsign⟩
  · rwa [hsame] at h
  · have hpos := ten_zpow_pos p
    have hfive : (10 : ℚ) ^ p < 5 * 10 ^ p := by linarith
    have hmultiple : worth s₁ c₁ e₁ = (2 * k : Int) * (5 * 10 ^ p) := by
      rw [hk, ten_zpow_add, zpow_one]
      push_cast
      ring
    have hside := sameSide_add (show 0 < 5 * (10 : ℚ) ^ p by linarith) (hsmall.trans_lt hfive)
      (hsmall'.trans_lt hfive) hsign (k := 2 * k)
    rw [← hmultiple] at hside
    refine hside.rounds ?_ h
    have htriangle := abs_sub_abs_le_abs_add (worth s₁ c₁ e₁)
      (worth s₂ (standIn c₁ e₁ c₂ e₂).1 (standIn c₁ e₁ c₂ e₂).2)
    have hprecision : (10 : ℚ) ^ p ≤ 10 ^ (p + precision) := ten_zpow_le (by omega)
    rw [ten_zpow_add, zpow_one] at hbig
    linarith

theorem roundedSum_rounds {s₁ : Bool} {c₁ : Nat} {e₁ : Int} {s₂ : Bool} {c₂ : Nat} {e₂ : Int}
    {d : Decimal} (h : roundedSum s₁ c₁ e₁ s₂ c₂ e₂ = .ok d) :
    ∃ s c e, d = .finite s c e ∧ Kept c e ∧
      Rounds (worth s₁ c₁ e₁ + worth s₂ c₂ e₂) (worth s c e) := by
  generalize hsum : exactSum s₁ (standIn c₂ e₂ c₁ e₁).1 (standIn c₂ e₂ c₁ e₁).2
    s₂ (standIn c₁ e₁ c₂ e₂).1 (standIn c₁ e₁ c₂ e₂).2 = sum
  have hround : roundFinite sum.1 sum.2.1 sum.2.2 = .ok d := by
    rw [← hsum, ← h]
    rfl
  obtain ⟨c, e, rfl, hkept, hrounds⟩ := roundFinite_rounds hround
  refine ⟨sum.1, c, e, rfl, hkept, ?_⟩
  rw [← hsum, worth_exactSum, hsum] at hrounds
  rcases standIn_self_or c₁ e₁ c₂ e₂ with hsecond | hfirst
  · rw [hsecond, add_comm] at hrounds
    rw [add_comm]
    exact rounds_of_standIn hrounds
  · rw [hfirst] at hrounds
    exact rounds_of_standIn hrounds

/-- What is left of a finite decimal is the difference, rounded. -/
theorem subInt_rounds {s : Bool} {c : Nat} {e k : Int} {d : Decimal}
    (h : subInt (.finite s c e) k = .ok d) :
    ∃ s' c' e', d = .finite s' c' e' ∧ Kept c' e' ∧ Rounds (worth s c e - k) (worth s' c' e') := by
  obtain ⟨s', c', e', rfl, hkept, hrounds⟩ := roundedSum_rounds h
  rw [worth_neg_int, ← sub_eq_add_neg] at hrounds
  exact ⟨s', c', e', rfl, hkept, hrounds⟩

/-! ## What rounding keeps -/

/-- Whether a number has no more digits than are kept, and none below the place of the tiniest
numbers. -/
def Fits (x : ℚ) : Prop :=
  ∃ k t : Int, |k| < 10 ^ precision ∧ tinyExponent ≤ t ∧ x = k * 10 ^ t

section Kept

variable {x y : ℚ}

theorem rounds_self {k : Int} (h : x = k * 10 ^ lastPlace x) : Rounds x x := by
  have hself := nearestEven_self (ten_zpow_pos (lastPlace x)) k
  rw [← h] at hself
  exact ⟨k, hself, h⟩

theorem abs_lt_ten_zpow (x : ℚ) : |x| < 10 ^ (lastPlace x + precision) := by
  have hlog : |x| < (10 : ℚ) ^ (Int.log 10 |x| + 1) := Int.lt_zpow_succ_log_self (by decide) |x|
  have hplace : Int.log 10 |x| + 1 - precision ≤ lastPlace x := le_max_left _ _
  exact hlog.trans_le (ten_zpow_le (by omega))

/-- A number is rounded to itself exactly if it has no more digits than are kept. -/
theorem Rounds.eq_iff_fits (h : Rounds x y) : y = x ↔ Fits x := by
  constructor
  · rintro rfl
    obtain ⟨k, -, hk⟩ := h
    refine ⟨k, lastPlace y, ?_, le_max_right _ _, hk⟩
    have hlt := abs_lt_ten_zpow y
    rw [ten_zpow_add, zpow_natCast, mul_comm] at hlt
    generalize lastPlace y = place at hk hlt
    rw [hk, abs_mul, abs_of_pos (ten_zpow_pos place)] at hlt
    exact_mod_cast lt_of_mul_lt_mul_right hlt (ten_zpow_pos place).le
  · rintro ⟨k, t, hk, ht, hx⟩
    have hself : Rounds x x := by
      rcases eq_or_ne x 0 with hzero | hne
      · exact rounds_self (k := 0) (by rw [hzero, Int.cast_zero, zero_mul])
      · have habs : |x| < 10 ^ (precision + t) := by
          rw [hx, abs_mul, abs_of_pos (ten_zpow_pos t), ten_zpow_add, zpow_natCast]
          exact mul_lt_mul_of_pos_right (by exact_mod_cast hk) (ten_zpow_pos t)
        have hlog : Int.log 10 |x| < precision + t :=
          (Int.lt_zpow_iff_log_lt (by decide) (abs_pos.2 hne)).1 habs
        obtain ⟨i, hi⟩ := Int.le.dest (show lastPlace x ≤ t from max_le (by omega) ht)
        refine rounds_self (k := k * 10 ^ i) ?_
        rw [← hi, ten_zpow_add, zpow_natCast] at hx
        push_cast
        linarith
    exact hself.unique h

/-- A number is rounded by at most half a unit of its last place. -/
theorem Rounds.two_mul_abs_sub_le (h : Rounds x y) : 2 * |x - y| ≤ 10 ^ lastPlace x := by
  obtain ⟨k, hnear, rfl⟩ := h
  exact hnear.1

theorem ten_zpow_lastPlace_le (x : ℚ) : (10 : ℚ) ^ lastPlace x ≤ |x| / 10 + 1 / 10 := by
  have hnonneg := abs_nonneg x
  have htenth : (10 : ℚ) ^ (-1 : Int) = 1 / 10 := by norm_num
  rcases eq_or_ne x 0 with hzero | hne
  · have hplace : lastPlace x ≤ -1 := by
      rw [hzero, lastPlace, abs_zero, Int.log_zero_right]
      decide
    have hle : (10 : ℚ) ^ lastPlace x ≤ 10 ^ (-1 : Int) := ten_zpow_le hplace
    rw [htenth] at hle
    linarith
  · rcases max_choice (Int.log 10 |x| + 1 - precision) tinyExponent with hplace | hplace
    · have hlog : (10 : ℚ) ^ Int.log 10 |x| ≤ |x| :=
        Int.zpow_log_le_self (by decide) (abs_pos.2 hne)
      have hle : (10 : ℚ) ^ (Int.log 10 |x| + 1 - precision) ≤ 10 ^ (Int.log 10 |x| + -1) :=
        ten_zpow_le (by rw [precision]; omega)
      rw [ten_zpow_add, htenth] at hle
      rw [lastPlace, hplace]
      linarith
    · have hle : (10 : ℚ) ^ tinyExponent ≤ 10 ^ (-1 : Int) := ten_zpow_le (by decide)
      rw [htenth] at hle
      rw [lastPlace, hplace]
      linarith

/-- The digits around one are finer below it than above. -/
theorem lastPlace_near_one (hlow : 1 / 10 ≤ x) (hhigh : x < 10) :
    lastPlace x = if 1 ≤ x then -27 else -28 := by
  have habs : |x| = x := abs_of_nonneg (by linarith)
  split
  · next hge =>
    have hlog : Int.log 10 |x| = 0 := log_abs_eq (by rw [habs]; simpa using hge) (by
      rw [habs]
      simpa using hhigh)
    rw [lastPlace, hlog]
    decide
  · next hlt =>
    have hlog : Int.log 10 |x| = -1 := log_abs_eq (by rw [habs]; norm_num; linarith) (by
      rw [habs]
      norm_num
      linarith)
    rw [lastPlace, hlog]
    decide

/-- The numbers that are rounded to one. -/
theorem rounds_one_iff : Rounds x 1 ↔ 1 - 5 / 10 ^ 29 ≤ x ∧ x ≤ 1 + 5 / 10 ^ 28 := by
  constructor
  · intro h
    have hnear := h.two_mul_abs_sub_le
    have hunit := ten_zpow_lastPlace_le x
    have htriangle := abs_sub_abs_le_abs_sub x 1
    rw [abs_one] at htriangle
    obtain ⟨hlow, hhigh⟩ := abs_le.1 (show |x - 1| ≤ 1 / 5 by linarith)
    rw [lastPlace_near_one (by linarith) (by linarith)] at hnear
    split at hnear
    · next hge =>
      rw [abs_of_nonneg (by linarith)] at hnear
      norm_num at hnear
      constructor <;> linarith
    · next hlt =>
      rw [abs_of_nonpos (by linarith)] at hnear
      norm_num at hnear
      constructor <;> linarith
  · rintro ⟨hlow, hhigh⟩
    have hplace := lastPlace_near_one (x := x) (by norm_num at hlow; linarith)
      (by norm_num at hhigh; linarith)
    split at hplace
    · next hge =>
      have hone : ((10 ^ 27 : Int) : ℚ) * 10 ^ (-27 : Int) = 1 := by norm_num
      refine ⟨10 ^ 27, ?_, by rw [hplace, hone]⟩
      rw [hplace, NearestEven, hone, abs_of_nonneg (by linarith)]
      norm_num at hhigh ⊢
      linarith
    · next hlt =>
      have hone : ((10 ^ 28 : Int) : ℚ) * 10 ^ (-28 : Int) = 1 := by norm_num
      refine ⟨10 ^ 28, ?_, by rw [hplace, hone]⟩
      rw [hplace, NearestEven, hone, abs_of_nonpos (by linarith)]
      norm_num at hlow ⊢
      linarith

end Kept

end Phrasebook.Number.Decimal
