/-
  Rounding quotients, shifting by powers of ten, and counting and grouping
  decimal digits.

  `divNearest` is the quotient of two natural numbers rounded to the nearest
  one, a tie going to the even neighbour.  Decimal and binary arithmetic both
  round by it; they differ in the power that they divide by.

  Exponents of decimals may have many digits themselves.  The shifts
  `timesTenPow`, `divTenPow` and `divNearestTenPow` therefore compute a power
  only if it has a part in the result.
-/
set_option autoImplicit false

-- A power of natural numbers is the built-in one, also where they are known to be a monoid.
attribute [instance (2000)] instPowNat

namespace Phrasebook.Number

/-! ## Nearest quotient -/

/-- The quotient rounded to the nearest natural number, a tie going to the even neighbour. -/
def divNearest (n d : Nat) : Nat :=
  let q := n / d
  let r := n % d
  if d < 2 * r ∨ (2 * r = d ∧ q % 2 = 1) then q + 1 else q

theorem divNearest_mul {d : Nat} (h : 0 < d) (q : Nat) : divNearest (q * d) d = q := by
  have hq : q * d / d = q := Nat.mul_div_cancel q h
  have hr : q * d % d = 0 := Nat.mul_mod_left q d
  simp [divNearest, hq, hr]
  omega

/-- The rounded quotient is never more than half a unit away. -/
theorem divNearest_bounds {d : Nat} (h : 0 < d) (n : Nat) :
    2 * n ≤ (2 * divNearest n d + 1) * d ∧ 2 * divNearest n d * d ≤ 2 * n + d := by
  have hn := Nat.div_add_mod n d
  have hr := Nat.mod_lt n h
  have hc : d * (n / d) = n / d * d := Nat.mul_comm _ _
  rw [hc] at hn
  simp only [divNearest]
  split <;> simp only [Nat.add_mul, Nat.mul_add, Nat.mul_assoc] <;> omega

/-! ## Decimal digits -/

/-- The decimal digits of a natural number, most significant first. -/
def digits (n : Nat) : List Char := Nat.toDigits 10 n

/-- How many decimal digits a natural number has; zero has one. -/
def digitCount (n : Nat) : Nat := (digits n).length

theorem lt_ten_pow_digitCount (n : Nat) : n < 10 ^ digitCount n := by
  have h : 0 < digitCount n := Nat.length_toDigits_pos
  exact (Nat.length_toDigits_le_iff (by decide) h).1 (Nat.le_refl _)

/-- A natural number in decimal, filled up with zeros to a least width. -/
def padded (width n : Nat) : String :=
  let ds := digits n
  String.ofList (List.replicate (width - ds.length) '0' ++ ds)

/-! ## Shifts -/

/-- The product with a power of ten. -/
def timesTenPow (n places : Nat) : Nat := if n = 0 then 0 else n * 10 ^ places

/-- The whole quotient by a power of ten. -/
def divTenPow (n places : Nat) : Nat :=
  if digitCount n ≤ places then 0 else n / 10 ^ places

/-- The quotient by a power of ten, rounded to the nearest natural number. -/
def divNearestTenPow (n places : Nat) : Nat :=
  if digitCount n < places then 0 else divNearest n (10 ^ places)

theorem timesTenPow_eq (n places : Nat) : timesTenPow n places = n * 10 ^ places := by
  simp only [timesTenPow]
  split
  · next h => rw [h, Nat.zero_mul]
  · rfl

theorem divTenPow_eq (n places : Nat) : divTenPow n places = n / 10 ^ places := by
  simp only [divTenPow]
  split
  · next h =>
    have small : n < 10 ^ places :=
      Nat.lt_of_lt_of_le (lt_ten_pow_digitCount n) (Nat.pow_le_pow_right (by decide) h)
    exact (Nat.div_eq_of_lt small).symm
  · rfl

/-- A number with fewer digits than are dropped is less than half of the unit that is kept. -/
theorem divNearestTenPow_eq (n places : Nat) :
    divNearestTenPow n places = divNearest n (10 ^ places) := by
  simp only [divNearestTenPow]
  split
  · next h =>
    have wide : 10 ^ (digitCount n + 1) ≤ 10 ^ places := Nat.pow_le_pow_right (by decide) h
    have small := lt_ten_pow_digitCount n
    rw [Nat.pow_succ] at wide
    have quotient : n / 10 ^ places = 0 := Nat.div_eq_of_lt (by omega)
    have rest : n % 10 ^ places = n := Nat.mod_eq_of_lt (by omega)
    simp only [divNearest, quotient, rest]
    rw [if_neg (by omega)]
  · rfl

/-! ## Grouping -/

/-- How the digits of a whole number are grouped: `primary` digits at the right end, then
`secondary` digits each time. -/
structure Grouping where
  primary : Nat
  secondary : Nat
  deriving DecidableEq, Repr, Inhabited

/-- Groups of three digits throughout. -/
def Grouping.thousands : Grouping := ⟨3, 3⟩

/-- Whether a group begins where `left` characters are left. -/
def Grouping.begins (g : Grouping) (left : Nat) : Bool :=
  g.primary ≤ left && (left - g.primary) % g.secondary == 0

/-- Sets a separator wherever a new group begins, the front of the text apart. -/
def Grouping.separate (g : Grouping) (separator : List Char) : List Char → List Char
  | [] => []
  | [c] => [c]
  | c :: d :: rest =>
    c :: ((if g.begins (rest.length + 1) then separator else []) ++
      g.separate separator (d :: rest))

/-- A natural number with a comma between groups of three digits. -/
def withThousands (n : Nat) : String :=
  String.ofList (Grouping.thousands.separate [','] (digits n))

end Phrasebook.Number
