/-
  Fixed-width hexadecimal text, as used by character escapes.
-/
set_option autoImplicit false

namespace Phrasebook.Text

/-- A natural number in lower-case hexadecimal, filled up with zeros to a least width. -/
def hex (width n : Nat) : String :=
  let digits := Nat.toDigits 16 n
  String.ofList (List.replicate (width - digits.length) '0' ++ digits)

/-- The value of a hexadecimal digit of either case. -/
def hexDigit? (c : Char) : Option Nat :=
  if '0' ≤ c && c ≤ '9' then some (c.toNat - 48)
  else if 'a' ≤ c && c ≤ 'f' then some (c.toNat - 87)
  else if 'A' ≤ c && c ≤ 'F' then some (c.toNat - 55)
  else none

/-- The number that hexadecimal digits denote; nothing if one of them is no digit. -/
def ofHex? (digits : List Char) : Option Nat :=
  digits.foldlM (fun n c => (hexDigit? c).map (16 * n + ·)) 0

end Phrasebook.Text
