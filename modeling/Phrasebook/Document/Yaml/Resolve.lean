/-
  What plain scalars mean.

  A plain scalar is nothing, a truth value, a number, a date or a date with a
  time if its text has the form of one, and a text otherwise.  Whole numbers are
  written in base two, eight, ten or sixteen, or in base ten in groups of sixty;
  underscores in numbers do not count.
-/
import Phrasebook.Calendar.Iso
import Phrasebook.Document.Fault
import Phrasebook.Text.Hex
import Phrasebook.Text.Split
import Phrasebook.Value

set_option autoImplicit false

namespace Phrasebook.Yaml

open Phrasebook.Number Phrasebook.Text Phrasebook.Calendar

/-! ## Words -/

/-- The ways to write a word: in small letters, with a capital, in capitals. -/
def casings (word : String) : List String := [word, word.capitalize, word.toUpper]

/-- The truth value of a word. -/
def bool? (s : String) : Option Bool :=
  if (["true", "yes", "on"].flatMap casings).contains s then some true
  else if (["false", "no", "off"].flatMap casings).contains s then some false
  else none

/-- Whether a text stands for nothing. -/
def isNull (s : String) : Bool := s = "" || s = "~" || (casings "null").contains s

/-! ## Numbers -/

/-- A digit of some base, or an underscore. -/
def isDigitBelow (base : Nat) (c : Char) : Bool :=
  c = '_' || match hexDigit? c with
    | some n => n < base
    | none => false

/-- The digits of a run without its underscores. -/
def dropMarks (digits : List Char) : List Char := digits.filter (· ≠ '_')

/-- The number that digits of a base denote; there must be one. -/
def inBase (base : Nat) (digits : List Char) : Except DocumentFault Nat :=
  match dropMarks digits with
  | [] => .error .noSuchValue
  | digits => .ok (digits.foldl (fun n c => base * n + (hexDigit? c).getD 0) 0)

/-- The number that decimal digits denote, unless there are too many. -/
def inBaseTen (digits : List Char) : Except DocumentFault Nat :=
  (naturalOf (dropMarks digits)).mapError .number

/-- Whether a text is a run of decimal digits and underscores that begins with a digit. -/
def isRun : List Char → Bool
  | c :: rest => isAsciiDigit c && rest.all (isDigitBelow 10)
  | [] => false

/-- Whether a text is the count of a group of sixty, in one or two digits. -/
def isGroup : List Char → Bool
  | [c] => isAsciiDigit c
  | [c, d] => '0' ≤ c && c ≤ '5' && isAsciiDigit d
  | _ => false

/-- The number that groups of sixty denote, the largest first. -/
def ofGroups (groups : List Nat) : Nat := groups.foldl (fun n group => 60 * n + group) 0

/-- The whole number that a text without a sign denotes, if it has the form of one. -/
def natural? (s : List Char) : Option (Except DocumentFault Nat) :=
  match s with
  | '0' :: 'b' :: digits =>
    if !digits.isEmpty && digits.all (isDigitBelow 2) then some (inBase 2 digits) else none
  | '0' :: 'x' :: digits =>
    if !digits.isEmpty && digits.all (isDigitBelow 16) then some (inBase 16 digits) else none
  | '0' :: digits =>
    if digits.all (isDigitBelow 8) then some (inBase 8 ('0' :: digits)) else none
  | _ =>
    match splitOn ':' s with
    | first :: groups =>
      if isRun first && groups.all isGroup then some do
        let first ← inBaseTen first
        return ofGroups (first :: groups.map natOfDigits)
      else none
    | [] => none

/-- Whether a text is the exponent of a number: nothing, or a letter, a sign and digits. -/
def isExponent : List Char → Bool
  | [] => true
  | c :: sign :: digits =>
    (c = 'e' || c = 'E') && (sign = '+' || sign = '-') && !digits.isEmpty &&
      digits.all isAsciiDigit
  | _ => false

/-- Whether a text is a number with a point. -/
def isPointed (s : List Char) : Bool :=
  let rest := s.dropWhile (isDigitBelow 10)
  isRun (s.takeWhile (isDigitBelow 10)) && rest.head? = some '.' &&
    isExponent ((rest.drop 1).dropWhile (isDigitBelow 10))

/-- Whether a text is a number that begins with its point. -/
def isFraction : List Char → Bool
  | '.' :: rest =>
    isRun (rest.takeWhile (isDigitBelow 10)) && isExponent (rest.dropWhile (isDigitBelow 10))
  | _ => false

/-- The floating-point number of a text in groups of sixty, of which the last has a point.  The
groups are added from the last to the first. -/
def pointedGroups? (s : List Char) : Option Binary64 :=
  match (splitOn ':' s).reverse with
  | last :: middle :: others =>
    let whole := last.takeWhile (· ≠ '.')
    let groups := middle :: others
    let fraction := last.drop (whole.length + 1)
    if isGroup whole && last.contains '.' && fraction.all (isDigitBelow 10) &&
        groups.dropLast.all isGroup && isRun (groups.getLast?.getD []) then do
      let parts ← (last :: groups).mapM fun part =>
        Binary64.read? (String.ofList (dropMarks part))
      let (sum, _) := parts.foldl (fun (sum, base) part => (sum.add (part.mulNat base), base * 60))
        (Binary64.zero false, 1)
      return sum
    else none
  | _ => none

/-- The floating-point number that a text denotes, if it has the form of one. -/
def float? (s : List Char) : Option Binary64 :=
  let (negative, body) := splitSign s
  let signed (x : Binary64) : Binary64 := if negative then x.neg else x
  let text := String.ofList body
  if (["nan", "NaN", "NAN"].map ("." ++ ·)).contains (String.ofList s) then some .nan
  else if (["inf", "Inf", "INF"].map ("." ++ ·)).contains text then
    some (.infinite negative)
  else if isPointed body || isFraction s then
    (Binary64.read? (String.ofList (dropMarks body))).map signed
  else (pointedGroups? body).map signed

/-- The whole number that a text denotes, if it has the form of one. -/
def int? (s : List Char) : Option (Except DocumentFault Int) :=
  let (negative, body) := splitSign s
  (natural? body).map fun n => n.map fun n => if negative then -(n : Int) else n

/-! ## Dates and times -/

/-- Reads a number of at least and at most so many digits. -/
def digits? (least most : Nat) (s : List Char) : Option (Nat × List Char) :=
  let digits := (s.take most).takeWhile isAsciiDigit
  if digits.length < least then none else some (natOfDigits digits, s.drop digits.length)

/-- Reads a character that must stand here. -/
def mark? (c : Char) : List Char → Option (List Char)
  | d :: rest => if d = c then some rest else none
  | [] => none

/-- Passes over spaces and tabs. -/
def skipGap (s : List Char) : List Char := s.dropWhile fun c => c = ' ' || c = '\t'

/-- Reads a year, a month and a day, of which the last two may have one digit. -/
def dayFields? (s : List Char) : Option (Date × List Char) := do
  let (year, s) ← digits? 4 4 s
  let (month, s) ← digits? 1 2 (← mark? '-' s)
  let (day, s) ← digits? 1 2 (← mark? '-' s)
  return (⟨year, month, day⟩, s)

/-- What separates a date from a time: a letter or a gap. -/
def separator? : List Char → Option (List Char)
  | c :: rest =>
    if c = 'T' || c = 't' then some rest
    else if c = ' ' || c = '\t' then some (skipGap rest)
    else none
  | [] => none

/-- A fraction of a second in microseconds, of which only six digits count. -/
def microseconds (digits : List Char) : Nat :=
  natOfDigits ((digits ++ List.replicate 6 '0').take 6)

/-- The distance from universal time at the end of a text, if one is given. -/
def offset? (s : List Char) : Option (Option Offset) :=
  match s, skipGap s with
  | [], _ => some none
  | _, ['Z'] => some (some .utc)
  | _, sign :: rest => do
    if sign ≠ '+' && sign ≠ '-' then none
    let (hours, rest) ← digits? 1 2 rest
    let (minutes, rest) ← match rest with
      | ':' :: rest => digits? 2 2 rest
      | rest => some (0, rest)
    if !rest.isEmpty then none
    let size : Int := (hours * 60 + minutes : Nat) * 60000000
    return some ⟨if sign = '-' then -size else size⟩
  | _, [] => none

/-- The date with a time that a text has the form of. -/
def dateTime? (s : List Char) : Option (Date × Time) := do
  let (date, s) ← dayFields? s
  let (hour, s) ← digits? 1 2 (← separator? s)
  let (minute, s) ← digits? 2 2 (← mark? ':' s)
  let (second, s) ← digits? 2 2 (← mark? ':' s)
  let fraction := match s with
    | '.' :: rest => rest.takeWhile isAsciiDigit
    | _ => []
  let s := if s.head? = some '.' then s.drop (fraction.length + 1) else s
  return (date, ⟨hour, minute, second, microseconds fraction, ← offset? s⟩)

/-- The date that a text has the form of, with four, two and two digits. -/
def date? (s : List Char) : Option Date := do
  let (date, rest) ← dayFields? s
  if s.length = 10 && rest.isEmpty then return date else none

/-- The date or date with a time that a text denotes, if it has the form of one. -/
def timestamp? (s : List Char) : Option (Except DocumentFault Value) :=
  match date? s, dateTime? s with
  | some date, _ => some (if date.Valid then .ok (.date date) else .error .noSuchValue)
  | none, some (date, time) =>
    some (if date.Valid ∧ time.Valid then .ok (.dateTime date time) else .error .noSuchValue)
  | none, none => none

/-! ## Values -/

/-- Texts that have a meaning which is no value. -/
def reservedWords : List String := ["<<", "="]

/-- The value of a plain scalar. -/
def resolve (s : String) : Except DocumentFault Value :=
  let chars := s.toList
  if isNull s then .ok .null
  else if reservedWords.contains s then .error (.malformed .yaml)
  else
    match bool? s, float? chars, int? chars, timestamp? chars with
    | some b, _, _, _ => .ok (.bool b)
    | none, some x, _, _ => .ok (.number (.float x))
    | none, none, some n, _ => n.map fun n => .number (.int n)
    | none, none, none, some v => v
    | none, none, none, none => .ok (.text s)

end Phrasebook.Yaml
