/-
  Reading ISO 8601 dates and times.

  A date is written with or without dashes, by month and day or by week and
  weekday.  Any single character and a time may follow, the time with or without
  colons and with any number of its parts, and after it `Z` or a signed offset.

  The reader is lenient in two places, both after the part that it needs.  A
  time that an offset follows may have further characters behind its last
  complete part, and the digits of a fraction after the sixth are not used.
-/
import Phrasebook.Calendar
import Phrasebook.Number.Rounding
import Phrasebook.Text.DecimalDigit

set_option autoImplicit false

namespace Phrasebook.Calendar

open Phrasebook.Text

/-! ## Dates -/

/-- Reads exactly the given number of digits from the front. -/
def readDigits? (count : Nat) (s : List Char) : Option (Nat × List Char) :=
  let ds := s.take count
  if ds.length = count ∧ ds.all isAsciiDigit then some (natOfDigits ds, s.drop count) else none

/-- Counts days through the months of a year. -/
def monthAndDay (year : Nat) : Nat → Nat → Nat → Nat × Nat
  | 0, month, day => (month, day)
  | n + 1, month, day =>
    if day ≤ daysInMonth year month then (month, day)
    else monthAndDay year n (month + 1) (day - daysInMonth year month)

/-- The date with a given number; nothing outside the years 1 to 9999. -/
def Date.ofOrdinal? (n : Nat) : Option Date :=
  if n = 0 then none
  else
    let guess := (n - 1) / 366 + 1
    let later := (n - 1) / 365 + 1
    let year := (List.range (later - guess + 1)).foldl
      (fun y i => if daysBeforeYear (guess + i) < n then guess + i else y) guess
    let (month, day) := monthAndDay year 11 1 (n - daysBeforeYear year)
    if 9999 < year then none else some ⟨year, month, day⟩

/-- The number of the Monday with which the first week of a year begins: the week that holds the
fourth of January. -/
def firstMonday (year : Nat) : Int :=
  let newYear := daysBeforeYear year + 1
  let weekday := (newYear + 6) % 7
  let monday : Int := newYear - weekday
  if 3 < weekday then monday + 7 else monday

/-- Whether a year has 53 weeks: it begins on a Thursday, or on a Wednesday and is a leap year. -/
def hasLongWeekYear (year : Nat) : Bool :=
  let weekday := (daysBeforeYear year + 7) % 7
  weekday == 3 || (weekday == 2 && isLeap year)

/-- The date of a weekday, 1 for Monday, of a numbered week. -/
def Date.ofWeek? (year week day : Nat) : Option Date :=
  if year = 0 ∨ week = 0 ∨ 53 < week ∨ day = 0 ∨ 7 < day then none
  else if week = 53 ∧ !hasLongWeekYear year then none
  else Date.ofOrdinal? (firstMonday year + ((week - 1) * 7 + (day - 1) : Nat)).toNat

/-- Reads a whole text as a date. -/
def readDate? (s : List Char) : Option Date := do
  let (year, s) ← readDigits? 4 s
  let dashed := s.head? == some '-'
  let s := if dashed then s.drop 1 else s
  if s.head? == some 'W' then
    let (week, s) ← readDigits? 2 (s.drop 1)
    if s.isEmpty then Date.ofWeek? year week 1
    else
      if dashed && s.head? != some '-' then none
      let (day, _) ← readDigits? 1 (if dashed then s.drop 1 else s)
      Date.ofWeek? year week day
  else
    let (month, s) ← readDigits? 2 s
    if dashed && s.head? != some '-' then none
    let (day, _) ← readDigits? 2 (if dashed then s.drop 1 else s)
    let date : Date := ⟨year, month, day⟩
    if date.Valid then some date else none

/-- Where the date of a text ends.

A dashed date has ten characters, and any other eight.  A week without a weekday is shorter: with
dashes it ends before a dash that a digit does not follow by two places, and without them where
the count of digits after the year shows that the weekday is missing. -/
def dateLength (s : List Char) : Option Nat :=
  let at? (i : Nat) := s[i]?
  let isDigitAt (i : Nat) := (at? i).any isAsciiDigit
  if s.length = 7 then some 7
  else if at? 4 = some '-' then
    if at? 5 = some 'W' then
      if at? 8 = some '-' then
        if s.length = 9 then none
        else if isDigitAt 10 then some 8 else some 10
      else some 8
    else some 10
  else if at? 4 = some 'W' then
    let stop := 7 + ((s.drop 7).takeWhile isAsciiDigit).length
    if stop < 9 then some stop
    else if stop % 2 = 0 then some 7 else some 8
  else some 8

/-! ## Times -/

/-- The parts of a time or an offset, and whether nothing was left over. -/
structure Parts where
  hour : Nat
  minute : Nat
  second : Nat
  microsecond : Nat
  complete : Bool
  deriving DecidableEq, Repr, Inhabited

/-- The digits after the point: six of them count, and a shorter run is filled up with zeros. -/
def readFraction? (s : List Char) : Option (Nat × Bool) :=
  let used := s.take 6
  if used.all isAsciiDigit then
    some (natOfDigits used * 10 ^ (6 - used.length),
      ((s.drop 6).dropWhile isAsciiDigit).isEmpty)
  else none

/-- What follows a part of a time. -/
inductive After where
  /-- nothing, or a single ASCII character that is left over -/
  | stop (complete : Bool)
  /-- a fraction of a second -/
  | fraction (rest : List Char)
  /-- a further part -/
  | part (rest : List Char)
  deriving DecidableEq, Repr, Inhabited

/-- Looks behind a part of a time that is written with or without colons. -/
def after? (colons : Bool) : List Char → Option After
  | [] => some (.stop true)
  | [c] => if c.toNat < 128 then some (.stop false) else none
  | c :: rest =>
    if colons && c == ':' then some (.part rest)
    else if c = '.' ∨ c = ',' then some (.fraction rest)
    else if colons then none
    else some (.part (c :: rest))

/-- Reads the parts of a time: hour, minute, second and fraction, each but the first optional. -/
def readParts? (s : List Char) : Option Parts := do
  let (hour, s) ← readDigits? 2 s
  let colons := s.head? == some ':'
  match ← after? colons s with
  | .stop complete => return ⟨hour, 0, 0, 0, complete⟩
  | .fraction s =>
    let (micro, complete) ← readFraction? s
    return ⟨hour, 0, 0, micro, complete⟩
  | .part s =>
    let (minute, s) ← readDigits? 2 s
    match ← after? colons s with
    | .stop complete => return ⟨hour, minute, 0, 0, complete⟩
    | .fraction s =>
      let (micro, complete) ← readFraction? s
      return ⟨hour, minute, 0, micro, complete⟩
    | .part s =>
      let (second, s) ← readDigits? 2 s
      match ← after? colons s with
      | .stop complete => return ⟨hour, minute, second, 0, complete⟩
      | .fraction s | .part s =>
        let (micro, complete) ← readFraction? s
        return ⟨hour, minute, second, micro, complete⟩

/-- A character that begins an offset. -/
def beginsOffset (c : Char) : Bool := c = '+' || c = '-' || c = 'Z'

/-- Reads an offset: `Z` alone, or a sign and the parts of a time. -/
def readOffset? : List Char → Option Offset
  | ['Z'] => some .utc
  | 'Z' :: _ => none
  | sign :: s => do
    let p ← readParts? s
    if !p.complete then none
    let n := ((p.hour * 60 + p.minute) * 60 + p.second) * 1000000 + p.microsecond
    let offset : Offset := ⟨if sign = '-' then -(n : Int) else n⟩
    if offset.Valid then some offset else none
  | [] => none

/-- Reads a whole text as a time. -/
def readTime? (s : List Char) : Option Time := do
  let clock := s.takeWhile (!beginsOffset ·)
  let zone := s.dropWhile (!beginsOffset ·)
  let p ← readParts? clock
  let offset ← if zone.isEmpty then
      if p.complete then some none else none
    else (readOffset? zone).map some
  let time : Time := ⟨p.hour, p.minute, p.second, p.microsecond, offset⟩
  if time.Valid then some time else none

/-- Reads a date, or a date, one character of any kind, and a time.  A date alone is midnight. -/
def readDateTime? (s : String) : Option (Date × Time) := do
  let s := s.toList
  if s.length < 7 then none
  let n ← dateLength s
  let date ← readDate? (s.take n)
  let rest := s.drop n
  if rest.isEmpty then return (date, .midnight)
  let time ← readTime? (rest.drop 1)
  return (date, time)

end Phrasebook.Calendar
