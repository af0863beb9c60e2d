/-
  Calendar dates and times of day.

  Dates follow the Gregorian calendar from the year 1 to the year 9999.  A time
  of day has microseconds and may carry its distance from universal time.  This
  file holds the types, the count of days that weekdays come from, and the text
  of both types; reading is in `Phrasebook.Calendar.Iso`.
-/
import Phrasebook.Number.Rounding

set_option autoImplicit false

namespace Phrasebook.Calendar

open Phrasebook.Number

/-! ## Dates -/

/-- A date. -/
structure Date where
  year : Nat
  month : Nat
  day : Nat
  deriving DecidableEq, Repr, Inhabited

/-- Every fourth year is a leap year, except full centuries that four does not divide. -/
def isLeap (year : Nat) : Bool := year % 4 == 0 && (year % 100 != 0 || year % 400 == 0)

/-- The number of days of a month. -/
def daysInMonth (year month : Nat) : Nat :=
  match month with
  | 2 => if isLeap year then 29 else 28
  | 4 | 6 | 9 | 11 => 30
  | _ => 31

/-- The number of days of the given months of a year. -/
def daysOfMonths (year months : Nat) : Nat :=
  (List.range months).foldl (fun n i => n + daysInMonth year (i + 1)) 0

/-- The number of days before the first of January of a year, counted from the year 1. -/
def daysBeforeYear (year : Nat) : Nat :=
  let y := year - 1
  y * 365 + y / 4 - y / 100 + y / 400

namespace Date

/-- The calendar has this date. -/
def Valid (d : Date) : Prop :=
  1 ≤ d.year ∧ d.year ≤ 9999 ∧ 1 ≤ d.month ∧ d.month ≤ 12 ∧
    1 ≤ d.day ∧ d.day ≤ daysInMonth d.year d.month

instance (d : Date) : Decidable d.Valid := by unfold Valid; infer_instance

/-- The number of a date, the first of January of the year 1 being 1. -/
def ordinal (d : Date) : Nat :=
  daysBeforeYear d.year + daysOfMonths d.year (d.month - 1) + d.day

/-- The day of the week, Monday being 0. -/
def weekday (d : Date) : Nat := (d.ordinal + 6) % 7

/-- The text of a date. -/
def text (d : Date) : String :=
  padded 4 d.year ++ "-" ++ padded 2 d.month ++ "-" ++ padded 2 d.day

end Date

/-! ## Times -/

/-- A distance from universal time in microseconds. -/
structure Offset where
  microseconds : Int
  deriving DecidableEq, Repr, Inhabited

/-- A time of day. -/
structure Time where
  hour : Nat
  minute : Nat
  second : Nat
  microsecond : Nat
  offset : Option Offset
  deriving DecidableEq, Repr, Inhabited

/-- Midnight, with no distance from universal time given. -/
def Time.midnight : Time := ⟨0, 0, 0, 0, none⟩

namespace Offset

/-- A day, in microseconds. -/
def day : Int := 86400000000

/-- An offset is shorter than a day. -/
def Valid (o : Offset) : Prop := -day < o.microseconds ∧ o.microseconds < day

instance (o : Offset) : Decidable o.Valid := by unfold Valid; infer_instance

/-- Universal time itself. -/
def utc : Offset := ⟨0⟩

/-- The whole seconds of an offset, rounded down. -/
def seconds (o : Offset) : Int := o.microseconds.fdiv 1000000

/-- The text of an offset: hours and minutes, and smaller parts as far as they are not zero. -/
def text (o : Offset) : String :=
  let n := o.microseconds.natAbs
  let micro := n % 1000000
  let second := n / 1000000 % 60
  let minute := n / 60000000 % 60
  let hour := n / 3600000000
  (if o.microseconds < 0 then "-" else "+") ++ padded 2 hour ++ ":" ++ padded 2 minute ++
    (if second = 0 ∧ micro = 0 then "" else ":" ++ padded 2 second) ++
    (if micro = 0 then "" else "." ++ padded 6 micro)

end Offset

namespace Time

/-- The fields are in range. -/
def Valid (t : Time) : Prop :=
  t.hour < 24 ∧ t.minute < 60 ∧ t.second < 60 ∧ t.microsecond < 1000000 ∧
    ∀ o ∈ t.offset, o.Valid

instance (t : Time) : Decidable t.Valid := by unfold Valid; infer_instance

/-- The text of a time.  A fraction of a second is written only if there is one. -/
def text (t : Time) : String :=
  padded 2 t.hour ++ ":" ++ padded 2 t.minute ++ ":" ++ padded 2 t.second ++
    (if t.microsecond = 0 then "" else "." ++ padded 6 t.microsecond) ++
    (match t.offset with
      | some o => o.text
      | none => "")

end Time

end Phrasebook.Calendar
