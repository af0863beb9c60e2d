/-
  Patterns for dates and times.

  In a pattern a run of one letter stands for a field of a date or a time, and
  the length of the run for how it is written.  Text between single quotation
  marks stands for itself, and so does every character that is no letter.
-/
import Phrasebook.Calendar

set_option autoImplicit false

namespace Phrasebook.Calendar

open Phrasebook.Number

/-! ## Reading a pattern -/

/-- A part of a pattern: text, or a field with its width. -/
inductive Part where
  | literal (text : List Char)
  | field (letter : Char) (width : Nat)
  deriving DecidableEq, Repr, Inhabited

/-- Adds a character of text behind parts that are given last first. -/
def pushLiteral (c : Char) : List Part → List Part
  | .literal text :: rest => .literal (text ++ [c]) :: rest
  | parts => .literal [c] :: parts

/-- Adds a letter of a field behind parts that are given last first. -/
def pushField (letter : Char) : List Part → List Part
  | .field before width :: rest =>
    if before = letter then .field letter (width + 1) :: rest
    else .field letter 1 :: .field before width :: rest
  | parts => .field letter 1 :: parts

/-- Reads the rest of a pattern, `quoted` telling whether it begins inside quotation marks. -/
def readParts (quoted : Bool) (read : List Part) : List Char → List Part
  | [] => read.reverse
  | c :: rest =>
    if c = '\'' then readParts (!quoted) read rest
    else if quoted || !c.isAlpha then readParts quoted (pushLiteral c read) rest
    else readParts quoted (pushField c read) rest

/-- The parts of a pattern. -/
def parts (pattern : String) : List Part := readParts false [] pattern.toList

/-! ## Names -/

/-- The words of a language for the parts of a date and a time. -/
structure Names where
  monthsShort : List String
  months : List String
  /-- Monday first -/
  weekdays : List String
  morning : String
  afternoon : String
  /-- the long and the short name of universal time -/
  utcLong : String
  utcShort : String
  /-- the word in front of another distance from universal time -/
  gmt : String
  deriving DecidableEq, Repr, Inhabited

/-! ## Writing -/

/-- The distance of a zone from universal time: hours, rounded down, and the minutes that are left,
with a separator between them. -/
def zoneText (separator : String) (o : Offset) : String :=
  let hours := o.seconds.fdiv 3600
  let minutes := (o.seconds.fmod 3600).toNat / 60
  (if hours < 0 then "-" else "+") ++ padded 2 hours.natAbs ++ separator ++ padded 2 minutes

/-- The zone of a time; one without a zone is in universal time. -/
def zoneName (names : Names) (width : Nat) (offset : Option Offset) : String :=
  let offset := offset.getD .utc
  let long := 4 ≤ width
  if offset = .utc then if long then names.utcLong else names.utcShort
  else if long then names.gmt ++ zoneText ":" offset
  else zoneText "" offset

/-- A field of a date.  A letter that stands for none has no text. -/
def dateField (names : Names) (d : Date) (letter : Char) (width : Nat) : String :=
  match letter with
  | 'y' => if width = 2 then padded 2 (d.year % 100) else padded width d.year
  | 'M' =>
    if width ≤ 2 then padded width d.month
    else (if width = 3 then names.monthsShort else names.months).getD (d.month - 1) ""
  | 'd' => padded width d.day
  | 'E' => names.weekdays.getD d.weekday ""
  | _ => ""

/-- The hour on a clock with twelve hours. -/
def hourOfTwelve (hour : Nat) : Nat := if hour % 12 = 0 then 12 else hour % 12

/-- A field of a time.  A letter that stands for none has no text. -/
def timeField (names : Names) (t : Time) (letter : Char) (width : Nat) : String :=
  match letter with
  | 'h' => padded width (hourOfTwelve t.hour)
  | 'H' => padded width t.hour
  | 'm' => padded width t.minute
  | 's' => padded width t.second
  | 'a' => if t.hour < 12 then names.morning else names.afternoon
  | 'z' => zoneName names width t.offset
  | _ => ""

/-- Writes a pattern with a given text for each field. -/
def write (field : Char → Nat → String) (pattern : String) : String :=
  String.join <| (parts pattern).map fun
    | .literal text => String.ofList text
    | .field letter width => field letter width

end Phrasebook.Calendar
