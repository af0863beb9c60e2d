/-
  Values that a caller passes to a message or stores in a bundle.

  A value is a plain datum: nothing, a truth value, a number, a text, a date or
  a time, or a list or a table of further values.  Every value has a text, which
  a bare argument shows, and a shown form, which appears inside lists and in
  error messages: texts in quotation marks, and numbers, dates and times of the
  less common kinds with the name of their kind.
-/
import Phrasebook.Calendar
import Phrasebook.Number.Numeric
import Phrasebook.Text.Quoted

set_option autoImplicit false

namespace Phrasebook

open Phrasebook.Number Phrasebook.Calendar

/-- A plain datum. -/
inductive Value where
  | null
  | bool (b : Bool)
  | number (n : Numeric)
  | text (s : String)
  | date (d : Date)
  | dateTime (d : Date) (t : Time)
  | time (t : Time)
  | list (items : List Value)
  | table (entries : List (Value × Value))
  deriving Repr, Inhabited

namespace Value

/-- The name of a value's kind, as messages give it. -/
def kindName : Value → String
  | .null => "NoneType"
  | .bool _ => "bool"
  | .number (.int _) => "int"
  | .number (.float _) => "float"
  | .number (.decimal _) => "Decimal"
  | .text _ => "str"
  | .date _ => "date"
  | .dateTime _ _ => "datetime"
  | .time _ => "time"
  | .list _ => "list"
  | .table _ => "dict"

/-! ## Shown form -/

/-- A truth value. -/
def boolText (b : Bool) : String := if b then "True" else "False"

/-- The fields of a date, separated by commas. -/
def dateFields (d : Date) : String :=
  toString d.year ++ ", " ++ toString d.month ++ ", " ++ toString d.day

/-- A distance from universal time in its shown form: whole days, seconds and microseconds, each
only if it is not zero, and the first of them alone negative. -/
def offsetShown (o : Offset) : String :=
  if o.microseconds = 0 then "datetime.timezone.utc"
  else
    let days := o.microseconds.fdiv Offset.day
    let rest := (o.microseconds.fmod Offset.day).natAbs
    let parts :=
      (if days = 0 then [] else ["days=" ++ toString days]) ++
      (if rest / 1000000 = 0 then [] else ["seconds=" ++ toString (rest / 1000000)]) ++
      (if rest % 1000000 = 0 then [] else ["microseconds=" ++ toString (rest % 1000000)])
    "datetime.timezone(datetime.timedelta(" ++ ", ".intercalate parts ++ "))"

/-- The fields of a time, separated by commas: hour and minute always, the rest as far as it is
not zero. -/
def timeFields (t : Time) : String :=
  toString t.hour ++ ", " ++ toString t.minute ++
    (if t.second = 0 ∧ t.microsecond = 0 then "" else ", " ++ toString t.second) ++
    (if t.microsecond = 0 then "" else ", " ++ toString t.microsecond) ++
    (match t.offset with
      | some o => ", tzinfo=" ++ offsetShown o
      | none => "")

mutual

/-- The form of a value inside a list or a message. -/
def shown : Value → Except Fault String
  | .null => .ok "None"
  | .bool b => .ok (boolText b)
  | .number (.decimal d) => .ok ("Decimal('" ++ d.text ++ "')")
  | .number n => n.text
  | .text s => .ok (Text.quoted s)
  | .date d => .ok ("datetime.date(" ++ dateFields d ++ ")")
  | .dateTime d t => .ok ("datetime.datetime(" ++ dateFields d ++ ", " ++ timeFields t ++ ")")
  | .time t => .ok ("datetime.time(" ++ timeFields t ++ ")")
  | .list items => do
    let parts ← shownItems items
    return "[" ++ ", ".intercalate parts ++ "]"
  | .table entries => do
    let parts ← shownEntries entries
    return "\x7b" ++ ", ".intercalate parts ++ "\x7d"

/-- The shown forms of several values. -/
def shownItems : List Value → Except Fault (List String)
  | [] => .ok []
  | v :: rest => do
    let first ← shown v
    let others ← shownItems rest
    return first :: others

/-- The shown forms of the entries of a table. -/
def shownEntries : List (Value × Value) → Except Fault (List String)
  | [] => .ok []
  | (k, v) :: rest => do
    let key ← shown k
    let value ← shown v
    let others ← shownEntries rest
    return (key ++ ": " ++ value) :: others

end

/-! ## Text -/

/-- The text of a value, as a message shows it. -/
def toText : Value → Except Fault String
  | .number n => n.text
  | .text s => .ok s
  | .date d => .ok d.text
  | .dateTime d t => .ok (d.text ++ " " ++ t.text)
  | .time t => .ok t.text
  | v => v.shown

/-! ## Tables -/

/-- Whether two values are the same key of a table.  Numbers of every kind and truth values are
compared by what they are worth, whatever their kind, a truth value being worth 0 or 1. -/
def sameKey : Value → Value → Bool
  | .null, .null => true
  | .text a, .text b => a == b
  | .date a, .date b => a == b
  | .dateTime a s, .dateTime b t => a == b && s == t
  | .time a, .time b => a == b
  | a, b =>
    match worth? a, worth? b with
    | some m, some n => m.equals n
    | _, _ => false
where
  /-- What a number or a truth value is worth. -/
  worth? : Value → Option Numeric
    | .bool b => some (.int (if b then 1 else 0))
    | .number n => some n
    | _ => none

/-- Sets a key of a table.  A key that is there keeps its place and takes the new value. -/
def insertEntry (key value : Value) : List (Value × Value) → List (Value × Value)
  | [] => [(key, value)]
  | (k, v) :: rest =>
    if sameKey k key then (k, value) :: rest else (k, v) :: insertEntry key value rest

/-- A table of entries given in order, of which a later one with the same key wins. -/
def tableOf (entries : List (Value × Value)) : Value :=
  .table (entries.foldl (fun t e => insertEntry e.1 e.2 t) [])

end Value

end Phrasebook
