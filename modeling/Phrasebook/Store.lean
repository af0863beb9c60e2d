/-
  Stores: the values of a phrase book by locale and key.

  A caller hands over nested tables; a store keeps their leaves under dotted
  paths.  The same locale may be written with hyphens or underscores, and a value
  that is stored later under the same path takes the place of the earlier one.

  A lookup joins a scope and a key to a path.  It never fails: a path under which
  nothing is stored is an answer of its own.
-/
import Phrasebook.Entries
import Phrasebook.Locale.Code
import Phrasebook.Text.Split
import Phrasebook.Value

set_option autoImplicit false

namespace Phrasebook

open Phrasebook.Number

/-! ## Leaves of nested tables -/

/-- The mark between the parts of a path. -/
def pathSeparator : String := "."

/-- The path of an entry of the table at a path.  The empty path is that of the outermost table. -/
def extendPath (path name : String) : String :=
  if path = "" then name else path ++ pathSeparator ++ name

mutual

/-- The leaves at and below a value that has a path, in order. -/
def leavesAt (path : String) : Value → Except Fault (List (String × Value))
  | .table entries => leaves path entries
  | v => .ok [(path, v)]

/-- The leaves of a table, in order, each with its path.  Whatever is no table is a leaf. -/
def leaves (path : String) : List (Value × Value) → Except Fault (List (String × Value))
  | [] => .ok []
  | (key, v) :: rest => do
    let name ← key.toText
    let here ← leavesAt (extendPath path name) v
    let others ← leaves path rest
    return here ++ others

end

/-- The leaves of a table by path.  Of two leaves with one path the later wins, in the place of the
earlier. -/
def flatten (path : String) (entries : List (Value × Value)) :
    Except Fault (List (String × Value)) := do
  return Entries.ofPairs (← leaves path entries)

/-! ## Keys of a lookup -/

/-- Where a key is looked for. -/
inductive Scope where
  | outermost
  | path (text : String)
  | parts (names : List String)
  deriving DecidableEq, Repr, Inhabited

/-- The parts of a scope, in front of those of a key. -/
def Scope.names : Scope → List String
  | .outermost => []
  | .path text => [text]
  | .parts names => names

/-- The path that a scope and a key name.  Empty parts do not count; the others are joined by the
separator, which in the result, wherever it stands, becomes the one of paths. -/
def joinKey (scope : Scope) (key separator : String) : String :=
  let joined := separator.intercalate ((scope.names ++ [key]).filter (· ≠ ""))
  if separator = pathSeparator then joined
  else String.ofList (Text.replace separator.toList pathSeparator.toList joined.toList)

/-- What a lookup finds. -/
inductive Lookup where
  | found (v : Value)
  | missing (locale key : String)
  deriving Repr, Inhabited

/-! ## Stores -/

/-- Values by locale and path, in the order in which they were first stored. -/
structure Store where
  tables : List (String × List (String × Value)) := []
  deriving Repr, Inhabited

namespace Store

/-- The store that holds nothing. -/
def empty : Store := {}

/-- The locales for which something was stored, be it an empty table. -/
def locales (s : Store) : List String := Entries.keys s.tables

/-- Whether anything was ever stored. -/
def isInitialized (s : Store) : Bool := !s.tables.isEmpty

/-- The values of a locale. -/
def table? (s : Store) (locale : String) : Option (List (String × Value)) :=
  Entries.find? (Locale.normalize locale) s.tables

/-- The value of a path in a locale. -/
def value? (s : Store) (locale path : String) : Option Value :=
  s.table? locale >>= Entries.find? path

/-- Adds values by path to those of a locale. -/
def insert (s : Store) (locale : String) (values : List (String × Value)) : Store :=
  let before := (s.table? locale).getD []
  ⟨Entries.insert (Locale.normalize locale) (Entries.insertAll before values) s.tables⟩

/-- Adds the leaves of a table to the values of a locale. -/
def store (s : Store) (locale : String) (entries : List (Value × Value)) : Except Fault Store := do
  return s.insert locale (← flatten "" entries)

/-- Looks up a key. -/
def resolve (s : Store) (locale key : String) (scope : Scope := .outermost)
    (separator : String := pathSeparator) : Lookup :=
  let path := joinKey scope key separator
  match s.value? locale path with
  | some v => .found v
  | none => .missing locale path

/-! ## What the operations do to the view `value?` -/

@[simp] theorem value?_empty (locale path : String) : empty.value? locale path = none := rfl

/-- Storing for one locale leaves the values of all others. -/
theorem table?_insert_of_ne (s : Store) {locale other : String}
    (h : Locale.normalize other ≠ Locale.normalize locale) (values : List (String × Value)) :
    (s.insert locale values).table? other = s.table? other :=
  Entries.find?_insert_of_ne h _ _

/-- Locales that differ in hyphens and underscores alone are one locale. -/
theorem table?_normalize (s : Store) (locale : String) :
    s.table? (Locale.normalize locale) = s.table? locale := by
  simp only [table?, Locale.normalize_normalize]

/-- A lookup answers with a value or with the locale and path that it looked for. -/
theorem resolve_eq_missing_iff (s : Store) (locale key : String) (scope : Scope)
    (separator : String) :
    s.resolve locale key scope separator = .missing locale (joinKey scope key separator) ↔
      s.value? locale (joinKey scope key separator) = none := by
  simp only [resolve]
  cases s.value? locale (joinKey scope key separator) <;> simp

end Store

end Phrasebook
