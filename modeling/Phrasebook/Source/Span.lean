/-
  Spans: where in a text something stands.

  A span gives the first character, the one behind the last, and the line and
  column of the first.  A span that ends before it starts, or has no line or
  column, cannot be built; `Span.make?` says which condition a set of numbers
  fails first.
-/
set_option autoImplicit false

namespace Phrasebook.Source

/-- A place in a text. -/
structure Span where
  start : Nat
  stop : Nat
  line : Nat
  column : Nat
  start_le_stop : start ≤ stop
  line_pos : 1 ≤ line
  column_pos : 1 ≤ column
  deriving DecidableEq, Repr

instance : Inhabited Span := ⟨⟨0, 0, 1, 1, Nat.le_refl 0, Nat.le_refl 1, Nat.le_refl 1⟩⟩

/-- The conditions on a span, in the order in which they are tested. -/
inductive SpanFault where
  | negativeStart (start : Int)
  | stopBeforeStart (stop start : Int)
  | lineBelowOne (line : Int)
  | columnBelowOne (column : Int)
  deriving DecidableEq, Repr, Inhabited

/-- What is wrong with the numbers of a span. -/
def SpanFault.message : SpanFault → String
  | .negativeStart start => "SourceSpan.start must be >= 0, got " ++ toString start
  | .stopBeforeStart stop start =>
    "SourceSpan.end (" ++ toString stop ++ ") must be >= start (" ++ toString start ++ ")"
  | .lineBelowOne line => "SourceSpan.line must be >= 1 (1-indexed), got " ++ toString line
  | .columnBelowOne column =>
    "SourceSpan.column must be >= 1 (1-indexed), got " ++ toString column

/-- A span of four numbers, if they meet the conditions. -/
def Span.make? (start stop line column : Int) : Except SpanFault Span :=
  if _ : start < 0 then .error (.negativeStart start)
  else if _ : stop < start then .error (.stopBeforeStart stop start)
  else if _ : line < 1 then .error (.lineBelowOne line)
  else if _ : column < 1 then .error (.columnBelowOne column)
  else .ok ⟨start.toNat, stop.toNat, line.toNat, column.toNat, by omega, by omega, by omega⟩

end Phrasebook.Source
