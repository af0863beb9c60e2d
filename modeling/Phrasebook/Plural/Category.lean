/-
  Plural categories: the names of the classes into which languages sort numbers.
-/
set_option autoImplicit false

namespace Phrasebook.Plural

/-- The categories. -/
inductive Category where
  | zero
  | one
  | two
  | few
  | many
  | other
  deriving DecidableEq, Repr, Inhabited

namespace Category

/-- The name of a category, as patterns write it. -/
def name : Category → String
  | .zero => "zero"
  | .one => "one"
  | .two => "two"
  | .few => "few"
  | .many => "many"
  | .other => "other"

/-- Every category. -/
def all : List Category := [.zero, .one, .two, .few, .many, .other]

/-- The category with a name. -/
def ofName? (s : String) : Option Category := all.find? (·.name == s)

theorem mem_all (c : Category) : c ∈ all := by cases c <;> decide

theorem ofName?_name (c : Category) : ofName? c.name = some c := by cases c <;> decide

end Category

end Phrasebook.Plural
