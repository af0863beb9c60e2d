/-
  Reading YAML documents.

  The structure of a text is read first, and only a text that has one is given a
  value.  Keys mean what their scalars mean, so that a key may be a number or a
  truth value; a list or table cannot be one.  Of two entries with one key the
  later takes the place of the earlier.
-/
import Phrasebook.Document.Yaml.Node
import Phrasebook.Document.Yaml.Resolve

set_option autoImplicit false

namespace Phrasebook.Yaml

/-- The value of a node that is a key. -/
def keyOf : Node → Except DocumentFault Value
  | .plain text => resolve text
  | .text text => .ok (.text text)
  | .list _ | .table _ => malformed

mutual

/-- The value of a node. -/
def valueOf : Node → Except DocumentFault Value
  | .plain text => resolve text
  | .text text => .ok (.text text)
  | .list items => (valuesOf items).map .list
  | .table entries => (entriesOf entries).map Value.tableOf

/-- The values of nodes. -/
def valuesOf : List Node → Except DocumentFault (List Value)
  | [] => .ok []
  | item :: rest => do
    let first ← valueOf item
    let others ← valuesOf rest
    return first :: others

/-- The keys and values of the entries of a table. -/
def entriesOf : List (Node × Node) → Except DocumentFault (List (Value × Value))
  | [] => .ok []
  | (key, value) :: rest => do
    let key ← keyOf key
    let value ← valueOf value
    let others ← entriesOf rest
    return (key, value) :: others

end

/-- The value that a whole text denotes. -/
def read (source : String) : Except DocumentFault Value := do
  if source.toList.all isAllowed then valueOf (← document (marks source)) else malformed

end Phrasebook.Yaml
