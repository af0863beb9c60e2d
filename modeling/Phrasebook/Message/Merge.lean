/-
  Merging text: neighbouring texts become one, and empty texts vanish.

  A pattern is read piece by piece, so the nodes of a message first come with
  several texts in a row.  `mergeText` puts them together.  Its result has no
  empty text and no two texts side by side, and all other nodes in order.
-/
import Phrasebook.Message

set_option autoImplicit false

namespace Phrasebook

/-- Adds a node behind nodes that are merged already and given last first. -/
def pushNode (merged : List Node) (node : Node) : List Node :=
  match node with
  | .text value =>
    if value = "" then merged
    else match merged with
      | .text before :: rest => .text (before ++ value) :: rest
      | _ => .text value :: merged
  | _ => node :: merged

/-- Joins neighbouring texts and drops empty ones. -/
def mergeText (nodes : List Node) : Message := (nodes.foldl pushNode []).reverse

end Phrasebook
