/-
  YAML nodes: the structure of a document, before its plain scalars mean anything.

  Outside of brackets structure comes from columns: the items of a list begin with
  a hyphen in one column, the keys of a table stand in one column, and what
  belongs to an item or key is written deeper.  A list that is the value of a key
  may also stand in the column of the key.  A key and its colon share a line.
-/
import Phrasebook.Document.Yaml.Scalar

set_option autoImplicit false

namespace Phrasebook.Yaml

/-- A node of a document. -/
inductive Node where
  /-- a scalar without quotation marks, whose value depends on its text -/
  | plain (text : String)
  | text (text : String)
  | list (items : List Node)
  | table (entries : List (Node × Node))
  deriving Repr, Inhabited

/-- The node that is not written. -/
def Node.empty : Node := .plain ""

/-- The longest key, in characters. -/
def longestKey : Nat := 1024

/-- Whether a colon makes a key of what began at a mark. -/
def isKeyOf (start colon : Mark) : Bool :=
  start.line = colon.line && colon.column ≤ start.column + longestKey

/-- Reads a scalar that is not written as a block. -/
def scalar (inFlow : Bool) (least : Nat) : Reader Node := fun s =>
  match peek s with
  | some '"' => (quoted '"' (s.drop 1)).map fun (text, rest) => (.text text, rest)
  | some '\'' => (quoted '\'' (s.drop 1)).map fun (text, rest) => (.text text, rest)
  | _ =>
    if startsPlain inFlow s then
      let (text, rest) := plain inFlow least s
      .ok (.plain text, rest)
    else malformed

/-! ## Inside brackets -/

/-- The node in front of a colon, a comma or a closing bracket: none is written. -/
def atFlowEnd (s : List Mark) : Bool :=
  match peek (skip s) with
  | some c => c = ',' || c = ']' || c = '\x7d'
  | none => false

mutual

/-- Reads a node inside brackets, where columns do not count. -/
def flowNode : Nat → Reader Node
  | 0, _ => malformed
  | fuel + 1, s =>
    let s := skip s
    if atDocumentMark s then malformed
    else
      match peek s with
      | some '[' => (flowItems fuel (s.drop 1)).map fun (items, rest) => (.list items, rest)
      | some '\x7b' =>
        (flowEntries fuel (s.drop 1)).map fun (entries, rest) => (.table entries, rest)
      | _ => scalar true 0 s

/-- Reads the node behind a colon, if there is one. -/
def flowValue : Nat → Reader Node
  | 0, _ => malformed
  | fuel + 1, s => if atFlowEnd s then .ok (.empty, s) else flowNode fuel s

/-- Reads a node and, if it is a key, its value. -/
def flowEntry : Nat → Reader (Node × Option Node)
  | 0, _ => malformed
  | fuel + 1, s => do
    let start := skip s
    let (key, rest) ← flowNode fuel start
    match start, skip rest with
    | first :: _, colon :: after =>
      if colon.char ≠ ':' then return ((key, none), rest)
      else if isKeyOf first colon then
        let (value, rest) ← flowValue fuel after
        return ((key, some value), rest)
      else malformed
    | _, _ => malformed

/-- Reads the items of a list up to its closing bracket.  A key with a value is a table of one
entry. -/
def flowItems : Nat → Reader (List Node)
  | 0, _ => malformed
  | fuel + 1, s =>
    if peek (skip s) = some ']' then .ok ([], (skip s).drop 1)
    else do
      let ((key, value), rest) ← flowEntry fuel s
      let item := match value with
        | some value => .table [(key, value)]
        | none => key
      let rest := skip rest
      match peek rest with
      | some ',' => do
        let (others, rest) ← flowItems fuel (rest.drop 1)
        return (item :: others, rest)
      | some ']' => return ([item], rest.drop 1)
      | _ => malformed

/-- Reads the entries of a table up to its closing brace. -/
def flowEntries : Nat → Reader (List (Node × Node))
  | 0, _ => malformed
  | fuel + 1, s =>
    if peek (skip s) = some '\x7d' then .ok ([], (skip s).drop 1)
    else do
      let ((key, value), rest) ← flowEntry fuel s
      let entry := (key, value.getD .empty)
      let rest := skip rest
      match peek rest with
      | some ',' => do
        let (others, rest) ← flowEntries fuel (rest.drop 1)
        return (entry :: others, rest)
      | some '\x7d' => return ([entry], rest.drop 1)
      | _ => malformed

end

/-! ## Outside of brackets -/

/-- What is known in front of a node. -/
structure Site where
  /-- the least column of the node -/
  least : Nat
  /-- the line of the token in front -/
  line : Nat
  /-- whether a list or table may begin on this line -/
  fresh : Bool
  /-- whether a list may stand one column before the least one -/
  hanging : Bool
  deriving DecidableEq, Repr, Inhabited

/-- Reads a scalar, or brackets, after which the line may only hold a colon or a comment. -/
def flowItem (fuel least : Nat) : Reader Node := fun s => do
  match peek s with
  | some '[' | some '\x7b' => closed (← flowNode fuel s)
  | some '"' | some '\'' => closed (← scalar false least s)
  | _ => scalar false least s
where
  /-- Refuses what must not follow a closing mark. -/
  closed (result : Node × List Mark) : Except DocumentFault (Node × List Mark) :=
    if atLineEnd result.2 || atIndicator ':' (skipSpaces result.2) then .ok result else malformed

mutual

/-- Reads the node at a site; what stands before its least column does not belong to it. -/
def blockNode : Nat → Site → Reader Node
  | 0, _, _ => malformed
  | fuel + 1, site, s =>
    let s := skip s
    match s with
    | [] => .ok (.empty, [])
    | first :: rest =>
      let fresh := site.fresh || first.line ≠ site.line
      let isItem := atIndicator '-' s
      if atDocumentMark s then .ok (.empty, s)
      else if first.column < site.least then
        if site.hanging && first.column + 1 = site.least && isItem then
          (blockItems fuel first.column s).map fun (items, rest) => (.list items, rest)
        else .ok (.empty, s)
      else if isItem then
        if fresh then
          (blockItems fuel first.column s).map fun (items, rest) => (.list items, rest)
        else malformed
      else if first.char = '|' || first.char = '>' then
        (block (first.char = '>') site.least rest).map fun (text, rest) => (.text text, rest)
      else do
        let (node, after) ← flowItem fuel site.least s
        match skipSpaces after with
        | [] => return (node, [])
        | colon :: value =>
          if atIndicator ':' (colon :: value) && isKeyOf first colon then
            if fresh then
              let (entries, rest) ← blockEntries fuel first.column node colon.line value
              return (.table entries, rest)
            else malformed
          else return (node, after)

/-- Reads the items of a list whose hyphens stand in a column, from a hyphen on. -/
def blockItems : Nat → Nat → Reader (List Node)
  | 0, _, _ => malformed
  | _ + 1, _, [] => malformed
  | fuel + 1, column, hyphen :: rest => do
    let (item, rest) ← blockNode fuel ⟨column + 1, hyphen.line, true, false⟩ rest
    let rest := skip rest
    if atIndicator '-' rest && rest.head?.all (·.column = column) then
      let (others, rest) ← blockItems fuel column rest
      return (item :: others, rest)
    else return ([item], rest)

/-- Reads the entries of a table whose keys stand in a column, from behind the colon of a key on. -/
def blockEntries : Nat → Nat → Node → Nat → Reader (List (Node × Node))
  | 0, _, _, _, _ => malformed
  | fuel + 1, column, key, line, s => do
    let (value, rest) ← blockNode fuel ⟨column + 1, line, false, true⟩ s
    let rest := skip rest
    match rest with
    | [] => return ([(key, value)], [])
    | first :: _ =>
      if atDocumentMark rest || first.column < column then return ([(key, value)], rest)
      else if first.column = column && !atIndicator '-' rest then
        let (next, after) ← flowItem fuel (column + 1) rest
        match skipSpaces after with
        | [] => malformed
        | colon :: s =>
          if atIndicator ':' (colon :: s) && isKeyOf first colon then
            let (others, rest) ← blockEntries fuel column next colon.line s
            return ((key, value) :: others, rest)
          else malformed
      else malformed

end

/-! ## Documents -/

/-- Whether a document begins (with hyphens) or ends (with points) here. -/
def atMarkOf (c : Char) (s : List Mark) : Bool := atDocumentMark s && peek s = some c

/-- Reads the one document of a text.  It may be marked at its beginning and end; a text without any
node holds the empty one. -/
def document (s : List Mark) : Except DocumentFault Node := do
  let s := skip s
  let fuel := 4 * s.length + 4
  let (node, rest) ←
    match s with
    | [] => pure (Node.empty, [])
    | first :: _ =>
      if atMarkOf '-' s then blockNode fuel ⟨0, first.line, false, false⟩ (s.drop 3)
      else if atMarkOf '.' s then malformed
      else blockNode fuel ⟨0, first.line, true, false⟩ s
  let rest := skip rest
  let rest := if atMarkOf '.' rest then skip (rest.drop 3) else rest
  if rest.isEmpty then return node else malformed

end Phrasebook.Yaml
