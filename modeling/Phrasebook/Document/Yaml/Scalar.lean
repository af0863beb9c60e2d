/-
  The texts of YAML scalars: plain, in quotation marks, and in blocks.

  A scalar may go on over several lines.  In plain and quoted scalars the breaks
  between two lines are folded: a single one becomes a space, and of several the
  first is dropped.
-/
import Phrasebook.Document.Yaml.Mark
import Phrasebook.Text.Hex

set_option autoImplicit false

namespace Phrasebook.Yaml

/-- What stands for the breaks between two lines of a scalar. -/
def fold : List Char → List Char
  | [] => []
  | first :: more =>
    (if first ≠ '\n' then [first] else if more.isEmpty then [' '] else []) ++ more

/-- The breaks among some marks. -/
def breaksOf (s : List Mark) : List Char := (s.map Mark.char).filter isBreak

/-! ## Plain scalars -/

/-- Whether a character ends a plain scalar, with what follows it.  Inside brackets there are more
such characters than outside. -/
def endsPlain (inFlow : Bool) (c : Char) (next : Option Char) : Bool :=
  isGap c || (inFlow && ",?[]\x7b\x7d".contains c) ||
    (c = ':' && match next with
      | none => true
      | some d => isGap d || (inFlow && ",[]\x7b\x7d".contains d))

/-- Whether a plain scalar can begin here. -/
def startsPlain (inFlow : Bool) : List Mark → Bool
  | [] => false
  | m :: rest =>
    if m.char = '-' then !atGap rest
    else if m.char = '?' || m.char = ':' then !inFlow && !atGap rest
    else !isGap m.char && !",[]\x7b\x7d#&*!|>'\"%@\x60".contains m.char

/-- The characters in front that belong to a plain scalar, up to a gap. -/
def plainRun (inFlow : Bool) : List Mark → List Char × List Mark
  | [] => ([], [])
  | m :: rest =>
    if endsPlain inFlow m.char (peek rest) then ([], m :: rest)
    else
      let (run, rest) := plainRun inFlow rest
      (m.char :: run, rest)

/-- The runs of a plain scalar, joined by what stands for the gaps between them.  Outside of
brackets a line belongs to it only if it begins at a least column. -/
def plainRuns (inFlow : Bool) (least : Nat) : Nat → List Mark → List Char × List Mark
  | 0, s => ([], s)
  | fuel + 1, s =>
    let (run, rest) := plainRun inFlow s
    let gap := rest.takeWhile fun m => m.char = ' ' || isBreak m.char
    let next := rest.drop gap.length
    let onward := match next with
      | [] => false
      | m :: _ => !gap.isEmpty && m.char ≠ '#' && (inFlow || least ≤ m.column) &&
          !(atDocumentMark next && !(breaksOf gap).isEmpty)
    if run.isEmpty || !onward then (run, next)
    else
      match plainRuns inFlow least fuel next with
      | ([], next) => (run, next)
      | (more, next) =>
        let filler := match breaksOf gap with
          | [] => gap.map Mark.char
          | breaks => fold breaks
        (run ++ filler ++ more, next)

/-- Reads a plain scalar. -/
def plain (inFlow : Bool) (least : Nat) (s : List Mark) : String × List Mark :=
  let (text, rest) := plainRuns inFlow least s.length s
  (String.ofList text, rest)

/-! ## Quoted scalars -/

/-- The character that a letter behind a backslash stands for. -/
def escaped? : Char → Option Char
  | '0' => some '\x00'
  | 'a' => some '\x07'
  | 'b' => some '\x08'
  | 't' => some '\t'
  | '\t' => some '\t'
  | 'n' => some '\n'
  | 'v' => some '\x0b'
  | 'f' => some '\x0c'
  | 'r' => some '\r'
  | 'e' => some '\x1b'
  | ' ' => some ' '
  | '"' => some '"'
  | '\\' => some '\\'
  | '/' => some '/'
  | 'N' => some '\x85'
  | '_' => some '\xa0'
  | 'L' => some '\u2028'
  | 'P' => some '\u2029'
  | _ => none

/-- How many hexadecimal digits follow a letter behind a backslash. -/
def hexLength? : Char → Option Nat
  | 'x' => some 2
  | 'u' => some 4
  | 'U' => some 8
  | _ => none

/-- The character with a code. -/
def charOfCode? (code : Nat) : Option Char :=
  if code.isValidChar then some (Char.ofNat code) else none

/-- What stands behind a backslash: the characters that it means, and how many it is long.  A break
means nothing by itself, and takes the space at the front of the next line with it. -/
def escape? (s : List Mark) : Option (List Char × Nat) := do
  let c ← peek s
  if isBreak c then
    let gap := s.takeWhile (isGap ·.char)
    return ((breaksOf gap).drop 1, gap.length)
  match hexLength? c with
  | some n =>
    let digits := (s.drop 1).take n |>.map Mark.char
    let code ← if digits.length = n then Text.ofHex? digits else none
    return ([← charOfCode? code], n + 1)
  | none => return ([← escaped? c], 1)

/-- What stands for the gap at the front of a part of a quoted scalar, and how long the gap is. -/
def quotedGap (s : List Mark) : List Char × Nat :=
  let gap := s.takeWhile (isGap ·.char)
  match breaksOf gap with
  | [] => (gap.map Mark.char, gap.length)
  | breaks => (fold breaks, gap.length)

/-- The next piece of a quoted scalar: what it means and how long it is, or nothing if the closing
mark stands here.  In single marks a mark that is written twice stands for one; in double marks a
backslash begins an escape. -/
def quotedPiece? (mark : Char) (s : List Mark) : Option (Option (List Char) × Nat) := do
  let c ← peek s
  if c = mark then
    if mark = '\'' && peek (s.drop 1) = some '\'' then return (some ['\''], 2)
    return (none, 1)
  if mark = '"' && c = '\\' then
    let (chars, length) ← escape? (s.drop 1)
    return (some chars, length + 1)
  if isGap c then
    let (filler, length) := quotedGap s
    return (some filler, length)
  return (some [c], 1)

/-- The characters of a quoted scalar, whose opening mark is read, up to its closing mark.  The
document must not end inside. -/
def quotedRun (mark : Char) : Nat → List Mark → Option (List Char × List Mark)
  | 0, _ => none
  | fuel + 1, s => do
    if atDocumentMark s then none
    let (piece, length) ← quotedPiece? mark s
    match piece with
    | none => return ([], s.drop length)
    | some chars =>
      let (more, rest) ← quotedRun mark fuel (s.drop length)
      return (chars ++ more, rest)

/-- Reads a quoted scalar, whose opening mark is read. -/
def quoted (mark : Char) : Reader String := fun s =>
  match quotedRun mark (s.length + 1) s with
  | some (text, rest) => .ok (String.ofList text, rest)
  | none => malformed

/-! ## Block scalars -/

/-- What becomes of the breaks at the end of a block scalar. -/
inductive Chomping where
  /-- none is kept -/
  | strip
  /-- one is kept -/
  | clip
  /-- all are kept -/
  | keep
  deriving DecidableEq, Repr, Inhabited

/-- The header of a block scalar. -/
structure BlockHeader where
  folded : Bool
  chomping : Chomping
  /-- how much deeper than the node around it the text is written, if that is said -/
  indent : Option Nat
  deriving DecidableEq, Repr, Inhabited

/-- The way of chomping that a sign asks for. -/
def chomping? (s : List Mark) : Option Chomping :=
  match peek s with
  | some '-' => some .strip
  | some '+' => some .keep
  | _ => none

/-- The depth that a digit asks for. -/
def indent? (s : List Mark) : Option Nat :=
  match peek s with
  | some c => if '1' ≤ c && c ≤ '9' then some (c.toNat - 48) else none
  | none => none

/-- Reads the header of a block scalar behind its indicator, to the end of its line: a sign and a
digit, in either order, and perhaps a comment after a space. -/
def blockHeader (folded : Bool) : Reader BlockHeader := fun s =>
  let first := chomping? s
  let s := if first.isSome then s.drop 1 else s
  let indent := indent? s
  let s := if indent.isSome then s.drop 1 else s
  let second := if first.isNone && indent.isSome then chomping? s else none
  let s := if second.isSome then s.drop 1 else s
  if atGap s && peek s ≠ some '\t' && atLineEnd s then
    let chomping := (first <|> second).getD .clip
    .ok (⟨folded, chomping, indent⟩, (s.dropWhile (!isBreak ·.char)).drop 1)
  else malformed

/-- The breaks of the empty lines in front, and what follows them: of the line after them the spaces
in front of a column are passed over. -/
def blankLines (column : Nat) : List Mark → List Char × List Mark
  | [] => ([], [])
  | m :: rest =>
    if isBreak m.char then
      let (breaks, next) := blankLines column rest
      (m.char :: breaks, next)
    else if m.char = ' ' && m.column < column then blankLines column rest
    else ([], m :: rest)

/-- The lines of a block scalar from a column on, behind some breaks: their text, the breaks at
their end, and what follows.  The first of these breaks is given apart. -/
def blockLines (folded : Bool) (column : Nat) :
    Nat → List Char → List Mark → (List Char × List Char × List Char) × List Mark
  | 0, breaks, s => (([], [], breaks), s)
  | _ + 1, breaks, [] => (([], [], breaks), [])
  | fuel + 1, breaks, m :: rest =>
    if m.column ≠ column then (([], [], breaks), m :: rest)
    else
      let line := (m :: rest).takeWhile (!isBreak ·.char)
      let after := (m :: rest).drop line.length
      let ending := (after.take 1).map Mark.char
      let (gap, next) := blankLines column (after.drop 1)
      let text := breaks ++ line.map Mark.char
      match next with
      | [] => ((text, ending, gap), [])
      | first :: _ =>
        if first.column ≠ column then ((text, ending, gap), next)
        else
          let isText (c : Char) : Bool := c ≠ ' ' && c ≠ '\t'
          let joint :=
            if folded && ending = ['\n'] && isText m.char && isText first.char then
              if gap.isEmpty then [' '] else []
            else ending
          let ((more, tail), next) := blockLines folded column fuel gap next
          ((text ++ joint ++ more, tail), next)

/-- The column of the text of a block scalar for which none is given: that of its first line, or of
the deepest empty line before it. -/
def deepest (gap : List Mark) : Nat :=
  gap.foldl (fun column m => if isBreak m.char then column else max column (m.column + 1)) 0

/-- Reads a block scalar behind its indicator.  Its text stands at a least column. -/
def block (folded : Bool) (least : Nat) : Reader String := fun s => do
  let (header, s) ← blockHeader folded s
  let least := max 1 least
  let (column, breaks, s) :=
    match header.indent with
    | some n =>
      let column := least + n - 1
      let (breaks, s) := blankLines column s
      (column, breaks, s)
    | none =>
      let gap := s.takeWhile fun (m : Mark) => m.char = ' ' || isBreak m.char
      (max least (deepest gap), breaksOf gap, s.drop gap.length)
  let ((text, ending, tail), rest) := blockLines folded column (s.length + 1) breaks s
  let kept := match header.chomping with
    | .strip => []
    | .clip => ending
    | .keep => ending ++ tail
  return (String.ofList (text ++ kept), rest)

end Phrasebook.Yaml
