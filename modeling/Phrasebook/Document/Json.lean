/-
  Reading JSON documents.

  Members of an object keep their order; of two with one name the later takes the
  place of the earlier.  Numbers with a point or an exponent are binary floating
  point, all others are whole and of any size up to the most digits that are ever
  read.  `NaN`, `Infinity` and `-Infinity` are numbers too.
-/
import Phrasebook.Document.Fault
import Phrasebook.Number.Binary64
import Phrasebook.Text.Hex
import Phrasebook.Value

set_option autoImplicit false

namespace Phrasebook.Json

open Phrasebook.Number Phrasebook.Text

/-- Reads something at the front of a text and leaves what follows. -/
abbrev Reader (α : Type) : Type := List Char → Except DocumentFault (α × List Char)

/-- The text has not the form of a document. -/
def malformed {α : Type} : Except DocumentFault α := .error (.malformed .json)

/-- A character that may stand between the tokens of a document. -/
def isSpace (c : Char) : Bool := c = ' ' || c = '\t' || c = '\n' || c = '\r'

/-- Passes over the space in front of a token. -/
def skipSpace (s : List Char) : List Char := s.dropWhile isSpace

/-! ## Strings -/

/-- The character that a letter behind a backslash stands for. -/
def escaped? : Char → Option Char
  | '"' => some '"'
  | '\\' => some '\\'
  | '/' => some '/'
  | 'b' => some '\x08'
  | 'f' => some '\x0c'
  | 'n' => some '\n'
  | 'r' => some '\r'
  | 't' => some '\t'
  | _ => none

/-- The codes of the characters of a string whose opening mark is read.  A code that is given in
hexadecimal may be half of a pair. -/
def codes? : List Char → Option (List Nat × List Char)
  | [] => none
  | '"' :: rest => some ([], rest)
  | '\\' :: 'u' :: a :: b :: c :: d :: rest => do
    let code ← ofHex? [a, b, c, d]
    let (codes, rest) ← codes? rest
    return (code :: codes, rest)
  | '\\' :: c :: rest => do
    let c ← escaped? c
    let (codes, rest) ← codes? rest
    return (c.toNat :: codes, rest)
  | c :: rest => do
    if c < ' ' then none
    let (codes, rest) ← codes? rest
    return (c.toNat :: codes, rest)

/-- Whether a code is the first half of a pair. -/
def isHighHalf (code : Nat) : Bool := 0xD800 ≤ code && code < 0xDC00

/-- Whether a code is the second half of a pair. -/
def isLowHalf (code : Nat) : Bool := 0xDC00 ≤ code && code < 0xE000

/-- The characters of codes.  Two halves that follow each other make one character; a half that
stands alone is replaced. -/
def charsOfCodes : List Nat → List Char
  | [] => []
  | [code] => [one code]
  | high :: low :: rest =>
    if isHighHalf high && isLowHalf low then
      Char.ofNat (0x10000 + (high - 0xD800) * 0x400 + (low - 0xDC00)) :: charsOfCodes rest
    else one high :: charsOfCodes (low :: rest)
where
  one (code : Nat) : Char :=
    if isHighHalf code || isLowHalf code then '\ufffd' else Char.ofNat code

/-- Reads a string whose opening mark is read. -/
def string : Reader String := fun s =>
  match codes? s with
  | some (codes, rest) => .ok (String.ofList (charsOfCodes codes), rest)
  | none => malformed

/-! ## Numbers -/

/-- The digits in front of a text that begin a whole number: a zero alone, or a run that begins with
none. -/
def wholeDigits : List Char → List Char
  | '0' :: _ => ['0']
  | s => s.takeWhile isAsciiDigit

/-- The characters of a fraction, if there is one. -/
def fractionPart : List Char → List Char
  | '.' :: rest =>
    match rest.takeWhile isAsciiDigit with
    | [] => []
    | digits => '.' :: digits
  | _ => []

/-- The characters of an exponent, if there is one. -/
def exponentPart : List Char → List Char
  | c :: rest =>
    if c = 'e' || c = 'E' then
      let sign := rest.take (rest.length - (splitSign rest).2.length)
      match (splitSign rest).2.takeWhile isAsciiDigit with
      | [] => []
      | digits => c :: (sign ++ digits)
    else []
  | [] => []

/-- Reads a number. -/
def number : Reader Numeric := fun s =>
  let minus := s.takeWhile (· = '-') |>.take 1
  let whole := wholeDigits (s.drop minus.length)
  if whole.isEmpty then malformed
  else
    let s := s.drop (minus.length + whole.length)
    let fraction := fractionPart s
    let s := s.drop fraction.length
    let exponent := exponentPart s
    let s := s.drop exponent.length
    if fraction.isEmpty && exponent.isEmpty then
      match naturalOf whole with
      | .ok n => .ok (.int (if minus.isEmpty then n else -(n : Int)), s)
      | .error fault => .error (.number fault)
    else
      match Binary64.read? (String.ofList (minus ++ whole ++ fraction ++ exponent)) with
      | some x => .ok (.float x, s)
      | none => malformed

/-! ## Values -/

/-- The words that stand for values. -/
def words : List (List Char × Value) :=
  [("null".toList, .null), ("true".toList, .bool true), ("false".toList, .bool false),
   ("NaN".toList, .number (.float .nan)),
   ("Infinity".toList, .number (.float (.infinite false))),
   ("-Infinity".toList, .number (.float (.infinite true)))]

/-- Reads a word or a number. -/
def atom : Reader Value := fun s =>
  match words.findSome? fun (word, v) => (word.isPrefixOf? s).map (v, ·) with
  | some result => .ok result
  | none => (number s).map fun (n, rest) => (.number n, rest)

/-- Reads a mark that must stand here, and the space in front of it. -/
def expect (mark : Char) : Reader Unit := fun s =>
  match skipSpace s with
  | c :: rest => if c = mark then .ok ((), rest) else malformed
  | [] => malformed

mutual

/-- Reads a value.  Every step down takes from the fuel, and the length of the text is enough. -/
def value : Nat → Reader Value
  | 0, _ => malformed
  | fuel + 1, s =>
    match skipSpace s with
    | '"' :: rest => (string rest).map fun (text, rest) => (.text text, rest)
    | '[' :: rest =>
      match skipSpace rest with
      | ']' :: rest => .ok (.list [], rest)
      | rest => (items fuel rest).map fun (items, rest) => (.list items, rest)
    | '\x7b' :: rest =>
      match skipSpace rest with
      | '\x7d' :: rest => .ok (.table [], rest)
      | rest => (members fuel rest).map fun (members, rest) => (Value.tableOf members, rest)
    | rest => atom rest

/-- Reads the values of an array, of which there is at least one, and the closing bracket. -/
def items : Nat → Reader (List Value)
  | 0, _ => malformed
  | fuel + 1, s => do
    let (first, s) ← value fuel s
    match skipSpace s with
    | ',' :: s => do
      let (others, s) ← items fuel s
      return (first :: others, s)
    | ']' :: s => return ([first], s)
    | _ => malformed

/-- Reads the members of an object, of which there is at least one, and the closing brace. -/
def members : Nat → Reader (List (Value × Value))
  | 0, _ => malformed
  | fuel + 1, s => do
    let ((), s) ← expect '"' s
    let (name, s) ← string s
    let ((), s) ← expect ':' s
    let (v, s) ← value fuel s
    match skipSpace s with
    | ',' :: s => do
      let (others, s) ← members fuel s
      return ((.text name, v) :: others, s)
    | '\x7d' :: s => return ([(.text name, v)], s)
    | _ => malformed

end

/-- The value that a whole text denotes. -/
def read (source : String) : Except DocumentFault Value := do
  let s := source.toList
  let (v, rest) ← value (2 * s.length + 1) s
  if (skipSpace rest).isEmpty then return v else malformed

end Phrasebook.Json
