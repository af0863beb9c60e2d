/-
  Wildcards: patterns for the names of files.

  A star stands for any run of characters, a question mark for any one, and a set
  in brackets for one that is in it, or, with an exclamation mark in front, for
  one that is not.  A set holds characters and ranges; a bracket that is never
  closed stands for itself.
-/
set_option autoImplicit false

namespace Phrasebook.Wildcard

/-- A piece of a pattern. -/
inductive Piece where
  | exactly (c : Char)
  | anyOne
  | anyRun
  | oneOf (negated : Bool) (ranges : List (Char × Char))
  deriving DecidableEq, Repr, Inhabited

/-! ## Reading -/

/-- Whether a text holds a character that is special in patterns. -/
def isPattern (s : String) : Bool := s.toList.any fun c => c = '*' || c = '?' || c = '['

/-- The ranges of a set.  A hyphen makes one if it has a character on either side. -/
def ranges : List Char → List (Char × Char)
  | low :: '-' :: high :: rest => (low, high) :: ranges rest
  | c :: rest => (c, c) :: ranges rest
  | [] => []

/-- The set whose opening bracket stands in front, and what follows its closing one.  A closing
bracket that comes first belongs to the set. -/
def readSet? (s : List Char) : Option (Piece × List Char) :=
  let negated := s.head? = some '!'
  let body := if negated then s.drop 1 else s
  let first := if body.head? = some ']' then 1 else 0
  let inner := (body.drop first).takeWhile (· ≠ ']')
  match (body.drop first).dropWhile (· ≠ ']') with
  | [] => none
  | _ :: rest => some (.oneOf negated (ranges (body.take first ++ inner)), rest)

theorem length_dropWhile_le (p : Char → Bool) (s : List Char) :
    (s.dropWhile p).length ≤ s.length := by
  induction s with
  | nil => simp
  | cons c rest ih =>
    simp only [List.dropWhile_cons]
    split
    · simp only [List.length_cons]; omega
    · exact Nat.le_refl _

theorem length_lt_of_readSet? {s rest : List Char} {piece : Piece}
    (h : readSet? s = some (piece, rest)) : rest.length < s.length := by
  simp only [readSet?] at h
  split at h
  · simp at h
  · rename_i hd
    simp only [Option.some.injEq, Prod.mk.injEq] at h
    obtain ⟨-, rfl⟩ := h
    have hlen := congrArg List.length hd
    have hle := length_dropWhile_le (fun c => decide (c ≠ ']'))
      ((if s.head? = some '!' then s.drop 1 else s).drop
        (if (if s.head? = some '!' then s.drop 1 else s).head? = some ']' then 1 else 0))
    have hs : (if s.head? = some '!' then s.drop 1 else s).length ≤ s.length := by
      split <;> simp
    simp only [List.length_cons] at hlen
    simp only [List.length_drop] at hle
    omega

/-- The pieces of a pattern. -/
def read : List Char → List Piece
  | [] => []
  | '*' :: rest => .anyRun :: read rest
  | '?' :: rest => .anyOne :: read rest
  | '[' :: rest =>
    match h : readSet? rest with
    | some (piece, after) =>
      have := length_lt_of_readSet? h
      piece :: read after
    | none => .exactly '[' :: read rest
  | c :: rest => .exactly c :: read rest
termination_by s => s.length

/-! ## Matching -/

/-- Whether a piece that stands for one character stands for this one. -/
def Piece.admits : Piece → Char → Bool
  | .exactly d, c => c = d
  | .oneOf negated ranges, c => ranges.any (fun r => r.1 ≤ c && c ≤ r.2) != negated
  | _, _ => true

/-- A text and all that is left of it when characters are taken away at its front. -/
def endings : List Char → List (List Char)
  | [] => [[]]
  | c :: rest => (c :: rest) :: endings rest

/-- Whether pieces, one after the other, stand for a whole text. -/
def fits : List Piece → List Char → Bool
  | [], s => s.isEmpty
  | .anyRun :: pieces, s => (endings s).any (fits pieces)
  | piece :: pieces, s =>
    match s with
    | [] => false
    | c :: rest => piece.admits c && fits pieces rest

/-- Whether a pattern stands for a name. -/
def matchesName (pattern name : String) : Bool := fits (read pattern.toList) name.toList

/-- A star stands for every text. -/
theorem fits_anyRun (s : List Char) : fits [.anyRun] s = true := by
  induction s with
  | nil => rfl
  | cons c rest ih =>
    simp only [fits, endings, List.any_cons, Bool.or_eq_true] at ih ⊢
    exact .inr ih

/-- A text that holds no special character stands for itself alone. -/
theorem fits_exactly (s t : List Char) : fits (s.map .exactly) t = decide (t = s) := by
  induction s generalizing t with
  | nil => cases t <;> simp [fits]
  | cons c rest ih =>
    cases t with
    | nil => simp [fits]
    | cons d others => simp [fits, Piece.admits, ih, Bool.decide_and]

end Phrasebook.Wildcard
