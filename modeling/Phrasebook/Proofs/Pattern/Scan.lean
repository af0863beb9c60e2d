/-
  The two loops of the grammar, one step at a time.

  The rule for messages collects nodes as they come and merges their texts in
  the end.  Told by atoms, it takes one character, one apostrophe with what
  belongs to it, or one argument, and goes on with what is left: `scan` is that
  reading, the equations below are its steps, and `messageOver_run` is its
  connection with the rule itself.

  The rule for branches skips the blanks in front of each key, so blanks in
  front of the whole list do not matter to it (`branchesFrom_append`).
-/
import Phrasebook.Proofs.Message.Atoms
import Phrasebook.Proofs.Pattern.Token

set_option autoImplicit false

namespace Phrasebook.Pattern

open Phrasebook.Text

/-! ## The steps of the loop over nodes -/

section Nodes

variable {limit : Int} {body : Option (Reader Message)} {inBranch : Bool}

theorem nodesFrom_nil (read : List Node) :
    nodesFrom limit body inBranch read [] = .ok (read.reverse, []) := by
  rw [nodesFrom]

theorem nodesFrom_close (read : List Node) (s : List Char) :
    nodesFrom limit body inBranch read ('}' :: s) =
      if inBranch then .ok (read.reverse, '}' :: s)
      else .error (.malformed .unexpectedCloseBrace ('}' :: s)) := by
  rw [nodesFrom]
  simp

theorem nodesFrom_open (read : List Node) (s : List Char) :
    nodesFrom limit body inBranch read ('{' :: s) =
      match argument limit body ('{' :: s) with
      | .error e => .error e
      | .ok (node, left) => nodesFrom limit body inBranch (node :: read) left := by
  rw [nodesFrom]
  simp only [Char.reduceEq, ↓reduceIte]
  split <;> simp_all

theorem nodesFrom_apostrophe (read : List Node) (s : List Char) :
    nodesFrom limit body inBranch read ('\'' :: s) =
      nodesFrom limit body inBranch (.text (quotation s).1 :: read) (quotation s).2 := by
  rw [nodesFrom]
  simp

theorem nodesFrom_plain (read : List Node) {c : Char} (hc : isSpecial c = false)
    (s : List Char) :
    nodesFrom limit body inBranch read (c :: s) =
      nodesFrom limit body inBranch
        (.text (String.ofList (c :: s.takeWhile (!isSpecial ·))) :: read)
        (s.dropWhile (!isSpecial ·)) := by
  have hne : c ≠ '}' ∧ c ≠ '{' ∧ c ≠ '\'' := by
    simp only [isSpecial, Bool.or_eq_false_iff, beq_eq_false_iff_ne] at hc
    exact ⟨hc.1.2, hc.1.1, hc.2⟩
  rw [nodesFrom]
  simp [hne.1, hne.2.1, hne.2.2]

/-- Every character begins one of the steps above. -/
theorem char_cases (c : Char) : c = '}' ∨ c = '{' ∨ c = '\'' ∨ isSpecial c = false := by
  by_cases h₁ : c = '}'
  · exact .inl h₁
  by_cases h₂ : c = '{'
  · exact .inr (.inl h₂)
  by_cases h₃ : c = '\''
  · exact .inr (.inr (.inl h₃))
  · exact .inr (.inr (.inr (by simp [isSpecial, h₁, h₂, h₃])))

/-- The nodes read before stay in front, whatever comes. -/
theorem nodesFrom_eq_map (read : List Node) (s : List Char) :
    nodesFrom limit body inBranch read s =
      (nodesFrom limit body inBranch [] s).map fun r => (read.reverse ++ r.1, r.2) := by
  induction hn : s.length using Nat.strongRecOn generalizing s read with
  | ind n ih =>
    -- one step reads a node and leaves a shorter text, for which the claim is known twice over
    have hstep : ∀ (node : Node) (left : List Char), left.length < n →
        nodesFrom limit body inBranch (node :: read) left =
          (nodesFrom limit body inBranch [node] left).map fun r => (read.reverse ++ r.1, r.2) := by
      intro node left hlt
      rw [ih _ hlt (node :: read) left rfl, ih _ hlt [node] left rfl]
      cases nodesFrom limit body inBranch [] left with
      | error e => rfl
      | ok r => simp [Except.map]
    cases s with
    | nil => rw [nodesFrom_nil, nodesFrom_nil]; simp [Except.map]
    | cons c rest =>
      rw [List.length_cons] at hn
      rcases char_cases c with rfl | rfl | rfl | hc
      · rw [nodesFrom_close, nodesFrom_close]
        cases inBranch <;> simp [Except.map]
      · rw [nodesFrom_open, nodesFrom_open]
        cases ha : argument limit body ('{' :: rest) with
        | error e => rfl
        | ok r =>
          have hlen := (argument_suffix ha).length_le
          rw [List.drop_succ_cons, List.drop_zero] at hlen
          exact hstep r.1 r.2 (by omega)
      · rw [nodesFrom_apostrophe, nodesFrom_apostrophe]
        have hlen := (quotation_suffix rest).length_le
        exact hstep _ _ (by omega)
      · rw [nodesFrom_plain read hc, nodesFrom_plain [] hc]
        have hlen := (List.dropWhile_suffix (!isSpecial ·) (l := rest)).length_le
        exact hstep _ _ (by omega)

/-! ## The loop told by atoms -/

/-- Puts atoms in front of those that were read. -/
def putAtoms (as : List Atom) (r : Except Fault (List Atom × List Char)) :
    Except Fault (List Atom × List Char) :=
  r.map fun r => (as ++ r.1, r.2)

@[simp] theorem putAtoms_ok (as bs : List Atom) (rest : List Char) :
    putAtoms as (.ok (bs, rest)) = .ok (as ++ bs, rest) := rfl

theorem putAtoms_append (as bs : List Atom) (r : Except Fault (List Atom × List Char)) :
    putAtoms (as ++ bs) r = putAtoms as (putAtoms bs r) := by
  cases r with
  | error e => rfl
  | ok r => simp [putAtoms, Except.map]

theorem putAtoms_eq_ok {as bs : List Atom} {r : Except Fault (List Atom × List Char)}
    {rest : List Char} (h : putAtoms as r = .ok (bs, rest)) :
    ∃ cs, r = .ok (cs, rest) ∧ as ++ cs = bs := by
  obtain ⟨⟨cs, rest'⟩, hr, hpair⟩ := map_eq_ok.1 h
  cases hpair
  exact ⟨cs, hr, rfl⟩

variable (limit body inBranch)

/-- The atoms of the message at the front of a text, and what is left of the text. -/
def scan (s : List Char) : Except Fault (List Atom × List Char) :=
  (nodesFrom limit body inBranch [] s).map fun r => (atoms r.1, r.2)

variable {limit body inBranch}

/-- A node that was read puts its atoms in front. -/
theorem map_atoms_nodesFrom_singleton (node : Node) (s : List Char) :
    ((nodesFrom limit body inBranch [node] s).map fun r => (atoms r.1, r.2)) =
      putAtoms node.atoms (scan limit body inBranch s) := by
  rw [nodesFrom_eq_map, scan]
  cases nodesFrom limit body inBranch [] s with
  | error e => rfl
  | ok r => simp [Except.map, putAtoms, atoms_cons]

theorem scan_nil : scan limit body inBranch [] = .ok ([], []) := by
  rw [scan, nodesFrom_nil]
  rfl

theorem scan_close (s : List Char) :
    scan limit body inBranch ('}' :: s) =
      if inBranch then .ok ([], '}' :: s)
      else .error (.malformed .unexpectedCloseBrace ('}' :: s)) := by
  rw [scan, nodesFrom_close]
  cases inBranch <;> rfl

theorem scan_open_of_ok {s left : List Char} {node : Node}
    (h : argument limit body ('{' :: s) = .ok (node, left)) :
    scan limit body inBranch ('{' :: s) = putAtoms node.atoms (scan limit body inBranch left) := by
  rw [scan, nodesFrom_open, h, ← map_atoms_nodesFrom_singleton]

theorem scan_open_of_error {s : List Char} {e : Fault}
    (h : argument limit body ('{' :: s) = .error e) :
    scan limit body inBranch ('{' :: s) = .error e := by
  rw [scan, nodesFrom_open, h]
  rfl

variable (limit body inBranch) in
theorem scan_apostrophe (s : List Char) :
    scan limit body inBranch ('\'' :: s) =
      putAtoms ((quotation s).1.toList.map .char) (scan limit body inBranch (quotation s).2) := by
  rw [scan, nodesFrom_apostrophe, map_atoms_nodesFrom_singleton]
  rfl

/-- A run of literal characters is taken at once. -/
theorem scan_run {c : Char} (hc : isSpecial c = false) (s : List Char) :
    scan limit body inBranch (c :: s) =
      putAtoms ((c :: s.takeWhile (!isSpecial ·)).map .char)
        (scan limit body inBranch (s.dropWhile (!isSpecial ·))) := by
  rw [scan, nodesFrom_plain [] hc, map_atoms_nodesFrom_singleton, Node.atoms,
    String.toList_ofList]

/-- It may as well be taken character by character. -/
theorem scan_plain {c : Char} (hc : isSpecial c = false) (s : List Char) :
    scan limit body inBranch (c :: s) = putAtoms [.char c] (scan limit body inBranch s) := by
  rw [scan_run hc, List.map_cons, ← List.singleton_append, putAtoms_append]
  congr 1
  cases s with
  | nil => simp [scan_nil]
  | cons d rest =>
    by_cases hd : isSpecial d = false
    · rw [List.takeWhile_cons_of_pos (by simp [hd]), List.dropWhile_cons_of_pos (by simp [hd])]
      exact (scan_run hd rest).symm
    · rw [List.takeWhile_cons_of_neg (by simpa using hd),
        List.dropWhile_cons_of_neg (by simpa using hd)]
      cases hs : scan limit body inBranch (d :: rest) <;> rfl

/-- The rule for messages reads the atoms and makes a message of them. -/
theorem messageOver_run (s : List Char) :
    (messageOver limit body inBranch).run s =
      (scan limit body inBranch s).map fun r => (ofAtoms r.1, r.2) := by
  have hrun : (messageOver limit body inBranch).run s =
      (nodesFrom limit body inBranch [] s).map fun r => (mergeText r.1, r.2) := rfl
  rw [hrun, scan]
  cases nodesFrom limit body inBranch [] s with
  | error e => rfl
  | ok r => simp [Except.map, mergeText_eq]

end Nodes

/-! ## Blanks in front of branches -/

theorem skipBlanks_append (opened : List Char) (b : Blanks) (s : List Char) :
    skipBlanks opened (b.chars ++ s) = skipBlanks opened s := by
  have hdrop : skipBlank (b.chars ++ s) = skipBlank s :=
    List.dropWhile_append_of_pos b.blank
  simp only [skipBlanks, hdrop]

/-- One step of the loop over branches. -/
theorem branchesFrom_step (body : Reader Message) (typeName : String) (opened : List Char)
    (read : List (BranchKey × Message)) (s : List Char) :
    branchesFrom body typeName opened read s =
      match skipBlanks opened s with
      | .error e => .error e
      | .ok s₁ =>
        if s₁.head? = some '}' then
          if read.isEmpty then .error (.malformed (.emptyBranchList typeName) s₁)
          else .ok (Branches.ofPairs read.reverse, s₁)
        else
          match branch body opened s₁ with
          | .error e => .error e
          | .ok (pair, s₂) => branchesFrom body typeName opened (pair :: read) s₂ := by
  rw [branchesFrom]
  split
  · rename_i e h
    rw [h]
  · rename_i s₁ h
    rw [h]
    dsimp only
    split
    · rfl
    · split <;> rename_i h' <;> rw [h']

theorem branchesFrom_append (body : Reader Message) (typeName : String) (opened : List Char)
    (read : List (BranchKey × Message)) (b : Blanks) (s : List Char) :
    branchesFrom body typeName opened read (b.chars ++ s) =
      branchesFrom body typeName opened read s := by
  rw [branchesFrom_step, skipBlanks_append, ← branchesFrom_step]

end Phrasebook.Pattern
