/-
  Places in a derivation.

  A place is a derivation that lacks some pieces, at the top or in the body of a
  branch at any depth.  It has a text on its left and one on its right, which do
  not depend on the pieces that are put there (`charsOf_fill`).

  Pieces that fit everything may take the place of an argument: what stands in
  front of an opening brace fits whatever comes instead.  The message changes in
  one node, where the argument stood (`exists_slot`).  Only the bodies of a key
  that a later branch of the same argument has too are in no message, and what
  stands in such a body does not show (`Place.Shadowed`).
-/
import Phrasebook.Proofs.Pattern.Image
import Phrasebook.Proofs.Pattern.Pieces
import Phrasebook.Proofs.Render.Slot

set_option autoImplicit false

namespace Phrasebook.Pattern

/-! ## Branches without a body -/

/-- The branches of an argument, without the body of one of them. -/
structure Gap where
  earlier : List (BranchHead × List Piece)
  head : BranchHead
  later : List (BranchHead × List Piece)

namespace Gap

/-- The branches with a body for the one that lacks it. -/
def fill (gap : Gap) (body : List Piece) : List (BranchHead × List Piece) :=
  gap.earlier ++ (gap.head, body) :: gap.later

/-- The text in front of the body, with its opening brace. -/
def left (gap : Gap) : List Char := branchChars gap.earlier ++ (gap.head.chars ++ ['{'])

/-- The text behind the body, from its closing brace on. -/
def right (gap : Gap) : List Char := '}' :: branchChars gap.later

theorem branchChars_fill (gap : Gap) (body : List Piece) :
    branchChars (gap.fill body) = gap.left ++ (charsOf body ++ gap.right) := by
  rw [fill, branchChars_append, branchChars, left, right]
  simp

theorem left_ne_nil (gap : Gap) : gap.left ≠ [] := by
  simp [left]

theorem fill_ne_nil (gap : Gap) (body : List Piece) : gap.fill body ≠ [] := by
  simp [fill]

/-- What the branches begin with does not depend on the body. -/
theorem stops_fill {p : Char → Bool} (gap : Gap) {body : List Piece}
    (h : Stops p (branchChars (gap.fill body))) (body' : List Piece) :
    Stops p (branchChars (gap.fill body')) := by
  obtain ⟨c, rest, hleft⟩ := List.exists_cons_of_ne_nil gap.left_ne_nil
  rw [branchChars_fill, hleft] at h ⊢
  exact stops_cons.2 (stops_cons.1 h)

theorem branchesFit_fill {gap : Gap} {body : List Piece} :
    BranchesFit (gap.fill body) ↔
      BranchesFit gap.earlier ∧ FitAll (some '}') body ∧ BranchesFit gap.later := by
  rw [fill, branchesFit_append, BranchesFit]

theorem branchDepth_fill (gap : Gap) (body : List Piece) :
    branchDepth (gap.fill body) =
      max (branchDepth gap.earlier) (max (depthOf body) (branchDepth gap.later)) := by
  rw [fill, branchDepth_append, branchDepth]

theorem branchPairs_fill (gap : Gap) (body : List Piece) :
    branchPairs (gap.fill body) =
      branchPairs gap.earlier ++ (gap.head.source.key, messageOf body) ::
        branchPairs gap.later := by
  rw [fill, branchPairs_append, branchPairs, messageOf]

/-- Whether a later branch has the same key. -/
def Shadowed (gap : Gap) : Prop :=
  gap.head.source.key ∈ Entries.keys (branchPairs gap.later)

/-- A body whose key comes again is not in the table. -/
theorem tabulate_of_shadowed {gap : Gap} (h : gap.Shadowed) (body body' : List Piece) :
    Entries.tabulate (branchPairs (gap.fill body)) =
      Entries.tabulate (branchPairs (gap.fill body')) := by
  rw [branchPairs_fill, branchPairs_fill]
  exact Entries.tabulate_exchange_of_mem h _ _ _

/-- Any other body is in one entry of the table. -/
theorem exists_tabulate {gap : Gap} (h : ¬ gap.Shadowed) :
    ∃ before after, ∀ body, Entries.tabulate (branchPairs (gap.fill body)) =
      before ++ (gap.head.source.key, messageOf body) :: after := by
  obtain ⟨before, after, htable⟩ :=
    Entries.exists_tabulate_exchange h (branchPairs gap.earlier)
  refine ⟨before, after, ?_⟩
  intro body
  rw [branchPairs_fill, htable]

end Gap

/-! ## Arguments without a body -/

/-- An argument with branches that lacks the body of one of them. -/
inductive Opening where
  | plural (head : Head) (lead : Blanks) (kind : PluralKind) (trail : Blanks)
      (offset : Option OffsetSource) (gap : Gap) (last : Blanks)
  | select (head : Head) (lead trail : Blanks) (gap : Gap) (last : Blanks)

namespace Opening

/-- The argument with a body for the branch that lacks it. -/
def source : Opening → List Piece → ArgumentSource
  | .plural head lead kind trail offset gap last, body =>
    .plural head lead kind trail offset (gap.fill body) last
  | .select head lead trail gap last, body => .select head lead trail (gap.fill body) last

/-- The branches without the body. -/
def gap : Opening → Gap
  | .plural _ _ _ _ _ gap _ => gap
  | .select _ _ _ gap _ => gap

/-- The text of the argument in front of the body. -/
def left : Opening → List Char
  | .plural head lead kind trail offset gap _ =>
    head.chars ++ ',' :: (lead.chars ++ (kind.name.toList ++ (trail.chars ++
      ',' :: (offsetChars offset ++ gap.left))))
  | .select head lead trail gap _ =>
    head.chars ++ ',' :: (lead.chars ++ (selectName.toList ++ (trail.chars ++ ',' :: gap.left)))

/-- The text of the argument behind the body. -/
def right : Opening → List Char
  | .plural _ _ _ _ _ gap last => gap.right ++ (last.chars ++ ['}'])
  | .select _ _ _ gap last => gap.right ++ (last.chars ++ ['}'])

theorem chars_source (opening : Opening) (body : List Piece) :
    (opening.source body).chars = opening.left ++ (charsOf body ++ opening.right) := by
  cases opening with
  | plural head lead kind trail offset gap last =>
    rw [source, ArgumentSource.chars, Gap.branchChars_fill, left, right]
    simp
  | select head lead trail gap last =>
    rw [source, ArgumentSource.chars, Gap.branchChars_fill, left, right]
    simp

/-- A body that fits may be exchanged for another one. -/
theorem fits_source {opening : Opening} {body body' : List Piece}
    (h : (opening.source body).Fits)
    (hbody : FitAll (some '}') body → FitAll (some '}') body') :
    (opening.source body').Fits := by
  cases opening with
  | plural head lead kind trail offset gap last =>
    obtain ⟨-, hstop, hfit⟩ := h
    obtain ⟨hearlier, hgap, hlater⟩ := Gap.branchesFit_fill.1 hfit
    exact ⟨gap.fill_ne_nil body', fun hsome => gap.stops_fill (hstop hsome) body',
      Gap.branchesFit_fill.2 ⟨hearlier, hbody hgap, hlater⟩⟩
  | select head lead trail gap last =>
    obtain ⟨-, hfit⟩ := h
    obtain ⟨hearlier, hgap, hlater⟩ := Gap.branchesFit_fill.1 hfit
    exact ⟨gap.fill_ne_nil body', Gap.branchesFit_fill.2 ⟨hearlier, hbody hgap, hlater⟩⟩

theorem depth_source_le {opening : Opening} {body body' : List Piece}
    (h : depthOf body' ≤ depthOf body) :
    (opening.source body').depth ≤ (opening.source body).depth := by
  cases opening with
  | plural head lead kind trail offset gap last =>
    rw [source, source, ArgumentSource.depth, ArgumentSource.depth, gap.branchDepth_fill,
      gap.branchDepth_fill]
    omega
  | select head lead trail gap last =>
    rw [source, source, ArgumentSource.depth, ArgumentSource.depth, gap.branchDepth_fill,
      gap.branchDepth_fill]
    omega

theorem node_of_shadowed {opening : Opening} (h : opening.gap.Shadowed) (body body' : List Piece) :
    (opening.source body).node = (opening.source body').node := by
  have htable := Gap.tabulate_of_shadowed h body body'
  cases opening with
  | plural head lead kind trail offset gap last =>
    exact congrArg (fun t => Node.plural kind head.word.name _ ⟨t⟩) htable
  | select head lead trail gap last =>
    exact congrArg (fun t => Node.select head.word.name ⟨t⟩) htable

theorem exists_selector {opening : Opening} (h : ¬ opening.gap.Shadowed) :
    ∃ selector : Selector, ∀ body,
      (opening.source body).node = selector.node (messageOf body) := by
  obtain ⟨before, after, htable⟩ := Gap.exists_tabulate h
  cases opening with
  | plural head lead kind trail offset gap last =>
    refine ⟨.plural kind head.word.name ((offset.map (·.amount.value)).getD 0) before
      gap.head.source.key after, ?_⟩
    intro body
    exact congrArg (fun t => Node.plural kind head.word.name _ ⟨t⟩) (htable body)
  | select head lead trail gap last =>
    refine ⟨.select head.word.name before gap.head.source.key after, ?_⟩
    intro body
    exact congrArg (fun t => Node.select head.word.name ⟨t⟩) (htable body)

end Opening

/-! ## Derivations without some pieces -/

/-- A derivation that lacks some pieces. -/
inductive Place where
  | here (before after : List Piece)
  | inside (before : List Piece) (opening : Opening) (inner : Place) (after : List Piece)

namespace Place

/-- The derivation with pieces for those that it lacks. -/
def fill : Place → List Piece → List Piece
  | .here before after, pieces => before ++ (pieces ++ after)
  | .inside before opening inner after, pieces =>
    before ++ .argument (opening.source (inner.fill pieces)) :: after

/-- The text on the left of the place. -/
def left : Place → List Char
  | .here before _ => charsOf before
  | .inside before opening inner _ => charsOf before ++ (opening.left ++ inner.left)

/-- The text on the right of the place. -/
def right : Place → List Char
  | .here _ after => charsOf after
  | .inside _ opening inner after => inner.right ++ (opening.right ++ charsOf after)

theorem charsOf_fill (place : Place) (pieces : List Piece) :
    charsOf (place.fill pieces) = place.left ++ (charsOf pieces ++ place.right) := by
  induction place with
  | here before after => rw [fill, charsOf_append, charsOf_append, left, right]
  | inside before opening inner after ih =>
    rw [fill, charsOf_append, charsOf, Piece.chars, Opening.chars_source, ih, left, right]
    simp

/-- Whether what stands at the place is in a body that is in no message. -/
def Shadowed : Place → Prop
  | .here _ _ => False
  | .inside _ opening inner _ => opening.gap.Shadowed ∨ inner.Shadowed

theorem head?_charsOf_argument (source : ArgumentSource) (after : List Piece)
    (next : Option Char) : (charsOf (.argument source :: after)).head?.or next = some '{' := by
  cases source <;> rfl

/-- Pieces that fit everything may stand where an argument stood. -/
theorem fitAll_fill {place : Place} {source : ArgumentSource} {pieces : List Piece}
    {next : Option Char} (h : FitAll next (place.fill [.argument source]))
    (hpieces : ∀ next, FitAll next pieces) : FitAll next (place.fill pieces) := by
  induction place generalizing next with
  | here before after =>
    rw [fill, List.singleton_append, fitAll_append, head?_charsOf_argument] at h
    rw [fill, fitAll_append, fitAll_append]
    exact ⟨h.1.of_quotable rfl _, hpieces _, h.2.2⟩
  | inside before opening inner after ih =>
    rw [fill, fitAll_append, head?_charsOf_argument] at h ⊢
    obtain ⟨hbefore, hargument, hafter⟩ := h
    exact ⟨hbefore, Opening.fits_source hargument ih, hafter⟩

theorem depthOf_fill_le {place : Place} {pieces others : List Piece}
    (h : depthOf others ≤ depthOf pieces) :
    depthOf (place.fill others) ≤ depthOf (place.fill pieces) := by
  induction place with
  | here before after =>
    rw [fill, fill, depthOf_append, depthOf_append, depthOf_append, depthOf_append]
    omega
  | inside before opening inner after ih =>
    have hargument : (opening.source (inner.fill others)).depth ≤
        (opening.source (inner.fill pieces)).depth := Opening.depth_source_le ih
    rw [fill, fill, depthOf_append, depthOf_append, depthOf, depthOf, Piece.depth, Piece.depth]
    omega

/-- An argument keeps what is in front of it apart from what is behind. -/
theorem messageOf_argument (before : List Piece) (source : ArgumentSource) (after : List Piece) :
    messageOf (before ++ .argument source :: after) =
      messageOf before ++ source.node :: messageOf after := by
  have hatoms : atomsOf (.argument source :: after) = .node source.node :: atomsOf after := rfl
  rw [messageOf, atomsOf_append, hatoms, ofAtoms_append_node source.isText_node]
  rfl

/-- What a derivation stands for has the atoms of its pieces. -/
theorem atoms_messageOf (pieces : List Piece) : atoms (messageOf pieces) = atomsOf pieces := by
  refine atoms_ofAtoms ?_
  intro node hnode
  obtain ⟨source, -, rfl⟩ := mem_atomsOf hnode
  exact source.isText_node

/-- What stands in a shadowed place does not show. -/
theorem messageOf_fill_of_shadowed {place : Place} (h : place.Shadowed)
    (pieces others : List Piece) :
    messageOf (place.fill pieces) = messageOf (place.fill others) := by
  induction place with
  | here before after => exact absurd h id
  | inside before opening inner after ih =>
    rw [fill, fill, messageOf_argument, messageOf_argument]
    by_cases hgap : opening.gap.Shadowed
    · rw [Opening.node_of_shadowed hgap]
    · obtain ⟨selector, hselector⟩ := Opening.exists_selector hgap
      rw [hselector, hselector, ih (h.resolve_left hgap)]

/-- Any other place is a slot of the message: whatever stands for a node there puts that node into
the slot. -/
theorem exists_slot {place : Place} (h : ¬ place.Shadowed) :
    ∃ slot : Slot, ∀ (pieces : List Piece) (node : Node), atomsOf pieces = node.atoms →
      messageOf (place.fill pieces) = slot.fill node := by
  induction place with
  | here before after =>
    refine ⟨.here (messageOf before) (messageOf after), ?_⟩
    intro pieces node hnode
    rw [Slot.fill, mergeText_eq, atoms_append, atoms_cons, atoms_messageOf, atoms_messageOf,
      ← hnode, messageOf, fill, atomsOf_append, atomsOf_append]
  | inside before opening inner after ih =>
    obtain ⟨selector, hselector⟩ := Opening.exists_selector fun hgap => h (.inl hgap)
    obtain ⟨slot, hslot⟩ := ih fun hinner => h (.inr hinner)
    refine ⟨.inside (messageOf before) selector slot (messageOf after), ?_⟩
    intro pieces node hnode
    rw [fill, messageOf_argument, hselector, hslot pieces node hnode, Slot.fill]

/-- A bare argument renders as a text does in its place, if that text is its value and has no
number sign. -/
theorem render_fill {place : Place} {pieces : List Piece} {head : Head} {s : String}
    {setting : Setting} (hatoms : atomsOf pieces = (Node.text s).atoms) (hpound : '#' ∉ s.toList)
    (hvalue : setting.value head.word.name = .ok (.text s)) :
    render setting (messageOf (place.fill pieces)) =
      render setting (messageOf (place.fill [.argument (.bare head)])) := by
  by_cases h : place.Shadowed
  · rw [messageOf_fill_of_shadowed h pieces]
  · obtain ⟨slot, hslot⟩ := exists_slot h
    rw [hslot pieces _ hatoms, hslot _ (.argument head.word.name) rfl, render, render]
    exact (renderNodes_fill_congr (renderNode_argument_eq_text hvalue hpound) slot none).symm

end Place

end Phrasebook.Pattern
