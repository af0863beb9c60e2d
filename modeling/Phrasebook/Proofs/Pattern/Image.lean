/-
  The messages that patterns stand for.

  What a derivation stands for is well-formed, by induction on the room that is
  left for open arguments.  For the way back every well-formed message is
  written out: an apostrophe doubled, a brace in a quotation of its own, every
  offset given, and a blank in front of every key, which keeps a key from
  going on the digits of an offset.  What is written so is a derivation of the
  message, and a derivation is read as what it stands for.
-/
import Phrasebook.Proofs.Message.WellFormed
import Phrasebook.Proofs.Pattern.Grammar

set_option autoImplicit false

namespace Phrasebook.Pattern

open Phrasebook.Text

/-! ## Words and numerals -/

theorem isWord_name (w : Word) : IsWord w.name := by
  refine ⟨?_, ?_⟩
  · intro hempty
    refine w.ne_nil ?_
    rw [← String.toList_ofList (l := w.chars)]
    exact congrArg String.toList hempty
  · intro c hc
    rw [Word.name, String.toList_ofList] at hc
    exact w.letters c hc

theorem exists_word {s : String} (h : IsWord s) : ∃ w : Word, w.name = s := by
  refine ⟨⟨s.toList, ?_, h.2⟩, String.ofList_toList⟩
  intro hnil
  exact h.1 (String.toList_eq_nil_iff.1 hnil)

theorem natOfDigits_eq_ofDigitChars (digits : List Char) :
    natOfDigits digits = Nat.ofDigitChars 10 digits 0 := by
  rw [Nat.ofDigitChars_eq_foldl]
  rfl

theorem natOfDigits_append_singleton (digits : List Char) (c : Char) :
    natOfDigits (digits ++ [c]) = 10 * natOfDigits digits + asciiDigitValue c := by
  rw [natOfDigits, List.foldl_append]
  rfl

/-- A number has no more places than its digits have. -/
theorem natOfDigits_lt {digits : List Char} (h : ∀ c ∈ digits, isAsciiDigit c = true) :
    natOfDigits digits < 10 ^ digits.length := by
  induction digits using List.reverseRecOn with
  | nil => decide
  | append_singleton digits c ih =>
    have hrest := ih fun d hd => h d (List.mem_append_left _ hd)
    have hc : isAsciiDigit c = true := h c (List.mem_append_right _ List.mem_cons_self)
    have hvalue : asciiDigitValue c < 10 := by
      simp only [isAsciiDigit, Bool.and_eq_true, decide_eq_true_eq, Char.le_def,
        UInt32.le_iff_toNat_le] at hc
      have hhigh : c.toNat ≤ 57 := hc.2
      rw [asciiDigitValue]
      omega
    rw [natOfDigits_append_singleton, List.length_append, List.length_singleton, Nat.pow_succ]
    omega

theorem natAbs_signedValue (negative : Bool) (digits : List Char) :
    (signedValue negative digits).natAbs = natOfDigits digits := by
  cases negative <;> simp [signedValue]

theorem isShort_value (m : Numeral) : IsShort m.value := by
  have hpos : 0 < Number.maxIntegerDigits := by decide
  rw [IsShort, Numeral.value, natAbs_signedValue, Nat.length_toDigits_le_iff (by decide) hpos]
  exact Nat.lt_of_lt_of_le (natOfDigits_lt m.decimal)
    (Nat.pow_le_pow_right (by decide) m.length_le)

theorem isAsciiDigit_of_isDigit {c : Char} (h : c.isDigit = true) : isAsciiDigit c = true := by
  simpa [Char.isDigit, isAsciiDigit, Char.le_def] using h

/-- A number with few enough digits is written by its decimal digits. -/
theorem exists_numeral {n : Int} (h : IsShort n) : ∃ m : Numeral, m.value = n := by
  refine ⟨⟨decide (n < 0), Nat.toDigits 10 n.natAbs, Nat.toDigits_ne_nil, ?_, h⟩, ?_⟩
  · intro c hc
    exact isAsciiDigit_of_isDigit (Nat.isDigit_of_mem_toDigits (by decide) (by decide) hc)
  · rw [Numeral.value, signedValue, natOfDigits_eq_ofDigitChars, Nat.ofDigitChars_ten_toDigits]
    split
    · rename_i hneg
      have hneg : n < 0 := of_decide_eq_true hneg
      omega
    · rename_i hpos
      have hpos : ¬ n < 0 := fun hlt => hpos (decide_eq_true hlt)
      omega

/-! ## What a derivation stands for is well-formed -/

theorem KeySource.wellFormed (source : KeySource) : source.key.WellFormed := by
  cases source with
  | word w => exact isWord_name w
  | exact n => exact isShort_value n

/-- Of the nodes of a message, those that are no texts are its arguments. -/
theorem mem_atomsOf {node : Node} {pieces : List Piece} (h : .node node ∈ atomsOf pieces) :
    ∃ source, .argument source ∈ pieces ∧ source.node = node := by
  induction pieces with
  | nil => cases h
  | cons piece rest ih =>
    rcases List.mem_append.1 h with h | h
    · cases piece with
      | argument source =>
        simp only [Piece.atoms, List.mem_singleton, Atom.node.injEq] at h
        exact ⟨source, List.mem_cons_self, h.symm⟩
      | _ => simp [Piece.atoms] at h
    · obtain ⟨source, hmem, hnode⟩ := ih h
      exact ⟨source, List.mem_cons_of_mem piece hmem, hnode⟩

theorem ArgumentSource.isText_node (source : ArgumentSource) : source.node.isText = false := by
  cases source <;> rfl

theorem normal_messageOf (pieces : List Piece) : Normal (messageOf pieces) := by
  refine normal_ofAtoms ?_
  intro node hnode
  obtain ⟨source, -, rfl⟩ := mem_atomsOf hnode
  exact source.isText_node

theorem fits_of_mem {next : Option Char} {source : ArgumentSource} {pieces : List Piece}
    (h : FitAll next pieces) (hmem : .argument source ∈ pieces) : source.Fits := by
  induction pieces with
  | nil => cases hmem
  | cons piece rest ih =>
    obtain ⟨hpiece, hrest⟩ := h
    rcases List.mem_cons.1 hmem with rfl | hmem
    · exact hpiece
    · exact ih hrest hmem

theorem depth_le_of_mem {piece : Piece} {pieces : List Piece} (hmem : piece ∈ pieces) :
    piece.depth ≤ depthOf pieces := by
  induction pieces with
  | nil => cases hmem
  | cons p rest ih =>
    rcases List.mem_cons.1 hmem with rfl | hmem
    · exact Nat.le_max_left _ _
    · exact Nat.le_trans (ih hmem) (Nat.le_max_right _ _)

/-- Every pair of a table of branches comes from a branch that fits and is no deeper than all. -/
theorem exists_branch_of_mem {e : BranchKey × Message} {branches : List (BranchHead × List Piece)}
    (hfit : BranchesFit branches) (h : e ∈ branchPairs branches) :
    ∃ (source : KeySource) (body : List Piece), e = (source.key, messageOf body) ∧
      FitAll (some '}') body ∧ depthOf body ≤ branchDepth branches := by
  induction branches with
  | nil => cases h
  | cons branch rest ih =>
    obtain ⟨head, body⟩ := branch
    obtain ⟨hbody, hrest⟩ := hfit
    rcases List.mem_cons.1 h with rfl | h
    · exact ⟨head.source, body, rfl, hbody, Nat.le_max_left _ _⟩
    · obtain ⟨source, b, he, hb, hdepth⟩ := ih hrest h
      exact ⟨source, b, he, hb, Nat.le_trans hdepth (Nat.le_max_right _ _)⟩

theorem properKeys_tabulate {branches : List (BranchHead × List Piece)} (hne : branches ≠ [])
    (hfit : BranchesFit branches) : ProperKeys (Entries.tabulate (branchPairs branches)) := by
  constructor
  · -- the key of the first branch is in the table
    intro hnil
    obtain ⟨⟨head, body⟩, rest, rfl⟩ := List.exists_cons_of_ne_nil hne
    have hkeys := Entries.keys_tabulate (branchPairs ((head, body) :: rest))
    rw [hnil, branchPairs] at hkeys
    simp [Entries.keys, List.eraseDups_cons] at hkeys
  · exact Entries.nodup_keys_tabulate _
  · intro key hkey
    rw [Entries.keys_tabulate, List.mem_eraseDups] at hkey
    obtain ⟨e, hmem, rfl⟩ := List.mem_map.1 hkey
    obtain ⟨source, body, rfl, -, -⟩ := exists_branch_of_mem hfit hmem
    exact source.wellFormed

/-- A message is well-formed if its arguments are. -/
theorem wellFormed_messageOf_of_arguments {room : Nat} {pieces : List Piece}
    (h : ∀ source, .argument source ∈ pieces → source.node.WellFormed room) :
    WellFormed room (messageOf pieces) := by
  refine ⟨normal_messageOf pieces, ?_⟩
  intro node hnode
  rcases mem_ofAtoms hnode with htext | hatom
  · cases node with
    | text value => exact .text room value
    | _ => cases htext
  · obtain ⟨source, hmem, rfl⟩ := mem_atomsOf hatom
    exact h source hmem

/-- What an argument stands for is well-formed. -/
theorem ArgumentSource.wellFormed_node {room : Nat} {source : ArgumentSource}
    (hfit : source.Fits) (hdepth : source.depth ≤ room) : source.node.WellFormed room := by
  induction room generalizing source with
  | zero => cases source <;> cases hdepth
  | succ room ih =>
    -- the bodies have room for one argument fewer
    have hbodies : ∀ branches : List (BranchHead × List Piece), BranchesFit branches →
        branchDepth branches ≤ room → ∀ e ∈ Entries.tabulate (branchPairs branches),
          WellFormed room e.2 := by
      rintro branches hbranches hroom ⟨key, nodes⟩ he
      have hpair := Entries.mem_of_find?_eq_some (Entries.mem_tabulate_iff.1 he)
      obtain ⟨_, body, heq, hbody, hle⟩ := exists_branch_of_mem hbranches hpair
      cases heq
      refine wellFormed_messageOf_of_arguments ?_
      intro inner hmem
      have hinner : inner.depth ≤ depthOf body := depth_le_of_mem hmem
      exact ih (fits_of_mem hbody hmem) (by omega)
    cases source with
    | bare head => exact .argument room (isWord_name head.word)
    | formatted head lead kind trail style =>
      refine .formatted room kind (isWord_name head.word) ?_
      intro s hs
      cases style with
      | none => cases hs
      | some source =>
        cases hs
        exact isWord_name source.word
    | plural head lead kind trail offset branches last =>
      obtain ⟨hne, -, hbranches⟩ := hfit
      have hroom : branchDepth branches ≤ room := Nat.le_of_succ_le_succ hdepth
      refine .plural kind (isWord_name head.word) ?_ (properKeys_tabulate hne hbranches)
        (fun e he => (hbodies branches hbranches hroom e he).normal)
        (fun e he => (hbodies branches hbranches hroom e he).nodes)
      cases offset with
      | none => exact isShort_zero
      | some source => exact isShort_value source.amount
    | select head lead trail branches last =>
      obtain ⟨hne, hbranches⟩ := hfit
      have hroom : branchDepth branches ≤ room := Nat.le_of_succ_le_succ hdepth
      exact .select (isWord_name head.word) (properKeys_tabulate hne hbranches)
        (fun e he => (hbodies branches hbranches hroom e he).normal)
        (fun e he => (hbodies branches hbranches hroom e he).nodes)

/-- A derivation stands for a well-formed message. -/
theorem wellFormed_messageOf {room : Nat} {next : Option Char} {pieces : List Piece}
    (hfit : FitAll next pieces) (hdepth : depthOf pieces ≤ room) :
    WellFormed room (messageOf pieces) := by
  refine wellFormed_messageOf_of_arguments ?_
  intro source hmem
  exact ArgumentSource.wellFormed_node (fits_of_mem hfit hmem)
    (Nat.le_trans (depth_le_of_mem hmem) hdepth)

/-! ## Writing a well-formed message -/

/-- One blank. -/
def Blanks.one : Blanks where
  chars := [' ']
  blank c hc := by
    rw [List.mem_singleton.1 hc]
    decide

/-- Pieces that may stand in front of everything, within a bound on nesting. -/
structure Closed (room : Nat) (pieces : List Piece) : Prop where
  fits : ∀ next, FitAll next pieces
  depth : depthOf pieces ≤ room

theorem closed_nil (room : Nat) : Closed room [] := ⟨fun _ => trivial, Nat.zero_le room⟩

theorem Closed.cons {room : Nat} {piece : Piece} {pieces : List Piece} (h : Closed room pieces)
    (hfit : ∀ next, piece.Fits next) (hdepth : piece.depth ≤ room) :
    Closed room (piece :: pieces) :=
  ⟨fun next => ⟨hfit _, h.fits next⟩, Nat.max_le.2 ⟨hdepth, h.depth⟩⟩

/-- A character as it is written to stand for itself: an apostrophe doubled, a brace in a quotation
of its own, and any other as it is. -/
def escapeChar (c : Char) : List Char :=
  if c = '\'' then ['\'', '\''] else if isQuotable c then ['\'', c, '\''] else [c]

/-- Every character is written by one piece, which fits everything. -/
theorem exists_piece_of_char (c : Char) :
    ∃ piece : Piece, piece.chars = escapeChar c ∧ piece.atoms = [.char c] ∧
      (∀ next, piece.Fits next) ∧ piece.depth = 0 := by
  by_cases hc : c = '\''
  · subst hc
    exact ⟨.doubled, rfl, rfl, fun _ => trivial, rfl⟩
  · cases hq : isQuotable c with
    | true =>
      have hcloses : '\'' ∉ [c] := fun hmem => hc (List.mem_singleton.1 hmem).symm
      refine ⟨.quoted ⟨[c], ⟨c, [], rfl, hq⟩, hcloses⟩ true, ?_, rfl, ?_, rfl⟩
      · simp [Piece.chars, escapeChar, hc, hq]
      · intro next hopen
        cases hopen
    | false =>
      have hplain : isSpecial c = false := by
        simp only [isQuotable, Bool.or_eq_false_iff] at hq
        simp [isSpecial, hq.1, hq.2, hc]
      refine ⟨.literal ⟨c, hplain⟩, ?_, rfl, fun _ => trivial, rfl⟩
      simp [Piece.chars, escapeChar, hc, hq]

/-- Atoms are written one by one, once their nodes are. -/
theorem exists_pieces_of_atoms {room : Nat} {as : List Atom}
    (h : ∀ node, .node node ∈ as →
      ∃ source : ArgumentSource, source.Fits ∧ source.depth ≤ room ∧ source.node = node) :
    ∃ pieces, Closed room pieces ∧ atomsOf pieces = as := by
  induction as with
  | nil => exact ⟨[], closed_nil room, rfl⟩
  | cons a rest ih =>
    obtain ⟨pieces, hclosed, hatoms⟩ := ih fun node hm => h node (List.mem_cons_of_mem a hm)
    cases a with
    | char c =>
      obtain ⟨piece, -, hpiece, hfit, hdepth⟩ := exists_piece_of_char c
      refine ⟨piece :: pieces, hclosed.cons hfit (hdepth ▸ Nat.zero_le room), ?_⟩
      rw [atomsOf, hpiece, hatoms]
      rfl
    | node n =>
      obtain ⟨source, hfit, hdepth, hnode⟩ := h n List.mem_cons_self
      refine ⟨.argument source :: pieces, hclosed.cons (fun _ => hfit) hdepth, ?_⟩
      rw [atomsOf, Piece.atoms, hnode, hatoms]
      rfl

/-- A normal message is written, once its arguments are. -/
theorem exists_pieces_of_normal {room : Nat} {nodes : Message} (hn : Normal nodes)
    (h : ∀ node ∈ nodes, node.isText = false →
      ∃ source : ArgumentSource, source.Fits ∧ source.depth ≤ room ∧ source.node = node) :
    ∃ pieces, Closed room pieces ∧ messageOf pieces = nodes := by
  have hsources : ∀ node, .node node ∈ atoms nodes →
      ∃ source : ArgumentSource, source.Fits ∧ source.depth ≤ room ∧ source.node = node :=
    fun node hm => h node (mem_of_mem_atoms hm) (isText_of_mem_atoms hm)
  obtain ⟨pieces, hclosed, hatoms⟩ := exists_pieces_of_atoms hsources
  exact ⟨pieces, hclosed, by rw [messageOf, hatoms, ofAtoms_atoms hn]⟩

theorem exists_keySource {key : BranchKey} (h : key.WellFormed) :
    ∃ source : KeySource, source.key = key := by
  cases key with
  | name s =>
    obtain ⟨w, rfl⟩ := exists_word h
    exact ⟨.word w, rfl⟩
  | exact n =>
    obtain ⟨m, rfl⟩ := exists_numeral h
    exact ⟨.exact m, rfl⟩

/-- Branches are written one by one, each behind a blank. -/
theorem exists_branches {room : Nat} {entries : List (BranchKey × Message)}
    (hkeys : ∀ key ∈ Entries.keys entries, key.WellFormed)
    (hbodies : ∀ e ∈ entries, ∃ pieces, Closed room pieces ∧ messageOf pieces = e.2) :
    ∃ branches, branchPairs branches = entries ∧ BranchesFit branches ∧
      branchDepth branches ≤ room ∧ Stops isAsciiDigit (branchChars branches) := by
  induction entries with
  | nil => exact ⟨[], rfl, trivial, Nat.zero_le room, stops_nil _⟩
  | cons e rest ih =>
    obtain ⟨key, nodes⟩ := e
    obtain ⟨branches, hpairs, hfit, hdepth, -⟩ :=
      ih (fun k hk => hkeys k (List.mem_cons_of_mem key hk))
        (fun e he => hbodies e (List.mem_cons_of_mem _ he))
    obtain ⟨source, rfl⟩ := exists_keySource (hkeys key List.mem_cons_self)
    obtain ⟨body, hclosed, hbody⟩ := hbodies _ List.mem_cons_self
    refine ⟨(⟨.one, source, .none⟩, body) :: branches, ?_, ⟨hclosed.fits _, hfit⟩,
      Nat.max_le.2 ⟨hclosed.depth, hdepth⟩, stops_cons.2 (by decide)⟩
    rw [branchPairs, hpairs]
    exact congrArg (fun m => (source.key, m) :: rest) hbody

/-- The branches of a proper table are written, and the table is what they stand for. -/
theorem exists_branches_of_properKeys {room : Nat} {entries : List (BranchKey × Message)}
    (hproper : ProperKeys entries)
    (hbodies : ∀ e ∈ entries, ∃ pieces, Closed room pieces ∧ messageOf pieces = e.2) :
    ∃ branches, branches ≠ [] ∧ Entries.tabulate (branchPairs branches) = entries ∧
      BranchesFit branches ∧ branchDepth branches ≤ room ∧
      Stops isAsciiDigit (branchChars branches) := by
  obtain ⟨branches, hpairs, hfit, hdepth, hstops⟩ := exists_branches hproper.wellFormed hbodies
  refine ⟨branches, ?_, ?_, hfit, hdepth, hstops⟩
  · rintro rfl
    exact hproper.ne_nil hpairs.symm
  · rw [hpairs, Entries.tabulate_eq_self hproper.nodup]

/-- Every well-formed node that is no text is what an argument stands for. -/
theorem exists_source_of_wellFormed {room : Nat} {node : Node} (h : node.WellFormed room)
    (hnode : node.isText = false) :
    ∃ source : ArgumentSource, source.Fits ∧ source.depth ≤ room ∧ source.node = node := by
  induction h with
  | text room value => cases hnode
  | argument room word =>
    obtain ⟨w, rfl⟩ := exists_word word
    exact ⟨.bare ⟨.none, w, .none⟩, trivial, Nat.le_add_left 1 room, rfl⟩
  | @formatted room kind name style word styleWord =>
    obtain ⟨w, rfl⟩ := exists_word word
    cases style with
    | none =>
      exact ⟨.formatted ⟨.none, w, .none⟩ .none kind .none none, trivial,
        Nat.le_add_left 1 room, rfl⟩
    | some s =>
      obtain ⟨v, rfl⟩ := exists_word (styleWord s rfl)
      exact ⟨.formatted ⟨.none, w, .none⟩ .none kind .none (some ⟨.none, v, .none⟩), trivial,
        Nat.le_add_left 1 room, rfl⟩
  | plural kind word short proper normal bodies ih =>
    obtain ⟨w, rfl⟩ := exists_word word
    obtain ⟨m, rfl⟩ := exists_numeral short
    obtain ⟨branches, hne, htable, hfit, hdepth, hstops⟩ :=
      exists_branches_of_properKeys proper fun e he =>
        exists_pieces_of_normal (normal e he) (ih e he)
    refine ⟨.plural ⟨.none, w, .none⟩ .none kind .none (some ⟨.none, .none, m⟩) branches .none,
      ⟨hne, fun _ => hstops, hfit⟩, Nat.succ_le_succ hdepth, ?_⟩
    rw [ArgumentSource.node, htable]
    rfl
  | select word proper normal bodies ih =>
    obtain ⟨w, rfl⟩ := exists_word word
    obtain ⟨branches, hne, htable, hfit, hdepth, -⟩ :=
      exists_branches_of_properKeys proper fun e he =>
        exists_pieces_of_normal (normal e he) (ih e he)
    refine ⟨.select ⟨.none, w, .none⟩ .none .none branches .none, ⟨hne, hfit⟩,
      Nat.succ_le_succ hdepth, ?_⟩
    rw [ArgumentSource.node, htable]

/-! ## The image of the parser -/

/-- The messages that derive from some pattern are the well-formed ones. -/
theorem exists_derives_iff_wellFormed {room : Nat} {nodes : Message} :
    (∃ pattern, Derives room pattern nodes) ↔ WellFormed room nodes := by
  constructor
  · rintro ⟨pattern, pieces, -, hfit, hdepth, rfl⟩
    exact wellFormed_messageOf hfit hdepth
  · intro h
    obtain ⟨pieces, hclosed, rfl⟩ := exists_pieces_of_normal h.normal fun node hm hnode =>
      exists_source_of_wellFormed (h.nodes node hm) hnode
    exact ⟨charsOf pieces, pieces, rfl, hclosed.fits none, hclosed.depth, rfl⟩

/-- A parser without a limit on size gives exactly the well-formed messages, each for some
pattern. -/
theorem Parser.exists_parse_eq_ok_iff_wellFormed (p : Parser) (hsize : p.maxSourceSize ≤ 0)
    (nodes : Message) :
    (∃ pattern, p.parse pattern = .ok nodes) ↔
      WellFormed p.maxNestingDepth.toNat nodes := by
  rw [← exists_derives_iff_wellFormed]
  simp only [p.parse_eq_ok_iff_run hsize, Parser.rule, message_run_eq_ok_iff, exists_eq_left]
  constructor
  · rintro ⟨pattern, h⟩
    exact ⟨pattern.toList, h⟩
  · rintro ⟨pattern, h⟩
    exact ⟨String.ofList pattern, by rwa [String.toList_ofList]⟩

/-- Some pattern writes a text of braces and apostrophes in front of an argument. -/
theorem Parser.exists_pattern_of_quoted :
    ∃ pattern, (⟨0, 1, by decide⟩ : Parser).parse pattern =
      .ok [.text "'\x7b'\x7d''", .argument "n"] := by
  have hargument : Normal [.argument "n"] := normal_nil.cons rfl
  have htext : ∀ node ∈ [Node.argument "n"].head?, node.isText = false := by
    intro node hnode
    cases hnode
    rfl
  refine (Parser.exists_parse_eq_ok_iff_wellFormed ⟨0, 1, by decide⟩ (by decide) _).2
    ⟨hargument.consText (by decide) htext, ?_⟩
  intro node hnode
  rcases List.mem_pair.1 hnode with rfl | rfl
  · exact .text 1 _
  · exact .argument 0 ⟨by decide, List.all_eq_true.1 (by decide)⟩

end Phrasebook.Pattern
