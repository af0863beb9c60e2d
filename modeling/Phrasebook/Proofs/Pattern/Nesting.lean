/-
  How many arguments are open at once.

  An argument is open behind its opening brace and up to its closing one, so the
  marks of a derivation tell at each position of its text how many arguments are
  open there (`openArguments`).  The most that are open anywhere is the depth of
  the derivation (`marksOf_nests`).  An argument whose body is dropped in the
  end, because a later branch has the same key, is open all the same.

  Where more arguments are open than there is room for, there is a first
  argument that stands inside as many others as there is room for
  (`FirstInside`).  Marks that lie one behind the other are looked through in
  order, and an argument around some marks adds itself to the count of each.
-/
import Mathlib.Order.Bounds.Basic
import Phrasebook.Proofs.Pattern.Marks

set_option autoImplicit false

namespace Phrasebook.Pattern

/-! ## Counting -/

namespace Mark

/-- Whether a mark is an argument. -/
def isArgument : Mark → Bool
  | .argument _ _ => true
  | _ => false

instance decidableOpenAt (n : Nat) : (m : Mark) → Decidable (m.OpenAt n)
  | .argument start stop => inferInstanceAs (Decidable (start < n ∧ n ≤ stop))
  | .body start stop => inferInstanceAs (Decidable (start < n ∧ n ≤ stop))
  | .keyword _ _ => .isFalse id
  | .exact _ _ => .isFalse id
  | .offset _ _ => .isFalse id

end Mark

/-- The number of arguments that are open at a position. -/
def openArguments (n : Nat) (marks : List Mark) : Nat :=
  marks.countP fun m => m.isArgument && decide (m.OpenAt n)

section Count

variable {n pos finish : Nat} {m : Mark} {marks : List Mark}

@[simp] theorem openArguments_nil (n : Nat) : openArguments n [] = 0 := rfl

theorem openArguments_append (n : Nat) (marks others : List Mark) :
    openArguments n (marks ++ others) = openArguments n marks + openArguments n others :=
  List.countP_append

theorem openArguments_cons_of_not (hm : m.isArgument = false) :
    openArguments n (m :: marks) = openArguments n marks := by
  rw [openArguments, List.countP_cons_of_neg (by simp [hm]), openArguments]

theorem openArguments_cons_of_open {start stop : Nat} (hstart : start < n) (hstop : n ≤ stop) :
    openArguments n (.argument start stop :: marks) = openArguments n marks + 1 := by
  have hopen : (Mark.argument start stop).OpenAt n := ⟨hstart, hstop⟩
  rw [openArguments, List.countP_cons_of_pos (by simp [Mark.isArgument, hopen]), openArguments]

theorem openArguments_eq_zero (h : ∀ m ∈ marks, m.Quiet n) : openArguments n marks = 0 := by
  refine List.countP_eq_zero.2 fun m hm => ?_
  simp [(h m hm).closed]

/-- Nothing is open at the first brace of all. -/
theorem openArguments_start {stop : Nat} (h : ∀ m ∈ marks, m.Quiet pos) :
    openArguments pos (.argument pos stop :: marks) = 0 :=
  openArguments_eq_zero
    (List.forall_mem_cons.2 ⟨Mark.quiet_of_le_start (Nat.le_refl pos), h⟩)

/-- Arguments are open only between the first and the last position of their marks. -/
theorem Between.lt_of_open (h : Between pos finish marks) (hopen : 0 < openArguments n marks) :
    pos < n ∧ n < finish := by
  obtain ⟨m, hm, hcount⟩ := List.countP_pos_iff.1 hopen
  simp only [Bool.and_eq_true, decide_eq_true_eq] at hcount
  have hin := h m hm
  cases m with
  | argument start stop =>
    obtain ⟨hstart, hstop⟩ := hcount.2
    exact ⟨Nat.lt_of_le_of_lt hin.1 hstart, Nat.lt_of_lt_of_le (Nat.lt_succ_of_le hstop) hin.2⟩
  | body start stop => exact absurd hcount.1 Bool.false_ne_true
  | _ => exact absurd hcount.2 id

end Count

/-! ## The most arguments open at once -/

/-- The most arguments that some marks have open at once; each of them stands inside fewer. -/
structure Nests (marks : List Mark) (d : Nat) : Prop where
  most : IsGreatest (Set.range fun n => openArguments n marks) d
  inside : ∀ start stop, .argument start stop ∈ marks → openArguments start marks < d
  proper : ∀ start stop, .argument start stop ∈ marks → start < stop

section Nests

variable {marks others : List Mark} {d d' pos mid finish : Nat}

theorem Nests.le (h : Nests marks d) (n : Nat) : openArguments n marks ≤ d := h.most.2 ⟨n, rfl⟩

theorem nests_nil : Nests [] 0 where
  most := ⟨⟨0, rfl⟩, by rintro _ ⟨n, rfl⟩; exact Nat.le_refl 0⟩
  inside _ _ := nofun
  proper _ _ := nofun

theorem Nests.cons_of_not {m : Mark} (hm : m.isArgument = false) (h : Nests marks d) :
    Nests (m :: marks) d := by
  have hmem : ∀ start stop, .argument start stop ∈ m :: marks → .argument start stop ∈ marks := by
    intro start stop hmem
    rcases List.mem_cons.1 hmem with rfl | hmem
    · cases hm
    · exact hmem
  have hcount : ∀ n, openArguments n (m :: marks) = openArguments n marks :=
    fun n => openArguments_cons_of_not hm
  refine ⟨?_, fun start stop hin => ?_, fun start stop hin => h.proper _ _ (hmem _ _ hin)⟩
  · simp only [hcount]
    exact h.most
  · rw [hcount]
    exact h.inside _ _ (hmem _ _ hin)

theorem Nests.append_of_not {front : List Mark} (hfront : ∀ m ∈ front, m.isArgument = false)
    (h : Nests marks d) : Nests (front ++ marks) d := by
  induction front with
  | nil => exact h
  | cons m front ih =>
    obtain ⟨hm, hfront⟩ := List.forall_mem_cons.1 hfront
    exact (ih hfront).cons_of_not hm

/-- Of marks that lie one behind the other, only one part is open at any position. -/
theorem openArguments_append_cases (hfirst : Between pos mid marks)
    (hsecond : Between mid finish others) (n : Nat) :
    openArguments n (marks ++ others) = openArguments n marks ∧ openArguments n others = 0 ∨
      openArguments n (marks ++ others) = openArguments n others ∧
        openArguments n marks = 0 := by
  rw [openArguments_append]
  rcases Nat.le_total n mid with hle | hle
  · have hzero := openArguments_eq_zero (hsecond.quiet_of_le hle)
    exact .inl ⟨by omega, hzero⟩
  · have hzero := openArguments_eq_zero (hfirst.quiet_of_finish_le hle)
    exact .inr ⟨by omega, hzero⟩

/-- An argument of the first part knows only of that part. -/
theorem Nests.openArguments_left (h : Nests marks d) (hfirst : Between pos mid marks)
    (hsecond : Between mid finish others) {start stop : Nat}
    (hmem : .argument start stop ∈ marks) :
    openArguments start (marks ++ others) = openArguments start marks := by
  have hlt := h.proper _ _ hmem
  have hfinish : stop + 1 ≤ mid := (hfirst _ hmem).2
  rw [openArguments_append, openArguments_eq_zero (hsecond.quiet_of_le (by omega)), Nat.add_zero]

/-- An argument of the second part knows only of that one. -/
theorem openArguments_right (hfirst : Between pos mid marks) (hsecond : Between mid finish others)
    {start stop : Nat} (hmem : .argument start stop ∈ others) :
    openArguments start (marks ++ others) = openArguments start others := by
  have hstart : mid ≤ start := (hsecond _ hmem).1
  rw [openArguments_append, openArguments_eq_zero (hfirst.quiet_of_finish_le hstart), Nat.zero_add]

theorem Nests.append (h : Nests marks d) (h' : Nests others d') (hfirst : Between pos mid marks)
    (hsecond : Between mid finish others) : Nests (marks ++ others) (max d d') where
  most := by
    constructor
    · obtain ⟨n, hn⟩ := h.most.1
      obtain ⟨n', hn'⟩ := h'.most.1
      dsimp only at hn hn'
      -- where one part has its most open, the other one has nothing open, unless both have none
      rcases Nat.le_total d d' with hle | hle
      · refine ⟨n', ?_⟩
        dsimp only
        rcases openArguments_append_cases hfirst hsecond n' with ⟨hcount, hzero⟩ | ⟨hcount, -⟩
        · have hbound := h.le n'
          omega
        · omega
      · refine ⟨n, ?_⟩
        dsimp only
        rcases openArguments_append_cases hfirst hsecond n with ⟨hcount, -⟩ | ⟨hcount, hzero⟩
        · omega
        · have hbound := h'.le n
          omega
    · rintro _ ⟨n, rfl⟩
      have hbound := h.le n
      have hbound' := h'.le n
      dsimp only
      rcases openArguments_append_cases hfirst hsecond n with ⟨hcount, -⟩ | ⟨hcount, -⟩ <;> omega
  inside start stop hmem := by
    rcases List.mem_append.1 hmem with hmem | hmem
    · rw [h.openArguments_left hfirst hsecond hmem]
      exact Nat.lt_of_lt_of_le (h.inside _ _ hmem) (Nat.le_max_left _ _)
    · rw [openArguments_right hfirst hsecond hmem]
      exact Nat.lt_of_lt_of_le (h'.inside _ _ hmem) (Nat.le_max_right _ _)
  proper start stop hmem := by
    rcases List.mem_append.1 hmem with hmem | hmem
    · exact h.proper _ _ hmem
    · exact h'.proper _ _ hmem

/-- An argument around some marks knows each of their arguments to be open inside of it. -/
theorem Nests.openArguments_around (h : Nests marks d) {stop : Nat}
    (hbetween : Between (pos + 1) stop marks) {start stop' : Nat}
    (hmem : .argument start stop' ∈ marks) :
    openArguments start (.argument pos stop :: marks) = openArguments start marks + 1 := by
  have hlt := h.proper _ _ hmem
  have hstart : pos + 1 ≤ start := (hbetween _ hmem).1
  have hstop : stop' + 1 ≤ stop := (hbetween _ hmem).2
  exact openArguments_cons_of_open (by omega) (by omega)

theorem Nests.argument (h : Nests marks d) {stop : Nat} (hlt : pos < stop)
    (hbetween : Between (pos + 1) stop marks) : Nests (.argument pos stop :: marks) (d + 1) where
  most := by
    constructor
    · obtain ⟨n, hn⟩ := h.most.1
      dsimp only at hn
      rcases Nat.eq_zero_or_pos d with rfl | hpos
      · have hcount : openArguments (pos + 1) (.argument pos stop :: marks) =
            openArguments (pos + 1) marks + 1 :=
          openArguments_cons_of_open (Nat.lt_add_one pos) hlt
        have hzero := h.le (pos + 1)
        exact ⟨pos + 1, by dsimp only; omega⟩
      · obtain ⟨hstart, hstop⟩ := hbetween.lt_of_open (n := n) (by omega)
        have hcount : openArguments n (.argument pos stop :: marks) = openArguments n marks + 1 :=
          openArguments_cons_of_open (by omega) (by omega)
        exact ⟨n, by dsimp only; omega⟩
    · rintro _ ⟨n, rfl⟩
      have hbound := h.le n
      have hone : openArguments n [Mark.argument pos stop] ≤ 1 := List.countP_le_length
      have happend := openArguments_append n [.argument pos stop] marks
      rw [List.singleton_append] at happend
      dsimp only
      omega
  inside start stop' hmem := by
    rcases List.mem_cons.1 hmem with heq | hmem
    · obtain ⟨rfl, rfl⟩ := Mark.argument.inj heq
      rw [openArguments_start (hbetween.quiet_of_le (Nat.le_succ start))]
      exact Nat.succ_pos d
    · rw [h.openArguments_around hbetween hmem]
      exact Nat.succ_lt_succ (h.inside _ _ hmem)
  proper start stop' hmem := by
    rcases List.mem_cons.1 hmem with heq | hmem
    · obtain ⟨rfl, rfl⟩ := Mark.argument.inj heq
      exact hlt
    · exact h.proper _ _ hmem

end Nests

theorem KeySource.marks_isArgument (pos : Nat) (source : KeySource) :
    ∀ m ∈ source.marks pos, m.isArgument = false := by
  cases source with
  | word w => exact nofun
  | exact number => exact List.forall_mem_singleton.2 rfl

theorem offsetMarks_isArgument (pos : Nat) (offset : Option OffsetSource) :
    ∀ m ∈ offsetMarks pos offset, m.isArgument = false := by
  cases offset with
  | none => exact nofun
  | some source => exact List.forall_mem_singleton.2 rfl

theorem lt_behindKeyword (pos : Nat) (head : Head) (lead : Blanks) (type : ArgumentType) :
    pos < behindKeyword pos head lead type := by
  rw [behindKeyword]
  omega

theorem typedMarks_nests {pos : Nat} (head : Head) (lead : Blanks) (type : ArgumentType)
    (v : List Char) {inner : List Mark} {d : Nat}
    (hbetween : Between (behindKeyword pos head lead type)
      (behindKeyword pos head lead type + v.length) inner)
    (h : Nests inner d) : Nests (typedMarks pos head lead type v inner) (d + 1) := by
  have hlt := lt_behindKeyword pos head lead type
  refine (h.cons_of_not rfl).argument (by omega) (between_cons.2 ⟨⟨?_, ?_⟩, ?_⟩)
  · simp only [Mark.start]
    omega
  · simp only [Mark.finish, behindKeyword]
    omega
  · exact hbetween.mono hlt (Nat.le_refl _)

/-- The marks of a plural argument behind its keyword. -/
theorem pluralMarks_between (pos : Nat) (trail : Blanks) (offset : Option OffsetSource)
    (branches : List (BranchHead × List Piece)) (last : Blanks) :
    Between pos (pos + (trail.chars ++ ',' ::
        (offsetChars offset ++ (branchChars branches ++ last.chars))).length)
      (offsetMarks (pos + trail.chars.length + 1) offset ++
        branchMarks (pos + trail.chars.length + 1 + (offsetChars offset).length) branches) := by
  simp only [List.length_append, List.length_cons]
  exact between_append.2
    ⟨(offsetMarks_between (pos + trail.chars.length + 1) offset).mono (by omega) (by omega),
      (branchMarks_between (pos + trail.chars.length + 1 + (offsetChars offset).length)
        branches).mono (by omega) (by omega)⟩

/-- The marks of a keyword selector behind its keyword. -/
theorem selectMarks_between (pos : Nat) (trail : Blanks)
    (branches : List (BranchHead × List Piece)) (last : Blanks) :
    Between pos (pos + (trail.chars ++ ',' :: (branchChars branches ++ last.chars)).length)
      (branchMarks (pos + trail.chars.length + 1) branches) := by
  simp only [List.length_append, List.length_cons]
  exact (branchMarks_between (pos + trail.chars.length + 1) branches).mono (by omega) (by omega)

mutual

theorem Piece.marks_nests (pos : Nat) : (piece : Piece) → Nests (piece.marks pos) piece.depth
  | .argument source => source.marks_nests pos
  | .literal _ => nests_nil
  | .doubled => nests_nil
  | .quoted _ _ => nests_nil
  | .lone => nests_nil

theorem ArgumentSource.marks_nests (pos : Nat) :
    (source : ArgumentSource) → Nests (source.marks pos) source.depth
  | .bare head => by
    refine nests_nil.argument ?_ (between_nil _ _)
    simp only [Head.chars, List.length_cons]
    omega
  | .formatted head lead kind trail style =>
    typedMarks_nests head lead (.formatted kind) _ (between_nil _ _) nests_nil
  | .plural head lead kind trail offset branches last =>
    typedMarks_nests head lead (.plural kind) _ (pluralMarks_between _ trail offset branches last)
      ((branchMarks_nests _ branches).append_of_not (offsetMarks_isArgument _ offset))
  | .select head lead trail branches last =>
    typedMarks_nests head lead .select _ (selectMarks_between _ trail branches last)
      (branchMarks_nests _ branches)

/-- The most arguments that a message has open at once is its depth. -/
theorem marksOf_nests (pos : Nat) :
    (pieces : List Piece) → Nests (marksOf pos pieces) (depthOf pieces)
  | [] => nests_nil
  | piece :: rest =>
    (piece.marks_nests pos).append (marksOf_nests _ rest) (piece.marks_between pos)
      (marksOf_between _ rest)

theorem branchMarks_nests (pos : Nat) :
    (entries : List (BranchHead × List Piece)) →
      Nests (branchMarks pos entries) (branchDepth entries)
  | [] => nests_nil
  | (head, body) :: rest => by
    have hbody := (marksOf_between (pos + head.chars.length + 1) body).mono (Nat.le_refl _)
      (Nat.le_succ _)
    have hrest := branchMarks_nests (pos + head.chars.length + 1 + (charsOf body).length + 1) rest
    exact (((marksOf_nests _ body).append hrest hbody (branchMarks_between _ rest)).cons_of_not
      rfl).append_of_not (head.source.marks_isArgument _)

end

/-! ## The first argument that is too deep -/

/-- Of the arguments that stand inside `d` others at least, the first one: it stands inside
exactly `d` others. -/
structure FirstInside (d : Nat) (marks : List Mark) (start : Nat) : Prop where
  mem : ∃ stop, .argument start stop ∈ marks
  inside : openArguments start marks = d
  first : ∀ start' stop', .argument start' stop' ∈ marks → d ≤ openArguments start' marks →
    start ≤ start'

section FirstInside

variable {marks others : List Mark} {d k pos mid finish start : Nat}

theorem FirstInside.cons_of_not {m : Mark} (hm : m.isArgument = false)
    (h : FirstInside d marks start) : FirstInside d (m :: marks) start where
  mem := h.mem.imp fun _ => List.mem_cons_of_mem m
  inside := by rw [openArguments_cons_of_not hm, h.inside]
  first start' stop' hmem hle := by
    rw [openArguments_cons_of_not hm] at hle
    rcases List.mem_cons.1 hmem with rfl | hmem
    · cases hm
    · exact h.first _ _ hmem hle

theorem FirstInside.append_of_not {front : List Mark} (hfront : ∀ m ∈ front, m.isArgument = false)
    (h : FirstInside d marks start) : FirstInside d (front ++ marks) start := by
  induction front with
  | nil => exact h
  | cons m front ih =>
    obtain ⟨hm, hfront⟩ := List.forall_mem_cons.1 hfront
    exact (ih hfront).cons_of_not hm

/-- In front of it there may be marks that are not too deep. -/
theorem FirstInside.behind (h : FirstInside d others start) (hfront : Nests marks k) (hk : k ≤ d)
    (hfirst : Between pos mid marks) (hsecond : Between mid finish others) :
    FirstInside d (marks ++ others) start where
  mem := h.mem.imp fun _ => List.mem_append_right marks
  inside := by
    obtain ⟨stop, hmem⟩ := h.mem
    rw [openArguments_right hfirst hsecond hmem, h.inside]
  first start' stop' hmem hle := by
    rcases List.mem_append.1 hmem with hmem | hmem
    · rw [hfront.openArguments_left hfirst hsecond hmem] at hle
      have hlt := hfront.inside _ _ hmem
      omega
    · rw [openArguments_right hfirst hsecond hmem] at hle
      exact h.first _ _ hmem hle

/-- Behind it there may be any marks. -/
theorem FirstInside.before (h : FirstInside d marks start) (hmarks : Nests marks k)
    (hfirst : Between pos mid marks) (hsecond : Between mid finish others) :
    FirstInside d (marks ++ others) start where
  mem := h.mem.imp fun _ => List.mem_append_left others
  inside := by
    obtain ⟨stop, hmem⟩ := h.mem
    rw [hmarks.openArguments_left hfirst hsecond hmem, h.inside]
  first start' stop' hmem hle := by
    rcases List.mem_append.1 hmem with hmem | hmem
    · rw [hmarks.openArguments_left hfirst hsecond hmem] at hle
      exact h.first _ _ hmem hle
    · obtain ⟨stop, hstart⟩ := h.mem
      have hlt := hmarks.proper _ _ hstart
      have hfinish : stop + 1 ≤ mid := (hfirst _ hstart).2
      have hbegin : mid ≤ start' := (hsecond _ hmem).1
      omega

/-- An argument around it is one more that it stands inside. -/
theorem FirstInside.argument (h : FirstInside d marks start) (hmarks : Nests marks k) {stop : Nat}
    (hbetween : Between (pos + 1) stop marks) :
    FirstInside (d + 1) (.argument pos stop :: marks) start where
  mem := h.mem.imp fun _ => List.mem_cons_of_mem _
  inside := by
    obtain ⟨stop', hmem⟩ := h.mem
    rw [hmarks.openArguments_around hbetween hmem, h.inside]
  first start' stop' hmem hle := by
    rcases List.mem_cons.1 hmem with heq | hmem
    · obtain ⟨rfl, rfl⟩ := Mark.argument.inj heq
      rw [openArguments_start (hbetween.quiet_of_le (Nat.le_succ start'))] at hle
      cases hle
    · rw [hmarks.openArguments_around hbetween hmem] at hle
      exact h.first _ _ hmem (Nat.le_of_succ_le_succ hle)

end FirstInside

/-- An argument of a type is one more around what is inside of it. -/
theorem typedMarks_firstInside {pos start : Nat} (head : Head) (lead : Blanks)
    (type : ArgumentType) (v : List Char) {inner : List Mark} {d k : Nat}
    (hbetween : Between (behindKeyword pos head lead type)
      (behindKeyword pos head lead type + v.length) inner)
    (hinner : Nests inner k) (h : FirstInside d inner start) :
    FirstInside (d + 1) (typedMarks pos head lead type v inner) start := by
  have hlt := lt_behindKeyword pos head lead type
  refine (h.cons_of_not rfl).argument (hinner.cons_of_not rfl) (between_cons.2 ⟨⟨?_, ?_⟩, ?_⟩)
  · simp only [Mark.start]
    omega
  · simp only [Mark.finish, behindKeyword]
    omega
  · exact hbetween.mono hlt (Nat.le_refl _)

/-- Without any room each argument is too deep. -/
theorem ArgumentSource.firstInside_zero (pos : Nat) (source : ArgumentSource) :
    FirstInside 0 (source.marks pos) pos := by
  obtain ⟨stop, hmem, -⟩ := source.exists_mem_marks pos
  refine ⟨⟨stop, hmem⟩, ?_, fun start' stop' hmem' _ => (source.marks_between pos _ hmem').1⟩
  exact openArguments_eq_zero ((source.marks_between pos).quiet_of_le (Nat.le_refl pos))

end Phrasebook.Pattern
