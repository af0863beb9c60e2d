/-
  What a layout that cuts long texts shows of a diagnostic.

  A text is cut to its beginning and three points (`clip`).  A layout that cuts
  shows what the layout that does not would show of a diagnostic that is cut
  already.  The hint is cut in every form, but the message in the simple and the
  JSON form alone: the full form shows it whole however long it is.
-/
import Phrasebook.Diagnostic.Layout

set_option autoImplicit false

namespace Phrasebook

open Phrasebook.Source

/-! ## Texts that are cut -/

/-- The first characters of a text and three points, or a text that is not longer as it is. -/
def clip (m : Nat) (s : String) : String :=
  if m < s.length then String.ofList (s.toList.take m) ++ "..." else s

/-- A text that is cut is empty only if it was. -/
theorem isEmpty_clip (m : Nat) (s : String) : (clip m s).isEmpty = s.isEmpty := by
  rw [clip]
  split
  · next h =>
    have hs : s ≠ "" := by
      intro hempty
      simp [hempty] at h
    have hpoints : String.ofList (s.toList.take m) ++ "..." ≠ "" := by simp
    rw [Bool.eq_iff_iff, String.isEmpty_iff, String.isEmpty_iff]
    exact iff_of_false hpoints hs
  · rfl

/-- A text is the same after it is cut if it is not too long, or is its own beginning with three
points. -/
theorem clip_eq_self_iff (m : Nat) (s : String) :
    clip m s = s ↔ s.length ≤ m ∨ ∃ front : String, front.length = m ∧ s = front ++ "..." := by
  rw [clip]
  split
  · next h =>
    constructor
    · intro heq
      refine .inr ⟨String.ofList (s.toList.take m), ?_, heq.symm⟩
      rw [String.length_ofList, List.length_take, String.length_toList]
      omega
    · rintro (hle | ⟨front, rfl, rfl⟩)
      · omega
      · rw [String.toList_append, ← String.length_toList, List.take_left, String.ofList_toList]
  · next h => simp [Nat.le_of_not_lt h]

/-- A diagnostic with its message and its hint cut. -/
def Diagnostic.clip (m : Nat) (d : Diagnostic) : Diagnostic :=
  { d with message := Phrasebook.clip m d.message, hint := d.hint.map (Phrasebook.clip m) }

/-- A diagnostic with what a form cuts of it cut: the hint, and the message unless the form is the
full one. -/
def OutputForm.clip (form : OutputForm) (m : Nat) (d : Diagnostic) : Diagnostic :=
  { d with
    message := if form = .full then d.message else Phrasebook.clip m d.message
    hint := d.hint.map (Phrasebook.clip m) }

namespace Layout

theorem cut_of_sanitize (form : OutputForm) (m : Nat) (s : String) :
    cut ⟨form, true, m⟩ s = clip m s := by
  simp only [cut, clip, Bool.true_and, decide_eq_true_eq, Int.ofNat_lt]
  split
  · next h =>
    have hstart : charsBefore s.toList.length 0 = 0 := charsBefore_natCast (Nat.zero_le _)
    have hstop : charsBefore s.toList.length m = m :=
      charsBefore_natCast (by rw [String.length_toList]; omega)
    rw [slice, hstart, hstop, List.drop_zero]
  · rfl

theorem cut_of_not_sanitize (form : OutputForm) (m : Int) (s : String) :
    cut ⟨form, false, m⟩ s = s := rfl

/-! ## Forms -/

/-- The lines of the full form behind its headline. -/
def details (layout : Layout) (d : Diagnostic) : List String :=
  (match d.span with
    | some span =>
      ["  --> position " ++ toString span.start ++ " (line " ++ toString span.line ++
        ", column " ++ toString span.column ++ ")"]
    | none => []) ++
  detail "argument: " d.argumentName ++
  detail "expected: " d.expectedType ++
  detail "received: " d.receivedType ++
  (match d.hint with
    | some s => if s.isEmpty then [] else ["  = help: " ++ layout.cut s]
    | none => []) ++
  detail "note: see " d.helpUrl

theorem full_eq (layout : Layout) (d : Diagnostic) :
    layout.full d = "\n".intercalate
      ((d.severity.name ++ "[" ++ d.code.name ++ "]: " ++ d.message) :: layout.details d) := rfl

/-- The lines behind the headline do not show the message, and of the hint what is left of it. -/
theorem details_clip (form : OutputForm) (m : Nat) (d : Diagnostic) (message : String) :
    details ⟨form, true, m⟩ d =
      details ⟨form, false, m⟩ { d with message, hint := d.hint.map (clip m) } := by
  cases hhint : d.hint <;>
    simp [details, hhint, cut_of_sanitize, cut_of_not_sanitize, isEmpty_clip]

theorem full_clip (m : Nat) (d : Diagnostic) :
    full ⟨.full, true, m⟩ d = full ⟨.full, false, m⟩ (OutputForm.full.clip m d) := by
  rw [full_eq, full_eq, details_clip .full m d d.message]
  rfl

theorem simple_clip (m : Nat) (d : Diagnostic) :
    simple ⟨.simple, true, m⟩ d = simple ⟨.simple, false, m⟩ (d.clip m) := by
  rw [simple, simple, cut_of_sanitize, cut_of_not_sanitize]
  rfl

theorem json_clip (m : Nat) (d : Diagnostic) :
    json ⟨.json, true, m⟩ d = json ⟨.json, false, m⟩ (d.clip m) := by
  cases hhint : d.hint <;>
    simp [json, Diagnostic.clip, hhint, cut_of_sanitize, cut_of_not_sanitize, isEmpty_clip]

/-- A layout that cuts shows what the layout that does not shows of the diagnostic that is cut. -/
theorem format_clip (form : OutputForm) (m : Nat) (d : Diagnostic) :
    format ⟨form, true, m⟩ d = format ⟨form, false, m⟩ (form.clip m d) := by
  cases form with
  | full => exact full_clip m d
  | simple => exact simple_clip m d
  | json => exact json_clip m d

/-! ## The headline of the full form -/

/-- Texts that are joined end alike whatever the first of them is. -/
theorem exists_intercalate_cons (separator : String) (rest : List String) :
    ∃ tail, ∀ first, separator.intercalate (first :: rest) = first ++ tail := by
  cases rest with
  | nil => exact ⟨"", fun first => by rw [String.intercalate_singleton, String.append_empty]⟩
  | cons second more =>
    refine ⟨separator ++ separator.intercalate (second :: more), fun first => ?_⟩
    rw [String.intercalate_cons_cons, String.append_assoc]

/-- The full form shows a whole message as it shows the cut one only if nothing is cut off. -/
theorem full_clip_iff (m : Nat) (d : Diagnostic) :
    full ⟨.full, true, m⟩ d = full ⟨.full, false, m⟩ (d.clip m) ↔ clip m d.message = d.message := by
  obtain ⟨tail, htail⟩ := exists_intercalate_cons "\n"
    (details ⟨.full, false, m⟩ { d with hint := d.hint.map (clip m) })
  have hdetails : details ⟨.full, false, m⟩ (d.clip m) =
      details ⟨.full, false, m⟩ { d with hint := d.hint.map (clip m) } := rfl
  rw [full_eq, full_eq, details_clip .full m d d.message, hdetails, htail, htail,
    String.append_left_inj]
  simp only [Diagnostic.clip]
  rw [String.append_right_inj]
  exact eq_comm

theorem format_clip_iff (form : OutputForm) (m : Nat) (d : Diagnostic) :
    format ⟨form, true, m⟩ d = format ⟨form, false, m⟩ (d.clip m) ↔
      (form = .full → clip m d.message = d.message) := by
  cases form with
  | full => exact (full_clip_iff m d).trans ⟨fun h _ => h, fun h => h rfl⟩
  | simple => exact iff_of_true (simple_clip m d) nofun
  | json => exact iff_of_true (json_clip m d) nofun

/-- Cutting long texts goes well with every form, apart from the message in the full form.  A layout
that cuts shows, of one diagnostic or of several, what the same layout without cutting shows of
diagnostics of which the hint, and outside of the full form the message too, is cut already.  So to
cut both is the same as to let the layout cut exactly if the form is not the full one, or the
message is not longer than the limit or is its own beginning with three points. -/
theorem format_sanitized (form : OutputForm) (m : Nat) :
    (∀ d, format ⟨form, true, m⟩ d = format ⟨form, false, m⟩ (form.clip m d)) ∧
    (∀ ds, formatAll ⟨form, true, m⟩ ds = formatAll ⟨form, false, m⟩ (ds.map (form.clip m))) ∧
    (∀ d, format ⟨form, true, m⟩ d = format ⟨form, false, m⟩ (d.clip m) ↔
      (form = .full → d.message.length ≤ m ∨
        ∃ front : String, front.length = m ∧ d.message = front ++ "...")) ∧
    (form ≠ .full → ∀ ds,
      formatAll ⟨form, true, m⟩ ds = formatAll ⟨form, false, m⟩ (ds.map (Diagnostic.clip m))) := by
  have hall : ∀ (ds : List Diagnostic) (cut : Diagnostic → Diagnostic),
      (∀ d, format ⟨form, true, m⟩ d = format ⟨form, false, m⟩ (cut d)) →
        formatAll ⟨form, true, m⟩ ds = formatAll ⟨form, false, m⟩ (ds.map cut) := by
    intro ds cut hcut
    rw [formatAll, formatAll, List.map_map]
    exact congrArg _ (List.map_congr_left fun d _ => hcut d)
  refine ⟨format_clip form m, fun ds => hall ds _ (format_clip form m), fun d => ?_, ?_⟩
  · rw [format_clip_iff, clip_eq_self_iff]
  · intro hform ds
    exact hall ds _ fun d => (format_clip_iff form m d).2 fun heq => absurd heq hform

/-- The full form shows five characters of a message where two are allowed. -/
theorem format_full_message :
    let d : Diagnostic := { code := .unknownNode, message := "xxxxx" }
    format ⟨.full, true, 2⟩ d = "error[UNKNOWN_NODE]: xxxxx" ∧
      format ⟨.full, false, 2⟩ (d.clip 2) = "error[UNKNOWN_NODE]: xx..." := by
  decide +kernel

end Layout

end Phrasebook
