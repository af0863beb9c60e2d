/-
  Where writing a number fails.

  A number that cannot be written is shown as it is, so what remains of the
  failures of writing are those that showing has too, and those that are not
  recovered from: the overflows that a directory answers with (`number_cases`).
-/
import Phrasebook.Localizer.Standard
import Phrasebook.Proofs.Number.Faults

set_option autoImplicit false

namespace Phrasebook

open Phrasebook.Number

/-! ## Plain values -/

namespace Value

/-- Whether a value is no date or time and holds no other values. -/
def IsScalar : Value → Prop
  | .null | .bool _ | .number _ | .text _ => True
  | .date _ | .dateTime _ _ | .time _ | .list _ | .table _ => False

/-- Whether a value is a whole number with more digits than are written. -/
def IsLong (v : Value) : Prop := ∃ n : Int, v = .number (.int n) ∧ ¬ IsShort n

theorem isLong_number_iff {n : Numeric} :
    IsLong (.number n) ↔ ∃ i, n = .int i ∧ ¬ IsShort i := by
  simp only [IsLong, number.injEq]

/-- Of the plain values only whole numbers have shown forms that are refused. -/
theorem shown_eq_error_iff {v : Value} (h : v.IsScalar) {fault : Fault} :
    v.shown = .error fault ↔ fault = .tooManyDigits ∧ v.IsLong := by
  cases v with
  | null => simp only [shown, IsLong, reduceCtorEq, false_and, exists_false, and_false]
  | bool b => simp only [shown, IsLong, reduceCtorEq, false_and, exists_false, and_false]
  | text s => simp only [shown, IsLong, reduceCtorEq, false_and, exists_false, and_false]
  | number n =>
    rw [isLong_number_iff]
    cases n with
    | decimal d => simp only [shown, reduceCtorEq, false_and, exists_false, and_false]
    | int i =>
      rw [shown, Numeric.text_eq_error_iff]
      exact nofun
    | float x =>
      rw [shown, Numeric.text_eq_error_iff]
      exact nofun
  | date | dateTime | time | list | table => cases h

/-- The same ones have texts that are refused. -/
theorem toText_eq_error_iff {v : Value} (h : v.IsScalar) {fault : Fault} :
    v.toText = .error fault ↔ fault = .tooManyDigits ∧ v.IsLong := by
  cases v with
  | null => exact shown_eq_error_iff h
  | bool b => exact shown_eq_error_iff h
  | text s => simp only [toText, IsLong, reduceCtorEq, false_and, exists_false, and_false]
  | number n => rw [toText, Numeric.text_eq_error_iff, isLong_number_iff]
  | date | dateTime | time | list | table => cases h

end Value

/-! ## Writing -/

namespace Localizer

open Phrasebook.Locale

/-- Whether a fault is an overflow, which is not recovered from. -/
def IsOverflow (fault : Fault) : Prop := fault = .decimalOverflow ∨ fault = .outOfRange

/-- What a directory answers for a value in a style, if the style has a pattern and the locale is
known to it. -/
def Answers (directory : Directory) (locale : String) (style : Option String) (v : Value)
    (answer : Except Refusal String) : Prop :=
  ∃ pattern profile, patternOf? style = some pattern ∧ find locale directory = .ok profile ∧
    profile.number pattern v = answer

/-- How writing a value as a number fails: the directory answers with an overflow, or it gives no
text and the value is too long to be shown. -/
inductive WriteFault (directory : Directory) (locale : String) (style : Option String) (v : Value) :
    Fault → Prop
  | overflow {fault : Fault} (overflow : IsOverflow fault)
    (answer : Answers directory locale style v (.error (.number fault))) :
    WriteFault directory locale style v fault
  | long (unwritten : ∀ text, ¬ Answers directory locale style v (.ok text))
    (recovered : ∀ fault, IsOverflow fault →
      ¬ Answers directory locale style v (.error (.number fault)))
    (long : v.IsLong) : WriteFault directory locale style v .tooManyDigits

section

variable {directory : Directory} {v : Value} {locale : String} {style : Option String}

/-- A directory has one answer. -/
theorem Answers.unique {answer answer' : Except Refusal String}
    (h : Answers directory locale style v answer)
    (h' : Answers directory locale style v answer') : answer' = answer := by
  obtain ⟨pattern, profile, hpattern, hprofile, rfl⟩ := h
  obtain ⟨pattern', profile', hpattern', hprofile', rfl⟩ := h'
  cases hpattern.symm.trans hpattern'
  cases hprofile.symm.trans hprofile'
  rfl

/-- Writing a value fails in one way only. -/
theorem WriteFault.unique {fault fault' : Fault}
    (hfault : WriteFault directory locale style v fault)
    (hfault' : WriteFault directory locale style v fault') : fault' = fault := by
  cases hfault with
  | overflow hoverflow hanswer =>
    cases hfault' with
    | overflow _ hanswer' =>
      cases hanswer.unique hanswer'
      rfl
    | long _ hrecovered => exact absurd hanswer (hrecovered _ hoverflow)
  | long _ hrecovered =>
    cases hfault' with
    | overflow hoverflow hanswer => exact absurd hanswer (hrecovered _ hoverflow)
    | long => rfl

/-- Where a directory gives neither a text nor an overflow, the only fault is that of showing the
value. -/
theorem writeFault_iff (hunwritten : ∀ text, ¬ Answers directory locale style v (.ok text))
    (hrecovered : ∀ fault, IsOverflow fault →
      ¬ Answers directory locale style v (.error (.number fault))) {fault : Fault} :
    WriteFault directory locale style v fault ↔ fault = .tooManyDigits ∧ v.IsLong := by
  constructor
  · rintro (⟨hoverflow, hanswer⟩ | ⟨-, -, hlong⟩)
    · exact absurd hanswer (hrecovered _ hoverflow)
    · exact ⟨rfl, hlong⟩
  · rintro ⟨rfl, hlong⟩
    exact .long hunwritten hrecovered hlong

/-- A value that is written fails in no way. -/
theorem not_writeFault_of_text {text : String}
    (h : Answers directory locale style v (.ok text)) (fault : Fault) :
    ¬ WriteFault directory locale style v fault := by
  rintro (⟨-, hanswer⟩ | ⟨hunwritten, -, -⟩)
  · cases h.unique hanswer
  · exact hunwritten text h

variable (locale style)

/-- After a refusal other than an overflow a plain value counts as one that cannot be written, if it
can be shown. -/
theorem cannotFormat_cases (h : v.IsScalar) {refusal : Refusal}
    (hrecovered : ∀ fault, refusal = .number fault → ¬ IsOverflow fault) :
    ((∃ reason, cannotFormat v locale style refusal = .noData .number locale style reason) ∧
      ¬ v.IsLong) ∨
    (cannotFormat v locale style refusal = .number .tooManyDigits ∧ v.IsLong) := by
  -- what is not recovered from apart, all refusals are treated as one
  have hsame : cannotFormat v locale style refusal = cannotFormat v locale style .unsuitable := by
    cases refusal with
    | unsuitable => rfl
    | number fault =>
      cases fault with
      | decimalOverflow => exact absurd (.inl rfl) (hrecovered _ rfl)
      | outOfRange => exact absurd (.inr rfl) (hrecovered _ rfl)
      | _ => rfl
  cases hshown : v.shown with
  | ok shown =>
    refine .inl ⟨⟨"cannot format " ++ shown, by rw [hsame, cannotFormat, hshown]⟩, fun hlong => ?_⟩
    rw [(Value.shown_eq_error_iff h).2 ⟨rfl, hlong⟩] at hshown
    cases hshown
  | error fault =>
    obtain ⟨rfl, hlong⟩ := (Value.shown_eq_error_iff h).1 hshown
    exact .inr ⟨by rw [hsame, cannotFormat, hshown], hlong⟩

variable (directory v)

/-- Without a pattern and a locale that are known there are no data; with them it is as the
directory answers. -/
theorem number_eq :
    ((∀ answer, ¬ Answers directory locale style v answer) ∧
      ∃ reason, number directory v locale style = .error (.noData .number locale style reason)) ∨
    ∃ answer, Answers directory locale style v answer ∧
      number directory v locale style = answer.mapError (cannotFormat v locale style) := by
  cases hpattern : patternOf? style with
  | none =>
    refine .inl ⟨?_, "unsupported style", by rw [number, hpattern]⟩
    rintro answer ⟨pattern, profile, hsome, -, -⟩
    cases hpattern.symm.trans hsome
  | some pattern =>
    cases hfind : find locale directory with
    | error codeFault =>
      refine .inl ⟨?_, "unknown locale", by rw [number, hpattern, profileOf, hfind]; rfl⟩
      rintro answer ⟨pattern, profile, -, hok, -⟩
      cases hfind.symm.trans hok
    | ok profile =>
      refine .inr ⟨_, ⟨pattern, profile, hpattern, hfind, rfl⟩, ?_⟩
      rw [number, hpattern, profileOf, hfind]
      rfl

variable {v}

/-- A value is written, or it is said that there are no data for it, or writing fails in one of the
ways above. -/
theorem number_cases (h : v.IsScalar) :
    ((∃ text, number directory v locale style = .ok text) ∧
      ∀ fault, ¬ WriteFault directory locale style v fault) ∨
    ((∃ reason, number directory v locale style = .error (.noData .number locale style reason)) ∧
      ∀ fault, WriteFault directory locale style v fault ↔ fault = .tooManyDigits ∧ v.IsLong) ∨
    (∃ fault, number directory v locale style = .error (.number fault) ∧
      WriteFault directory locale style v fault) := by
  rcases number_eq directory v locale style with ⟨hnone, hnumber⟩ | ⟨answer, hanswer, hnumber⟩
  · refine .inr (.inl ⟨hnumber, fun fault => ?_⟩)
    exact writeFault_iff (fun text => hnone _) fun fault _ => hnone _
  rw [hnumber]
  cases answer with
  | ok text => exact .inl ⟨⟨text, rfl⟩, not_writeFault_of_text hanswer⟩
  | error refusal =>
    by_cases hoverflow : ∃ fault, refusal = .number fault ∧ IsOverflow fault
    · obtain ⟨fault, rfl, hfault⟩ := hoverflow
      refine .inr (.inr ⟨fault, ?_, .overflow hfault hanswer⟩)
      rcases hfault with rfl | rfl <;> rfl
    · have hunwritten : ∀ text, ¬ Answers directory locale style v (.ok text) :=
        fun text hok => nomatch hanswer.unique hok
      have hrecovered : ∀ fault, IsOverflow fault →
          ¬ Answers directory locale style v (.error (.number fault)) := by
        intro fault hfault herror
        cases hanswer.unique herror
        exact hoverflow ⟨fault, rfl, hfault⟩
      have hrefusal : ∀ fault, refusal = .number fault → ¬ IsOverflow fault :=
        fun fault heq hfault => hoverflow ⟨fault, heq, hfault⟩
      rcases cannotFormat_cases locale style h hrefusal with
        ⟨⟨reason, hreason⟩, hshort⟩ | ⟨hlongFault, hlong⟩
      · refine .inr (.inl ⟨⟨reason, by rw [Except.mapError, hreason]⟩, fun fault => ?_⟩)
        exact writeFault_iff hunwritten hrecovered
      · refine .inr (.inr ⟨_, ?_, .long hunwritten hrecovered hlong⟩)
        rw [Except.mapError, hlongFault]

end

end Localizer

end Phrasebook
