/-
  A chain of chains answers as the chain of its backends.

  A request goes through the backends of a chain from left to right until one
  does not miss it, whatever the nesting.  Behind a miss the next member is asked
  and any other answer stands (`thenAsk`), so asking two lists of members one
  after the other is asking the list of both (`answerRest_append`), and a chain
  can be taken apart into its backends (`answer_eq_answerRest`).

  A miss leaves the backend as it is, so every backend that is asked is asked in
  the state in which the request found it, and the one that decides is the only
  one that changes (`DecidedBy`).
-/
import Phrasebook.Proofs.Backend.Freshness

set_option autoImplicit false

namespace Phrasebook

/-! ## Misses -/

/-- Whether a request finds nothing in a backend. -/
def Backend.Misses (b : Backend) (r : Request) : Prop :=
  ∃ locale key, (b.answer r).1 = .ok (.missing locale key)

/-- A request that finds nothing leaves the backend as it is: neither the cache of its engine nor
what is counted of it has changed. -/
theorem Backend.Misses.answer_eq {b : Backend} {r : Request} (h : b.Misses r) :
    b.answer r = (.ok (.missing r.locale r.path), b) := by
  refine answer_of_value?_none ?_
  cases hvalue : b.store.value? r.locale r.path with
  | none => rfl
  | some v =>
    obtain ⟨locale, key, hmissing⟩ := h
    by_cases htext : ∃ pattern, v = .text pattern
    · obtain ⟨pattern, rfl⟩ := htext
      rw [answer_of_value?_text hvalue] at hmissing
      cases hformat : (b.engine.format pattern r.arguments (some r.locale)).1 <;>
        simp [hformat, Except.map] at hmissing
    · rw [answer_of_value?_other hvalue fun pattern heq => htext ⟨pattern, heq⟩] at hmissing
      cases hmissing

namespace Fallback

variable {n : Nat} {r : Request}

/-! ## Members in order -/

/-- What a request is answered with, and the backends afterwards. -/
abbrev Answered (n : Nat) : Type := Except Engine.Failure Lookup × Vector Backend n

/-- Goes on behind an answer that found nothing.  Any other answer stands. -/
def thenAsk (a : Answered n) (next : String → String → Vector Backend n → Answered n) :
    Answered n :=
  match a with
  | (.ok (.missing locale key), bs) => next locale key bs
  | decided => decided

theorem thenAsk_assoc (a : Answered n)
    (next last : String → String → Vector Backend n → Answered n) :
    thenAsk (thenAsk a next) last =
      thenAsk a fun locale key bs => thenAsk (next locale key bs) last := by
  obtain ⟨result, bs⟩ := a
  rcases result with failure | ⟨v⟩ | ⟨locale, key⟩ <;> rfl

theorem answer_backend (i : Fin n) (bs : Vector Backend n) :
    answer r (.backend i) bs =
      (((bs.get i).answer r).1, bs.set i ((bs.get i).answer r).2 i.isLt) := by
  rw [answer]
  rfl

theorem answer_chain (first : Fallback n) (rest : List (Fallback n)) (bs : Vector Backend n) :
    answer r (.chain first rest) bs =
      thenAsk (answer r first bs) fun locale key bs =>
        answerRest r (.missing locale key) rest bs := by
  rw [answer]
  rfl

theorem answerRest_cons (last : Lookup) (member : Fallback n) (rest : List (Fallback n))
    (bs : Vector Backend n) :
    answerRest r last (member :: rest) bs =
      thenAsk (answer r member bs) fun locale key bs =>
        answerRest r (.missing locale key) rest bs := by
  rw [answerRest]
  rfl

/-- Members behind others are asked if those found nothing. -/
theorem answerRest_append (locale key : String) (front back : List (Fallback n))
    (bs : Vector Backend n) :
    answerRest r (.missing locale key) (front ++ back) bs =
      thenAsk (answerRest r (.missing locale key) front bs) fun locale key bs =>
        answerRest r (.missing locale key) back bs := by
  induction front generalizing locale key bs with
  | nil =>
    rw [List.nil_append, answerRest.eq_def r (.missing locale key) []]
    rfl
  | cons member rest ih =>
    rw [List.cons_append, answerRest_cons, answerRest_cons, thenAsk_assoc]
    simp only [ih]

/-! ## Chains without their nesting -/

theorem leaves_ne_nil : (t : Fallback n) → t.leaves ≠ []
  | .backend _ => by simp [leaves]
  | .chain first rest => by simp [leaves, leaves_ne_nil first]

mutual

/-- Asking a chain is asking its backends from left to right. -/
theorem answer_eq_answerRest (locale key : String) : (t : Fallback n) → (bs : Vector Backend n) →
    answer r t bs = answerRest r (.missing locale key) (t.leaves.map .backend) bs
  | .backend i, bs => by
    rw [leaves, List.map_singleton, answerRest_cons]
    -- behind the only member there is nothing to ask, and a miss stands too
    rcases hanswer : answer r (.backend i) bs with ⟨failure | ⟨v⟩ | ⟨locale, key⟩, bs'⟩ <;>
      simp [thenAsk, answerRest]
  | .chain first rest, bs => by
    rw [leaves, List.map_append, answerRest_append, answer_chain,
      ← answer_eq_answerRest locale key first bs]
    simp only [← answerRest_leavesOfList _ _ rest]

theorem answerRest_leavesOfList (locale key : String) : (members : List (Fallback n)) →
    (bs : Vector Backend n) → answerRest r (.missing locale key) members bs =
      answerRest r (.missing locale key) ((leavesOfList members).map .backend) bs
  | [], bs => by rw [leavesOfList, List.map_nil]
  | member :: rest, bs => by
    rw [leavesOfList, List.map_append, answerRest_append, answerRest_cons,
      ← answer_eq_answerRest locale key member bs]
    simp only [← answerRest_leavesOfList _ _ rest]

end

/-! ## The backend that decides -/

section Decide

variable {bs : Vector Backend n}

/-- Backends that miss a request are passed over, and are left as they are. -/
theorem answerRest_of_misses {front : List (Fin n)} (h : ∀ i ∈ front, (bs.get i).Misses r)
    (back : List (Fallback n)) :
    answerRest r (.missing r.locale r.path) (front.map .backend ++ back) bs =
      answerRest r (.missing r.locale r.path) back bs := by
  induction front with
  | nil => rfl
  | cons i rest ih =>
    have hanswer := (h i List.mem_cons_self).answer_eq
    have hset : bs.set i (bs.get i) i.isLt = bs := Vector.set_getElem_self i.isLt
    rw [List.map_cons, List.cons_append, answerRest_cons, answer_backend, hanswer]
    simp only [thenAsk, hset]
    exact ih fun j hj => h j (List.mem_cons_of_mem i hj)

/-- A backend that does not miss a request ends it. -/
theorem thenAsk_of_not_misses {i : Fin n} (h : ¬ (bs.get i).Misses r)
    (next : String → String → Vector Backend n → Answered n) :
    thenAsk (answer r (.backend i) bs) next = answer r (.backend i) bs := by
  rw [answer_backend]
  rcases hanswer : ((bs.get i).answer r).1 with failure | ⟨v⟩ | ⟨locale, key⟩
  · rfl
  · rfl
  · exact absurd ⟨locale, key, hanswer⟩ h

/-- What an answer owes to one of some backends: those in front of it miss the request, the answer
is its own, and of all backends it alone may have changed. -/
structure DecidedBy (r : Request) (bs : Vector Backend n) (backends : List (Fin n)) (i : Fin n)
    (a : Answered n) : Prop where
  first : ∃ earlier later, backends = earlier ++ i :: later ∧ ∀ j ∈ earlier, (bs.get j).Misses r
  answer_eq : a.1 = ((bs.get i).answer r).1
  backend_eq : a.2.get i = ((bs.get i).answer r).2
  frame : ∀ j, j ≠ i → a.2.get j = bs.get j

theorem decidedBy_of_not_misses {t : Fallback n} {earlier later : List (Fin n)} {i : Fin n}
    (hsplit : t.leaves = earlier ++ i :: later) (hearlier : ∀ j ∈ earlier, (bs.get j).Misses r)
    (h : ¬ (bs.get i).Misses r) : DecidedBy r bs t.leaves i (t.answer r bs) := by
  have hanswer : t.answer r bs =
      (((bs.get i).answer r).1, bs.set i ((bs.get i).answer r).2 i.isLt) := by
    rw [answer_eq_answerRest r.locale r.path, hsplit, List.map_append,
      answerRest_of_misses hearlier, List.map_cons, answerRest_cons, thenAsk_of_not_misses h,
      answer_backend]
  rw [hanswer]
  refine ⟨⟨earlier, later, hsplit, hearlier⟩, rfl, Vector.getElem_set_self i.isLt, ?_⟩
  intro j hj
  have hne : (i : Nat) ≠ j := fun heq => hj (Fin.ext heq.symm)
  exact Vector.getElem_set_ne i.isLt j.isLt hne

/-- If every backend misses a request, so does the chain, and nothing has changed. -/
theorem answer_of_misses {t : Fallback n} (h : ∀ i ∈ t.leaves, (bs.get i).Misses r) :
    t.answer r bs = (.ok (.missing r.locale r.path), bs) := by
  rw [answer_eq_answerRest r.locale r.path, ← List.append_nil (t.leaves.map _),
    answerRest_of_misses h, answerRest.eq_def]

end Decide

/-- Chains of chains may be nested in any way, and have the same backend in several places: a
request is answered, and the backends are left, as by one chain of the backends from left to right.
Either the first backend that does not miss the request decides, with what it found or with its
failure, and no backend behind it has changed in any way; or every backend misses the request, the
last one's answer is given, and no backend at all has changed. -/
theorem answer_leaves (t : Fallback n) (r : Request) (bs : Vector Backend n) :
    ∃ flat, ofList? (t.leaves.map .backend) = .ok flat ∧ t.answer r bs = flat.answer r bs ∧
      ((∃ i v, DecidedBy r bs t.leaves i (t.answer r bs) ∧
          ((bs.get i).answer r).1 = .ok (.found v)) ∨
        (∃ i failure, DecidedBy r bs t.leaves i (t.answer r bs) ∧
          ((bs.get i).answer r).1 = .error failure) ∨
        ∃ earlier i, t.leaves = earlier ++ [i] ∧ (∀ j ∈ t.leaves, (bs.get j).Misses r) ∧
          t.answer r bs = (((bs.get i).answer r).1, bs)) := by
  obtain ⟨first, rest, hleaves⟩ := List.exists_cons_of_ne_nil t.leaves_ne_nil
  refine ⟨.chain (.backend first) (rest.map .backend), by rw [hleaves]; rfl, ?_, ?_⟩
  · rw [answer_eq_answerRest r.locale r.path, hleaves, List.map_cons, answerRest_cons,
      answer_chain]
  · classical
    by_cases hall : ∀ i ∈ t.leaves, (bs.get i).Misses r
    · refine .inr (.inr ?_)
      refine ⟨t.leaves.dropLast, t.leaves.getLast t.leaves_ne_nil,
        (List.dropLast_append_getLast t.leaves_ne_nil).symm, hall, ?_⟩
      rw [answer_of_misses hall, (hall _ (List.getLast_mem t.leaves_ne_nil)).answer_eq]
    · push Not at hall
      obtain ⟨i, hfind⟩ : ∃ i, t.leaves.find? (fun i => ¬ (bs.get i).Misses r) = some i := by
        simpa [← Option.isSome_iff_exists] using hall
      obtain ⟨hi, earlier, later, hsplit, hearlier⟩ := List.find?_eq_some_iff_append.1 hfind
      simp only [decide_eq_true_eq] at hi
      have hdecided := decidedBy_of_not_misses hsplit (fun j hj => by simpa using hearlier j hj) hi
      rcases hanswer : ((bs.get i).answer r).1 with failure | ⟨v⟩ | ⟨locale, key⟩
      · exact .inr (.inl ⟨i, failure, hdecided, hanswer⟩)
      · exact .inl ⟨i, v, hdecided, hanswer⟩
      · exact absurd ⟨locale, key, hanswer⟩ hi

end Fallback

end Phrasebook
