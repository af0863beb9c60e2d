/-
  Sessions: everything that can be done with a cache.

  A session is a program that works on a cache.  What it does next may depend on
  all answers it was given, and the computation of a fetch is a session again:
  it may use the cache, set the very key that is being fetched, clear everything
  and then give a value or fail.

  What a session does is taken apart into events.  A fetch begins by looking for
  its key; if that fails, the events of its computation follow, and last the
  value is stored, unless there is none.  Replaying the events of a session
  leaves the cache as the session does (`replay_events`), so the caches met
  along a session are those after the prefixes of its events.
-/
import Mathlib.Data.List.DropRight
import Phrasebook.Proofs.Cache.Operations

set_option autoImplicit false

namespace Phrasebook.Cache

variable {α ε : Type}

/-! ## Sessions -/

/-- A program over a cache that ends with a value or a failure. -/
inductive Session (α ε : Type) where
  | done (outcome : Except ε α)
  | get (key : String) (next : Option α → Session α ε)
  | set (key : String) (value : α) (next : Session α ε)
  | contains (key : String) (next : Bool → Session α ε)
  | clear (next : Session α ε)
  | fetch (key : String) (compute : Session α ε) (next : Except ε α → Session α ε)

/-- What a session gives, and the cache it leaves. -/
def Session.run : Session α ε → Cache α → Except ε α × Cache α
  | .done outcome, c => (outcome, c)
  | .get key next, c => (next (c.get key).1).run (c.get key).2
  | .set key value next, c => next.run (c.set key value)
  | .contains key next, c => (next (c.contains key)).run c
  | .clear next, c => next.run c.clear
  | .fetch key compute next, c =>
    (next (c.fetch key compute.run).1).run (c.fetch key compute.run).2

/-! ## Events -/

/-- One access to a cache. -/
inductive Event (α : Type) where
  /-- a get, or the beginning of a fetch -/
  | look (key : String)
  /-- a set, or the end of a fetch that computed a value -/
  | store (key : String) (value : α)
  | ask (key : String)
  | clear

/-- The cache after an event. -/
def step (c : Cache α) : Event α → Cache α
  | .look key => (c.get key).2
  | .store key value => c.set key value
  | .ask _ => c
  | .clear => c.clear

/-- The cache after some events. -/
def replay (c : Cache α) (events : List (Event α)) : Cache α := events.foldl step c

/-- What a fetch stores at its end. -/
def storing (key : String) : Except ε α → List (Event α)
  | .ok value => [.store key value]
  | .error _ => []

/-- The events of a session that begins with a given cache. -/
def Session.events : Session α ε → Cache α → List (Event α)
  | .done _, _ => []
  | .get key next, c => .look key :: (next (c.get key).1).events (c.get key).2
  | .set key value next, c => .store key value :: next.events (c.set key value)
  | .contains key next, c => .ask key :: (next (c.contains key)).events c
  | .clear next, c => .clear :: next.events c.clear
  | .fetch key compute next, c =>
    let computing :=
      if c.contains key then []
      else compute.events (c.get key).2 ++ storing key (compute.run (c.get key).2).1
    .look key :: (computing ++
      (next (c.fetch key compute.run).1).events (c.fetch key compute.run).2)

theorem replay_cons (c : Cache α) (event : Event α) (events : List (Event α)) :
    c.replay (event :: events) = (c.step event).replay events := rfl

theorem replay_append (c : Cache α) (events others : List (Event α)) :
    c.replay (events ++ others) = (c.replay events).replay others := List.foldl_append

/-- A session leaves the cache that the replay of its events leaves. -/
theorem replay_events (session : Session α ε) (c : Cache α) :
    c.replay (session.events c) = (session.run c).2 := by
  induction session generalizing c with
  | done outcome => rfl
  | get key next ih => exact ih (c.get key).1 (c.get key).2
  | set key value next ih => exact ih (c.set key value)
  | contains key next ih => exact ih (c.contains key) c
  | clear next ih => exact ih c.clear
  | fetch key compute next ihCompute ihNext =>
    have hrest := ihNext (c.fetch key compute.run).1 (c.fetch key compute.run).2
    rw [Session.run, Session.events, replay_cons, replay_append, step, ← hrest]
    congr 1
    rcases fetch_cases c key compute.run with
      ⟨value, hmem, -, h⟩ | ⟨value, hmem, ho, h⟩ | ⟨e, hmem, ho, h⟩
    · rw [if_pos (contains_iff.2 hmem), h]
      rfl
    · rw [if_neg (fun hc => hmem (contains_iff.1 hc)), replay_append, ihCompute, ho, h]
      rfl
    · rw [if_neg (fun hc => hmem (contains_iff.1 hc)), replay_append, ihCompute, ho, h]
      rfl

example :
    (Session.fetch (ε := String) "b" (.clear (.set "b" 2 (.done (.ok 3)))) .done).events
        (ofDefault : Cache Nat) =
      [.look "b", .clear, .store "b" 2, .store "b" 3] := rfl

/-! ## Histories -/

/-- An event together with the cache that it met. -/
structure Moment (α : Type) where
  before : Cache α
  event : Event α

/-- The moments of some events, from a given cache on. -/
def moments : Cache α → List (Event α) → List (Moment α)
  | _, [] => []
  | c, event :: rest => ⟨c, event⟩ :: moments (c.step event) rest

theorem moments_append (c : Cache α) (events others : List (Event α)) :
    moments c (events ++ others) = moments c events ++ moments (c.replay events) others := by
  induction events generalizing c with
  | nil => rfl
  | cons event rest ih => exact congrArg (⟨c, event⟩ :: ·) (ih (c.step event))

def Event.isClear : Event α → Bool
  | .clear => true
  | _ => false

/-- The part of a history that lies behind the last clear. -/
def sinceClear (history : List (Moment α)) : List (Moment α) :=
  history.rtakeWhile fun m => !m.event.isClear

theorem sinceClear_append_singleton (history : List (Moment α)) (m : Moment α) :
    sinceClear (history ++ [m]) =
      if m.event.isClear then [] else sinceClear history ++ [m] := by
  rw [sinceClear, List.rtakeWhile_concat]
  cases m.event.isClear <;> rfl

namespace Moment

/-- The key that is used at a moment.  A look that fails uses none, and asking is no use. -/
def use? (m : Moment α) : Option String :=
  match m.event with
  | .look key => if m.before.contains key then some key else none
  | .store key _ => some key
  | _ => none

/-- What is stored at a moment. -/
def store? (m : Moment α) : Option (String × α) :=
  match m.event with
  | .store key value => some (key, value)
  | _ => none

/-- Whether a get or a fetch begins at a moment. -/
def isLook (m : Moment α) : Bool :=
  match m.event with
  | .look _ => true
  | _ => false

/-- Whether a new key is entered at a moment. -/
def isInsertion (m : Moment α) : Bool :=
  match m.event with
  | .store key _ => !m.before.contains key
  | _ => false

end Moment

/-- The keys used in a history, in the order of the uses. -/
def uses (history : List (Moment α)) : List String := history.filterMap Moment.use?

/-- What was stored in a history, in order. -/
def stores (history : List (Moment α)) : List (String × α) := history.filterMap Moment.store?

/-- The number of gets and fetches that began in a history. -/
def looks (history : List (Moment α)) : Nat := history.countP Moment.isLook

/-- The number of new keys entered in a history. -/
def insertions (history : List (Moment α)) : Nat := history.countP Moment.isInsertion

section

variable (history : List (Moment α)) (m : Moment α)

theorem uses_append_singleton : uses (history ++ [m]) = uses history ++ m.use?.toList := by
  rw [uses, List.filterMap_append, ← uses]
  cases huse : m.use? with
  | none => rw [List.filterMap_cons_none huse, List.filterMap_nil, Option.toList_none]
  | some key => rw [List.filterMap_cons_some huse, List.filterMap_nil, Option.toList_some]

theorem stores_append_singleton : stores (history ++ [m]) = stores history ++ m.store?.toList := by
  rw [stores, List.filterMap_append, ← stores]
  cases hstore : m.store? with
  | none => rw [List.filterMap_cons_none hstore, List.filterMap_nil, Option.toList_none]
  | some pair => rw [List.filterMap_cons_some hstore, List.filterMap_nil, Option.toList_some]

theorem looks_append_singleton : looks (history ++ [m]) = looks history + m.isLook.toNat := by
  rw [looks, List.countP_append, ← looks, List.countP_singleton]
  cases m.isLook <;> rfl

theorem insertions_append_singleton :
    insertions (history ++ [m]) = insertions history + m.isInsertion.toNat := by
  rw [insertions, List.countP_append, ← insertions, List.countP_singleton]
  cases m.isInsertion <;> rfl

end

end Phrasebook.Cache
