/-
  Backends: the texts of a store, and chains of backends that fall back on each other.

  A backend looks a key up in its store and formats what it finds with its engine
  if it is a text; any other value is the answer as it is.  A chain asks its
  members in order and answers with the first value that one of them finds.  A
  fault of a member is a fault of the chain, and no member behind it is asked.

  A chain names its backends by number, so that a backend can stand in several
  chains, and several times in one, with one store and one engine.
-/
import Phrasebook.Engine
import Phrasebook.Store

set_option autoImplicit false

namespace Phrasebook

/-- What a backend is asked for. -/
structure Request where
  locale : String
  key : String
  scope : Scope := .outermost
  separator : String := pathSeparator
  arguments : Arguments := []
  deriving Repr, Inhabited

/-! ## Backends -/

/-- A store, and the engine for the patterns that it holds. -/
structure Backend where
  store : Store := {}
  engine : Engine := {}
  deriving Inhabited

namespace Backend

/-- What a request finds. -/
def lookup (b : Backend) (r : Request) : Lookup :=
  b.store.resolve r.locale r.key r.scope r.separator

/-- Answers a request. -/
def answer (b : Backend) (r : Request) : Except Engine.Failure Lookup × Backend :=
  match b.lookup r with
  | .found (.text pattern) =>
    let (result, engine) := b.engine.format pattern r.arguments (some r.locale)
    (result.map fun text => .found (.text text), { b with engine })
  | result => (.ok result, b)

/-- A request that finds nothing leaves the backend as it is. -/
theorem answer_of_missing {b : Backend} {r : Request} {locale key : String}
    (h : b.lookup r = .missing locale key) : b.answer r = (.ok (.missing locale key), b) := by
  simp [answer, h]

end Backend

/-! ## Chains -/

/-- A backend, by its number, or a chain of at least one member. -/
inductive Fallback (n : Nat) where
  | backend (i : Fin n)
  | chain (first : Fallback n) (rest : List (Fallback n))
  deriving Repr

/-- Why a chain cannot be built: it has no members. -/
inductive ChainFault where
  | noMembers
  deriving DecidableEq, Repr, Inhabited

/-- What is wrong with a chain that cannot be built. -/
def ChainFault.message : ChainFault → String
  | .noMembers => "FallbackChain needs at least one backend"

namespace Fallback

variable {n : Nat}

/-- The chain of some members. -/
def ofList? : List (Fallback n) → Except ChainFault (Fallback n)
  | [] => .error .noMembers
  | first :: rest => .ok (.chain first rest)

/-- How many members a chain has of its own; a backend is one. -/
def size : Fallback n → Nat
  | .backend _ => 1
  | .chain _ rest => rest.length + 1

mutual

/-- Answers a request. -/
def answer (r : Request) :
    Fallback n → Vector Backend n → Except Engine.Failure Lookup × Vector Backend n
  | .backend i, bs =>
    let (result, b) := bs[i].answer r
    (result, bs.set i b)
  | .chain first rest, bs =>
    match answer r first bs with
    | (.ok (.missing locale key), bs) => answerRest r (.missing locale key) rest bs
    | decided => decided

/-- Asks members in order, after one that found nothing, up to one that decides the answer. -/
def answerRest (r : Request) (last : Lookup) :
    List (Fallback n) → Vector Backend n → Except Engine.Failure Lookup × Vector Backend n
  | [], bs => (.ok last, bs)
  | member :: rest, bs =>
    match answer r member bs with
    | (.ok (.missing locale key), bs) => answerRest r (.missing locale key) rest bs
    | decided => decided

end

mutual

/-- The numbers of the backends of a chain, from left to right. -/
def leaves : Fallback n → List (Fin n)
  | .backend i => [i]
  | .chain first rest => leaves first ++ leavesOfList rest

/-- The numbers of the backends of several members. -/
def leavesOfList : List (Fallback n) → List (Fin n)
  | [] => []
  | member :: rest => leaves member ++ leavesOfList rest

end

end Fallback

end Phrasebook
