/-
  A cache that drops what was used least recently.

  A cache keeps up to `capacity` values by key.  Its entries are in the order of
  their last use, the least recent one first: setting a key is a use, and so is
  finding it, but asking whether it is there is not.  A new key in a full cache
  takes the place of the first entry.

  Hits, misses and dropped entries are counted until the cache is cleared.
-/
import Phrasebook.Number.Binary64

set_option autoImplicit false

namespace Phrasebook

open Phrasebook.Number

/-- A bounded table of values by key, and what has happened to it. -/
structure Cache (α : Type) where
  /-- the least recently used entry comes first -/
  entries : List (String × α) := []
  capacity : Nat
  hits : Nat := 0
  misses : Nat := 0
  evictions : Nat := 0
  capacity_pos : 0 < capacity

/-- Why a cache cannot be built: its capacity is not positive. -/
inductive CapacityFault where
  | notPositive
  deriving DecidableEq, Repr, Inhabited

/-- What is wrong with the capacity of a cache. -/
def CapacityFault.message : CapacityFault → String
  | .notPositive => "maxsize must be positive"

/-- What is counted of a cache. -/
structure Statistics where
  size : Nat
  capacity : Nat
  hits : Nat
  misses : Nat
  evictions : Nat
  /-- hits in a hundred lookups -/
  hitRate : Binary64
  deriving DecidableEq, Repr, Inhabited

namespace Cache

variable {α ε : Type}

/-- The most entries of a cache for which no capacity is given. -/
def defaultCapacity : Nat := 1000

theorem defaultCapacity_pos : 0 < defaultCapacity := by decide

/-- An empty cache of the default capacity. -/
def ofDefault : Cache α := { capacity := defaultCapacity, capacity_pos := defaultCapacity_pos }

instance : Inhabited (Cache α) := ⟨ofDefault⟩

theorem toNat_pos {n : Int} (h : 0 < n) : 0 < n.toNat := Int.pos_iff_toNat_pos.1 h

/-- An empty cache. -/
def make? (capacity : Int) : Except CapacityFault (Cache α) :=
  if h : 0 < capacity then .ok { capacity := capacity.toNat, capacity_pos := toNat_pos h }
  else .error .notPositive

/-! ## Operations -/

/-- The value of a key, without using it. -/
def find? (c : Cache α) (key : String) : Option α := c.entries.lookup key

/-- Whether a key is there. -/
def contains (c : Cache α) (key : String) : Bool := (c.find? key).isSome

/-- The entries of all other keys. -/
def without (key : String) (entries : List (String × α)) : List (String × α) :=
  entries.filter fun e => e.1 ≠ key

/-- The value of a key, which is used by it. -/
def get (c : Cache α) (key : String) : Option α × Cache α :=
  match c.find? key with
  | some value =>
    (some value,
      { c with entries := without key c.entries ++ [(key, value)], hits := c.hits + 1 })
  | none => (none, { c with misses := c.misses + 1 })

/-- Sets a key, which is used by it.  A new key in a full cache drops the entry that was used least
recently. -/
def set (c : Cache α) (key : String) (value : α) : Cache α :=
  if c.contains key then { c with entries := without key c.entries ++ [(key, value)] }
  else if c.capacity ≤ c.entries.length then
    { c with entries := c.entries.drop 1 ++ [(key, value)], evictions := c.evictions + 1 }
  else { c with entries := c.entries ++ [(key, value)] }

/-- The value of a key, computed and set if it is not there.  The computation may change the cache
too, and if it fails nothing is set. -/
def fetch (c : Cache α) (key : String) (compute : Cache α → Except ε α × Cache α) :
    Except ε α × Cache α :=
  match c.get key with
  | (some value, used) => (.ok value, used)
  | (none, missed) =>
    match compute missed with
    | (.ok value, computed) => (.ok value, computed.set key value)
    | (.error e, computed) => (.error e, computed)

/-- Drops every entry and counts afresh. -/
def clear (c : Cache α) : Cache α :=
  { capacity := c.capacity, capacity_pos := c.capacity_pos }

/-- The keys, the least recently used one first. -/
def keys (c : Cache α) : List String := c.entries.map Prod.fst

/-! ## Statistics -/

/-- Hits in a hundred lookups, with two places. -/
def hitRate (hits misses : Nat) : Binary64 :=
  if hits + misses = 0 then .zero false
  else ((Binary64.ofRatio false hits (hits + misses)).mulNat 100).roundPlaces 2

/-- What is counted of a cache. -/
def statistics (c : Cache α) : Statistics where
  size := c.entries.length
  capacity := c.capacity
  hits := c.hits
  misses := c.misses
  evictions := c.evictions
  hitRate := hitRate c.hits c.misses

end Cache

end Phrasebook
