/-
  The rules of the grammar, in a context.

  A context says how many arguments may be open at once and how many are.  The
  rule for arguments looks at it before it opens one, and hands a context in
  which one more is open to the messages in its branches.  So the three rules
  call each other, and nothing but the context tells when they stop to.

  Here the calls have a bound of their own, on the arguments that are opened
  inside one another.  It is not what the rule looks at: to run into the bound is
  told apart (`Stop.endless`), as it is for the loops.  That a bound as large as
  what the context has left is never met is shown with the proofs.
-/
import Phrasebook.Pattern.Walk

set_option autoImplicit false

namespace Phrasebook.Pattern

open Phrasebook.Source

/-! ## Contexts -/

/-- How many arguments may be open at once, and how many are. -/
structure Context where
  limit : Int
  opened : Int
  deriving DecidableEq, Repr, Inhabited

namespace Context

/-- Whether no argument may be opened any more. -/
def isFull (ctx : Context) : Bool := decide (ctx.limit ≤ ctx.opened)

/-- The context inside an argument. -/
def enter (ctx : Context) : Context := { ctx with opened := ctx.opened + 1 }

/-- The number of arguments that may still be opened inside one another. -/
def room (ctx : Context) : Nat := roomLeft ctx.limit ctx.opened

end Context

namespace Walk

/-! ## Rules in a context -/

/-- An argument, with a bound on the arguments that are opened inside one another. -/
def argumentWithin : Nat → Context → Rule Node
  | bound, ctx => fun c =>
    if ctx.isFull then fail c (.nestingDepthExceeded ctx.limit)
    else
      match bound with
      | 0 => throw .endless
      | bound + 1 =>
        argument ctx.limit (some (messageBy (argumentWithin bound ctx.enter) true)) c

/-- A message. -/
def messageWithin (bound : Nat) (ctx : Context) (inBranch : Bool) : Rule Message :=
  messageBy (argumentWithin bound ctx) inBranch

/-- The branches of an argument that was opened at `opened`. -/
def branchesWithin (bound : Nat) (ctx : Context) (typeName : String) (opened : Cursor) :
    Rule (Branches Message) :=
  branches (messageWithin bound ctx true) typeName opened

/-- An argument, with the bound that the context gives. -/
def argumentIn (ctx : Context) : Rule Node := argumentWithin ctx.room ctx

end Walk

end Phrasebook.Pattern
