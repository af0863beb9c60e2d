/-
  A context is the room that it leaves.

  Reading in a context is reading with room for the arguments that the context
  lets be opened, whatever bound there is on the arguments inside one another,
  if it is no smaller than that room (`argumentWithin_eq`).  So the check that a
  context makes is the only one that takes effect, and what is known of the
  rules with room for a number of arguments is known of the rules in a context.
-/
import Phrasebook.Pattern.Context
import Phrasebook.Proofs.Pattern.Walk

set_option autoImplicit false

namespace Phrasebook.Pattern

open Phrasebook.Source

/-! ## Room -/

namespace Context

variable {ctx : Context}

theorem isFull_iff_room : ctx.isFull = true ↔ ctx.room = 0 := by
  rw [isFull, decide_eq_true_iff, room, roomLeft]
  omega

theorem room_le_iff {bound : Nat} : ctx.room ≤ bound ↔ ctx.limit ≤ ctx.opened + bound := by
  rw [room, roomLeft]
  omega

/-- An argument takes one place of those that are left. -/
theorem room_eq_enter_add_one (h : ctx.isFull = false) : ctx.room = ctx.enter.room + 1 := by
  rw [isFull, decide_eq_false_iff_not] at h
  simp only [room, roomLeft, enter]
  omega

end Context

namespace Walk

/-- The rule for the bodies of the branches of an argument that takes a place of those left. -/
def bodyWithin (limit : Int) : Nat → Option (Rule Message)
  | 0 => none
  | room + 1 => some (message limit room true)

theorem message_eq (limit : Int) (room : Nat) (inBranch : Bool) :
    message limit room inBranch = messageBy (argument limit (bodyWithin limit room)) inBranch := by
  cases room <;> rfl

/-! ## Rules in a context -/

section Bound

variable {bound : Nat} {ctx : Context}

theorem argumentWithin_of_full (h : ctx.isFull = true) :
    argumentWithin bound ctx = argument ctx.limit none := by
  funext c
  rw [argumentWithin]
  exact if_pos h

theorem argumentWithin_succ (h : ctx.isFull = false) :
    argumentWithin (bound + 1) ctx =
      argument ctx.limit (some (messageBy (argumentWithin bound ctx.enter) true)) := by
  funext c
  rw [argumentWithin]
  exact if_neg (Bool.eq_false_iff.1 h)

/-- The bound on the arguments inside one another is only a bound. -/
theorem argumentWithin_eq (h : ctx.room ≤ bound) :
    argumentWithin bound ctx = argument ctx.limit (bodyWithin ctx.limit ctx.room) := by
  induction bound generalizing ctx with
  | zero =>
    have hroom := Nat.le_zero.1 h
    rw [argumentWithin_of_full (Context.isFull_iff_room.2 hroom), hroom, bodyWithin]
  | succ bound ih =>
    cases hfull : ctx.isFull with
    | true => rw [argumentWithin_of_full hfull, Context.isFull_iff_room.1 hfull, bodyWithin]
    | false =>
      have hroom := Context.room_eq_enter_add_one hfull
      have hinner : ctx.enter.room ≤ bound := by omega
      rw [argumentWithin_succ hfull, ih hinner, ← message_eq, hroom, bodyWithin]
      rfl

theorem messageWithin_eq (h : ctx.room ≤ bound) (inBranch : Bool) :
    messageWithin bound ctx inBranch = message ctx.limit ctx.room inBranch := by
  rw [messageWithin, argumentWithin_eq h, message_eq]

theorem bodyWithin_told (source : List Char) (limit : Int) (room : Nat) :
    Option.Rel (MessageTold source) (bodyWithin limit room) (Pattern.bodyWithin limit room) := by
  cases room with
  | zero => exact .none
  | succ room => exact .some (message_cursorAt source limit room true)

/-- Walking an argument in a context tells what is read with the room of the context. -/
theorem argumentWithin_cursorAt (h : ctx.room ≤ bound) {source s : List Char}
    (hs : s <:+ source) :
    argumentWithin bound ctx (cursorAt source s) = tell source (placed source)
      (Pattern.argument ctx.limit (Pattern.bodyWithin ctx.limit ctx.room) s) := by
  rw [argumentWithin_eq h]
  exact argument_cursorAt ctx.limit (bodyWithin_told source ctx.limit ctx.room) hs

end Bound

end Walk

/-- A parser walks a message in a context in which nothing is open yet. -/
theorem Parser.walk_eq_messageWithin (p : Parser) {bound : Nat} (h : p.maxNestingDepth ≤ bound)
    {pattern : String} (hsize : p.rejects pattern.toList.length = false) :
    p.walk pattern =
      (Walk.messageWithin bound ⟨p.maxNestingDepth, 0⟩ false ⟨pattern.toList, 0⟩).map Prod.fst := by
  have hroom : (Context.mk p.maxNestingDepth 0).room ≤ bound := Context.room_le_iff.2 (by simpa)
  have hlimit : (Context.mk p.maxNestingDepth 0).room = p.maxNestingDepth.toNat := by
    rw [Context.room, roomLeft, Int.sub_zero]
  rw [Walk.messageWithin_eq hroom, hlimit, Parser.walk]
  simp only [hsize, Bool.false_eq_true, ↓reduceIte]
  cases Walk.message p.maxNestingDepth p.maxNestingDepth.toNat false ⟨pattern.toList, 0⟩ <;> rfl

end Phrasebook.Pattern
