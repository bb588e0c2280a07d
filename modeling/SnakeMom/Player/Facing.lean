import SnakeMom.Player.Walk

/-!
# Where the player faces

The picture of the player has a direction of its own, which the block keeps apart from the
inertia.

* `lastKey` is the last key of a direction since the last reset.
* `FacingInv` is the invariant of a run: the registers of the requested turn hold that key,
  and before the first one the player rests.
* `playerDir_faces` says what is drawn, and when it is where the player goes.
-/

namespace SnakeMom

open GridWalk Packed Sync

/-- The side of the last key of a direction that a tick has seen since the last reset. -/
def lastKey (i : Nat → PlayerIn) : Nat → Option Side
  | 0 => none
  | n + 1 => if (i n).Reset then none else (keySide (i n).keycode).or (lastKey i n)

/-- The direction that is drawn for a side.  Up is drawn for none. -/
def facing : Option Side → BitVec 2
  | some .right => 0b00
  | some .left => 0b01
  | some .down => 0b11
  | some .up => 0b10
  | none => 0b10

theorem facing_some_inj {d e : Side} (h : facing (some d) = facing (some e)) : d = e := by
  revert h
  cases d <;> cases e <;> decide

/-- The registers hold the last key. -/
structure FacingInv (s : PlayerReg) (last : Option Side) : Prop where
  posXTurnPrev : s.posXTurnPrev = stepX last
  posYTurnPrev : s.posYTurnPrev = stepY last
  rests : last = none → s.walker.heading = none

theorem facingInv_reset : FacingInv .reset none := ⟨rfl, rfl, fun _ => headingOf_step none⟩

section Tick

variable {s : PlayerReg} {last : Option Side}

/-- The requested turn is that of the last key, the new one included. -/
theorem FacingInv.turnRequest (h : FacingInv s last) (t : Turns) (keycode : BitVec 16) :
    (SnakeMom.turnRequest s t keycode).posXTurn = stepX ((keySide keycode).or last) ∧
      (SnakeMom.turnRequest s t keycode).posYTurn = stepY ((keySide keycode).or last) := by
  rw [turnRequest_eq]
  cases keySide keycode with
  | none => exact ⟨h.posXTurnPrev, h.posYTurnPrev⟩
  | some k => exact ⟨rfl, rfl⟩

theorem FacingInv.tick (hs : PlayerInv s) (h : FacingInv s last) (l : Layout)
    (keycode : BitVec 16) :
    FacingInv (playerTick s l keycode) ((keySide keycode).or last) where
  posXTurnPrev := (h.turnRequest _ keycode).1
  posYTurnPrev := (h.turnRequest _ keycode).2
  rests := by
    intro hnone
    obtain ⟨hkey, hlast⟩ := Option.or_eq_none_iff.1 hnone
    rw [playerTick_walker hs, playerTarget, playerHeading, hkey, h.rests hlast]
    split
    · rfl
    · rfl

/-- What is drawn shows the requested turn. -/
theorem FacingInv.playerDir (h : FacingInv s last) (l : Layout) (keycode : BitVec 16) :
    SnakeMom.playerDir s l keycode = facing ((keySide keycode).or last) := by
  obtain ⟨hx, hy⟩ := h.turnRequest (s.turns l) keycode
  rw [SnakeMom.playerDir, hx, hy]
  rcases (keySide keycode).or last with _ | d
  · rfl
  · cases d <;> rfl

end Tick

theorem playerMovement_facing (i : Nat → PlayerIn) (n : Nat) :
    FacingInv (playerMovement.run i n) (lastKey i n) := by
  induction n with
  | zero => exact facingInv_reset
  | succ n ih =>
    rw [Machine.run_succ, lastKey]
    change FacingInv (playerMove _ _) _
    unfold playerMove
    split
    · exact facingInv_reset
    · exact ih.tick (playerMovement_inv i n) _ _

/-- In every run, whatever the walls and the motion: the player is drawn with the direction
of the last key of a direction since the last reset, the current one included, even if no
turn was taken.  A moving player is so drawn facing where it goes exactly if that key is the
one of its heading. -/
theorem playerDir_faces (i : Nat → PlayerIn) (n : Nat) (l : Layout) (keycode : BitVec 16) :
    playerDir (playerMovement.run i n) l keycode =
        facing ((keySide keycode).or (lastKey i n)) ∧
      ∀ d, (playerMovement.run i n).walker.heading = some d →
        (playerDir (playerMovement.run i n) l keycode = facing (some d) ↔
          (keySide keycode).or (lastKey i n) = some d) := by
  have hfacing := playerMovement_facing i n
  have hdir := hfacing.playerDir l keycode
  refine ⟨hdir, fun d hd => ?_⟩
  rw [hdir]
  constructor
  · intro h
    cases hlast : (keySide keycode).or (lastKey i n) with
    | none =>
      rw [hfacing.rests (Option.or_eq_none_iff.1 hlast).2] at hd
      cases hd
    | some e =>
      rw [hlast] at h
      rw [facing_some_inj h]
  · intro h
    rw [h]

end SnakeMom
