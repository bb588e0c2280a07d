import SnakeMom.Player.Walk
import SnakeMom.Ghost.Walk

/-!
# The movers stay on the grid

No bounds check guards the 10-bit position registers.  What keeps them in range is
that `wallVerify` turns every tile past the border back.  This module joins the
invariants of the two movers in terms of their registers, for arbitrary layouts.
-/

namespace SnakeMom

open GridWalk Packed Sync

/-- The position registers are between `0` and `416`, on a line of the grid. -/
def OnGrid (posX posY : BitVec 10) : Prop :=
  posX.toNat ≤ 416 ∧ posY.toNat ≤ 416 ∧ (32 ∣ posX.toNat ∨ 32 ∣ posY.toNat)

/-- The number of pixels between two positions, over both axes, with the registers
read as numbers. -/
def pixels (posX posY posX' posY' : BitVec 10) : Nat :=
  ((posX'.toNat : Int) - posX.toNat).natAbs + ((posY'.toNat : Int) - posY.toNat).natAbs

theorem onGrid_of_walker {posX posY : BitVec 10} {w : Walker} (hx : w.x = posX.toNat)
    (hy : w.y = posY.toNat) (ha : Aligned 32 w) (hb : InBox 0 416 w) : OnGrid posX posY := by
  have hline := ha.on_line
  obtain ⟨_, hx1, _, hy1⟩ := hb
  rw [hx] at hx1 hline
  rw [hy] at hy1 hline
  unfold OnGrid
  omega

/-- One move with a heading is one pixel. -/
theorem pixels_of_heading {posX posY posX' posY' : BitVec 10} {d : Side}
    (hx : (posX'.toNat : Int) = posX.toNat + d.dx) (hy : (posY'.toNat : Int) = posY.toNat + d.dy) :
    pixels posX posY posX' posY' = 1 := by
  rw [pixels, hx, hy]
  cases d <;> simp only [Side.dx, Side.dy] <;> omega

theorem playerTick_pixels {s : PlayerReg} (hs : PlayerInv s) (l : Layout) (keycode : BitVec 16) :
    pixels s.posX s.posY (playerTick s l keycode).posX (playerTick s l keycode).posY ≤ 1 := by
  have hstep := playerTick_step hs l keycode
  have hx := hstep.moved_x
  have hy := hstep.moved_y
  cases hd : (playerTick s l keycode).walker.heading with
  | none =>
    rw [hd, headingDx_none, Int.add_zero] at hx
    rw [hd, headingDy_none, Int.add_zero] at hy
    simp only [PlayerReg.walker, moverWalker] at hx hy
    rw [pixels, hx, hy]
    omega
  | some d =>
    rw [hd] at hx hy
    exact Nat.le_of_eq (pixels_of_heading hx hy)

theorem ghostTick_pixels {s : GhostReg} (hs : GhostInv 416 s) (i : GhostIn) :
    pixels s.posX s.posY (ghostTick s i).posX (ghostTick s i).posY = 1 := by
  obtain ⟨d, -, hw⟩ := ghostTick_moves hs i
  exact pixels_of_heading (congrArg Walker.x hw) (congrArg Walker.y hw)

/-- For any layouts, keys, generation words and player positions, at any tick, and
for a ghost that starts on the board: both movers stay on the grid, a tick of the
player moves it by at most one pixel, and a tick of a ghost by exactly one. -/
theorem movers_stay_on_grid (fiveXStart fiveYStart : BitVec 5)
    (hx1 : 1 ≤ fiveXStart.toNat) (hx2 : fiveXStart.toNat ≤ 12)
    (hy1 : 1 ≤ fiveYStart.toNat) (hy2 : fiveYStart.toNat ≤ 12)
    (pi : Nat → PlayerIn) (gi : Nat → GhostIn) (n : Nat) :
    OnGrid (playerMovement.run pi n).posX (playerMovement.run pi n).posY ∧
      ((pi n).Reset = false →
        pixels (playerMovement.run pi n).posX (playerMovement.run pi n).posY
          (playerMovement.run pi (n + 1)).posX (playerMovement.run pi (n + 1)).posY ≤ 1) ∧
      OnGrid ((ghostMovement fiveXStart fiveYStart).run gi n).posX
        ((ghostMovement fiveXStart fiveYStart).run gi n).posY ∧
      ((gi n).Reset = false →
        pixels ((ghostMovement fiveXStart fiveYStart).run gi n).posX
          ((ghostMovement fiveXStart fiveYStart).run gi n).posY
          ((ghostMovement fiveXStart fiveYStart).run gi (n + 1)).posX
          ((ghostMovement fiveXStart fiveYStart).run gi (n + 1)).posY = 1) := by
  have hp := playerMovement_inv pi n
  have hg : GhostInv 416 ((ghostMovement fiveXStart fiveYStart).run gi n) :=
    ghostMovement_inv ghostBox_416 (by omega) (by omega) gi n
  refine ⟨onGrid_of_walker rfl rfl hp.aligned hp.inBox, fun hreset => ?_,
    onGrid_of_walker rfl rfl hg.aligned hg.inBox, fun hreset => ?_⟩
  · rw [playerMovement_run_tick hreset]
    exact playerTick_pixels hp _ _
  · rw [ghostMovement_run_tick hreset]
    exact ghostTick_pixels hg _

/-- The start tile of the game, with every wall down and no key. -/
theorem movers_stay_on_grid_start :
    pixels (GhostReg.reset 6 6).posX (GhostReg.reset 6 6).posY
      ((ghostMovement 6 6).run (fun _ => ⟨false, ⟨0, 0⟩, 0, 320, 320⟩) 1).posX
      ((ghostMovement 6 6).run (fun _ => ⟨false, ⟨0, 0⟩, 0, 320, 320⟩) 1).posY = 1 :=
  (movers_stay_on_grid 6 6 (by decide) (by decide) (by decide)
    (by decide) (fun _ => ⟨false, ⟨0, 0⟩, 0⟩) (fun _ => ⟨false, ⟨0, 0⟩, 0, 320, 320⟩) 0).2.2.2 rfl

end SnakeMom
