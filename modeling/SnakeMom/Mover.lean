import SnakeMom.Wall.Verify
import Mathlib.Tactic.SplitIfs

/-!
# Position and inertia registers of the movers

`playerMovement` and `ghostMovement` keep the same kind of registers: a 10-bit
position on each axis and a 10-bit two's complement inertia on each axis.  This
module reads them as a `GridWalk.Walker` on the grid of pitch `32`.

* `tile` is the part select `pos[9:5]`, and `tileBound_iff` says that the five low
  bits of a coordinate are clear exactly at the multiples of `32`.
* `stepX` and `stepY` are the inertia values of a heading, and `headingOf` reads a
  heading back.  `Coded` says that two inertia registers hold one of the five
  values of a heading.
* `turns_not_outward` says that `wallVerify` never opens a side that leads out of
  a box which reaches past the border of the board.
-/

namespace SnakeMom

open GridWalk Packed

/-! ## Coordinates -/

/-- The tile coordinate `pos[9:5]`. -/
def tile (pos : BitVec 10) : BitVec 5 := pos.extractLsb' 5 5

@[simp] theorem toNat_tile (pos : BitVec 10) : (tile pos).toNat = pos.toNat / 32 := by
  have hlt := pos.isLt
  rw [tile, BitVec.extractLsb'_toNat, Nat.shiftRight_eq_div_pow]
  omega

/-- The part select of a coordinate is the tile it lies on. -/
theorem tile_eq_ofInt {pos : BitVec 10} {a : Int} (h : (pos.toNat : Int) = 32 * a) :
    tile pos = BitVec.ofInt 5 a := by
  have hlt := pos.isLt
  rw [← BitVec.toNat_inj, toNat_tile, BitVec.toNat_ofInt]
  omega

/-- The reduction `~(pos[0] | pos[1] | pos[2] | pos[3] | pos[4])`. -/
def tileBound (pos : BitVec 10) : Bool :=
  !(pos.getLsbD 0 || pos.getLsbD 1 || pos.getLsbD 2 || pos.getLsbD 3 || pos.getLsbD 4)

theorem tileBound_iff (pos : BitVec 10) : tileBound pos = true ↔ (32 : Int) ∣ pos.toNat := by
  have hbit : ∀ i, pos.getLsbD i = decide (pos.toNat / 2 ^ i % 2 = 1) := fun i => by
    rw [← BitVec.testBit_toNat, Nat.testBit_eq_decide_div_mod_eq]
  simp only [tileBound, hbit, Bool.not_eq_true', Bool.or_eq_false_iff, decide_eq_false_iff_not]
  omega

/-! ## Inertia -/

/-- The horizontal inertia of a heading: one pixel, in two's complement. -/
def stepX (h : Option Side) : BitVec 10 := BitVec.ofInt 10 (headingDx h)

/-- The vertical inertia of a heading. -/
def stepY (h : Option Side) : BitVec 10 := BitVec.ofInt 10 (headingDy h)

/-- The heading that two inertia registers hold. -/
def headingOf (ix iy : BitVec 10) : Option Side :=
  if ix = stepX (some .right) then some .right
  else if ix = stepX (some .left) then some .left
  else if iy = stepY (some .down) then some .down
  else if iy = stepY (some .up) then some .up
  else none

@[simp] theorem headingOf_step (h : Option Side) : headingOf (stepX h) (stepY h) = h := by
  rcases h with _ | d
  · decide
  · cases d <;> decide

/-- The inertia registers hold the value of a heading. -/
def Coded (ix iy : BitVec 10) : Prop :=
  ix = stepX (headingOf ix iy) ∧ iy = stepY (headingOf ix iy)

theorem coded_step (h : Option Side) : Coded (stepX h) (stepY h) := by
  rw [Coded, headingOf_step]
  exact ⟨rfl, rfl⟩

/-- Adding the inertia to a position that leaves room for it does not wrap. -/
theorem toNat_add_stepX (pos : BitVec 10) (h : Option Side)
    (h0 : 0 ≤ (pos.toNat : Int) + headingDx h) (h1 : (pos.toNat : Int) + headingDx h < 1024) :
    ((pos + stepX h).toNat : Int) = pos.toNat + headingDx h := by
  rw [stepX, BitVec.toNat_add, BitVec.toNat_ofInt]
  omega

theorem toNat_add_stepY (pos : BitVec 10) (h : Option Side)
    (h0 : 0 ≤ (pos.toNat : Int) + headingDy h) (h1 : (pos.toNat : Int) + headingDy h < 1024) :
    ((pos + stepY h).toNat : Int) = pos.toNat + headingDy h := by
  rw [stepY, BitVec.toNat_add, BitVec.toNat_ofInt]
  omega

/-- `leftMoveCheck`, the sign bit of the horizontal inertia. -/
def leftMoveCheck (ix : BitVec 10) : Bool := ix.getLsbD 9

def rightMoveCheck (ix : BitVec 10) : Bool := ix.getLsbD 0 && !ix.getLsbD 9

/-- `upMoveCheck`, the sign bit of the vertical inertia. -/
def upMoveCheck (iy : BitVec 10) : Bool := iy.getLsbD 9

def downMoveCheck (iy : BitVec 10) : Bool := iy.getLsbD 0 && !iy.getLsbD 9

@[simp] theorem leftMoveCheck_stepX (h : Option Side) :
    leftMoveCheck (stepX h) = decide (h = some .left) := by
  rcases h with _ | d
  · decide
  · cases d <;> decide

@[simp] theorem rightMoveCheck_stepX (h : Option Side) :
    rightMoveCheck (stepX h) = decide (h = some .right) := by
  rcases h with _ | d
  · decide
  · cases d <;> decide

@[simp] theorem upMoveCheck_stepY (h : Option Side) :
    upMoveCheck (stepY h) = decide (h = some .up) := by
  rcases h with _ | d
  · decide
  · cases d <;> decide

@[simp] theorem downMoveCheck_stepY (h : Option Side) :
    downMoveCheck (stepY h) = decide (h = some .down) := by
  rcases h with _ | d
  · decide
  · cases d <;> decide

/-! ## Movers as walkers -/

/-- The walker that four registers hold. -/
def moverWalker (posX posY ix iy : BitVec 10) : Walker :=
  ⟨posX.toNat, posY.toNat, headingOf ix iy⟩

/-- No side that `wallVerify` opens leads out of a box that reaches past the
border of the board. -/
theorem turns_not_outward (l : Layout) {posX posY : BitVec 10} {w : Walker} {hi : Int}
    (hx : w.x = posX.toNat) (hy : w.y = posY.toNat) (hhi : 416 ≤ hi) {d : Side}
    (hd : (l.turns (tile posX) (tile posY)).through d = true) : ¬ Outward 0 hi w d := by
  obtain ⟨hl, hr, hu, hdn⟩ := wallVerify_inward l.xWalls l.yWalls (tile posX) (tile posY)
  rw [toNat_tile] at hl hr hu hdn
  intro hout
  cases d with
  | left =>
    have h0 : posX.toNat / 32 = 0 := by simp only [Outward] at hout; omega
    exact absurd hd (by rw [Turns.through, hl h0]; decide)
  | right =>
    have h0 : 13 ≤ posX.toNat / 32 := by simp only [Outward] at hout; omega
    exact absurd hd (by rw [Turns.through, hr h0]; decide)
  | up =>
    have h0 : posY.toNat / 32 = 0 := by simp only [Outward] at hout; omega
    exact absurd hd (by rw [Turns.through, hu h0]; decide)
  | down =>
    have h0 : 13 ≤ posY.toNat / 32 := by simp only [Outward] at hout; omega
    exact absurd hd (by rw [Turns.through, hdn h0]; decide)

end SnakeMom
