import SnakeMom.Lib.Packed
import SnakeMom.Lib.GridWalk
import Mathlib.Tactic.IntervalCases

/-!
# `wallVerifiers.sv`: which sides of a tile are open

`wallVerify` answers, for a wall layout and a tile, which of the four sides may
be taken.  It is twelve instances of `rowWallVerify`, one a row, behind a
multiplexer over the row.  Both vectors are declared `[0:155]`, so bit `0` is the
most significant one; `getMsbD` and `Packed.slice` count from that end.

The module has three parts.

* The model.  `rowWallVerify`, `wallRows` and `wallVerify` are the three levels
  of the source, with its constants arm by arm.
* What the model computes.  `wallVerify_board` is the closed form on the board,
  and the four `wallVerify_off_*` theorems say that a tile past the border opens
  exactly the side that leads back.  `wallVerify_inward` is the consequence the
  movers rest on.
* The maze.  `wallVerify_shared` says that neighbours agree on the wall between
  them, and `wallVerify_maze` is the whole geometry in one statement.
-/

namespace SnakeMom

open GridWalk Packed

/-- The two packed wall vectors that `boundaries` drives. -/
structure Layout where
  xWalls : BitVec 156
  yWalls : BitVec 156
deriving DecidableEq, Repr

/-- The four outputs of `wallVerify`. -/
structure Turns where
  leftTurnCheck : Bool
  rightTurnCheck : Bool
  upTurnCheck : Bool
  downTurnCheck : Bool
deriving DecidableEq, Repr

/-- The output for one side. -/
def Turns.through (t : Turns) : Side → Bool
  | .left => t.leftTurnCheck
  | .right => t.rightTurnCheck
  | .up => t.upTurnCheck
  | .down => t.downTurnCheck

/-- All four sides are closed. -/
def Turns.Closed (t : Turns) : Prop := ∀ d, t.through d = false

instance (t : Turns) : Decidable t.Closed :=
  inferInstanceAs (Decidable (∀ d, t.through d = false))

/-! ## The model -/

/-- One arm of the `case` in `rowWallVerify` for a column of the board: the four
outputs are the negations of these bits of `yWalls`, `top` and `bottom`. -/
def rowArm (yWalls : BitVec 13) (top bottom : BitVec 12) (left right up down : Nat) : Turns :=
  ⟨!yWalls.getMsbD left, !yWalls.getMsbD right, !top.getMsbD up, !bottom.getMsbD down⟩

def rowWallVerify (yWalls : BitVec 13) (top bottom : BitVec 12) (posX : BitVec 5) : Turns :=
  match posX.toNat with
  | 0x00 => ⟨false, true, false, false⟩
  | 0x01 => rowArm yWalls top bottom 0 1 0 0
  | 0x02 => rowArm yWalls top bottom 1 2 1 1
  | 0x03 => rowArm yWalls top bottom 2 3 2 2
  | 0x04 => rowArm yWalls top bottom 3 4 3 3
  | 0x05 => rowArm yWalls top bottom 4 5 4 4
  | 0x06 => rowArm yWalls top bottom 5 6 5 5
  | 0x07 => rowArm yWalls top bottom 6 7 6 6
  | 0x08 => rowArm yWalls top bottom 7 8 7 7
  | 0x09 => rowArm yWalls top bottom 8 9 8 8
  | 0x0a => rowArm yWalls top bottom 9 10 9 9
  | 0x0b => rowArm yWalls top bottom 10 11 10 10
  | 0x0c => rowArm yWalls top bottom 11 12 11 11
  | _ => ⟨true, false, false, false⟩

/-- The instances `wall1` to `wall12`; instance `k + 1` drives index `k` of the
row outputs. -/
def wallRows (xWalls yWalls : BitVec 156) (posX : BitVec 5) : Fin 12 → Turns
  | 0 => rowWallVerify (slice yWalls 0 12) (slice xWalls 0 11) (slice xWalls 12 23) posX
  | 1 => rowWallVerify (slice yWalls 13 25) (slice xWalls 12 23) (slice xWalls 24 35) posX
  | 2 => rowWallVerify (slice yWalls 26 38) (slice xWalls 24 35) (slice xWalls 36 47) posX
  | 3 => rowWallVerify (slice yWalls 39 51) (slice xWalls 36 47) (slice xWalls 48 59) posX
  | 4 => rowWallVerify (slice yWalls 52 64) (slice xWalls 48 59) (slice xWalls 60 71) posX
  | 5 => rowWallVerify (slice yWalls 65 77) (slice xWalls 60 71) (slice xWalls 72 83) posX
  | 6 => rowWallVerify (slice yWalls 78 90) (slice xWalls 72 83) (slice xWalls 84 95) posX
  | 7 => rowWallVerify (slice yWalls 91 103) (slice xWalls 84 95) (slice xWalls 96 107) posX
  | 8 => rowWallVerify (slice yWalls 104 116) (slice xWalls 96 107) (slice xWalls 108 119) posX
  | 9 => rowWallVerify (slice yWalls 117 129) (slice xWalls 108 119) (slice xWalls 120 131) posX
  | 10 => rowWallVerify (slice yWalls 130 142) (slice xWalls 120 131) (slice xWalls 132 143) posX
  | 11 => rowWallVerify (slice yWalls 143 155) (slice xWalls 132 143) (slice xWalls 144 155) posX

def wallVerify (xWalls yWalls : BitVec 156) (posX posY : BitVec 5) : Turns :=
  match posY.toNat with
  | 0x00 => ⟨false, false, false, true⟩
  | 0x01 => wallRows xWalls yWalls posX 0
  | 0x02 => wallRows xWalls yWalls posX 1
  | 0x03 => wallRows xWalls yWalls posX 2
  | 0x04 => wallRows xWalls yWalls posX 3
  | 0x05 => wallRows xWalls yWalls posX 4
  | 0x06 => wallRows xWalls yWalls posX 5
  | 0x07 => wallRows xWalls yWalls posX 6
  | 0x08 => wallRows xWalls yWalls posX 7
  | 0x09 => wallRows xWalls yWalls posX 8
  | 0x0a => wallRows xWalls yWalls posX 9
  | 0x0b => wallRows xWalls yWalls posX 10
  | 0x0c => wallRows xWalls yWalls posX 11
  | _ => ⟨false, false, true, false⟩

/-- `wallVerify` on a layout. -/
abbrev Layout.turns (l : Layout) (posX posY : BitVec 5) : Turns :=
  wallVerify l.xWalls l.yWalls posX posY

/-! ## What the model computes -/

/-- The row decoder on the board: column `x` reads the walls `x - 1` and `x`. -/
theorem rowWallVerify_board (yWalls : BitVec 13) (top bottom : BitVec 12) {posX : BitVec 5}
    (h1 : 1 ≤ posX.toNat) (h2 : posX.toNat ≤ 12) :
    rowWallVerify yWalls top bottom posX =
      rowArm yWalls top bottom (posX.toNat - 1) posX.toNat (posX.toNat - 1) (posX.toNat - 1) := by
  unfold rowWallVerify
  generalize posX.toNat = x at h1 h2 ⊢
  interval_cases x <;> rfl

/-- The geometric reading of one row: its walls are the slices of the packed
vectors that start at the row's offsets. -/
theorem wallRows_board (xWalls yWalls : BitVec 156) {posX : BitVec 5} (k : Fin 12)
    (h1 : 1 ≤ posX.toNat) (h2 : posX.toNat ≤ 12) :
    wallRows xWalls yWalls posX k =
      ⟨!yWalls.getMsbD (13 * k + (posX.toNat - 1)), !yWalls.getMsbD (13 * k + posX.toNat),
        !xWalls.getMsbD (12 * k + (posX.toNat - 1)),
        !xWalls.getMsbD (12 * (k + 1) + (posX.toNat - 1))⟩ := by
  match k with
  | 0 | 1 | 2 | 3 | 4 | 5 | 6 | 7 | 8 | 9 | 10 | 11 =>
    simp only [wallRows]
    rw [rowWallVerify_board _ _ _ h1 h2, rowArm]
    rw [getMsbD_slice _ (by omega) (by omega) (by omega),
      getMsbD_slice _ (by omega) (by omega) (by omega),
      getMsbD_slice _ (by omega) (by omega) (by omega),
      getMsbD_slice _ (by omega) (by omega) (by omega)]
    rfl

/-- The multiplexer answers row `k + 1` with instance `k`. -/
theorem wallVerify_row (xWalls yWalls : BitVec 156) (posX : BitVec 5) {posY : BitVec 5}
    (k : Fin 12) (h : posY.toNat = k + 1) :
    wallVerify xWalls yWalls posX posY = wallRows xWalls yWalls posX k := by
  unfold wallVerify
  rw [h]
  match k with
  | 0 | 1 | 2 | 3 | 4 | 5 | 6 | 7 | 8 | 9 | 10 | 11 => rfl

/-- A row of the board is the row of some instance. -/
theorem exists_row {posY : BitVec 5} (h1 : 1 ≤ posY.toNat) (h2 : posY.toNat ≤ 12) :
    ∃ k : Fin 12, posY.toNat = k + 1 :=
  ⟨⟨posY.toNat - 1, by omega⟩, by simp only; omega⟩

/-- On the board the four sides of a tile are the four walls around it. -/
theorem wallVerify_board (xWalls yWalls : BitVec 156) {posX posY : BitVec 5}
    (hx1 : 1 ≤ posX.toNat) (hx2 : posX.toNat ≤ 12)
    (hy1 : 1 ≤ posY.toNat) (hy2 : posY.toNat ≤ 12) :
    wallVerify xWalls yWalls posX posY =
      ⟨!yWalls.getMsbD (13 * (posY.toNat - 1) + (posX.toNat - 1)),
        !yWalls.getMsbD (13 * (posY.toNat - 1) + posX.toNat),
        !xWalls.getMsbD (12 * (posY.toNat - 1) + (posX.toNat - 1)),
        !xWalls.getMsbD (12 * posY.toNat + (posX.toNat - 1))⟩ := by
  obtain ⟨k, hk⟩ := exists_row hy1 hy2
  rw [wallVerify_row xWalls yWalls posX k hk, wallRows_board _ _ _ hx1 hx2, hk,
    Nat.add_sub_cancel]

/-- Above the board only the way down is open. -/
theorem wallVerify_off_top (xWalls yWalls : BitVec 156) (posX : BitVec 5) {posY : BitVec 5}
    (h : posY.toNat = 0) : wallVerify xWalls yWalls posX posY = ⟨false, false, false, true⟩ := by
  simp only [wallVerify, h]

/-- Below the board only the way up is open. -/
theorem wallVerify_off_bottom (xWalls yWalls : BitVec 156) (posX : BitVec 5) {posY : BitVec 5}
    (h : 13 ≤ posY.toNat) : wallVerify xWalls yWalls posX posY = ⟨false, false, true, false⟩ := by
  unfold wallVerify
  have hlt := posY.isLt
  generalize posY.toNat = y at h hlt ⊢
  interval_cases y <;> rfl

theorem rowWallVerify_off_left (yWalls : BitVec 13) (top bottom : BitVec 12) {posX : BitVec 5}
    (h : posX.toNat = 0) : rowWallVerify yWalls top bottom posX = ⟨false, true, false, false⟩ := by
  simp only [rowWallVerify, h]

theorem rowWallVerify_off_right (yWalls : BitVec 13) (top bottom : BitVec 12) {posX : BitVec 5}
    (h : 13 ≤ posX.toNat) : rowWallVerify yWalls top bottom posX = ⟨true, false, false, false⟩ := by
  unfold rowWallVerify
  have hlt := posX.isLt
  generalize posX.toNat = x at h hlt ⊢
  interval_cases x <;> rfl

/-- Left of a row of the board only the way right is open. -/
theorem wallVerify_off_left (xWalls yWalls : BitVec 156) {posX posY : BitVec 5}
    (hx : posX.toNat = 0) (hy1 : 1 ≤ posY.toNat) (hy2 : posY.toNat ≤ 12) :
    wallVerify xWalls yWalls posX posY = ⟨false, true, false, false⟩ := by
  obtain ⟨k, hk⟩ := exists_row hy1 hy2
  rw [wallVerify_row xWalls yWalls posX k hk]
  match k with
  | 0 | 1 | 2 | 3 | 4 | 5 | 6 | 7 | 8 | 9 | 10 | 11 => exact rowWallVerify_off_left _ _ _ hx

/-- Right of a row of the board only the way left is open. -/
theorem wallVerify_off_right (xWalls yWalls : BitVec 156) {posX posY : BitVec 5}
    (hx : 13 ≤ posX.toNat) (hy1 : 1 ≤ posY.toNat) (hy2 : posY.toNat ≤ 12) :
    wallVerify xWalls yWalls posX posY = ⟨true, false, false, false⟩ := by
  obtain ⟨k, hk⟩ := exists_row hy1 hy2
  rw [wallVerify_row xWalls yWalls posX k hk]
  match k with
  | 0 | 1 | 2 | 3 | 4 | 5 | 6 | 7 | 8 | 9 | 10 | 11 => exact rowWallVerify_off_right _ _ _ hx

/-- No tile past the border opens a side that leads further away. -/
theorem wallVerify_inward (xWalls yWalls : BitVec 156) (posX posY : BitVec 5) :
    (posX.toNat = 0 → (wallVerify xWalls yWalls posX posY).leftTurnCheck = false) ∧
      (13 ≤ posX.toNat → (wallVerify xWalls yWalls posX posY).rightTurnCheck = false) ∧
      (posY.toNat = 0 → (wallVerify xWalls yWalls posX posY).upTurnCheck = false) ∧
      (13 ≤ posY.toNat → (wallVerify xWalls yWalls posX posY).downTurnCheck = false) := by
  rcases Nat.eq_zero_or_pos posY.toNat with h0 | hpos
  · rw [wallVerify_off_top _ _ _ h0]
    exact ⟨fun _ => rfl, fun _ => rfl, fun _ => rfl, fun h => absurd h (by omega)⟩
  rcases Nat.lt_or_ge 12 posY.toNat with hhi | hle
  · rw [wallVerify_off_bottom _ _ _ hhi]
    exact ⟨fun _ => rfl, fun _ => rfl, fun h => absurd h (by omega), fun _ => rfl⟩
  refine ⟨fun h => ?_, fun h => ?_, fun h => absurd h (by omega), fun h => absurd h (by omega)⟩
  · rw [wallVerify_off_left _ _ h hpos hle]
  · rw [wallVerify_off_right _ _ h hpos hle]

/-- A tile past the border is not closed. -/
theorem wallVerify_off_not_closed (xWalls yWalls : BitVec 156) {posX posY : BitVec 5}
    (h : posX.toNat = 0 ∨ 13 ≤ posX.toNat ∨ posY.toNat = 0 ∨ 13 ≤ posY.toNat) :
    ¬ (wallVerify xWalls yWalls posX posY).Closed := by
  rcases Nat.eq_zero_or_pos posY.toNat with h0 | hpos
  · rw [wallVerify_off_top _ _ _ h0]
    decide
  rcases Nat.lt_or_ge 12 posY.toNat with hhi | hle
  · rw [wallVerify_off_bottom _ _ _ hhi]
    decide
  rcases Nat.eq_zero_or_pos posX.toNat with hx0 | hx1
  · rw [wallVerify_off_left _ _ hx0 hpos hle]
    decide
  · rw [wallVerify_off_right _ _ (by omega) hpos hle]
    decide

/-! ## The maze -/

/-- A tile of the board. -/
def BoardTile (posX posY : BitVec 5) : Prop :=
  (1 ≤ posX.toNat ∧ posX.toNat ≤ 12) ∧ 1 ≤ posY.toNat ∧ posY.toNat ≤ 12

/-- Only side `d` is open. -/
def Turns.Only (t : Turns) (d : Side) : Prop := ∀ e, t.through e = true ↔ e = d

instance (t : Turns) (d : Side) : Decidable (t.Only d) :=
  inferInstanceAs (Decidable (∀ e, t.through e = true ↔ e = d))

/-- The tile behind side `d`. -/
def Behind (d : Side) (posX posY posX' posY' : BitVec 5) : Prop :=
  (posX'.toNat : Int) = posX.toNat + d.dx ∧ (posY'.toNat : Int) = posY.toNat + d.dy

/-- Two neighbours of a row read the same wall between them. -/
theorem wallVerify_shared_right (xWalls yWalls : BitVec 156) {posX posX' posY : BitVec 5}
    (h : BoardTile posX posY) (h' : BoardTile posX' posY)
    (hx : posX'.toNat = posX.toNat + 1) :
    (wallVerify xWalls yWalls posX posY).rightTurnCheck =
      (wallVerify xWalls yWalls posX' posY).leftTurnCheck := by
  rw [wallVerify_board _ _ h.1.1 h.1.2 h.2.1 h.2.2,
    wallVerify_board _ _ h'.1.1 h'.1.2 h'.2.1 h'.2.2, hx, Nat.add_sub_cancel]

/-- Two neighbours of a column read the same wall between them. -/
theorem wallVerify_shared_down (xWalls yWalls : BitVec 156) {posX posY posY' : BitVec 5}
    (h : BoardTile posX posY) (h' : BoardTile posX posY')
    (hy : posY'.toNat = posY.toNat + 1) :
    (wallVerify xWalls yWalls posX posY).downTurnCheck =
      (wallVerify xWalls yWalls posX posY').upTurnCheck := by
  rw [wallVerify_board _ _ h.1.1 h.1.2 h.2.1 h.2.2,
    wallVerify_board _ _ h'.1.1 h'.1.2 h'.2.1 h'.2.2, hy, Nat.add_sub_cancel]

/-- Neighbouring tiles of the board agree on the wall they share. -/
theorem wallVerify_shared (xWalls yWalls : BitVec 156) {posX posY posX' posY' : BitVec 5}
    (h : BoardTile posX posY) (h' : BoardTile posX' posY') {d : Side}
    (hd : Behind d posX posY posX' posY') :
    (wallVerify xWalls yWalls posX posY).through d =
      (wallVerify xWalls yWalls posX' posY').through d.opposite := by
  obtain ⟨hx, hy⟩ := hd
  cases d with
  | left =>
    simp only [Side.dx, Side.dy] at hx hy
    obtain rfl : posY' = posY := BitVec.eq_of_toNat_eq (by omega)
    exact (wallVerify_shared_right _ _ h' h (by omega)).symm
  | right =>
    simp only [Side.dx, Side.dy] at hx hy
    obtain rfl : posY' = posY := BitVec.eq_of_toNat_eq (by omega)
    exact wallVerify_shared_right _ _ h h' (by omega)
  | up =>
    simp only [Side.dx, Side.dy] at hx hy
    obtain rfl : posX' = posX := BitVec.eq_of_toNat_eq (by omega)
    exact (wallVerify_shared_down _ _ h' h (by omega)).symm
  | down =>
    simp only [Side.dx, Side.dy] at hx hy
    obtain rfl : posX' = posX := BitVec.eq_of_toNat_eq (by omega)
    exact wallVerify_shared_down _ _ h h' (by omega)

/-- `wallVerify` is the maze that the two vectors draw.  On the board the four sides
of a tile are the four walls around it, and neighbours agree on the wall they share.
Past the border exactly the side that leads back is open. -/
theorem wallVerify_maze (xWalls yWalls : BitVec 156) (posX posY : BitVec 5) :
    (BoardTile posX posY →
      ((wallVerify xWalls yWalls posX posY).leftTurnCheck = true ↔
          yWalls.getMsbD (13 * (posY.toNat - 1) + (posX.toNat - 1)) = false) ∧
        ((wallVerify xWalls yWalls posX posY).rightTurnCheck = true ↔
          yWalls.getMsbD (13 * (posY.toNat - 1) + posX.toNat) = false) ∧
        ((wallVerify xWalls yWalls posX posY).upTurnCheck = true ↔
          xWalls.getMsbD (12 * (posY.toNat - 1) + (posX.toNat - 1)) = false) ∧
        ((wallVerify xWalls yWalls posX posY).downTurnCheck = true ↔
          xWalls.getMsbD (12 * posY.toNat + (posX.toNat - 1)) = false) ∧
        ∀ (d : Side) (posX' posY' : BitVec 5), BoardTile posX' posY' →
          Behind d posX posY posX' posY' →
          (wallVerify xWalls yWalls posX posY).through d =
            (wallVerify xWalls yWalls posX' posY').through d.opposite) ∧
      (posY.toNat = 0 → (wallVerify xWalls yWalls posX posY).Only .down) ∧
      (13 ≤ posY.toNat → (wallVerify xWalls yWalls posX posY).Only .up) ∧
      (1 ≤ posY.toNat → posY.toNat ≤ 12 →
        (posX.toNat = 0 → (wallVerify xWalls yWalls posX posY).Only .right) ∧
          (13 ≤ posX.toNat → (wallVerify xWalls yWalls posX posY).Only .left)) := by
  refine ⟨fun h => ?_, fun hy => ?_, fun hy => ?_, fun hy1 hy2 => ⟨fun hx => ?_, fun hx => ?_⟩⟩
  · have hboard := wallVerify_board xWalls yWalls h.1.1 h.1.2 h.2.1 h.2.2
    refine ⟨?_, ?_, ?_, ?_, fun d posX' posY' h' hd => wallVerify_shared _ _ h h' hd⟩
    all_goals rw [hboard, Bool.not_eq_true']
  · rw [wallVerify_off_top _ _ _ hy]
    decide
  · rw [wallVerify_off_bottom _ _ _ hy]
    decide
  · rw [wallVerify_off_left _ _ hx hy1 hy2]
    decide
  · rw [wallVerify_off_right _ _ hx hy1 hy2]
    decide

end SnakeMom
