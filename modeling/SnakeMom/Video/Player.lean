import SnakeMom.Video.ColorMapper

/-!
# What is drawn of the player

The flag of the player is up in a frame of 33 by 33 pixels around the player, and the art
of a direction has 32 columns and 32 rows.

* `playerCheck_iff`: the pixels at which the flag is up.
* `player_inRange_iff`: at which of these pixels both look-ups stay in the art of the
  direction.
* `playerBit_edge`: on the line and the column that are too many nothing is lit.
-/

namespace SnakeMom

namespace color_mapper

section Wires

variable (i : ColorMapperIn)

/-- The bit that is selected in the row of the player. -/
def playerColumn : BitVec 10 := i.DrawX - i.playerX + i.playerSize

theorem playerBit_eq :
    playerBit i = (playerBank.spriteOut (playerADDR i)).getMsbD (playerColumn i).toNat := rfl

/-- Both look-ups stay in the art of the direction: the column is one of the 32 of a row,
and the row is one of the 32 of the direction. -/
structure PlayerInRange : Prop where
  column : (playerColumn i).toNat ≤ 31
  row : 96 + 32 * i.dir.toNat ≤ (playerADDR i).toNat ∧
    (playerADDR i).toNat ≤ 96 + 32 * i.dir.toNat + 31

end Wires

variable {i : ColorMapperIn}

theorem playerCheck_iff (hsize : i.playerSize = playerPosSize)
    (hX : 16 ≤ i.playerX.toNat ∧ i.playerX.toNat ≤ 416)
    (hY : 16 ≤ i.playerY.toNat ∧ i.playerY.toNat ≤ 416) :
    playerCheck i = true ↔
      (i.playerX.toNat ≤ i.DrawX.toNat + 16 ∧ i.DrawX.toNat ≤ i.playerX.toNat + 16) ∧
        i.playerY.toNat ≤ i.DrawY.toNat + 16 ∧ i.DrawY.toNat ≤ i.playerY.toNat + 16 := by
  simp only [playerCheck, Bool.and_eq_true, decide_eq_true_eq, ge_iff_le, BitVec.le_def,
    toNat_sub_size hsize hX.1, toNat_add_size hsize hX.2, toNat_sub_size hsize hY.1,
    toNat_add_size hsize hY.2]
  omega

/-- The address counts rows from the top of the frame, and its eight bits hold them all. -/
theorem toNat_playerADDR (hsize : i.playerSize = playerPosSize) (hcheck : playerCheck i = true)
    (hlo : i.playerY.toNat ≤ i.DrawY.toNat + 16) (hhi : i.DrawY.toNat ≤ i.playerY.toNat + 16) :
    (playerADDR i).toNat = 96 + 32 * i.dir.toNat + (i.DrawY.toNat + 16 - i.playerY.toNat) := by
  have hdir := i.dir.isLt
  have h96 : (96 : BitVec 10).toNat = 96 := rfl
  have h32 : (32 : BitVec 10).toNat = 32 := rfl
  rw [playerADDR, if_pos hcheck, BitVec.extractLsb'_toNat, tmp, BitVec.toNat_add,
    BitVec.toNat_add, toNat_offset hsize hlo hhi, BitVec.toNat_mul, BitVec.toNat_setWidth, h96,
    h32, Nat.shiftRight_zero]
  omega

/-- The look-ups for a pixel of the player stay in the art of its direction exactly if the
pixel is neither on the last column nor on the last line of the frame. -/
theorem player_inRange_iff (hsize : i.playerSize = playerPosSize)
    (hX : 16 ≤ i.playerX.toNat ∧ i.playerX.toNat ≤ 416)
    (hY : 16 ≤ i.playerY.toNat ∧ i.playerY.toNat ≤ 416) (hcheck : playerCheck i = true) :
    PlayerInRange i ↔
      i.DrawX.toNat ≠ i.playerX.toNat + 16 ∧ i.DrawY.toNat ≠ i.playerY.toNat + 16 := by
  obtain ⟨⟨hlox, hhix⟩, hloy, hhiy⟩ := (playerCheck_iff hsize hX hY).1 hcheck
  have hcolumn : (playerColumn i).toNat = i.DrawX.toNat + 16 - i.playerX.toNat :=
    toNat_offset hsize hlox hhix
  have hrow := toNat_playerADDR hsize hcheck hloy hhiy
  constructor
  · intro h
    have hc := h.column
    have hr := h.row.2
    rw [hcolumn] at hc
    rw [hrow] at hr
    omega
  · intro h
    refine ⟨?_, ?_⟩
    · rw [hcolumn]
      omega
    · rw [hrow]
      omega

/-- The centre of a player that has just started. -/
theorem player_inRange_iff_start : PlayerInRange (Game.hardReset.colorMapperIn 0 320 320) :=
  (player_inRange_iff rfl (by decide) (by decide) (by decide)).2 (by decide)

/-- The flag of a player that has just started, at `(320, 320)`, is up at column 336, for
which column 32 of the art is selected. -/
theorem player_not_inRange_at_start :
    playerCheck (Game.hardReset.colorMapperIn 0 336 320) = true ∧
      ¬ PlayerInRange (Game.hardReset.colorMapperIn 0 336 320) :=
  ⟨by decide, fun h => absurd h.column (by decide)⟩

/-- The rows that follow the four pictures of the player are blank. -/
theorem spriteData_next (dir : BitVec 2) :
    playerBank.spriteData.getD (32 * dir.toNat + 32) 0 = 0 := by
  revert dir
  decide +kernel

/-- On the last column and on the last line of the frame nothing is lit. -/
theorem playerBit_edge (hsize : i.playerSize = playerPosSize)
    (hX : 16 ≤ i.playerX.toNat ∧ i.playerX.toNat ≤ 416)
    (hY : 16 ≤ i.playerY.toNat ∧ i.playerY.toNat ≤ 416) (hcheck : playerCheck i = true)
    (hedge : i.DrawX.toNat = i.playerX.toNat + 16 ∨ i.DrawY.toNat = i.playerY.toNat + 16) :
    playerBit i = false := by
  obtain ⟨⟨hlox, hhix⟩, hloy, hhiy⟩ := (playerCheck_iff hsize hX hY).1 hcheck
  rw [playerBit_eq]
  rcases hedge with hright | hbottom
  · have hcolumn : (playerColumn i).toNat = 32 := by
      rw [playerColumn, toNat_offset hsize hlox hhix]
      omega
    rw [hcolumn]
    exact BitVec.getMsbD_of_ge _ 32 (by omega)
  · have hrow : (playerADDR i).toNat = 96 + (32 * i.dir.toNat + 32) := by
      rw [toNat_playerADDR hsize hcheck hloy hhiy]
      omega
    rw [playerBank.spriteOut_of_toNat hrow, spriteData_next]
    exact BitVec.getMsbD_zero

end color_mapper

end SnakeMom
