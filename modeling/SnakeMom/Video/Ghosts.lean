import SnakeMom.Video.ColorMapper

/-!
# What is drawn of a ghost

The flag of a ghost compares `DrawY` with `Y - playerSize` from both sides, so it is up on
one line, and the address counts rows from the column `X` of the ghost.

* `ghostCheck_iff`: the pixels at which the flag is up.
* `ghost_drawn_iff`: at which pixels a ghost is drawn as its picture and its position say.
* `ghost_blank_of_diagonal`: with `X` and `Y` equal, no pixel of a ghost is lit.
-/

namespace SnakeMom

namespace ColorMapperIn

variable (i : ColorMapperIn)

def ghostX : Ghost → BitVec 10
  | .red => i.redGhostX
  | .orange => i.orangeGhostX
  | .blue => i.blueGhostX
  | .pink => i.pinkGhostX

def ghostY : Ghost → BitVec 10
  | .red => i.redGhostY
  | .orange => i.orangeGhostY
  | .blue => i.blueGhostY
  | .pink => i.pinkGhostY

end ColorMapperIn

namespace color_mapper

section Wires

variable (i : ColorMapperIn)

/-- The flags of the four ghosts. -/
def ghostCheck : Ghost → Bool
  | .red => redGhostCheck i
  | .orange => orangeGhostCheck i
  | .blue => blueGhostCheck i
  | .pink => pinkGhostCheck i

/-- The addresses of the four ghosts. -/
def ghostADDR : Ghost → BitVec 8
  | .red => ghostRedADDR i
  | .orange => ghostOrangeADDR i
  | .blue => ghostBlueADDR i
  | .pink => ghostPinkADDR i

/-- The bits of the four ghosts. -/
def ghostBit : Ghost → Bool
  | .red => ghostRedBit i
  | .orange => ghostOrangeBit i
  | .blue => ghostBlueBit i
  | .pink => ghostPinkBit i

theorem ghostCheck_eq (c : Ghost) : ghostCheck i c = ghostCheckOf i (i.ghostX c) (i.ghostY c) := by
  cases c <;> rfl

theorem ghostADDR_eq (c : Ghost) : ghostADDR i c = ghostADDROf i (i.ghostX c) (i.ghostY c) := by
  cases c <;> rfl

theorem ghostBit_eq (c : Ghost) :
    ghostBit i c =
      (playerBank.spriteOut (ghostADDR i c)).getLsbD (ghostColumnOf i (i.ghostX c)).toNat := by
  cases c <;> rfl

end Wires

/-! ## The wires in numbers -/

section Numbers

variable {i : ColorMapperIn} {X Y : BitVec 10}

/-- The flag is up on one line. -/
theorem ghostCheckOf_iff (hsize : i.playerSize = playerPosSize)
    (hX : 16 ≤ X.toNat ∧ X.toNat ≤ 416) (hY : 16 ≤ Y.toNat) :
    ghostCheckOf i X Y = true ↔
      X.toNat ≤ i.DrawX.toNat + 16 ∧ i.DrawX.toNat ≤ X.toNat + 16 ∧
        i.DrawY.toNat + 16 = Y.toNat := by
  simp only [ghostCheckOf, Bool.and_eq_true, decide_eq_true_eq, ge_iff_le, BitVec.le_def,
    toNat_sub_size hsize hX.1, toNat_add_size hsize hX.2, toNat_sub_size hsize hY]
  omega

/-- The address counts rows from the column of the ghost, modulo the size of the bank. -/
theorem toNat_ghostADDROf (hsize : i.playerSize = playerPosSize)
    (h : ghostCheckOf i X Y = true) :
    (ghostADDROf i X Y).toNat = (i.DrawY.toNat + 1024 - X.toNat + 240) % 256 := by
  have hlt := X.isLt
  have h224 : (224 : BitVec 10).toNat = 224 := rfl
  rw [ghostADDROf, if_pos h, hsize]
  simp only [BitVec.toNat_setWidth, BitVec.toNat_add, BitVec.toNat_sub, toNat_playerPosSize,
    h224]
  omega

end Numbers

end color_mapper

/-! ## Where a ghost is drawn -/

namespace ColorMapperIn

variable (i : ColorMapperIn) (c : Ghost)

/-- The pixel is one of the 32 by 32 pixels of the ghost. -/
def InBox : Prop :=
  (i.ghostX c).toNat ≤ i.DrawX.toNat + 16 ∧ i.DrawX.toNat < (i.ghostX c).toNat + 16 ∧
    (i.ghostY c).toNat ≤ i.DrawY.toNat + 16 ∧ i.DrawY.toNat < (i.ghostY c).toNat + 16

/-- `InBox`, with the line below and the column to the right. -/
def InFrame : Prop :=
  (i.ghostX c).toNat ≤ i.DrawX.toNat + 16 ∧ i.DrawX.toNat ≤ (i.ghostX c).toNat + 16 ∧
    (i.ghostY c).toNat ≤ i.DrawY.toNat + 16 ∧ i.DrawY.toNat ≤ (i.ghostY c).toNat + 16

end ColorMapperIn

namespace color_mapper

/-- In its box a ghost has its flag up and selects the pixel of the ghost art that lies
there; outside its frame the flag is down. -/
structure GhostDrawn (i : ColorMapperIn) (c : Ghost) : Prop where
  inside : i.InBox c →
    ghostCheck i c = true ∧
      (ghostADDR i c).toNat = 224 + (i.DrawY.toNat - ((i.ghostY c).toNat - 16)) ∧
        (ghostColumnOf i (i.ghostX c)).toNat = i.DrawX.toNat - ((i.ghostX c).toNat - 16)
  outside : ¬i.InFrame c → ghostCheck i c = false

variable {i : ColorMapperIn} {c : Ghost}

theorem ghostCheck_iff (hsize : i.playerSize = playerPosSize)
    (hX : 16 ≤ (i.ghostX c).toNat ∧ (i.ghostX c).toNat ≤ 416)
    (hY : 16 ≤ (i.ghostY c).toNat) :
    ghostCheck i c = true ↔
      (i.ghostX c).toNat ≤ i.DrawX.toNat + 16 ∧ i.DrawX.toNat ≤ (i.ghostX c).toNat + 16 ∧
        i.DrawY.toNat + 16 = (i.ghostY c).toNat := by
  rw [ghostCheck_eq]
  exact ghostCheckOf_iff hsize hX hY

/-- A pixel of a ghost is drawn as its picture and its position say exactly if it is none
of its box, or one of its top line while column and row of the ghost agree modulo 256. -/
theorem ghost_drawn_iff (hsize : i.playerSize = playerPosSize)
    (hX : 16 ≤ (i.ghostX c).toNat ∧ (i.ghostX c).toNat ≤ 416)
    (hY : 16 ≤ (i.ghostY c).toNat ∧ (i.ghostY c).toNat ≤ 416) :
    GhostDrawn i c ↔
      (i.InBox c → i.DrawY.toNat + 16 = (i.ghostY c).toNat ∧
        (i.ghostX c).toNat % 256 = (i.ghostY c).toNat % 256) := by
  have hcheck := ghostCheck_iff hsize hX hY.1
  have hout : ¬i.InFrame c → ghostCheck i c = false := by
    intro h
    rw [← Bool.not_eq_true, hcheck]
    rintro ⟨hlo, hhi, hline⟩
    exact h ⟨hlo, hhi, by omega, by omega⟩
  have haddr (hup : ghostCheck i c = true) :
      (ghostADDR i c).toNat = (i.DrawY.toNat + 1024 - (i.ghostX c).toNat + 240) % 256 := by
    rw [ghostADDR_eq]
    exact toNat_ghostADDROf hsize (by rwa [← ghostCheck_eq])
  have hlt := (i.ghostX c).isLt
  constructor
  · intro h hbox
    obtain ⟨hup, hrow, -⟩ := h.inside hbox
    have hline := (hcheck.1 hup).2.2
    rw [haddr hup] at hrow
    omega
  · intro h
    refine ⟨fun hbox => ?_, hout⟩
    obtain ⟨hline, hdiag⟩ := h hbox
    have hup : ghostCheck i c = true := hcheck.2 ⟨hbox.1, by have := hbox.2.1; omega, hline⟩
    refine ⟨hup, ?_, ?_⟩
    · rw [haddr hup]
      omega
    · rw [ghostColumnOf, toNat_offset hsize hbox.1 (by have := hbox.2.1; omega)]
      omega

/-- The line above the centre of a ghost that has just started. -/
theorem ghost_drawn_iff_start :
    GhostDrawn (Game.hardReset.colorMapperIn 0 192 176) .red ↔
      ((Game.hardReset.colorMapperIn 0 192 176).InBox .red →
        (176#10).toNat + 16 = 192 ∧ 192 % 256 = 192 % 256) :=
  ghost_drawn_iff rfl (by decide) (by decide)

/-- A ghost that has just started, at `(192, 192)`, does not show on the line below the top
one of its box. -/
theorem ghost_not_drawn_at_start :
    ¬GhostDrawn (Game.hardReset.colorMapperIn 0 192 177) .red := by
  intro h
  have hbox : (Game.hardReset.colorMapperIn 0 192 177).InBox .red := by
    unfold ColorMapperIn.InBox
    decide
  exact absurd (h.inside hbox).1 (by decide)

/-- Row 224 is the first row of the ghost art, which is blank, so a ghost on the diagonal
of the board is not seen at all. -/
theorem ghost_blank_of_diagonal (hsize : i.playerSize = playerPosSize)
    (hX : 16 ≤ (i.ghostX c).toNat ∧ (i.ghostX c).toNat ≤ 416)
    (hY : 16 ≤ (i.ghostY c).toNat) (hdiag : (i.ghostX c).toNat = (i.ghostY c).toNat) :
    (ghostCheck i c && ghostBit i c) = false := by
  rw [Bool.and_eq_false_iff, ← Bool.not_eq_true, or_iff_not_imp_left, not_not]
  intro hup
  have hline := ((ghostCheck_iff hsize hX hY).1 hup).2.2
  have haddr : (ghostADDR i c).toNat = 96 + 128 := by
    rw [ghostADDR_eq, toNat_ghostADDROf hsize (by rwa [← ghostCheck_eq])]
    omega
  have hblank : playerBank.spriteData.getD 128 0 = 0 := rfl
  rw [ghostBit_eq, playerBank.spriteOut_of_toNat haddr, hblank]
  exact BitVec.getLsbD_zero

end color_mapper

end SnakeMom
