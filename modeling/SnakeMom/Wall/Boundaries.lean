import SnakeMom.Wall.Verify

/-!
# `boundaryBank.sv`: the layouts and the coins of the level

`boundaries` drives the wall layout and `coinBoundaries` drives the coins.  The
level is the maze of `levelX` and `levelY`; on the start screen and on the beat
screen the layout is the default one, in which every wall is up.

The results read the packed constants as a maze: `defaultLayout_closed` says that
the default layout opens no side of any tile of the board, and
`levelLayout_border` says which sides of the border tiles the level opens.  The
only ones are the right sides of the tiles `(12, 6)` and `(12, 7)`, because the
rows `6` and `7` of `levelY` end in a `0`.
-/

namespace SnakeMom

open GridWalk Packed

/-! ## The model -/

def defaultY : BitVec 156 :=
  0x1fff#13 ++ 0x1fff#13 ++ 0x1fff#13 ++ 0x1fff#13 ++ 0x1fff#13 ++ 0x1fff#13 ++
    0x1fff#13 ++ 0x1fff#13 ++ 0x1fff#13 ++ 0x1fff#13 ++ 0x1fff#13 ++ 0x1fff#13

def defaultX : BitVec 156 :=
  BitVec.allOnes 12 ++ 0xfff#12 ++ 0xfff#12 ++ 0xfff#12 ++ 0xfff#12 ++ 0xfff#12 ++ 0xfff#12 ++
    0xfff#12 ++ 0xfff#12 ++ 0xfff#12 ++ 0xfff#12 ++ 0xfff#12 ++ 0xfff#12

def levelY : BitVec 156 :=
  0x1803#13 ++ 0x1fff#13 ++ 0x1843#13 ++ 0x1fff#13 ++ 0x1803#13 ++ 0x1000#13 ++
    0x1000#13 ++ 0x1803#13 ++ 0x1fff#13 ++ 0x1843#13 ++ 0x1fff#13 ++ 0x1803#13

def levelX : BitVec 156 :=
  BitVec.allOnes 12 ++ 0xa95#12 ++ 0xa95#12 ++ 0xa95#12 ++ 0xa95#12 ++ 0xb0d#12 ++ 0x000#12 ++
    0x000#12 ++ 0xa95#12 ++ 0xa95#12 ++ 0xa95#12 ++ 0xa95#12 ++ 0xfff#12

def defaultLayout : Layout := ⟨defaultX, defaultY⟩

def levelLayout : Layout := ⟨levelX, levelY⟩

/-- The layout that is in force. -/
def boundaries (level startCheck : Bool) : Layout :=
  if startCheck then defaultLayout
  else
    match level with
    | false => defaultLayout
    | true => levelLayout

def defaultCoins : BitVec 144 :=
  0x000#12 ++ 0x000#12 ++ 0x000#12 ++ 0x000#12 ++ 0x000#12 ++ 0x000#12 ++
    0x000#12 ++ 0x000#12 ++ 0x000#12 ++ 0x000#12 ++ 0x000#12 ++ 0x000#12

def levelCoins : BitVec 144 :=
  0x7fe#12 ++ 0x56a#12 ++ 0x7fe#12 ++ 0x56a#12 ++ 0x7fe#12 ++ 0x492#12 ++
    0x492#12 ++ 0x7fe#12 ++ 0x56a#12 ++ 0x7fe#12 ++ 0x56a#12 ++ 0x7fe#12

/-- The coins that are in force. -/
def coinBoundaries (level : Bool) : BitVec 144 :=
  match level with
  | false => defaultCoins
  | true => levelCoins

/-! ## The maze of the level -/

/-- The default layout opens no side of a tile of the board. -/
theorem defaultLayout_closed {posX posY : BitVec 5}
    (hx1 : 1 ≤ posX.toNat) (hx2 : posX.toNat ≤ 12)
    (hy1 : 1 ≤ posY.toNat) (hy2 : posY.toNat ≤ 12) :
    defaultLayout.turns posX posY = ⟨false, false, false, false⟩ := by
  have hX : defaultX = BitVec.allOnes 156 := by decide
  have hY : defaultY = BitVec.allOnes 156 := by decide
  rw [Layout.turns, wallVerify_board _ _ hx1 hx2 hy1 hy2]
  simp only [defaultLayout, hX, hY, BitVec.getMsbD_allOnes]
  simp only [show 13 * (posY.toNat - 1) + (posX.toNat - 1) < 156 by omega,
    show 13 * (posY.toNat - 1) + posX.toNat < 156 by omega,
    show 12 * (posY.toNat - 1) + (posX.toNat - 1) < 156 by omega,
    show 12 * posY.toNat + (posX.toNat - 1) < 156 by omega, decide_true, Bool.not_true]

/-- A coordinate of the board by its number. -/
theorem eq_ofNat_toNat (v : BitVec 5) : v = BitVec.ofNat 5 v.toNat := by
  simp

/-- The border of the level: the outer sides of the border tiles are closed, but
for the right sides in the rows `6` and `7`. -/
theorem levelLayout_border {posX posY : BitVec 5}
    (hx1 : 1 ≤ posX.toNat) (hx2 : posX.toNat ≤ 12)
    (hy1 : 1 ≤ posY.toNat) (hy2 : posY.toNat ≤ 12) :
    (posX.toNat = 1 → (levelLayout.turns posX posY).leftTurnCheck = false) ∧
      (posX.toNat = 12 → ((levelLayout.turns posX posY).rightTurnCheck = true ↔
        posY.toNat = 6 ∨ posY.toNat = 7)) ∧
      (posY.toNat = 1 → (levelLayout.turns posX posY).upTurnCheck = false) ∧
      (posY.toNat = 12 → (levelLayout.turns posX posY).downTurnCheck = false) := by
  have hcol : ∀ y < 13, 1 ≤ y →
      (levelLayout.turns 1 (BitVec.ofNat 5 y)).leftTurnCheck = false ∧
        ((levelLayout.turns 12 (BitVec.ofNat 5 y)).rightTurnCheck = true ↔ y = 6 ∨ y = 7) := by
    decide +kernel
  have hrow : ∀ x < 13, 1 ≤ x →
      (levelLayout.turns (BitVec.ofNat 5 x) 1).upTurnCheck = false ∧
        (levelLayout.turns (BitVec.ofNat 5 x) 12).downTurnCheck = false := by
    decide +kernel
  have hc := hcol posY.toNat (by omega) hy1
  have hr := hrow posX.toNat (by omega) hx1
  rw [← eq_ofNat_toNat] at hc hr
  refine ⟨fun h => ?_, fun h => ?_, fun h => ?_, fun h => ?_⟩
  · rw [show posX = 1 from BitVec.eq_of_toNat_eq h]
    exact hc.1
  · rw [show posX = 12 from BitVec.eq_of_toNat_eq h]
    exact hc.2
  · rw [show posY = 1 from BitVec.eq_of_toNat_eq h]
    exact hr.1
  · rw [show posY = 12 from BitVec.eq_of_toNat_eq h]
    exact hr.2

end SnakeMom
