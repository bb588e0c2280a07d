import SnakeMom.Video.Sprites
import SnakeMom.Game.Model

/-!
# `Color_Mapper.sv`: the colour of a pixel

`color_mapper` is combinational: from the pixel that is drawn, the positions and the coins
it takes a colour.  For the player, the four ghosts, the coins and the walls it has a flag,
an address into a bank, and a select of one bit of the row that the bank delivers.

* The blocks of the four ghosts are one text with other names, `ghostCheckOf` and
  `ghostADDROf` here; each ghost keeps its own wires.
* Sums with an unsized constant are 32 bits wide and cut by the assignment.  They are
  taken in 10 bits here, which is the same after the cut.
* A select outside a vector is unknown, and an unknown condition is not taken, so such a
  select is a bit that is not set.
-/

namespace SnakeMom

/-- The input ports. -/
structure ColorMapperIn where
  coinLocs : BitVec 144
  playerX : BitVec 10
  playerY : BitVec 10
  DrawX : BitVec 10
  DrawY : BitVec 10
  playerSize : BitVec 10
  redGhostX : BitVec 10
  redGhostY : BitVec 10
  orangeGhostX : BitVec 10
  orangeGhostY : BitVec 10
  blueGhostX : BitVec 10
  blueGhostY : BitVec 10
  pinkGhostX : BitVec 10
  pinkGhostY : BitVec 10
  dir : BitVec 2
  level : Bool
deriving DecidableEq, Repr

/-- The output ports. -/
structure Rgb where
  Red : BitVec 8
  Green : BitVec 8
  Blue : BitVec 8
deriving DecidableEq, Repr

/-- What `lab8` connects to `playerSize`. -/
def playerPosSize : BitVec 10 := 16

namespace color_mapper

variable (i : ColorMapperIn)

def xStretch : BitVec 10 := i.DrawX - 30

def yStretch : BitVec 10 := i.DrawY - 30

def tmp : BitVec 10 := i.DrawY - i.playerY + i.playerSize + 96 + 32 * i.dir.setWidth 10

/-! ## The player -/

def playerCheck : Bool :=
  decide (i.DrawX ≥ i.playerX - i.playerSize) && decide (i.DrawX ≤ i.playerX + i.playerSize) &&
    decide (i.DrawY ≥ i.playerY - i.playerSize) && decide (i.DrawY ≤ i.playerY + i.playerSize)

def playerADDR : BitVec 8 := if playerCheck i then (tmp i).extractLsb' 0 8 else 0

/-- `playerSprite` counts its bits from the left. -/
def playerBit : Bool :=
  (playerBank.spriteOut (playerADDR i)).getMsbD (i.DrawX - i.playerX + i.playerSize).toNat

/-! ## The ghosts -/

/-- The flag of a ghost at `(X, Y)`. -/
def ghostCheckOf (X Y : BitVec 10) : Bool :=
  decide (i.DrawX ≥ X - i.playerSize) && decide (i.DrawX ≤ X + i.playerSize) &&
    decide (i.DrawY ≥ Y - i.playerSize) && decide (i.DrawY ≤ Y - i.playerSize)

/-- The address of a ghost at `(X, Y)`. -/
def ghostADDROf (X Y : BitVec 10) : BitVec 8 :=
  if ghostCheckOf i X Y then (i.DrawY - X + i.playerSize + 224).setWidth 8 else 0

/-- The bit that is selected in the row of a ghost at column `X`. -/
def ghostColumnOf (X : BitVec 10) : BitVec 10 := i.DrawX - X + i.playerSize

def redGhostCheck : Bool := ghostCheckOf i i.redGhostX i.redGhostY

def orangeGhostCheck : Bool := ghostCheckOf i i.orangeGhostX i.orangeGhostY

def blueGhostCheck : Bool := ghostCheckOf i i.blueGhostX i.blueGhostY

def pinkGhostCheck : Bool := ghostCheckOf i i.pinkGhostX i.pinkGhostY

def ghostRedADDR : BitVec 8 := ghostADDROf i i.redGhostX i.redGhostY

def ghostOrangeADDR : BitVec 8 := ghostADDROf i i.orangeGhostX i.orangeGhostY

def ghostBlueADDR : BitVec 8 := ghostADDROf i i.blueGhostX i.blueGhostY

def ghostPinkADDR : BitVec 8 := ghostADDROf i i.pinkGhostX i.pinkGhostY

/-- The sprites of the ghosts count their bits from the right. -/
def ghostRedBit : Bool :=
  (playerBank.spriteOut (ghostRedADDR i)).getLsbD (ghostColumnOf i i.redGhostX).toNat

def ghostOrangeBit : Bool :=
  (playerBank.spriteOut (ghostOrangeADDR i)).getLsbD (ghostColumnOf i i.orangeGhostX).toNat

def ghostBlueBit : Bool :=
  (playerBank.spriteOut (ghostBlueADDR i)).getLsbD (ghostColumnOf i i.blueGhostX).toNat

def ghostPinkBit : Bool :=
  (playerBank.spriteOut (ghostPinkADDR i)).getLsbD (ghostColumnOf i i.pinkGhostX).toNat

/-! ## The coins and the walls -/

/-- `coinLocs` counts its bits from the left. -/
def coinCheck : Bool :=
  decide (i.DrawX > 16) && decide (i.DrawY > 16) && decide (i.DrawX < 410) &&
    decide (i.DrawY ≤ 400) &&
    i.coinLocs.getMsbD
      (((yStretch i).extractLsb' 5 5).toNat * 12 + ((xStretch i).extractLsb' 5 5).toNat) &&
    decide ((xStretch i).extractLsb' 0 5 ≤ 3) && decide ((yStretch i).extractLsb' 0 5 ≤ 3)

def coinADDR : BitVec 3 := if coinCheck i then (yStretch i).extractLsb' 0 3 else 0b100

def coinBit : Bool :=
  (coinBank.spriteOut (coinADDR i)).getLsbD ((xStretch i).extractLsb' 0 2).toNat

def wallCheck : Bool := decide (i.DrawX < 416) && decide (i.DrawY ≤ 400)

def levelADDR : BitVec 10 :=
  if wallCheck i then (if i.level then i.DrawY + 220 else i.DrawY + 624) else 0

def wallBit (levelData : BitVec 10 → BitVec 416) : Bool :=
  (levelData (levelADDR i)).getLsbD i.DrawX.toNat

end color_mapper

open color_mapper in
/-- The block `RGB`. -/
def color_mapper (levelData : BitVec 10 → BitVec 416) (i : ColorMapperIn) : Rgb :=
  if playerCheck i && playerBit i then ⟨0x00, 0xff, 0x00⟩
  else if redGhostCheck i && ghostRedBit i then ⟨0xff, 0x5f, 0x5f⟩
  else if orangeGhostCheck i && ghostOrangeBit i then ⟨0xff, 0xb8, 0x51⟩
  else if blueGhostCheck i && ghostBlueBit i then ⟨0x01, 0xff, 0xff⟩
  else if pinkGhostCheck i && ghostPinkBit i then ⟨0xff, 0xb8, 0xff⟩
  else if coinCheck i && color_mapper.coinBit i then ⟨0x00, 0xff, 0xff⟩
  else if wallCheck i && wallBit i levelData then ⟨0xff, 0x00, 0xff⟩
  else ⟨0x00, 0x00, 0x00⟩

/-! ## Positions in numbers -/

namespace color_mapper

variable {i : ColorMapperIn} {X D : BitVec 10}

theorem toNat_playerPosSize : playerPosSize.toNat = 16 := rfl

theorem toNat_sub_size (hsize : i.playerSize = playerPosSize) (h : 16 ≤ X.toNat) :
    (X - i.playerSize).toNat = X.toNat - 16 := by
  have hle : playerPosSize ≤ X := h
  rw [hsize, BitVec.toNat_sub_of_le hle, toNat_playerPosSize]

theorem toNat_add_size (hsize : i.playerSize = playerPosSize) (h : X.toNat ≤ 416) :
    (X + i.playerSize).toNat = X.toNat + 16 := by
  rw [hsize, BitVec.toNat_add, toNat_playerPosSize, Nat.mod_eq_of_lt (by omega)]

/-- The offset of line or column `D` in the frame around `X`. -/
theorem toNat_offset (hsize : i.playerSize = playerPosSize) (hlo : X.toNat ≤ D.toNat + 16)
    (hhi : D.toNat ≤ X.toNat + 16) : (D - X + i.playerSize).toNat = D.toNat + 16 - X.toNat := by
  have hlt := X.isLt
  rw [hsize, BitVec.toNat_add, BitVec.toNat_sub, toNat_playerPosSize]
  omega

end color_mapper

/-- What `lab8` connects to the input ports while pixel `(DrawX, DrawY)` is drawn. -/
def Game.colorMapperIn (s : Game) (keycode : BitVec 16) (DrawX DrawY : BitVec 10) :
    ColorMapperIn where
  coinLocs := s.coinLocs
  playerX := s.player.posX
  playerY := s.player.posY
  DrawX := DrawX
  DrawY := DrawY
  playerSize := playerPosSize
  redGhostX := s.redGhost.posX
  redGhostY := s.redGhost.posY
  orangeGhostX := s.orangeGhost.posX
  orangeGhostY := s.orangeGhost.posY
  blueGhostX := s.blueGhost.posX
  blueGhostY := s.blueGhost.posY
  pinkGhostX := s.pinkGhost.posX
  pinkGhostY := s.pinkGhost.posY
  dir := playerDir s.player s.layout keycode
  level := s.gameState.level

end SnakeMom
