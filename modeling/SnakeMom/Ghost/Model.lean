import SnakeMom.Lib.Machine
import SnakeMom.Mover

/-!
# `ghostMovement.sv`: a ghost

Like the player, a ghost is one `always_comb` block and one clocked block,
`ghostMove`.  The combinational block has three parts: the comparison with the
player, which also raises `killPlayer`; the pair of random bits `rSelect`, taken
from the generation word; and the `case` over the open sides, which chooses the
turn.  Unlike the player a ghost applies its turn at every tile centre.

The two axes of the comparison are written out twice in the source.  Here `aCompare`,
`bCompare`, `difference` and `axisContact` are one text for both, applied to the two
coordinates.
-/

namespace SnakeMom

open GridWalk Packed

/-! ## Parameters and registers -/

def ghostStep : BitVec 10 := 1

def lenContact : BitVec 10 := 0x010

structure GhostReg where
  posX : BitVec 10
  posY : BitVec 10
  posXInertia : BitVec 10
  posYInertia : BitVec 10
  posXTurnPrev : BitVec 10
  posYTurnPrev : BitVec 10
  generationCount : BitVec 3
deriving DecidableEq, Repr

/-- `xStart` and `yStart`: the start tile with five zero bits below it. -/
def tileStart (fiveStart : BitVec 5) : BitVec 10 := fiveStart ++ 0#5

/-- The values of the reset branch of `ghostMove`. -/
def GhostReg.reset (fiveXStart fiveYStart : BitVec 5) : GhostReg :=
  ⟨tileStart fiveXStart, tileStart fiveYStart, 0, 0, 0, 0, 0⟩

/-! ## The comparison with the player -/

section Compare

variable (pos player : BitVec 10)

/-- `xaCompare` and `yaCompare`. -/
def aCompare : BitVec 10 := pos + (~~~player + 1)

/-- `xbCompare` and `ybCompare`. -/
def bCompare : BitVec 10 := (~~~pos + 1) + player

/-- `xDifference` and `yDifference`. -/
def difference : BitVec 10 :=
  if (aCompare pos player).getLsbD 9 then bCompare pos player else aCompare pos player

/-- `xContact` and `yContact`. -/
def axisContact : BitVec 10 := difference pos player + (~~~lenContact + 1)

/-- `rightPass` and `downPass`. -/
def abovePass : Bool := !(aCompare pos player).getLsbD 9 && aCompare pos player != 0

/-- `leftPass` and `upPass`. -/
def belowPass : Bool :=
  if !(aCompare pos player).getLsbD 9 && aCompare pos player != 0 then false
  else aCompare pos player != 0

end Compare

def GhostReg.leftPass (s : GhostReg) (playerX : BitVec 10) : Bool := belowPass s.posX playerX
def GhostReg.rightPass (s : GhostReg) (playerX : BitVec 10) : Bool := abovePass s.posX playerX
def GhostReg.upPass (s : GhostReg) (playerY : BitVec 10) : Bool := belowPass s.posY playerY
def GhostReg.downPass (s : GhostReg) (playerY : BitVec 10) : Bool := abovePass s.posY playerY

def GhostReg.killPlayer (s : GhostReg) (playerX playerY : BitVec 10) : Bool :=
  let xContact := axisContact s.posX playerX
  let yContact := axisContact s.posY playerY
  (xContact == 0 && yContact.getLsbD 9) || (yContact == 0 && xContact.getLsbD 9)

/-! ## The random pair -/

def rSelect (generationCount : BitVec 3) (generation : BitVec 16) : BitVec 2 :=
  match generationCount.toNat with
  | 0x0 => generation.extractLsb' 0 2
  | 0x1 => generation.extractLsb' 2 2
  | 0x2 => generation.extractLsb' 4 2
  | 0x3 => generation.extractLsb' 6 2
  | 0x4 => generation.extractLsb' 8 2
  | 0x5 => generation.extractLsb' 10 2
  | 0x6 => generation.extractLsb' 12 2
  | 0x7 => generation.extractLsb' 14 2
  | _ => generation.extractLsb' 0 2

def generationNext (generationCount : BitVec 3) : BitVec 3 :=
  match generationCount.toNat with
  | 0x0 => 0x1
  | 0x1 => 0x2
  | 0x2 => 0x3
  | 0x3 => 0x4
  | 0x4 => 0x5
  | 0x5 => 0x6
  | 0x6 => 0x7
  | 0x7 => 0x0
  | _ => 0x1

/-! ## The turn -/

/-- The four values of `(posXTurn, posYTurn)`. -/
def goLeft : BitVec 10 × BitVec 10 := (~~~ghostStep + 1, 0)
def goRight : BitVec 10 × BitVec 10 := (ghostStep, 0)
def goUp : BitVec 10 × BitVec 10 := (0, ~~~ghostStep + 1)
def goDown : BitVec 10 × BitVec 10 := (0, ghostStep)

/-- `directions = { leftTurnCheck, rightTurnCheck, upTurnCheck, downTurnCheck }`. -/
def directions (t : Turns) : BitVec 4 :=
  BitVec.ofBool t.leftTurnCheck ++ BitVec.ofBool t.rightTurnCheck ++
    BitVec.ofBool t.upTurnCheck ++ BitVec.ofBool t.downTurnCheck

/-- What the turn reads besides the open sides. -/
structure TurnView where
  r : BitVec 2
  leftMove : Bool
  upMove : Bool
  downMove : Bool
  leftPass : Bool
  rightPass : Bool
  upPass : Bool
  downPass : Bool
deriving DecidableEq, Repr

/-- The `case` over `directions`. -/
def ghostTurn (t : Turns) (v : TurnView) : BitVec 10 × BitVec 10 :=
  match (directions t).toNat with
  | 0x0 => goUp
  | 0x1 => goDown
  | 0x2 => goUp
  | 0x4 => goRight
  | 0x8 => goLeft
  | 0xc =>
    if v.r = 0b11 then if v.leftMove then goRight else goLeft
    else if v.leftMove then goLeft else goRight
  | 0xa =>
    if v.r = 0b11 then if v.downMove then goUp else goLeft
    else if v.downMove then goLeft else goUp
  | 0x9 =>
    if v.r = 0b11 then if v.upMove then goDown else goLeft
    else if v.upMove then goLeft else goDown
  | 0x6 =>
    if v.r = 0b11 then if v.downMove then goUp else goRight
    else if v.downMove then goRight else goUp
  | 0x5 =>
    if v.r = 0b11 then if v.upMove then goDown else goRight
    else if v.upMove then goRight else goDown
  | 0x3 =>
    if v.r = 0b11 then if v.upMove then goDown else goUp
    else if v.upMove then goUp else goDown
  | 0xe => if v.downPass then goUp else if v.rightPass then goLeft else goRight
  | 0xd => if v.upPass then goDown else if v.rightPass then goLeft else goRight
  | 0xb => if v.rightPass then goLeft else if v.downPass then goUp else goDown
  | 0x7 => if v.leftPass then goRight else if v.downPass then goUp else goDown
  | _ => -- `4'hf`, the one value left
    match v.r.toNat with
    | 0b00 => goLeft
    | 0b01 => goRight
    | 0b10 => goUp
    | _ => goDown

/-! ## The clocked block -/

/-- What one edge of the ghosts' clock samples. -/
structure GhostIn where
  Reset : Bool
  layout : Layout
  generation : BitVec 16
  playerX : BitVec 10
  playerY : BitVec 10
deriving DecidableEq, Repr

/-- The answer of `wallVerify` for the tile the ghost is on. -/
abbrev GhostReg.turns (s : GhostReg) (l : Layout) : Turns :=
  l.turns (tile s.posX) (tile s.posY)

def GhostReg.view (s : GhostReg) (i : GhostIn) : TurnView where
  r := rSelect s.generationCount i.generation
  leftMove := leftMoveCheck s.posXInertia
  upMove := upMoveCheck s.posYInertia
  downMove := downMoveCheck s.posYInertia
  leftPass := s.leftPass i.playerX
  rightPass := s.rightPass i.playerX
  upPass := s.upPass i.playerY
  downPass := s.downPass i.playerY

/-- The pair `(posXTurn, posYTurn)`. -/
def GhostReg.turn (s : GhostReg) (i : GhostIn) : BitVec 10 × BitVec 10 :=
  ghostTurn (s.turns i.layout) (s.view i)

/-- `crossroadCheck = xTileBound & yTileBound`. -/
def GhostReg.crossroad (s : GhostReg) : Bool := tileBound s.posX && tileBound s.posY

/-- The pair `(posXInertiaEnd, posYInertiaEnd)`. -/
def GhostReg.inertiaEnd (s : GhostReg) (i : GhostIn) : BitVec 10 × BitVec 10 :=
  if s.crossroad = false then (s.posXInertia, s.posYInertia) else s.turn i

def GhostReg.generationInc (s : GhostReg) : BitVec 3 :=
  if s.crossroad = false then s.generationCount else generationNext s.generationCount

/-- The clocked branch of `ghostMove`. -/
def ghostTick (s : GhostReg) (i : GhostIn) : GhostReg where
  posXTurnPrev := (s.turn i).1
  posYTurnPrev := (s.turn i).2
  posXInertia := (s.inertiaEnd i).1
  posYInertia := (s.inertiaEnd i).2
  posX := s.posX + (s.inertiaEnd i).1
  posY := s.posY + (s.inertiaEnd i).2
  generationCount := s.generationInc

section Clocked

variable (fiveXStart fiveYStart : BitVec 5)

/-- `ghostMove`: the reset branch, or one tick. -/
def ghostMove (s : GhostReg) (i : GhostIn) : GhostReg :=
  if i.Reset then .reset fiveXStart fiveYStart else ghostTick s i

def ghostMovement : Sync.Machine GhostIn GhostReg :=
  ⟨.reset fiveXStart fiveYStart, ghostMove fiveXStart fiveYStart⟩

end Clocked

/-! ## The turn as a side -/

/-- The ghost as a walker on the grid. -/
def GhostReg.walker (s : GhostReg) : Walker :=
  moverWalker s.posX s.posY s.posXInertia s.posYInertia

/-- What the `case` over the open sides chooses: always one of the four sides.
It is an open one, but for the closed tile, which has no open side and is left
upwards. -/
theorem ghostTurn_cases (t : Turns) (v : TurnView) :
    ∃ d, ghostTurn t v = (stepX (some d), stepY (some d)) ∧
      (t.through d = true ∨ t.Closed ∧ d = .up) := by
  have hgo : ∀ d : Side, t.through d = true →
      ∀ turn, turn = (stepX (some d), stepY (some d)) →
        ∃ d, turn = (stepX (some d), stepY (some d)) ∧
          (t.through d = true ∨ t.Closed ∧ d = .up) := fun d hd turn ht => ⟨d, ht, Or.inl hd⟩
  obtain ⟨l, r, u, d⟩ := t
  cases l <;> cases r <;> cases u <;> cases d <;>
    simp only [ghostTurn, directions, BitVec.ofBool_true, BitVec.ofBool_false,
      BitVec.reduceAppend, BitVec.reduceToNat]
  case false.false.false.false => exact ⟨.up, rfl, Or.inr ⟨by decide, rfl⟩⟩
  all_goals
    repeat' split
    all_goals first
      | exact hgo .left rfl _ rfl
      | exact hgo .right rfl _ rfl
      | exact hgo .up rfl _ rfl
      | exact hgo .down rfl _ rfl

end SnakeMom
