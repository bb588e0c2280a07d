import SnakeMom.Lib.Machine
import SnakeMom.Mover

/-!
# `playerMovement.sv`: the player

The module is one `always_comb` block that computes the next inertia and one
clocked block, `playerMove`, that adds it to the position.  The definitions below
follow the combinational block in its order: the requested turn, the inertia that
is carried on, and the choice between the two.

`playerHeading` is the same choice as a function of headings, and
`inertiaEnd_eq` says that the block computes it on registers that hold a heading.
-/

namespace SnakeMom

open GridWalk Packed

/-! ## Parameters and registers -/

def playerXOrigin : BitVec 10 := 320
def playerYOrigin : BitVec 10 := 320
def playerStep : BitVec 10 := 1

def keyA : BitVec 16 := 0x0004
def keyD : BitVec 16 := 0x0007
def keyW : BitVec 16 := 0x001a
def keyS : BitVec 16 := 0x0016

structure PlayerReg where
  posX : BitVec 10
  posY : BitVec 10
  posXInertia : BitVec 10
  posYInertia : BitVec 10
  posXTurnPrev : BitVec 10
  posYTurnPrev : BitVec 10
deriving DecidableEq, Repr

/-- The values of the reset branch of `playerMove`. -/
def PlayerReg.reset : PlayerReg := ⟨playerXOrigin, playerYOrigin, 0, 0, 0, 0⟩

/-! ## The combinational block -/

/-- What the key asks for. -/
structure TurnRequest where
  posXTurn : BitVec 10
  posYTurn : BitVec 10
  dirTurn : BitVec 3
  pivotCheck : Bool
deriving DecidableEq, Repr

def turnRequest (s : PlayerReg) (t : Turns) (keycode : BitVec 16) : TurnRequest :=
  if keycode = keyS then ⟨0, playerStep, 0b011, !t.downTurnCheck⟩
  else if keycode = keyW then ⟨0, ~~~playerStep + 1, 0b010, !t.upTurnCheck⟩
  else if keycode = keyD then ⟨playerStep, 0, 0b001, !t.rightTurnCheck⟩
  else if keycode = keyA then ⟨~~~playerStep + 1, 0, 0b000, !t.leftTurnCheck⟩
  else ⟨s.posXTurnPrev, s.posYTurnPrev, 0b111, true⟩

/-- Both coordinates have their five low bits clear. -/
def crossroadCheck (posX posY : BitVec 10) : Bool :=
  !(posX.getLsbD 0 || posX.getLsbD 1 || posX.getLsbD 2 || posX.getLsbD 3 || posX.getLsbD 4 ||
    posY.getLsbD 0 || posY.getLsbD 1 || posY.getLsbD 2 || posY.getLsbD 3 || posY.getLsbD 4)

/-- The pair `(posXInertiaInc, posYInertiaInc)`: the motion that is carried on
when no turn is taken. -/
def inertiaInc (s : PlayerReg) (t : Turns) (dirTurn : BitVec 3) : BitVec 10 × BitVec 10 :=
  if crossroadCheck s.posX s.posY then
    if rightMoveCheck s.posXInertia && t.rightTurnCheck then (playerStep, 0)
    else if leftMoveCheck s.posXInertia && t.leftTurnCheck then (~~~playerStep + 1, 0)
    else if upMoveCheck s.posYInertia && t.upTurnCheck then (0, ~~~playerStep + 1)
    else if downMoveCheck s.posYInertia && t.downTurnCheck then (0, playerStep)
    else (0, 0)
  else
    if dirTurn = 0b000 ∧ rightMoveCheck s.posXInertia then (~~~playerStep + 1, 0)
    else if dirTurn = 0b001 ∧ leftMoveCheck s.posXInertia then (playerStep, 0)
    else if dirTurn = 0b011 ∧ upMoveCheck s.posYInertia then (0, playerStep)
    else if dirTurn = 0b010 ∧ downMoveCheck s.posYInertia then (0, ~~~playerStep + 1)
    else (s.posXInertia, s.posYInertia)

/-- The pair `(posXInertiaEnd, posYInertiaEnd)`. -/
def inertiaEnd (s : PlayerReg) (t : Turns) (keycode : BitVec 16) : BitVec 10 × BitVec 10 :=
  let turn := turnRequest s t keycode
  if crossroadCheck s.posX s.posY = false ∨ turn.pivotCheck = true then
    inertiaInc s t turn.dirTurn
  else (turn.posXTurn, turn.posYTurn)

/-! ## The clocked block -/

/-- The answer of `wallVerify` for the tile the player is on. -/
abbrev PlayerReg.turns (s : PlayerReg) (l : Layout) : Turns :=
  l.turns (tile s.posX) (tile s.posY)

/-- The clocked branch of `playerMove`. -/
def playerTick (s : PlayerReg) (l : Layout) (keycode : BitVec 16) : PlayerReg where
  posXTurnPrev := (turnRequest s (s.turns l) keycode).posXTurn
  posYTurnPrev := (turnRequest s (s.turns l) keycode).posYTurn
  posXInertia := (inertiaEnd s (s.turns l) keycode).1
  posYInertia := (inertiaEnd s (s.turns l) keycode).2
  posX := s.posX + (inertiaEnd s (s.turns l) keycode).1
  posY := s.posY + (inertiaEnd s (s.turns l) keycode).2

/-- What one edge of the player's clock samples. -/
structure PlayerIn where
  Reset : Bool
  layout : Layout
  keycode : BitVec 16
deriving DecidableEq, Repr

/-- `playerMove`: the reset branch, or one tick. -/
def playerMove (s : PlayerReg) (i : PlayerIn) : PlayerReg :=
  if i.Reset then .reset else playerTick s i.layout i.keycode

def playerMovement : Sync.Machine PlayerIn PlayerReg := ⟨.reset, playerMove⟩

/-- The facing direction that is drawn. -/
def playerDir (s : PlayerReg) (l : Layout) (keycode : BitVec 16) : BitVec 2 :=
  let turn := turnRequest s (s.turns l) keycode
  if turn.posXTurn = playerStep then 0b00
  else if turn.posXTurn = ~~~playerStep + 1 then 0b01
  else if turn.posYTurn = playerStep then 0b11
  else 0b10

/-! ## The block as a choice of headings -/

/-- The player as a walker on the grid. -/
def PlayerReg.walker (s : PlayerReg) : Walker :=
  moverWalker s.posX s.posY s.posXInertia s.posYInertia

/-- The side that a key asks for. -/
def keySide (keycode : BitVec 16) : Option Side :=
  if keycode = keyS then some .down
  else if keycode = keyW then some .up
  else if keycode = keyD then some .right
  else if keycode = keyA then some .left
  else none

/-- At a centre an open side that the key asks for is taken; otherwise the player
goes on through an open side and stops at a closed one. -/
def centreHeading (t : Turns) (key h : Option Side) : Option Side :=
  match key.filter t.through with
  | some k => some k
  | none => h.filter t.through

/-- Between two centres the player only turns back, on the opposite key. -/
def edgeHeading (key h : Option Side) : Option Side :=
  if h.map Side.opposite = key then key else h

/-- The heading after a tick. -/
def playerHeading (s : PlayerReg) (t : Turns) (keycode : BitVec 16) : Option Side :=
  if crossroadCheck s.posX s.posY then centreHeading t (keySide keycode) s.walker.heading
  else edgeHeading (keySide keycode) s.walker.heading

theorem crossroadCheck_eq (posX posY : BitVec 10) :
    crossroadCheck posX posY = (tileBound posX && tileBound posY) := by
  simp only [crossroadCheck, tileBound, Bool.not_or, Bool.and_assoc]

/-- The crossroad flag is the centre test of the grid. -/
theorem crossroadCheck_iff (posX posY : BitVec 10) :
    crossroadCheck posX posY = true ↔ (32 : Int) ∣ posX.toNat ∧ (32 : Int) ∣ posY.toNat := by
  rw [crossroadCheck_eq, Bool.and_eq_true, tileBound_iff, tileBound_iff]

/-- The code of a requested side in `dirTurn`; `111` asks for nothing. -/
def dirCode : Option Side → BitVec 3
  | some .left => 0b000
  | some .right => 0b001
  | some .up => 0b010
  | some .down => 0b011
  | none => 0b111

/-- The request of a key, by the side it asks for. -/
theorem turnRequest_eq (s : PlayerReg) (t : Turns) (keycode : BitVec 16) :
    turnRequest s t keycode =
      match keySide keycode with
      | some k => ⟨stepX (some k), stepY (some k), dirCode (some k), !t.through k⟩
      | none => ⟨s.posXTurnPrev, s.posYTurnPrev, dirCode none, true⟩ := by
  unfold turnRequest keySide
  split_ifs <;> rfl

/-- At a centre the motion goes on exactly through an open side. -/
theorem inertiaInc_centre {s : PlayerReg} {h : Option Side} (hx : s.posXInertia = stepX h)
    (hy : s.posYInertia = stepY h) (hc : crossroadCheck s.posX s.posY = true) (t : Turns)
    (dirTurn : BitVec 3) :
    inertiaInc s t dirTurn = (stepX (h.filter t.through), stepY (h.filter t.through)) := by
  simp only [inertiaInc, hc, if_true, hx, hy, leftMoveCheck_stepX, rightMoveCheck_stepX,
    upMoveCheck_stepY, downMoveCheck_stepY]
  obtain ⟨l, r, u, d⟩ := t
  rcases h with _ | side
  · rfl
  · cases side with
    | left => cases l <;> rfl
    | right => cases r <;> rfl
    | up => cases u <;> rfl
    | down => cases d <;> rfl

/-- Between two centres the motion turns back exactly on the opposite key. -/
theorem inertiaInc_edge {s : PlayerReg} {h : Option Side} (hx : s.posXInertia = stepX h)
    (hy : s.posYInertia = stepY h) (hc : crossroadCheck s.posX s.posY = false) (t : Turns)
    (key : Option Side) :
    inertiaInc s t (dirCode key) = (stepX (edgeHeading key h), stepY (edgeHeading key h)) := by
  simp only [inertiaInc, hc, Bool.false_eq_true, if_false, hx, hy, leftMoveCheck_stepX,
    rightMoveCheck_stepX, upMoveCheck_stepY, downMoveCheck_stepY]
  rcases key with _ | k <;> rcases h with _ | side
  · rfl
  · cases side <;> rfl
  · cases k <;> rfl
  · cases k <;> cases side <;> rfl

/-- The block computes the inertia of the chosen heading. -/
theorem inertiaEnd_eq {s : PlayerReg} (hs : Coded s.posXInertia s.posYInertia) (t : Turns)
    (keycode : BitVec 16) :
    inertiaEnd s t keycode =
      (stepX (playerHeading s t keycode), stepY (playerHeading s t keycode)) := by
  have hx : s.posXInertia = stepX s.walker.heading := hs.1
  have hy : s.posYInertia = stepY s.walker.heading := hs.2
  rw [inertiaEnd, turnRequest_eq, playerHeading]
  cases hc : crossroadCheck s.posX s.posY with
  | false =>
    cases keySide keycode with
    | none => exact inertiaInc_edge hx hy hc t none
    | some k => exact inertiaInc_edge hx hy hc t (some k)
  | true =>
    rw [centreHeading]
    cases keySide keycode with
    | none => exact inertiaInc_centre hx hy hc t _
    | some k =>
      cases hk : t.through k with
      | false => simp [hk, inertiaInc_centre hx hy hc, Option.filter]
      | true => simp [hk, Option.filter]

end SnakeMom
