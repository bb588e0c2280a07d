import SnakeMom.Player.Walk
import SnakeMom.Ghost.Walk
import SnakeMom.Ghost.Contact
import SnakeMom.Coin.History
import SnakeMom.Game.State

/-!
# `lab8.sv`: the composed game

The game is the state machine, the player, four ghosts and the coins, joined by
the wires of `lab8`.  One step is one edge of `Clk`, in two phases.

* `clocked`.  Every register whose clock rises at this edge takes its next value
  from the values before the edge.  `gameState`, the coins and `Reset_h` are
  clocked by `Clk` itself.  The movers are clocked by `clkDivide` and `clkGhost`;
  whether one of these rises with the edge is an input, so the order of ticks is
  arbitrary.  The slow clocks are registers themselves and rise just after the
  edge, so a mover that ticks may see the outputs of `gameState` and `Reset_h` of
  before the edge or already those of after it.  This is an input too.  The keycode may
  change with the edge as well, so a late player samples one of its own.  Nothing but a
  tick of a ghost samples a generation word, so this is the one of its tick, late or not.
* `settle`.  The asynchronous resets act on the new values: `Reset_h` resets
  `gameState`, and `gameReset` resets the movers and the coins.

The keycode and the four generation words come from the processor and are inputs.
`edge_of_reset` and `edge_of_not_reset` say what an edge does; every later proof
uses them and not the definition.
-/

namespace SnakeMom

open GridWalk Packed

inductive Ghost where
  | red
  | orange
  | blue
  | pink
deriving DecidableEq, Repr

/-- All registers of the game. -/
@[ext] structure Game where
  Reset_h : Bool
  gameState : GameStateReg
  player : PlayerReg
  redGhost : GhostReg
  orangeGhost : GhostReg
  blueGhost : GhostReg
  pinkGhost : GhostReg
  coins : CoinBank

/-- What one edge of `Clk` samples, which of the slow clocks rise with it, whether the
movers that tick see the state machine as it is after the edge, and the keycode of after the
edge. -/
structure GameIn where
  KEY0 : Bool
  keycode : BitVec 16
  redGenerate : BitVec 16
  orangeGenerate : BitVec 16
  blueGenerate : BitVec 16
  pinkGenerate : BitVec 16
  clkDivide : Bool
  clkGhost : Bool
  playerLate : Bool
  ghostLate : Bool
  lateKeycode : BitVec 16
deriving DecidableEq, Repr

def GameIn.generate (i : GameIn) : Ghost → BitVec 16
  | .red => i.redGenerate
  | .orange => i.orangeGenerate
  | .blue => i.blueGenerate
  | .pink => i.pinkGenerate

/-- The keycode that the player samples at its tick. -/
def GameIn.playerKeycode (i : GameIn) : BitVec 16 :=
  if i.playerLate then i.lateKeycode else i.keycode

/-- The start tile of every ghost. -/
def ghostStart : BitVec 5 := 0x06

namespace Game

def ghost (s : Game) : Ghost → GhostReg
  | .red => s.redGhost
  | .orange => s.orangeGhost
  | .blue => s.blueGhost
  | .pink => s.pinkGhost

/-! ## Wires -/

/-- `gameReset = gameResetAll | Reset_h`. -/
def gameReset (s : Game) : Bool := s.gameState.resetGame || s.Reset_h

/-- The layout that `boundaries` drives. -/
def layout (s : Game) : Layout := boundaries s.gameState.level s.gameState.check

/-- The arrangement that `coinBoundaries` drives. -/
def origCoinLocs (s : Game) : BitVec 144 := coinBoundaries s.gameState.level

/-- The coins that are present. -/
def coinLocs (s : Game) : BitVec 144 := coinAssembler.presentCheck s.coins s.origCoinLocs

def boardCheck (s : Game) : Bool := coinAssembler.boardCheck s.coins s.origCoinLocs

/-- `killPlayer` of one ghost. -/
def playerHitDetect (s : Game) (c : Ghost) : Bool :=
  (s.ghost c).killPlayer s.player.posX s.player.posY

def playerHitDetectFinal (s : Game) : Bool :=
  s.playerHitDetect .red || s.playerHitDetect .orange || s.playerHitDetect .blue ||
    s.playerHitDetect .pink

/-! ## One edge of `Clk` -/

/-- The registers of the state machine after the edge. -/
def gameStateEdge (s : Game) (i : GameIn) : GameStateReg :=
  if s.Reset_h then .reset
  else s.gameState.next i.keycode s.playerHitDetectFinal s.boardCheck

/-- The `gameReset` that a mover sees at its tick. -/
def seenReset (s : Game) (i : GameIn) (late : Bool) : Bool :=
  if late then (s.gameStateEdge i).resetGame || !i.KEY0 else s.gameReset

/-- The layout that a mover sees at its tick. -/
def seenLayout (s : Game) (i : GameIn) (late : Bool) : Layout :=
  if late then boundaries (s.gameStateEdge i).level (s.gameStateEdge i).check else s.layout

/-- What the player samples. -/
def playerIn (s : Game) (i : GameIn) : PlayerIn :=
  ⟨s.seenReset i i.playerLate, s.seenLayout i i.playerLate, i.playerKeycode⟩

/-- The registers of the player after the edge. -/
def playerEdge (s : Game) (i : GameIn) : PlayerReg :=
  if i.clkDivide then playerMove s.player (s.playerIn i) else s.player

/-- What a ghost samples. -/
def ghostIn (s : Game) (i : GameIn) (c : Ghost) : GhostIn :=
  ⟨s.seenReset i i.ghostLate, s.seenLayout i i.ghostLate, i.generate c,
    s.player.posX, s.player.posY⟩

/-- The registers of a ghost after the edge. -/
def ghostEdge (s : Game) (i : GameIn) (c : Ghost) : GhostReg :=
  if i.clkGhost then ghostMove ghostStart ghostStart (s.ghost c) (s.ghostIn i c) else s.ghost c

/-- The new values of all registers, before the asynchronous resets. -/
def clocked (s : Game) (i : GameIn) : Game where
  Reset_h := !i.KEY0
  gameState := s.gameStateEdge i
  player := s.playerEdge i
  redGhost := s.ghostEdge i .red
  orangeGhost := s.ghostEdge i .orange
  blueGhost := s.ghostEdge i .blue
  pinkGhost := s.ghostEdge i .pink
  coins := coinAssembler.edge s.coins ⟨s.gameReset, s.player.posX, s.player.posY⟩

/-- The asynchronous reset of the state machine. -/
def settleState (s : Game) : Game :=
  if s.Reset_h then { s with gameState := .reset } else s

/-- The asynchronous reset of the movers and the coins. -/
def settleBoard (s : Game) : Game :=
  if s.gameReset then
    { s with
      player := .reset
      redGhost := .reset ghostStart ghostStart
      orangeGhost := .reset ghostStart ghostStart
      blueGhost := .reset ghostStart ghostStart
      pinkGhost := .reset ghostStart ghostStart
      coins := .visible }
  else s

def settle (s : Game) : Game := s.settleState.settleBoard

/-- One edge of `Clk`. -/
def edge (s : Game) (i : GameIn) : Game := (s.clocked i).settle

/-- The registers while the hardware reset is asserted. -/
def hardReset : Game where
  Reset_h := true
  gameState := .reset
  player := .reset
  redGhost := .reset ghostStart ghostStart
  orangeGhost := .reset ghostStart ghostStart
  blueGhost := .reset ghostStart ghostStart
  pinkGhost := .reset ghostStart ghostStart
  coins := .visible

end Game

/-- The game, from hardware reset. -/
def lab8 : Sync.Machine GameIn Game := ⟨.hardReset, Game.edge⟩

namespace Game

/-! ## What one edge does -/

/-- The movers and the coins are at their reset values. -/
structure Fresh (s : Game) : Prop where
  player : s.player = .reset
  ghost : ∀ c, s.ghost c = .reset ghostStart ghostStart
  coins : s.coins = .visible

theorem fresh_hardReset : Fresh hardReset := ⟨rfl, fun c => by cases c <;> rfl, rfl⟩

theorem playerHitDetectFinal_iff (s : Game) :
    s.playerHitDetectFinal = true ↔ ∃ c, s.playerHitDetect c = true := by
  simp only [playerHitDetectFinal, Bool.or_eq_true]
  constructor
  · intro h
    rcases h with ((h | h) | h) | h
    exacts [⟨_, h⟩, ⟨_, h⟩, ⟨_, h⟩, ⟨_, h⟩]
  · intro h
    obtain ⟨c, h⟩ := h
    cases c <;> simp [h]

theorem playerHitDetectFinal_eq_false {s : Game} (h : ∀ c, s.playerHitDetect c = false) :
    s.playerHitDetectFinal = false := by
  rw [← Bool.not_eq_true, playerHitDetectFinal_iff]
  intro hhit
  obtain ⟨c, hc⟩ := hhit
  rw [h c] at hc
  cases hc

section Edge

variable (s : Game) (i : GameIn)

@[simp] theorem settleState_Reset_h : s.settleState.Reset_h = s.Reset_h := by
  unfold settleState
  split <;> rfl

@[simp] theorem settleBoard_Reset_h : s.settleBoard.Reset_h = s.Reset_h := by
  unfold settleBoard
  split <;> rfl

@[simp] theorem settleBoard_gameState : s.settleBoard.gameState = s.gameState := by
  unfold settleBoard
  split <;> rfl

theorem settleState_gameState :
    s.settleState.gameState = if s.Reset_h then .reset else s.gameState := by
  unfold settleState
  split <;> rfl

@[simp] theorem edge_Reset_h : (s.edge i).Reset_h = !i.KEY0 := by
  rw [edge, settle, settleBoard_Reset_h, settleState_Reset_h, clocked]

/-- The state machine after an edge. -/
theorem edge_gameState :
    (s.edge i).gameState = if i.KEY0 then s.gameStateEdge i else .reset := by
  rw [edge, settle, settleBoard_gameState, settleState_gameState, clocked]
  cases i.KEY0 <;> rfl

/-- When the reset is up after an edge, the board is fresh. -/
theorem edge_of_reset (h : (s.edge i).gameReset = true) : Fresh (s.edge i) := by
  have hg : (s.clocked i).settleState.gameReset = true := by
    rwa [edge, settle, gameReset, settleBoard_gameState, settleBoard_Reset_h] at h
  rw [edge, settle, settleBoard, if_pos hg]
  exact ⟨rfl, fun c => by cases c <;> rfl, rfl⟩

end Edge

/-- When the reset is down after an edge, the hardware reset was down before it and
is down after it, no ghost had hit, and every register took its clocked value. -/
structure Runs (s : Game) (i : GameIn) : Prop where
  KEY0 : i.KEY0 = true
  Reset_h : s.Reset_h = false
  no_hit : s.playerHitDetectFinal = false
  clocked : s.edge i = s.clocked i

theorem edge_of_not_reset {s : Game} {i : GameIn} (h : (s.edge i).gameReset = false) :
    Runs s i := by
  have hkey : i.KEY0 = true := by
    rw [gameReset, edge_Reset_h, Bool.or_eq_false_iff, Bool.not_eq_false'] at h
    exact h.2
  have hlow : (s.gameStateEdge i).resetGame = false := by
    rw [gameReset, Bool.or_eq_false_iff, edge_gameState, if_pos hkey] at h
    exact h.1
  have hres : s.Reset_h = false := by
    by_contra hne
    rw [gameStateEdge, if_pos (by simpa using hne)] at hlow
    cases hlow
  have hhit : s.playerHitDetectFinal = false := by
    by_contra hne
    rw [gameStateEdge, hres, if_neg Bool.false_ne_true,
      show s.playerHitDetectFinal = true by simpa using hne, GameStateReg.next_gameOver] at hlow
    cases hlow
  refine ⟨hkey, hres, hhit, ?_⟩
  have hs : (s.clocked i).settleState = s.clocked i := by
    rw [settleState, Game.clocked, hkey]
    rfl
  have hr : (s.clocked i).gameReset = false := by
    rw [gameReset, Game.clocked, hkey, hlow]
    rfl
  rw [edge, settle, hs, settleBoard, hr, if_neg Bool.false_ne_true]

section Runs

variable {s : Game} {i : GameIn} (h : Runs s i)

include h

theorem Runs.gameState :
    (s.edge i).gameState = s.gameState.next i.keycode false s.boardCheck := by
  rw [h.clocked, Game.clocked, gameStateEdge, h.Reset_h, h.no_hit, if_neg Bool.false_ne_true]

theorem Runs.gameStateEdge : s.gameStateEdge i = (s.edge i).gameState := by
  rw [h.clocked, Game.clocked]

/-- A late mover sees no reset, and an early one sees that of before the edge. -/
theorem Runs.seenReset (late : Bool) : s.seenReset i late = (!late && s.gameReset) := by
  cases late with
  | false => rfl
  | true =>
    rw [Game.seenReset, if_pos rfl, h.gameStateEdge, h.gameState, GameStateReg.next_resetGame,
      h.KEY0]
    rfl

/-- A late mover sees the layout of after the edge. -/
theorem Runs.seenLayout (late : Bool) :
    s.seenLayout i late = if late then (s.edge i).layout else s.layout := by
  rw [Game.seenLayout, h.gameStateEdge]
  rfl

theorem Runs.player : (s.edge i).player = s.playerEdge i := by
  rw [h.clocked, Game.clocked]

theorem Runs.ghost (c : Ghost) : (s.edge i).ghost c = s.ghostEdge i c := by
  rw [h.clocked]
  cases c <;> rfl

theorem Runs.coins : (s.edge i).coins =
    coinAssembler.edge s.coins ⟨s.gameReset, s.player.posX, s.player.posY⟩ := by
  rw [h.clocked, Game.clocked]

end Runs

end Game

end SnakeMom
