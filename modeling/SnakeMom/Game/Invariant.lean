import SnakeMom.Game.Model
import SnakeMom.Lib.Contact

/-!
# What every edge of the game keeps

`Inv` joins the invariants of the five movers with one fact about the reset: while
it is up, the board is fresh and the state machine is at its reset value.
`lab8_inv` is its run lemma.

Under `Inv` an edge is described on the grid.  `playerNext` and `ghostNext` are the
headings of the movers at an edge, `none` for a mover whose clock does not rise.
`edge_player_moved` and `edge_ghost_moved` say that an edge without a reset moves
each of them by its heading, and `playerHitDetect_iff` says that a hit is the
contact of the two boxes of side `16`.
-/

namespace SnakeMom

open GridWalk Packed

namespace Game

/-! ## The reset -/

/-- The reset is down after an edge exactly when the hardware reset is down on both
sides of it and no ghost hits. -/
theorem edge_gameReset_iff (s : Game) (i : GameIn) :
    (s.edge i).gameReset = false ↔
      i.KEY0 = true ∧ s.Reset_h = false ∧ s.playerHitDetectFinal = false := by
  constructor
  · intro h
    have hrun := edge_of_not_reset h
    exact ⟨hrun.KEY0, hrun.Reset_h, hrun.no_hit⟩
  · intro h
    obtain ⟨hkey, hres, hhit⟩ := h
    rw [gameReset, edge_Reset_h, edge_gameState, if_pos hkey, gameStateEdge, hres,
      if_neg Bool.false_ne_true, hhit, GameStateReg.next_resetGame, hkey]
    rfl

/-- A hit raises the reset. -/
theorem edge_gameReset_of_hit {s : Game} (h : s.playerHitDetectFinal = true) (i : GameIn) :
    (s.edge i).gameReset = true := by
  by_contra hne
  have hno := ((s.edge_gameReset_iff i).1 (by simpa using hne)).2.2
  rw [h] at hno
  cases hno

/-- While the reset comes up, some condition for it to stay down fails. -/
theorem not_low_of_reset {s : Game} {i : GameIn} (h : (s.edge i).gameReset = true)
    (hkey : i.KEY0 = true) (hres : s.Reset_h = false)
    (hhit : s.playerHitDetectFinal = false) : False := by
  have hlow := (s.edge_gameReset_iff i).2 ⟨hkey, hres, hhit⟩
  rw [h] at hlow
  cases hlow

/-- When the reset is up after an edge, the state machine has been reset. -/
theorem edge_gameState_of_reset {s : Game} {i : GameIn} (h : (s.edge i).gameReset = true) :
    (s.edge i).gameState = .reset := by
  rw [edge_gameState]
  cases hkey : i.KEY0 with
  | false => rfl
  | true =>
    rw [if_pos rfl, gameStateEdge]
    split
    · rfl
    · rename_i hres
      cases hhit : s.playerHitDetectFinal with
      | true => exact GameStateReg.next_gameOver _ _ _
      | false => exact (not_low_of_reset h hkey (by simpa using hres) hhit).elim

/-- The hardware reset is part of the reset. -/
theorem Reset_h_of_gameReset {s : Game} (h : s.gameReset = false) : s.Reset_h = false := by
  rw [gameReset, Bool.or_eq_false_iff] at h
  exact h.2

/-! ## The layout -/

/-- Outside the level every wall is up. -/
theorem layout_of_state {s : Game} (h : s.gameState.state ≠ .LEVEL1) :
    s.layout = defaultLayout := by
  rw [layout, GameStateReg.check]
  cases hstate : s.gameState.state with
  | LEVEL1 => exact absurd hstate h
  | BEAT1 => rfl
  | NEWGAME => rfl

/-- An edge from outside the level to outside the level shows closed tiles to every
mover, late or not. -/
theorem Runs.seenLayout_default {s : Game} {i : GameIn} (hrun : Runs s i)
    (hbefore : s.gameState.state ≠ .LEVEL1) (hafter : (s.edge i).gameState.state ≠ .LEVEL1)
    (late : Bool) : s.seenLayout i late = defaultLayout := by
  rw [hrun.seenLayout, layout_of_state hbefore, layout_of_state hafter, ite_self]

/-! ## The invariant -/

structure Inv (s : Game) : Prop where
  player : PlayerInv s.player
  ghost : ∀ c, GhostInv 416 (s.ghost c)
  fresh : s.gameReset = true → Fresh s
  state : s.gameReset = true → s.gameState = .reset

/-- Outside the start screen the reset is down. -/
theorem Inv.gameReset_of_state {s : Game} (hs : Inv s) (h : s.gameState.state ≠ .NEWGAME) :
    s.gameReset = false := by
  rw [← Bool.not_eq_true]
  intro hr
  rw [hs.state hr] at h
  exact h rfl

theorem ghostInv_start : GhostInv 416 (.reset ghostStart ghostStart) :=
  ghostInv_reset ghostBox_416 (by decide) (by decide)

theorem ghostMove_inv {s : GhostReg} (hs : GhostInv 416 s) (i : GhostIn) :
    GhostInv 416 (ghostMove ghostStart ghostStart s i) := by
  unfold ghostMove
  split
  · exact ghostInv_start
  · exact ghostTick_inv hs i

theorem inv_hardReset : Inv hardReset where
  player := playerInv_reset
  ghost := fun c => by cases c <;> exact ghostInv_start
  fresh := fun _ => fresh_hardReset
  state := fun _ => rfl

/-- Every edge keeps the invariant. -/
theorem edge_inv {s : Game} (hs : Inv s) (i : GameIn) : Inv (s.edge i) := by
  cases hr : (s.edge i).gameReset with
  | true =>
    have hf := s.edge_of_reset i hr
    refine ⟨?_, fun c => ?_, fun _ => hf, fun _ => edge_gameState_of_reset hr⟩
    · rw [hf.player]
      exact playerInv_reset
    · rw [hf.ghost c]
      exact ghostInv_start
  | false =>
    have hrun := edge_of_not_reset hr
    refine ⟨?_, fun c => ?_, fun h => absurd h (by rw [hr]; decide),
      fun h => absurd h (by rw [hr]; decide)⟩
    · rw [hrun.player, playerEdge]
      split
      · exact playerMove_inv hs.player _
      · exact hs.player
    · rw [hrun.ghost c, ghostEdge]
      split
      · exact ghostMove_inv (hs.ghost c) _
      · exact hs.ghost c

/-! ## Moves -/

/-- The heading of the player at a tick of its clock. -/
def playerTickHeading (s : Game) (i : GameIn) : Option Side :=
  playerHeading s.player (s.player.turns (s.playerIn i).layout) i.playerKeycode

/-- The heading of a ghost at a tick of its clock. -/
def ghostTickHeading (s : Game) (i : GameIn) (c : Ghost) : Option Side :=
  ghostHeading (s.ghost c) (s.ghostIn i c)

/-- The heading of the player at an edge. -/
def playerNext (s : Game) (i : GameIn) : Option Side :=
  if i.clkDivide = true ∧ (s.playerIn i).Reset = false then s.playerTickHeading i else none

/-- The heading of a ghost at an edge. -/
def ghostNext (s : Game) (i : GameIn) (c : Ghost) : Option Side :=
  if i.clkGhost = true ∧ (s.ghostIn i c).Reset = false then s.ghostTickHeading i c else none

/-- A mover sees a reset at an edge that leaves the reset down only if it was up
before. -/
theorem reset_of_seen {s : Game} {i : GameIn} {late : Bool} (hr : (s.edge i).gameReset = false)
    (h : s.seenReset i late = true) : s.gameReset = true := by
  rw [(edge_of_not_reset hr).seenReset, Bool.and_eq_true] at h
  exact h.2

theorem moved_none (w : Walker) : Moved w w none := ⟨by simp, by simp⟩

section Moves

variable {s : Game} (hs : Inv s) {i : GameIn}

include hs

/-- An edge without a reset moves the player by its heading. -/
theorem edge_player_moved (hr : (s.edge i).gameReset = false) :
    Moved s.player.walker (s.edge i).player.walker (s.playerNext i) := by
  rw [(edge_of_not_reset hr).player, playerEdge, playerNext]
  cases i.clkDivide with
  | false => exact moved_none _
  | true =>
    cases hg : (s.playerIn i).Reset with
    | true =>
      rw [(hs.fresh (reset_of_seen hr hg)).player, playerMove, hg]
      exact moved_none _
    | false =>
      simp only [if_true, and_self, playerMove, Bool.false_eq_true, if_false, hg]
      rw [playerTick_walker hs.player]
      exact ⟨rfl, rfl⟩

/-- An edge without a reset moves a ghost by its heading. -/
theorem edge_ghost_moved (hr : (s.edge i).gameReset = false) (c : Ghost) :
    Moved (s.ghost c).walker ((s.edge i).ghost c).walker (s.ghostNext i c) := by
  rw [(edge_of_not_reset hr).ghost c, ghostEdge, ghostNext]
  cases i.clkGhost with
  | false => exact moved_none _
  | true =>
    cases hg : (s.ghostIn i c).Reset with
    | true =>
      rw [(hs.fresh (reset_of_seen hr hg)).ghost c, ghostMove, hg]
      exact moved_none _
    | false =>
      simp only [if_true, and_self, ghostMove, Bool.false_eq_true, if_false, hg]
      rw [ghostTick_walker (hs.ghost c)]
      exact ⟨rfl, rfl⟩

/-- A hit is the contact of the two boxes. -/
theorem playerHitDetect_iff (c : Ghost) :
    s.playerHitDetect c = true ↔ Touch 16 s.player.walker (s.ghost c).walker := by
  have hp := hs.player.inBox
  have hg := (hs.ghost c).inBox
  simp only [InBox, PlayerReg.walker, GhostReg.walker, moverWalker] at hp hg
  rw [playerHitDetect, killPlayer_iff (by omega) (by omega) (by omega) (by omega)]
  exact Iff.rfl

end Moves

end Game

theorem lab8_succ (i : Nat → GameIn) (n : Nat) :
    lab8.run i (n + 1) = (lab8.run i n).edge (i n) := rfl

/-- The hardware reset follows the key. -/
theorem lab8_Reset_h (i : Nat → GameIn) (n : Nat) :
    (lab8.run i (n + 1)).Reset_h = !(i n).KEY0 :=
  Game.edge_Reset_h _ _

/-- The invariant holds along every run. -/
theorem lab8_inv (i : Nat → GameIn) (n : Nat) : (lab8.run i n).Inv :=
  lab8.run_invariant Game.inv_hardReset (fun _ a hs => Game.edge_inv hs a) i n

end SnakeMom
