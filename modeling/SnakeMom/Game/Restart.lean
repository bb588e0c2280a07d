import SnakeMom.Game.Walkthrough

/-!
# A hit restarts the board

A hit is combinational in the positions, and the reset it raises overwrites these
positions.  The loop settles in one edge: `edge_of_hit` says that the edge leaves a
`CleanRestart`, and `Fresh.no_hit` that this board has no hit of its own.
`edge_resetGame_of_fresh` and `edge_no_hit_of_fresh` follow the next edge, which lowers
the reset without a new hit.
-/

namespace SnakeMom

open GridWalk Packed Sync

namespace Game

/-- The board of a clean restart. -/
structure CleanRestart (s : Game) : Prop where
  state : s.gameState.state = .NEWGAME
  resetGame : s.gameState.resetGame = true
  player_at : s.player.posX = 320 ∧ s.player.posY = 320
  player_rests : s.player.posXInertia = 0 ∧ s.player.posYInertia = 0
  ghost_at : ∀ c, (s.ghost c).posX = 192 ∧ (s.ghost c).posY = 192
  ghost_rests : ∀ c, (s.ghost c).posXInertia = 0 ∧ (s.ghost c).posYInertia = 0
  generationCount : ∀ c, (s.ghost c).generationCount = 0
  coins : ∀ r c, s.coins r c = .VISIBLE
  no_hit : ∀ c, s.playerHitDetect c = false

/-- A fresh board has no hit. -/
theorem Fresh.no_hit {s : Game} (h : Fresh s) (c : Ghost) : s.playerHitDetect c = false := by
  rw [playerHitDetect, h.player, h.ghost c]
  decide

theorem Fresh.no_hit_final {s : Game} (h : Fresh s) : s.playerHitDetectFinal = false :=
  playerHitDetectFinal_eq_false h.no_hit

/-- A fresh board with the registers of a reset is a clean restart. -/
theorem Fresh.cleanRestart {s : Game} (h : Fresh s) (hgs : s.gameState = .reset) :
    CleanRestart s where
  state := by rw [hgs]; rfl
  resetGame := by rw [hgs]; rfl
  player_at := by rw [h.player]; exact ⟨rfl, rfl⟩
  player_rests := by rw [h.player]; exact ⟨rfl, rfl⟩
  ghost_at := fun c => by rw [h.ghost c]; exact ⟨rfl, rfl⟩
  ghost_rests := fun c => by rw [h.ghost c]; exact ⟨rfl, rfl⟩
  generationCount := fun c => by rw [h.ghost c]; rfl
  coins := fun r c => by rw [h.coins]; rfl
  no_hit := h.no_hit

/-- A hit, in whatever state and with whatever ticks, leads to a clean restart. -/
theorem edge_of_hit {s : Game} {c : Ghost} (hhit : s.playerHitDetect c = true)
    (i : GameIn) : CleanRestart (s.edge i) := by
  have hup := edge_gameReset_of_hit (s.playerHitDetectFinal_iff.2 ⟨c, hhit⟩) i
  exact (s.edge_of_reset i hup).cleanRestart (edge_gameState_of_reset hup)

/-- The edge after a reset without a hit lowers `resetGame`, unless the hardware
reset is up on either side of it. -/
theorem edge_resetGame_of_fresh {s : Game} (h : Fresh s) (i : GameIn) :
    (s.edge i).gameState.resetGame = (s.Reset_h || (s.edge i).Reset_h) := by
  rw [edge_Reset_h, edge_gameState, gameStateEdge, h.no_hit_final]
  cases i.KEY0 with
  | false => simp [GameStateReg.reset]
  | true =>
    cases s.Reset_h with
    | true => rfl
    | false =>
      rw [if_pos rfl, if_neg Bool.false_ne_true, GameStateReg.next_resetGame]
      rfl

/-- The edge after a reset has no hit: the movers may already tick at it, by one
pixel, from tiles that are far apart. -/
theorem edge_no_hit_of_fresh {s : Game} (hs : Inv s) (h : Fresh s) (i : GameIn) (c : Ghost) :
    (s.edge i).playerHitDetect c = false := by
  cases hr : (s.edge i).gameReset with
  | true => exact (s.edge_of_reset i hr).no_hit c
  | false =>
    have hp := edge_player_moved hs hr
    have hg := edge_ghost_moved hs hr c
    rw [h.player] at hp
    rw [h.ghost c] at hg
    rw [← Bool.not_eq_true, playerHitDetect_iff (edge_inv hs i)]
    exact not_touch_after_of_far hp hg (by decide)

end Game

/-- Every hit leads to exactly one clean restart.  When some ghost hits at edge `n`,
the board is restarted after the edge, whatever the state and whatever the ticks.
At the next edge `resetGame` falls, unless the hardware reset is up on a side of
that edge, and there is no new hit. -/
theorem lab8_hit_restarts (i : Nat → GameIn) (n : Nat) (c : Ghost)
    (hhit : (lab8.run i n).playerHitDetect c = true) :
    (lab8.run i (n + 1)).CleanRestart ∧
      (lab8.run i (n + 2)).gameState.resetGame =
        ((lab8.run i (n + 1)).Reset_h || (lab8.run i (n + 2)).Reset_h) ∧
      ∀ c', (lab8.run i (n + 2)).playerHitDetect c' = false := by
  have hclean : (lab8.run i (n + 1)).CleanRestart := Game.edge_of_hit hhit (i n)
  have hup : (lab8.run i (n + 1)).gameReset = true := by
    rw [Game.gameReset, hclean.resetGame, Bool.true_or]
  have hfresh := (lab8_inv i (n + 1)).fresh hup
  exact ⟨hclean, Game.edge_resetGame_of_fresh hfresh (i (n + 1)),
    Game.edge_no_hit_of_fresh (lab8_inv i (n + 1)) hfresh (i (n + 1))⟩

/-- The player walks into the ghosts that wait at their start tile. -/
theorem lab8_hit_restarts_walk :
    (lab8.run (Machine.stream (approach 15) (wait 0)) ((approach 15).length + 1)).CleanRestart ∧
      (lab8.run (Machine.stream (approach 15) (wait 0))
        ((approach 15).length + 2)).gameState.resetGame = false := by
  have hstate : lab8.run (Machine.stream (approach 15) (wait 0)) (approach 15).length =
      onScreen .LEVEL1 (Along 7 6 .left 16)
        (bankOf ((7, 6) :: (Spot.start.after contactRoute).visited)) := by
    rw [Machine.run_stream, play_approach (by decide)]
    rfl
  obtain ⟨hclean, hlow, _⟩ := lab8_hit_restarts (Machine.stream (approach 15) (wait 0))
    (approach 15).length .red (by rw [hstate]; decide)
  refine ⟨hclean, hlow.trans ?_⟩
  rw [lab8_Reset_h, lab8_Reset_h, Machine.stream_length, Machine.stream_length_add]
  rfl

end SnakeMom
