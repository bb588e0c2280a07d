import Mathlib.Data.Fintype.Prod
import SnakeMom.Lib.Pace
import SnakeMom.Grid
import SnakeMom.Game.Level
import SnakeMom.Game.Timing

/-!
# How fast the level can be won

To win, the player stands on the centres of `92` tiles without a reset in between.  The
centres are `32` pixels apart and a tick moves the player by one pixel at most, which bounds
the number of ticks from below, whatever the keys, the ghosts and the order of ticks are.

* `Game.edge_taxi` is the step: an edge without a reset moves the player by one pixel if its
  clock rises, and not at all otherwise.
* `lab8_win_ticks` bounds the ticks since any reset.
* `lab8Timed_not_won` is the bound on the board's own clocks.
-/

namespace SnakeMom

open GridWalk Packed Sync Pace

/-- The coins of the level. -/
def levelSpots : Finset (Fin 12 × Fin 12) :=
  Finset.univ.filter fun spot => levelCoins.getLsbD (coinBit spot.1 spot.2) = true

theorem card_levelSpots : levelSpots.card = 92 := by decide +kernel

/-- The centre of the tile of a coin. -/
def spotCentre (spot : Fin 12 × Fin 12) : Nat × Nat := (32 * (spot.2 + 1), 32 * (spot.1 + 1))

/-- Two coins are at least a tile apart. -/
theorem spotCentre_apart {s t : Fin 12 × Fin 12} (h : s ≠ t) :
    32 ≤ taxi (spotCentre s) (spotCentre t) := by
  by_contra hlt
  refine h (Prod.ext (Fin.ext ?_) (Fin.ext ?_))
  all_goals
    unfold taxi spotCentre at hlt
    omega

/-- Where the player is. -/
def Game.playerAt (s : Game) : Nat × Nat := (s.player.posX.toNat, s.player.posY.toNat)

/-- An edge without a reset moves the player by one pixel at most, and only with a tick. -/
theorem Game.edge_taxi {s : Game} (hs : s.Inv) {i : GameIn} (hlow : s.gameReset = false)
    (hr : (s.edge i).gameReset = false) :
    taxi s.playerAt (s.edge i).playerAt ≤ if i.clkDivide = true then 1 else 0 := by
  have hrun := Game.edge_of_not_reset hr
  rw [playerAt, playerAt, hrun.player, Game.playerEdge]
  cases i.clkDivide with
  | false => exact Nat.le_of_eq (distance_taxi.self _)
  | true =>
    have hreset : (s.playerIn i).Reset = false := by
      rw [playerIn, hrun.seenReset, hlow, Bool.and_false]
    rw [if_pos rfl, if_pos rfl, playerMove, hreset, if_neg Bool.false_ne_true]
    exact playerTick_pixels hs.player _ _

/-! ## In any order of ticks -/

section Run

variable (i : Nat → GameIn)

/-- How many of the first `n` edges the player ticks with. -/
def ticksBefore (n : Nat) : Nat := Nat.count (fun k => (i k).clkDivide = true) n

variable {i} {m n : Nat}

/-- Without a reset the player pays each pixel with a tick. -/
theorem paid_of_low (hlow : ∀ k, m ≤ k → k ≤ n → (lab8.run i k).gameReset = false) :
    Paid taxi (fun k => (lab8.run i k).playerAt) (ticksBefore i) m n := by
  intro k hmk hkn
  have hstep := Game.edge_taxi (lab8_inv i k) (i := i k) (hlow k hmk (Nat.le_of_lt hkn))
    (hlow (k + 1) (Nat.le_succ_of_le hmk) hkn)
  rw [ticksBefore, ticksBefore, Nat.count_succ, Nat.add_comm]
  exact Nat.add_le_add_left hstep _

/-- Who has taken all coins has ticked `32` times for every coin but the first one, since any
reset before. -/
theorem ticks_of_board {j : Nat} (hj : j ≤ n) (hreset : (lab8.run i j).gameReset = true)
    (hlow : (lab8.run i n).gameReset = false) (hboard : (lab8.run i n).boardCheck = false) :
    32 * 91 + ticksBefore i j ≤ ticksBefore i n := by
  rw [Game.boardCheck_eq_false_iff] at hboard
  -- `m` is the first edge from which on no reset has been up.
  have hexists : ∃ m, ∀ k, m ≤ k → k ≤ n → (lab8.run i k).gameReset = false :=
    ⟨n, fun k hnk hkn => by rwa [Nat.le_antisymm hkn hnk]⟩
  classical
  obtain ⟨m, hm, hfirst⟩ : ∃ m, (∀ k, m ≤ k → k ≤ n → (lab8.run i k).gameReset = false) ∧
      ∀ m', (∀ k, m' ≤ k → k ≤ n → (lab8.run i k).gameReset = false) → m ≤ m' :=
    ⟨Nat.find hexists, Nat.find_spec hexists, fun m' hm' => Nat.find_min' hexists hm'⟩
  have hjm : j ≤ m := by
    by_contra hlt
    rw [hm j (by omega) hj] at hreset
    cases hreset
  have hmn : m ≤ n := hfirst n fun k hnk hkn => by rwa [Nat.le_antisymm hkn hnk]
  have hvisit : ∀ spot ∈ levelSpots, ∃ k, m ≤ k ∧ k ≤ n ∧
      (lab8.run i k).playerAt = spotCentre spot := by
    intro spot hspot
    obtain ⟨r, c⟩ := spot
    have hoff := hboard r c (Finset.mem_filter.1 hspot).2
    obtain ⟨k, hkn, hvisit, hlow'⟩ := (lab8_invisible_iff_stood hlow r c).1 hoff
    exact ⟨k, hfirst k hlow', Nat.le_of_lt hkn, Prod.ext hvisit.1 hvisit.2⟩
  have hpaid := (paid_of_low hm).card_le distance_taxi hmn (p := 32) (by omega)
    (fun s _ t _ h => spotCentre_apart h) hvisit
  rw [card_levelSpots] at hpaid
  have hmono : ticksBefore i j ≤ ticksBefore i m := Nat.count_monotone _ hjm
  omega

/-- In any run, and in any order of ticks: who wins the level has ticked `32` times for every
coin but the first one, since any reset before. -/
theorem lab8_win_ticks {j : Nat} (hj : j ≤ n) (hreset : (lab8.run i j).gameReset = true)
    (hlevel : (lab8.run i n).gameState.state = .LEVEL1)
    (hwon : (lab8.run i (n + 1)).gameState.state = .BEAT1) :
    32 * 91 + ticksBefore i j ≤ ticksBefore i n := by
  have hlow : (lab8.run i n).gameReset = false :=
    (lab8_inv i n).gameReset_of_state (by rw [hlevel]; decide)
  have hboard := ((Game.edge_won_iff _ (i n) hlow).1 ⟨hlevel, hwon⟩).2.2.2
  exact ticks_of_board hj hreset hlow hboard

/-- The winning route, and one edge more for the last coin. -/
theorem lab8_win_ticks_route :
    32 * 91 ≤ ticksBefore (Machine.stream allTaken (wait 0)) allTaken.length := by
  have hrun := (lab8.run_stream allTaken (wait 0)).trans play_allTaken
  have hwin := lab8_win_ticks (i := Machine.stream allTaken (wait 0)) (Nat.zero_le _) rfl
    (by rw [hrun]; rfl) (by rw [lab8_succ, hrun, Machine.stream_length, edge_allTaken]; rfl)
  rwa [ticksBefore, Nat.count_zero, Nat.add_zero] at hwin

end Run

/-! ## On the board's own clocks -/

section Timed

variable {j : Nat → Lab8In} {m n : Nat}

/-- The ticks since a hardware reset are those of the divider. -/
theorem ResetAt.ticksBefore (h : ResetAt j m n) :
    SnakeMom.ticksBefore (timedIn j) (m + 1 + n) =
      SnakeMom.ticksBefore (timedIn j) m + (n / 200001 + 1) / 2 := by
  rw [← rises_wave]
  unfold SnakeMom.ticksBefore
  induction n with
  | zero =>
    rw [Nat.add_zero, Nat.count_succ, timed_clkDivide_of_reset h.reset]
    rfl
  | succ n ih =>
    have hprev := h.le (Nat.le_succ n)
    rw [← Nat.add_assoc, Nat.count_succ, ih hprev, rises_succ, Nat.add_assoc]
    simp only [hprev.clkDivide_iff]

/-- After a hardware reset the level is not won within `200001 * 5823` edges, which are 23
seconds at 50 MHz, whatever the keys and the generation words are. -/
theorem lab8Timed_not_won (h : ResetAt j m n) (hn : n ≤ 200001 * 5823) :
    (lab8Timed.run j (m + 1 + n)).game.gameState.state ≠ .BEAT1 := by
  have hreset : (lab8.run (timedIn j) m).gameReset = true := by
    have hup := h.reset
    rw [timed_game] at hup
    rw [Game.gameReset, hup, Bool.or_true]
  induction n with
  | zero =>
    have hup := h.reset
    have hkey : (timedIn j m).KEY0 = true := h.key 0 (Nat.le_refl 0)
    rw [Nat.add_zero, timed_game, lab8_succ, Game.edge_gameState, if_pos hkey,
      Game.gameStateEdge]
    rw [timed_game] at hup
    rw [hup]
    intro hbeat
    cases hbeat
  | succ n ih =>
    have hprev := h.le (Nat.le_succ n)
    have hbefore := ih hprev (by omega)
    intro hwon
    rw [timed_game] at hbefore hwon
    rw [← Nat.add_assoc] at hwon
    have hr : (lab8.run (timedIn j) (m + 1 + n + 1)).gameReset = false :=
      (lab8_inv _ _).gameReset_of_state (by rw [hwon]; decide)
    have hrun := Game.edge_of_not_reset hr
    have hstate := hwon
    rw [lab8_succ, hrun.gameState, GameStateReg.next_eq_BEAT1_iff] at hstate
    rcases hstate with ⟨hlevel, hboard⟩ | ⟨hbeat, -⟩
    · have hlow : (lab8.run (timedIn j) (m + 1 + n)).gameReset = false :=
        (lab8_inv _ _).gameReset_of_state (by rw [hlevel]; decide)
      have hticks := ticks_of_board (by omega) hreset hlow hboard
      rw [hprev.ticksBefore] at hticks
      omega
    · exact hbefore hbeat

/-- Twenty seconds of a level that is started and played with the right key held. -/
theorem lab8Timed_not_won_hold :
    (lab8Timed.run holdRight (0 + 1 + 1000000000)).game.gameState.state ≠ .BEAT1 :=
  lab8Timed_not_won (resetAt_holdRight 1000000000) (by decide)

end Timed

end SnakeMom
