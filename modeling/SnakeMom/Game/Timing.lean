import SnakeMom.Game.Clocks
import SnakeMom.Game.Collision

/-!
# `lab8.sv`: the game on its own clocks

Here the two slow clocks of the game are no longer inputs.  They are the outputs of the
dividers, which the hardware reset of the game clears, so the order of ticks is the one that
the board really has.

* `Lab8.edge` joins the two blocks.  A slow clock rises with an edge when the dividers take
  it from low to high there.
* `timed_game` is the refinement: the game of a run is a run of `lab8`.
* `timed_both_iff` says when both clocks rise with one edge.  The periods `200001` and
  `262001` share no factor, so between two such edges lie `200001 * 262001` others, twice.
* `lab8Timed_separate_iff` is the exact law of contact under these clocks, and
  `lab8Timed_safe` is the time for which it cannot fail.
-/

namespace SnakeMom

open GridWalk Packed Sync

/-- What one edge of `Clk` samples, whether the movers that tick see the state machine as it
is after the edge, and the keycode of after the edge. -/
structure Lab8In where
  KEY0 : Bool
  keycode : BitVec 16
  redGenerate : BitVec 16
  orangeGenerate : BitVec 16
  blueGenerate : BitVec 16
  pinkGenerate : BitVec 16
  playerLate : Bool
  ghostLate : Bool
  lateKeycode : BitVec 16
deriving DecidableEq, Repr

/-- The registers of the game and of the dividers. -/
structure Lab8 where
  game : Game
  clocks : ClockReg

namespace Lab8

/-- The dividers after the edge, before `Reset_h` changes. -/
def clocked (s : Lab8) : ClockReg := s.clocks.edge s.game.Reset_h

/-- What the game samples at the edge. -/
def gameIn (s : Lab8) (j : Lab8In) : GameIn where
  KEY0 := j.KEY0
  keycode := j.keycode
  redGenerate := j.redGenerate
  orangeGenerate := j.orangeGenerate
  blueGenerate := j.blueGenerate
  pinkGenerate := j.pinkGenerate
  clkDivide := !s.clocks.clkDivide && s.clocked.clkDivide
  clkGhost := !s.clocks.clkGhost && s.clocked.clkGhost
  playerLate := j.playerLate
  ghostLate := j.ghostLate
  lateKeycode := j.lateKeycode

/-- One edge of `Clk`.  The new `Reset_h` clears the dividers at once. -/
def edge (s : Lab8) (j : Lab8In) : Lab8 where
  game := s.game.edge (s.gameIn j)
  clocks := if j.KEY0 then s.clocked else .reset

end Lab8

/-- The game with its dividers, from hardware reset. -/
def lab8Timed : Machine Lab8In Lab8 := ⟨⟨.hardReset, .reset⟩, Lab8.edge⟩

section Run

variable (j : Nat → Lab8In)

/-- What the game samples along a run. -/
def timedIn (n : Nat) : GameIn := (lab8Timed.run j n).gameIn (j n)

/-- The game of a run on its own clocks is a run of the game. -/
theorem timed_game (n : Nat) : (lab8Timed.run j n).game = lab8.run (timedIn j) n :=
  lab8Timed.run_map (f := Lab8.game) (g := Lab8.gameIn) rfl (fun _ _ => rfl) j n

theorem timed_succ (n : Nat) :
    lab8Timed.run j (n + 1) = (lab8Timed.run j n).edge (j n) := rfl

theorem timed_inv (n : Nat) : (lab8Timed.run j n).game.Inv := by
  rw [timed_game]
  exact lab8_inv _ n

theorem timed_Reset_h (n : Nat) : (lab8Timed.run j (n + 1)).game.Reset_h = !(j n).KEY0 :=
  Game.edge_Reset_h _ _

/-! ## The time since a hardware reset -/

/-- The hardware reset was up at edge `m`, and the key was up at that edge and at the `n`
edges after it. -/
structure ResetAt (m n : Nat) : Prop where
  reset : (lab8Timed.run j m).game.Reset_h = true
  key : ∀ k ≤ n, (j (m + k)).KEY0 = true

variable {j} {m n : Nat}

theorem ResetAt.le {k : Nat} (h : ResetAt j m n) (hk : k ≤ n) : ResetAt j m k :=
  ⟨h.reset, fun l hl => h.key l (Nat.le_trans hl hk)⟩

theorem ResetAt.low (h : ResetAt j m n) : (lab8Timed.run j (m + 1 + n)).game.Reset_h = false := by
  rw [Nat.add_right_comm, timed_Reset_h, h.key n (Nat.le_refl n)]
  rfl

/-- What the dividers hold `n` edges after the reset. -/
theorem ResetAt.clocks (h : ResetAt j m n) :
    (lab8Timed.run j (m + 1 + n)).clocks.After n := by
  induction n with
  | zero =>
    have hkey : (j m).KEY0 = true := h.key 0 (Nat.le_refl 0)
    rw [Nat.add_zero, timed_succ, Lab8.edge, hkey, if_pos rfl, Lab8.clocked, h.reset]
    exact ClockReg.after_reset
  | succ n ih =>
    have hprev := h.le (Nat.le_succ n)
    have hkey : (j (m + 1 + n)).KEY0 = true := by
      rw [Nat.add_right_comm]
      exact h.key (n + 1) (Nat.le_refl _)
    rw [← Nat.add_assoc, timed_succ, Lab8.edge, hkey, if_pos rfl, Lab8.clocked, hprev.low]
    exact (ih hprev).next

/-- The dividers at the next edge. -/
theorem ResetAt.clocked (h : ResetAt j m n) :
    (lab8Timed.run j (m + 1 + n)).clocked.After (n + 1) := by
  rw [Lab8.clocked, h.low]
  exact h.clocks.next

/-- The clock of the player rises with edge `m + 1 + n` as its divider says. -/
theorem ResetAt.clkDivide_iff (h : ResetAt j m n) :
    (timedIn j (m + 1 + n)).clkDivide = true ↔ Rises (wave 200001) n := by
  have hold : (lab8Timed.run j (m + 1 + n)).clocks.clkDivide = wave 200001 n :=
    h.clocks.player.out
  have hnew : (lab8Timed.run j (m + 1 + n)).clocked.clkDivide = wave 200001 (n + 1) :=
    h.clocked.player.out
  rw [timedIn, Lab8.gameIn, hold, hnew, Bool.and_eq_true, Bool.not_eq_true', Rises]

/-- The clock of the ghosts rises with edge `m + 1 + n` as its divider says. -/
theorem ResetAt.clkGhost_iff (h : ResetAt j m n) :
    (timedIn j (m + 1 + n)).clkGhost = true ↔ Rises (wave 262001) n := by
  have hold : (lab8Timed.run j (m + 1 + n)).clocks.clkGhost = wave 262001 n :=
    h.clocks.ghosts.out
  have hnew : (lab8Timed.run j (m + 1 + n)).clocked.clkGhost = wave 262001 (n + 1) :=
    h.clocked.ghosts.out
  rw [timedIn, Lab8.gameIn, hold, hnew, Bool.and_eq_true, Bool.not_eq_true', Rises]

/-- The edges with which both slow clocks rise, as the number of edges since the reset. -/
def Coincides (n : Nat) : Prop :=
  200001 * 262001 ∣ n + 1 ∧ (n + 1) / (200001 * 262001) % 2 = 1

theorem Coincides.le (h : Coincides n) : 200001 * 262001 ≤ n + 1 :=
  Nat.le_of_dvd (Nat.succ_pos n) h.1

theorem timed_both_iff (h : ResetAt j m n) :
    (timedIn j (m + 1 + n)).clkDivide = true ∧ (timedIn j (m + 1 + n)).clkGhost = true ↔
      Coincides n := by
  rw [h.clkDivide_iff, h.clkGhost_iff]
  exact rises_both_iff (by decide) (by decide) (by decide +kernel)

/-- While the hardware reset is up, no slow clock rises. -/
theorem timed_clkDivide_of_reset (h : (lab8Timed.run j n).game.Reset_h = true) :
    (timedIn j n).clkDivide = false := by
  rw [timedIn, Lab8.gameIn, Lab8.clocked, h]
  exact Bool.and_false _

/-- Every edge lies at or after a hardware reset, with the key up since then. -/
theorem exists_resetAt (n : Nat) : (lab8Timed.run j n).game.Reset_h = true ∨
    ∃ m k, n = m + 1 + k ∧ ResetAt j m k := by
  induction n with
  | zero => exact Or.inl rfl
  | succ n ih =>
    cases hkey : (j n).KEY0 with
    | false =>
      left
      rw [timed_Reset_h, hkey]
      rfl
    | true =>
      right
      rcases ih with hreset | ⟨m, k, rfl, h⟩
      · refine ⟨n, 0, rfl, hreset, fun l hl => ?_⟩
        rwa [Nat.le_zero.1 hl]
      · refine ⟨m, k + 1, rfl, h.reset, fun l hl => ?_⟩
        rcases Nat.lt_or_ge k l with hlt | hle
        · rw [show m + l = m + 1 + k by omega]
          exact hkey
        · exact h.key l hle

/-! ## Contact -/

/-- Only an edge with which both clocks rise can jump over a contact. -/
theorem coincides_of_jumps {c : Ghost}
    (hj : Game.JumpsContact (lab8Timed.run j n).game (timedIn j n) c) :
    ∃ m k, n = m + 1 + k ∧ ResetAt j m k ∧ Coincides k := by
  rcases exists_resetAt (j := j) n with hreset | ⟨m, k, rfl, h⟩
  · have hlow := hj.clkDivide
    rw [timed_clkDivide_of_reset hreset] at hlow
    cases hlow
  · exact ⟨m, k, rfl, h, (timed_both_iff h).1 ⟨hj.clkDivide, hj.clkGhost⟩⟩

/-- The ghosts are off the player as long as no edge has jumped. -/
theorem timed_separate_of_no_jump (hsep : (lab8Timed.run j m).game.Separate)
    (hno : ∀ k < n, ∀ c,
      ¬ Game.JumpsContact (lab8Timed.run j (m + k)).game (timedIn j (m + k)) c) :
    (lab8Timed.run j (m + n)).game.Separate := by
  induction n with
  | zero => exact hsep
  | succ n ih =>
    have hprev := ih fun k hk => hno k (Nat.lt_succ_of_lt hk)
    exact (Game.edge_separate_iff (timed_inv j (m + n)) _ hprev).2 (hno n (Nat.lt_succ_self n))

/-- After the reset no edge jumps until the clocks coincide. -/
theorem ResetAt.separate (h : ResetAt j m n) (hn : n + 1 ≤ 200001 * 262001) :
    (lab8Timed.run j (m + 1 + n)).game.Separate := by
  have hfresh := (timed_inv j m).fresh (by rw [Game.gameReset, h.reset, Bool.or_true])
  rw [Nat.add_assoc]
  refine timed_separate_of_no_jump hfresh.separate fun k hk c hj => ?_
  cases k with
  | zero =>
    have hlow := hj.clkDivide
    rw [Nat.add_zero, timed_clkDivide_of_reset h.reset] at hlow
    cases hlow
  | succ k =>
    rw [show m + (k + 1) = m + 1 + k by omega] at hj
    have hle := ((timed_both_iff (h.le (by omega))).1 ⟨hj.clkDivide, hj.clkGhost⟩).le
    omega

end Run

/-- The law of contact on the board's own clocks.  No ghost ever overlaps the player exactly
if no edge jumps over a contact at an odd multiple of `200001 * 262001` edges since a
hardware reset. -/
theorem lab8Timed_separate_iff (j : Nat → Lab8In) :
    (∀ n, (lab8Timed.run j n).game.Separate) ↔
      ∀ m k c, ResetAt j m k → Coincides k →
        ¬ Game.JumpsContact (lab8Timed.run j (m + 1 + k)).game (timedIn j (m + 1 + k)) c := by
  have hlaw := lab8_separate (timedIn j)
  simp only [← timed_game] at hlaw
  rw [hlaw]
  constructor
  · intro h m k c _ _
    exact h (m + 1 + k) c
  · intro h n c hj
    obtain ⟨m, k, rfl, hreset, hboth⟩ := coincides_of_jumps hj
    exact h m k c hreset hboth hj

/-- For the first `200001 * 262001` edges after a hardware reset, more than a quarter of an
hour at 50 MHz, no ghost overlaps the player whatever the keys and the generation words are,
and every contact raises `killPlayer` and resets the board with the next edge. -/
theorem lab8Timed_safe {j : Nat → Lab8In} {m n : Nat} (h : ResetAt j m n)
    (hn : n + 1 ≤ 200001 * 262001) (c : Ghost) :
    ¬ (lab8Timed.run j (m + 1 + n)).game.Overlaps c ∧
      ((lab8Timed.run j (m + 1 + n)).game.Touches c →
        (lab8Timed.run j (m + 1 + n)).game.playerHitDetect c = true ∧
          (lab8Timed.run j (m + 1 + n + 1)).game.gameReset = true) :=
  ⟨h.separate hn c, fun ht => ht.reset (timed_inv j _) _⟩

/-- Enter with the first edge after the reset, and the right key from then on. -/
def holdRight (k : Nat) : Lab8In :=
  ⟨true, if k = 1 then keyEnter else keyD, 0, 0, 0, 0, false, false, 0⟩

theorem resetAt_holdRight (n : Nat) : ResetAt holdRight 0 n := ⟨rfl, fun _ _ => rfl⟩

/-- A minute of a level that is started and played with the right key held. -/
theorem lab8Timed_safe_minute :
    ¬ (lab8Timed.run holdRight (0 + 1 + 3000000000)).game.Overlaps .red :=
  (lab8Timed_safe (resetAt_holdRight 3000000000) (by decide) .red).1

end SnakeMom
