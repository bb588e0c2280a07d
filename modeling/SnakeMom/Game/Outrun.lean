import SnakeMom.Game.Level
import SnakeMom.Game.Timing

/-!
# Walking away from a ghost

On the board's own clocks a ghost has at most one tick more than the player in any stretch
of a run, so it does not catch a player that walks away from it.

* `edge_ahead` is the step: how far a ghost is ahead of the player in the direction of its
  walk goes up by a tick of the ghost and down by a tick of the player.
* `lab8Timed_outrun` is the run, with the ticks counted by `rises_wave_stretch_le`.
* `OffRight` are the states of a level in which the right key is held from the start tile,
  up to the next tile.  `offRight_run` reaches all of them.
-/

namespace SnakeMom

open GridWalk Packed Sync

/-! ## One edge -/

section Edge

variable {s : Game} (hs : s.Inv) {i : GameIn} (hr : (s.edge i).gameReset = false)

include hs hr

/-- A ghost moves by one pixel at most, and only with a tick. -/
theorem edge_ghost_ahead_le (c : Ghost) (d : Side) (w : Walker) :
    ahead d w ((s.edge i).ghost c).walker ≤
      ahead d w (s.ghost c).walker + if i.clkGhost = true then 1 else 0 := by
  have hg := Game.edge_ghost_moved hs hr c
  unfold Game.ghostNext at hg
  by_cases hclk : i.clkGhost = true
  · rw [if_pos hclk]
    exact hg.ahead_right_le d
  · rw [if_neg fun h => hclk h.1] at hg
    rw [if_neg hclk, Int.add_zero]
    unfold ahead
    rw [hg.1, hg.2, headingDx_none, headingDy_none, Int.add_zero, Int.add_zero]

/-- Where the player ticks it moves on with heading `d`, so a ghost gains on it by at most
the ticks of the ghosts less those of the player. -/
theorem edge_ahead {d : Side} (hlow : s.gameReset = false)
    (hflee : i.clkDivide = true → s.playerTickHeading i = some d) (c : Ghost) :
    ahead d (s.edge i).player.walker ((s.edge i).ghost c).walker +
        (if i.clkDivide = true then 1 else 0) ≤
      ahead d s.player.walker (s.ghost c).walker + if i.clkGhost = true then 1 else 0 := by
  have hp := Game.edge_player_moved hs hr
  have hseen : (s.playerIn i).Reset = false := by
    show s.seenReset i i.playerLate = false
    rw [(Game.edge_of_not_reset hr).seenReset, hlow, Bool.and_false]
  have hplayer : ahead d (s.edge i).player.walker ((s.edge i).ghost c).walker +
      (if i.clkDivide = true then 1 else 0) =
        ahead d s.player.walker ((s.edge i).ghost c).walker := by
    unfold Game.playerNext at hp
    by_cases hclk : i.clkDivide = true
    · rw [if_pos ⟨hclk, hseen⟩, hflee hclk] at hp
      rw [hp.ahead_left, if_pos hclk]
      omega
    · rw [if_neg fun h => hclk h.1] at hp
      rw [if_neg hclk, Int.add_zero]
      unfold ahead
      rw [hp.1, hp.2, headingDx_none, headingDy_none, Int.add_zero, Int.add_zero]
  rw [hplayer]
  exact edge_ghost_ahead_le hs hr c d s.player.walker

end Edge

/-! ## A run -/

/-- The player keeps walking in direction `d` over the `n` edges from edge `b` on. -/
def Flees (j : Nat → Lab8In) (d : Side) (b n : Nat) : Prop :=
  ∀ k < n, (timedIn j (b + k)).clkDivide = true →
    (lab8Timed.run j (b + k)).game.playerTickHeading (timedIn j (b + k)) = some d

/-- A ghost does not catch a player that walks away from it.  Let the ghost be 18 pixels or
more behind the player in direction `d`, let the player go on in that direction with each of
its ticks, and let no other ghost touch it.  Then the game goes on, and the ghost stays more
than a contact behind, as it has at most one tick more than the player in any stretch. -/
theorem lab8Timed_outrun {j : Nat → Lab8In} {m a n : Nat} {d : Side} {c : Ghost}
    (h : ResetAt j m (a + n)) (hlow : (lab8Timed.run j (m + 1 + a)).game.gameReset = false)
    (hbehind : ahead d (lab8Timed.run j (m + 1 + a)).game.player.walker
      ((lab8Timed.run j (m + 1 + a)).game.ghost c).walker ≤ -18)
    (hflee : Flees j d (m + 1 + a) n)
    (hothers : ∀ k < n, ∀ e ≠ c, ¬ (lab8Timed.run j (m + 1 + a + k)).game.Touches e) :
    (lab8Timed.run j (m + 1 + a + n)).game.gameReset = false ∧
      ¬ (lab8Timed.run j (m + 1 + a + n)).game.Touches c := by
  -- The distance is kept up to the difference of the two tick counts.
  have hkept : (lab8Timed.run j (m + 1 + a + n)).game.gameReset = false ∧
      ahead d (lab8Timed.run j (m + 1 + a + n)).game.player.walker
          ((lab8Timed.run j (m + 1 + a + n)).game.ghost c).walker +
          rises (wave 200001) (a + n) + rises (wave 262001) a ≤
        -18 + rises (wave 262001) (a + n) + rises (wave 200001) a := by
    induction n with
    | zero =>
      refine ⟨hlow, ?_⟩
      simp only [Nat.add_zero]
      omega
    | succ n ih =>
      obtain ⟨hup, hdist⟩ := ih (h.le (by omega)) (fun k hk => hflee k (by omega))
        (fun k hk => hothers k (by omega))
      have hstretch := rises_wave_stretch_le (p := 200001) (q := 262001) (by omega) (by omega) a n
      have hinv := timed_inv j (m + 1 + a + n)
      have hreset : ResetAt j m (a + n) := h.le (by omega)
      have hr : ((lab8Timed.run j (m + 1 + a + n)).game.edge
          (timedIn j (m + 1 + a + n))).gameReset = false := by
        rw [Game.edge_gameReset_iff]
        refine ⟨?_, Game.Reset_h_of_gameReset hup, ?_⟩
        · have hkey := h.key (1 + a + n) (by omega)
          rwa [← Nat.add_assoc, ← Nat.add_assoc] at hkey
        · refine Game.playerHitDetectFinal_eq_false fun e => ?_
          rw [← Bool.not_eq_true, Game.playerHitDetect_iff hinv]
          by_cases he : e = c
          · subst he
            exact not_touch_of_behind d (by omega)
          · exact hothers n (Nat.lt_succ_self n) e he
      have hstep := edge_ahead hinv hr hup (hflee n (Nat.lt_succ_self n)) c
      have hplayer := hreset.clkDivide_iff
      have hghost := hreset.clkGhost_iff
      rw [← Nat.add_assoc] at hplayer hghost
      simp only [hplayer, hghost] at hstep
      refine ⟨hr, ?_⟩
      rw [← Nat.add_assoc a, rises_succ, rises_succ, ← Nat.add_assoc, timed_succ]
      show ahead d ((lab8Timed.run j (m + 1 + a + n)).game.edge _).player.walker
        (((lab8Timed.run j (m + 1 + a + n)).game.edge _).ghost c).walker + _ + _ ≤ _
      push_cast
      rw [timedIn] at hstep
      omega
  refine ⟨hkept.1, not_touch_of_behind d ?_⟩
  have hstretch := rises_wave_stretch_le (p := 200001) (q := 262001) (by omega) (by omega) a n
  have hdist := hkept.2
  omega

/-! ## The right key held -/

/-- In the level, with the player `T` pixels to the right of its start tile and every ghost
at most `G` pixels to the right of its own.  The coin of the tile `(2, 1)` is there. -/
structure OffRight (T G : Nat) (s : Game) : Prop where
  level : s.gameState.state = .LEVEL1
  player : s.player = if T = 0 then .reset else Along 10 10 .right T
  ghost : ∀ c, (s.ghost c).walker.x ≤ 192 + G
  coin : s.coins 0 1 = .VISIBLE

/-- The start tile of the player is open to the right. -/
theorem turns_start_right : (PlayerReg.reset.turns levelLayout).through .right = true := by
  decide +kernel

namespace OffRight

variable {T G : Nat} {s : Game} {i : GameIn}

theorem start : OffRight 0 0 (lab8Timed.run holdRight (0 + 1 + 1)).game where
  level := rfl
  player := rfl
  ghost := fun c => by cases c <;> decide
  coin := rfl

/-- The place of the player. -/
theorem walker (h : OffRight T G s) (hT : T ≤ 32) : s.player.walker.At (320 + T) 320 := by
  rw [h.player]
  split
  · rename_i hzero
    subst hzero
    decide
  · simp only [Walker.At, PlayerReg.walker, moverWalker, Along, Side.dx, Side.dy,
      BitVec.toNat_ofInt]
    omega

theorem boardCheck (h : OffRight T G s) : s.boardCheck = true := by
  rw [← Bool.not_eq_false, Game.boardCheck_eq_false_iff]
  intro hoff
  have hcoin := hoff 0 1 (by decide)
  rw [h.coin] at hcoin
  cases hcoin

theorem layout (h : OffRight T G s) : s.layout = levelLayout := by
  rw [Game.layout, GameStateReg.check, h.level, GameStateReg.level_eq]
  rfl

/-- The ghosts are too far to the left for a contact. -/
theorem not_touches (h : OffRight T G s) (hT : T ≤ 32) (hG : G ≤ 100) (c : Ghost) :
    ¬ s.Touches c := by
  refine not_touch_of_behind .right ?_
  have hx := (h.walker hT).1
  have hg := h.ghost c
  simp only [ahead, Side.dx, Side.dy]
  omega

theorem no_hit (h : OffRight T G s) (hs : s.Inv) (hT : T ≤ 32) (hG : G ≤ 100) :
    s.playerHitDetectFinal = false := by
  refine Game.playerHitDetectFinal_eq_false fun c => ?_
  rw [← Bool.not_eq_true, Game.playerHitDetect_iff hs]
  exact h.not_touches hT hG c

theorem gameReset (h : OffRight T G s) (hs : s.Inv) : s.gameReset = false :=
  hs.gameReset_of_state (by rw [h.level]; decide)

/-- What the player samples at an early tick. -/
theorem playerIn (h : OffRight T G s) (hs : s.Inv) (hkey : i.keycode = keyD)
    (hearly : i.playerLate = false) : s.playerIn i = ⟨false, levelLayout, keyD⟩ := by
  rw [Game.playerIn, Game.seenReset, Game.seenLayout, GameIn.playerKeycode, hearly,
    if_neg Bool.false_ne_true, if_neg Bool.false_ne_true, if_neg Bool.false_ne_true,
    h.gameReset hs, h.layout, hkey]

/-- Before the next tile the player heads right. -/
theorem heading (h : OffRight T G s) (hs : s.Inv) (hT : T < 32) (hkey : i.keycode = keyD)
    (hearly : i.playerLate = false) : s.playerTickHeading i = some .right := by
  rw [Game.playerTickHeading, h.playerIn hs hkey hearly, GameIn.playerKeycode, hearly,
    if_neg Bool.false_ne_true, hkey, h.player]
  split
  · exact standsOn_reset.playerHeading turns_start_right
  · exact playerHeading_along 10 10 .right (by omega) (by omega) _

/-- One edge takes the player and the ghosts one pixel further, each with a tick. -/
theorem edge (h : OffRight T G s) (hs : s.Inv) (hKEY0 : i.KEY0 = true)
    (hkey : i.keycode = keyD) (hearly : i.playerLate = false)
    (hT : T + (if i.clkDivide = true then 1 else 0) ≤ 32) (hG : G ≤ 100) :
    OffRight (T + if i.clkDivide = true then 1 else 0)
      (G + if i.clkGhost = true then 1 else 0) (s.edge i) := by
  have hr := (Game.edge_gameReset_iff s i).2
    ⟨hKEY0, Game.Reset_h_of_gameReset (h.gameReset hs), h.no_hit hs (by omega) hG⟩
  have hrun := Game.edge_of_not_reset hr
  refine ⟨?_, ?_, fun c => ?_, ?_⟩
  · rw [hrun.gameState, GameStateReg.next_eq_LEVEL1_iff]
    exact Or.inl ⟨h.level, h.boardCheck⟩
  · rw [hrun.player, Game.playerEdge]
    by_cases hclk : i.clkDivide = true
    · rw [if_pos hclk] at hT
      rw [if_pos hclk, if_pos hclk, h.playerIn hs hkey hearly, playerMove,
        if_neg Bool.false_ne_true, h.player, if_neg (Nat.succ_ne_zero T)]
      split
      · rename_i hzero
        rw [hzero]
        exact along_one standsOn_reset levelLayout (d := .right) turns_start_right
      · exact along_succ 10 10 .right (by omega) (by omega) levelLayout
    · rw [if_neg hclk, if_neg hclk, h.player, Nat.add_zero]
  · have hg := edge_ghost_ahead_le hs hr c .right ghostHome
    have hold := h.ghost c
    simp only [ahead, ghostHome, Side.dx, Side.dy] at hg
    push_cast
    omega
  · refine CoinState.visible_of_not fun hoff => ?_
    rcases ((s.edge_invisible_iff i 0 1).1 hoff).2 with hvisit | hoff
    · have hx : s.player.walker.x = 64 := by
        rw [PlayerReg.walker, moverWalker, hvisit.1]
        rfl
      have hplace := (h.walker (by omega)).1
      omega
    · rw [h.coin] at hoff
      cases hoff

end OffRight

/-- The ticks of the player and of the ghosts in a quarter of a second, by their closed
form. -/
theorem holdTicks_le {n : Nat} (hn : n ≤ 13000064) :
    rises (wave 200001) n ≤ 32 ∧ rises (wave 262001) n ≤ 25 := by
  rw [rises_wave, rises_wave]
  omega

/-- With the right key held, the player has come as far as its clock has ticked. -/
theorem offRight_run {n : Nat} (hn : n + 1 ≤ 13000064) :
    OffRight (rises (wave 200001) (n + 1)) (rises (wave 262001) (n + 1))
      (lab8Timed.run holdRight (0 + 1 + (n + 1))).game := by
  induction n with
  | zero =>
    rw [rises_wave, rises_wave]
    exact OffRight.start
  | succ n ih =>
    have hprev := ih (Nat.le_of_succ_le hn)
    have hreset : ResetAt holdRight 0 (n + 1) := resetAt_holdRight (n + 1)
    have hkey : (timedIn holdRight (0 + 1 + (n + 1))).keycode = keyD := if_neg (by omega)
    have hT := (holdTicks_le hn).1
    have hG := (holdTicks_le (Nat.le_of_succ_le hn)).2
    rw [rises_succ] at hT
    simp only [← hreset.clkDivide_iff] at hT
    have hstep := hprev.edge (timed_inv holdRight _) rfl hkey rfl hT (by omega)
    rw [rises_succ _ (n + 1), rises_succ _ (n + 1)]
    simp only [← hreset.clkDivide_iff, ← hreset.clkGhost_iff]
    exact hstep

/-- While the right key is held, the player walks away to the right. -/
theorem flees_holdRight {n : Nat} (hn : 1 + n ≤ 13000064) :
    Flees holdRight .right (0 + 1 + 1) n := by
  intro k hk htick
  rw [Nat.add_assoc] at htick ⊢
  have hreset : ResetAt holdRight 0 (1 + k) := resetAt_holdRight (1 + k)
  have hkey : (timedIn holdRight (0 + 1 + (1 + k))).keycode = keyD := if_neg (by omega)
  have hT := (holdTicks_le (n := 1 + k + 1) (by omega)).1
  rw [rises_succ, if_pos (hreset.clkDivide_iff.1 htick)] at hT
  have hrun := offRight_run (n := k) (by omega)
  rw [Nat.add_comm k 1] at hrun
  exact hrun.heading (timed_inv holdRight _) hT hkey rfl

/-- The right key held for `32` ticks of the player, which take it to the next tile, and `25`
ticks of the ghosts. -/
theorem lab8Timed_outrun_right :
    rises (wave 200001) (1 + 13000063) = 32 ∧ rises (wave 262001) (1 + 13000063) = 25 ∧
      (lab8Timed.run holdRight (0 + 1 + 1 + 13000063)).game.player.walker.At 352 320 ∧
      (lab8Timed.run holdRight (0 + 1 + 1 + 13000063)).game.gameReset = false ∧
      ¬ (lab8Timed.run holdRight (0 + 1 + 1 + 13000063)).game.Touches .red := by
  have hticks : rises (wave 200001) (1 + 13000063) = 32 := by rw [rises_wave]
  have hghosts : rises (wave 262001) (1 + 13000063) = 25 := by rw [rises_wave]
  have hplace := (offRight_run (n := 13000063) (Nat.le_refl _)).walker
    (holdTicks_le (Nat.le_refl _)).1
  rw [Nat.add_comm 13000063 1, hticks] at hplace
  refine ⟨hticks, hghosts, hplace, ?_⟩
  refine lab8Timed_outrun (d := .right) (resetAt_holdRight (1 + 13000063)) rfl (by decide)
    (flees_holdRight (Nat.le_refl _)) (fun k hk e _ => ?_)
  have hcounts := holdTicks_le (n := k + 1) (by omega)
  rw [Nat.add_assoc, Nat.add_comm 1 k]
  exact (offRight_run (n := k) (by omega)).not_touches hcounts.1 (by omega) e

end SnakeMom
