import SnakeMom.Game.Walkthrough

/-!
# The player and the border of the board

The level does not enclose the board: the right sides of the tiles `(12, 6)` and
`(12, 7)` are open.  Everything else is closed, so `Escapes`, a step to the right
off one of these two tiles, is the only way out.

`edge_onBoard_iff` is the step lemma and `lab8_player_on_board_iff` the law of a
run: the player stays on the board exactly if no edge escapes.
-/

namespace SnakeMom

open GridWalk Packed Sync

/-! ## The open tiles of the border -/

/-- The side that leads out of the board is closed, but for the right sides of the
tiles `(12, 6)` and `(12, 7)` of the level. -/
theorem border_open {check : Bool} {posX posY : BitVec 10} {w : Walker} {d : Side}
    (hx : w.x = posX.toNat) (hy : w.y = posY.toNat) (hb : InBox 32 384 w)
    (hd : ((boundaries true check).turns (tile posX) (tile posY)).through d = true)
    (hout : Outward 32 384 w d) :
    check = false ∧ d = .right ∧ posX.toNat / 32 = 12 ∧
      (posY.toNat / 32 = 6 ∨ posY.toNat / 32 = 7) := by
  obtain ⟨hx0, hx1, hy0, hy1⟩ := hb
  rw [hx] at hx0 hx1
  rw [hy] at hy0 hy1
  have htx : 1 ≤ (tile posX).toNat ∧ (tile posX).toNat ≤ 12 := by
    rw [toNat_tile]
    omega
  have hty : 1 ≤ (tile posY).toNat ∧ (tile posY).toNat ≤ 12 := by
    rw [toNat_tile]
    omega
  cases check with
  | true =>
    rw [show boundaries true true = defaultLayout from rfl,
      defaultLayout_closed htx.1 htx.2 hty.1 hty.2] at hd
    cases d <;> cases hd
  | false =>
    obtain ⟨hl, hr, hu, hdn⟩ := levelLayout_border htx.1 htx.2 hty.1 hty.2
    rw [toNat_tile] at hl hr hu hdn
    rw [show boundaries true false = levelLayout from rfl] at hd
    cases d with
    | left =>
      rw [Outward, hx] at hout
      exact absurd hd (by rw [Turns.through, hl (by omega)]; decide)
    | right =>
      rw [Outward, hx] at hout
      have hrow := (hr (by omega)).1 hd
      rw [toNat_tile] at hrow
      exact ⟨rfl, rfl, by omega, hrow⟩
    | up =>
      rw [Outward, hy] at hout
      exact absurd hd (by rw [Turns.through, hu (by omega)]; decide)
    | down =>
      rw [Outward, hy] at hout
      exact absurd hd (by rw [Turns.through, hdn (by omega)]; decide)

/-! ## Through the open side -/

/-- The keys that carry the player on to the right on `(384, 192)` and `(384, 224)`:
the key right itself, or a motion to the right that no key turns.  In the upper row
the way up is closed, so the key up does not turn it there. -/
def KeepsRight (p : PlayerReg) (keycode : BitVec 16) : Prop :=
  keycode = keyD ∨
    p.posXInertia = playerStep ∧ keycode ≠ keyA ∧ keycode ≠ keyS ∧
      (keycode = keyW → p.posY = 192)

theorem posXInertia_right_iff {p : PlayerReg} (hp : Coded p.posXInertia p.posYInertia) :
    p.posXInertia = playerStep ↔ p.walker.heading = some .right := by
  rw [show p.posXInertia = stepX p.walker.heading from hp.1]
  rcases p.walker.heading with _ | d
  · decide
  · cases d <;> decide

/-- At a centre with an open right side, the heading right is the key right, or a
motion to the right that the key does not turn. -/
theorem centreHeading_right_iff {t : Turns} (ht : t.rightTurnCheck = true)
    (key h : Option Side) :
    centreHeading t key h = some .right ↔
      key = some .right ∨ h = some .right ∧ ∀ k, key = some k → t.through k = false := by
  have hcarry : h.filter t.through = some .right ↔ h = some .right := by
    rw [Option.filter_eq_some_iff]
    exact and_iff_left ht
  unfold centreHeading
  rcases key with _ | k
  · simp [hcarry]
  · cases hk : t.through k with
    | false =>
      have hne : k ≠ .right := by
        intro hkr
        subst hkr
        exact absurd hk (by rw [Turns.through, ht]; decide)
      have hnone : (some k).filter t.through = none := by simp [Option.filter, hk]
      rw [hnone]
      simp [hcarry, hne, hk]
    | true => simp [Option.filter, hk]

/-- On the two open tiles the heading is right exactly under these keys. -/
theorem playerHeading_right_iff {p : PlayerReg} (hp : Coded p.posXInertia p.posYInertia)
    (hX : p.posX = 384) (hY : p.posY = 192 ∨ p.posY = 224) (keycode : BitVec 16) :
    playerHeading p (p.turns levelLayout) keycode = some .right ↔ KeepsRight p keycode := by
  have hc : crossroadCheck p.posX p.posY = true := by
    rcases hY with hY | hY <;> rw [hX, hY] <;> rfl
  have hturns : p.turns levelLayout = ⟨true, true, decide (p.posY = 224), true⟩ := by
    rcases hY with hY | hY <;> rw [PlayerReg.turns, hX, hY] <;> decide +kernel
  rw [playerHeading, if_pos hc, hturns, centreHeading_right_iff rfl, KeepsRight,
    posXInertia_right_iff hp]
  unfold keySide
  split_ifs with hS hW hD hA
  · simp [hS, Turns.through, keyS, keyD]
  · rcases hY with hY | hY <;> simp [hW, hY, Turns.through, keyW, keyA, keyS, keyD]
  · simp [hD]
  · simp [hA, Turns.through, keyA, keyD]
  · simp [hS, hW, hD, hA]

/-! ## The law -/

namespace Game

/-- At this edge no reset is up, and the player, on one of the two open tiles of the
level, ticks to the right. -/
structure Escapes (s : Game) (i : GameIn) : Prop where
  KEY0 : i.KEY0 = true
  no_reset : s.gameReset = false
  no_hit : s.playerHitDetectFinal = false
  clkDivide : i.clkDivide = true
  level : (s.playerIn i).layout = levelLayout
  posX : s.player.posX = 384
  posY : s.player.posY = 192 ∨ s.player.posY = 224
  key : KeepsRight s.player i.playerKeycode

/-- The layout that a mover sees is one of the two of `boundaries`. -/
theorem seenLayout_eq (s : Game) (i : GameIn) (late : Bool) :
    ∃ check, s.seenLayout i late = boundaries true check := by
  unfold seenLayout layout
  simp only [GameStateReg.level_eq]
  cases late with
  | false => exact ⟨s.gameState.check, rfl⟩
  | true => exact ⟨(s.gameStateEdge i).check, rfl⟩

/-- On the border of the board a tick leads the player out exactly by an escape. -/
theorem outward_iff_escapes {s : Game} (hs : Inv s) {i : GameIn}
    (hr : (s.edge i).gameReset = false) (hdiv : i.clkDivide = true)
    (hlow : s.gameReset = false) (hb : InBox 32 384 s.player.walker) :
    (∃ d, s.player.walker.Centre 32 ∧ s.playerTickHeading i = some d ∧
        Outward 32 384 s.player.walker d) ↔ Escapes s i := by
  obtain ⟨hkey, _, hhit⟩ := (s.edge_gameReset_iff i).1 hr
  unfold playerTickHeading
  constructor
  · intro h
    obtain ⟨d, hc, hd, hout⟩ := h
    have hopen : (s.player.turns (s.playerIn i).layout).through d = true := by
      have hd' := hd
      rw [playerHeading, if_pos (s.player.centre_iff.1 hc)] at hd'
      exact centreHeading_open hd'
    obtain ⟨check, hl⟩ : ∃ check, (s.playerIn i).layout = boundaries true check :=
      seenLayout_eq s i i.playerLate
    rw [hl] at hopen
    obtain ⟨hcheck, rfl, hX, hY⟩ := border_open rfl rfl hb hopen hout
    obtain ⟨hcx, hcy⟩ := hc
    simp only [PlayerReg.walker, moverWalker] at hcx hcy
    have hX' : s.player.posX = 384 := BitVec.eq_of_toNat_eq (by simp; omega)
    have hY' : s.player.posY = 192 ∨ s.player.posY = 224 :=
      hY.imp (fun h => BitVec.eq_of_toNat_eq (by simp; omega))
        (fun h => BitVec.eq_of_toNat_eq (by simp; omega))
    have hlevel : (s.playerIn i).layout = levelLayout := by
      rw [hl, hcheck]
      rfl
    rw [hlevel, playerHeading_right_iff hs.player.coded hX' hY'] at hd
    exact ⟨hkey, hlow, hhit, hdiv, hlevel, hX', hY', hd⟩
  · intro he
    refine ⟨.right, ?_, ?_, ?_⟩
    · rw [s.player.centre_iff]
      rcases he.posY with hY | hY <;> rw [he.posX, hY] <;> rfl
    · rw [he.level]
      exact (playerHeading_right_iff hs.player.coded he.posX he.posY i.playerKeycode).2 he.key
    · rw [Outward, PlayerReg.walker, moverWalker, he.posX]
      rfl

/-- The first tick from the spawn tile stays on the board. -/
theorem playerTick_reset_onBoard (l : Layout) (keycode : BitVec 16) :
    InBox 32 384 (playerTick .reset l keycode).walker := by
  refine (playerTick_step playerInv_reset l keycode).inBox (by omega) (by omega)
    playerInv_reset.aligned (by decide) (fun _ d _ => ?_)
  cases d <;> rw [Outward] <;> decide

/-- An edge keeps the player on the board exactly if it is no escape. -/
theorem edge_onBoard_iff {s : Game} (hs : Inv s) (i : GameIn)
    (hb : InBox 32 384 s.player.walker) :
    InBox 32 384 (s.edge i).player.walker ↔ ¬ Escapes s i := by
  cases hr : (s.edge i).gameReset with
  | true =>
    refine iff_of_true ?_ (fun he => ?_)
    · rw [(s.edge_of_reset i hr).player]
      decide
    · exact not_low_of_reset hr he.KEY0 (Reset_h_of_gameReset he.no_reset) he.no_hit
  | false =>
    have hplayer := (edge_of_not_reset hr).player
    cases hdiv : i.clkDivide with
    | false =>
      rw [hplayer, playerEdge, hdiv, if_neg Bool.false_ne_true]
      refine iff_of_true hb (fun he => ?_)
      rw [he.clkDivide] at hdiv
      cases hdiv
    | true =>
      rw [hplayer, playerEdge, hdiv, if_pos rfl, playerMove]
      cases hlow : s.gameReset with
      | true =>
        -- The player is on the spawn tile, and a late tick may already move it.
        have hfresh := (hs.fresh hlow).player
        refine iff_of_true ?_ (fun he => ?_)
        · split
          · decide
          · rw [hfresh]
            exact playerTick_reset_onBoard _ _
        · rw [he.no_reset] at hlow
          cases hlow
      | false =>
        have hseen : (s.playerIn i).Reset = false := by
          rw [playerIn, (edge_of_not_reset hr).seenReset, hlow, Bool.and_false]
        rw [hseen, if_neg Bool.false_ne_true,
          (playerTick_step hs.player _ _).inBox_iff (by omega)
            (by omega) hs.player.aligned hb,
          ← outward_iff_escapes hs hr hdiv hlow hb, playerTick_walker hs.player]
        simp only [playerTarget, playerTickHeading, playerIn, not_exists, not_and]

end Game

/-- The player stays on the board, exactly if no edge of the run escapes. -/
theorem lab8_player_on_board_iff (i : Nat → GameIn) :
    (∀ n, 32 ≤ (lab8.run i n).player.posX.toNat ∧ (lab8.run i n).player.posX.toNat ≤ 384 ∧
        32 ≤ (lab8.run i n).player.posY.toNat ∧ (lab8.run i n).player.posY.toNat ≤ 384) ↔
      ∀ n, ¬ Game.Escapes (lab8.run i n) (i n) := by
  rw [← lab8.run_iff (P := fun s => InBox 32 384 s.player.walker)
    (Q := fun s a => ¬ Game.Escapes s a) (lab8_inv i) (by decide)
    (fun _ a hs hb => Game.edge_onBoard_iff hs a hb)]
  refine forall_congr' fun n => ?_
  simp only [InBox, PlayerReg.walker, moverWalker]
  omega

/-- To the tile `(12, 6)`. -/
def gateRoute : List Side := [.right, .up, .up, .up, .up, .right]

/-- One more key to the right, and the player leaves the board. -/
theorem lab8_player_leaves_board :
    (lab8.run (Machine.stream (startLevel ++ walk gateRoute ++ [press keyD]) (wait 0))
      (startLevel ++ walk gateRoute ++ [press keyD]).length).player.posX.toNat = 385 := by
  have hsafe : safeWalk 10 10 gateRoute = true := by decide +kernel
  have hinv := (play_walk Spot.inv_start hsafe).2
  rw [Machine.run_stream, Machine.play_append, play_route hsafe, Machine.play_cons,
    Machine.play_nil, show lab8.step = Game.edge from rfl, Spot.game,
    edge_press keyD ?_ ((boardCheck_bankOf_iff _ _).2 (coinsLeft_of_last hinv.last))]
  · decide +kernel
  · exact along_no_hit (c := 11) (r := 6) (d := .right) (k := 32) (by decide) (by decide)
      (by decide) rfl rfl _ _ (by decide)

end SnakeMom
