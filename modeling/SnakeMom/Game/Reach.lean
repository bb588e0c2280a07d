import SnakeMom.Game.Level
import SnakeMom.Player.Trace

/-!
# The level has no soft-lock

With the maze of the level in force, every coin stays within reach, whatever the
player has done before, between two tiles and past the open border too.

* `levelRegion_reversible`: no route leaves the board but for the two tiles behind the
  open border, and every step of a route can be taken back.
* `Located` is the invariant of a run: the player is on a tile that is connected with
  the spawn tile, or on an open edge of such a tile.
* `reach_tile` leads on to a tile, and from there a route leads back to the spawn tile
  and to any coin.
* `lab8_located` is the invariant in the composed game, where the maze comes and goes with
  the screens and a tick may see that of before or of after its edge.  `lab8_reach_iff` is
  what follows for the tiles within reach.
-/

namespace SnakeMom

open GridWalk Packed Sync

/-- The tiles that can be reached in the level: the board, and the two tiles behind
the open border. -/
def LevelRegion (p : Int × Int) : Prop :=
  (1 ≤ p.1 ∧ p.1 ≤ 12 ∧ 1 ≤ p.2 ∧ p.2 ≤ 12) ∨ p = (13, 6) ∨ p = (13, 7)

instance (p : Int × Int) : Decidable (LevelRegion p) := inferInstanceAs (Decidable (_ ∨ _))

/-- Every step of the level leads back. -/
theorem levelRegion_reversible : Reversible (openSide levelLayout) LevelRegion := by
  have hall : ∀ x < 14, ∀ y < 13, ∀ d : Side, LevelRegion ((x : Nat), (y : Nat)) →
      openSide levelLayout ((x : Nat), (y : Nat)) d →
      LevelRegion (d.next ((x : Nat), (y : Nat))) ∧
        openSide levelLayout (d.next ((x : Nat), (y : Nat))) d.opposite := by
    decide +kernel
  have hpair : ∀ p d, LevelRegion p → openSide levelLayout p d →
      LevelRegion (d.next p) ∧ openSide levelLayout (d.next p) d.opposite := by
    intro p d hp hd
    obtain ⟨x, y⟩ := p
    have hbound : (1 ≤ x ∧ x ≤ 13) ∧ 1 ≤ y ∧ y ≤ 12 := by
      simp only [LevelRegion, Prod.mk.injEq] at hp
      omega
    obtain ⟨x, rfl⟩ := Int.eq_ofNat_of_zero_le (show 0 ≤ x by omega)
    obtain ⟨y, rfl⟩ := Int.eq_ofNat_of_zero_le (show 0 ≤ y by omega)
    exact hall x (by omega) y (by omega) d hp hd
  exact ⟨fun p d hp hd => (hpair p d hp hd).1, fun p d hp hd => (hpair p d hp hd).2⟩

/-- The tiles that are connected with the spawn tile. -/
def FromSpawn (p : Int × Int) : Prop := Connected (openSide levelLayout) (10, 10) p

/-- From a tile that is connected with the spawn tile a route leads to any other. -/
theorem FromSpawn.connected {p q : Int × Int} (hp : FromSpawn p) (hq : FromSpawn q) :
    Connected (openSide levelLayout) p q :=
  (hp.symm levelRegion_reversible (by decide)).trans hq

theorem isRoute_of_safeWalk {c r : Int} {w : List Side} (h : safeWalk c r w = true) :
    IsRoute (openSide levelLayout) (c, r) w := by
  induction w generalizing c r with
  | nil => exact trivial
  | cons d w ih =>
    rw [safeWalk, Bool.and_eq_true, decide_eq_true_iff] at h
    exact ⟨h.1.2.1, ih h.2⟩

/-- Every coin of the level is connected with the spawn tile. -/
theorem coin_fromSpawn {r c : Fin 12} (hcoin : levelCoins.getLsbD (coinBit r c) = true) :
    FromSpawn (((c : Nat) : Int) + 1, ((r : Nat) : Int) + 1) := by
  have hall : ∀ r c : Fin 12, levelCoins.getLsbD (coinBit r c) = true →
      (((c : Nat) : Int) + 1, ((r : Nat) : Int) + 1) ∈ tilesOf (10, 10) winningRoute := by
    decide +kernel
  have hsafe : safeWalk 10 10 winningRoute = true := by decide +kernel
  exact connected_of_mem_tilesOf (isRoute_of_safeWalk hsafe) (hall r c hcoin)

/-! ## Where the player is -/

/-- The player is on a tile that is connected with the spawn tile, or on an open edge
of such a tile. -/
def Located (s : PlayerReg) : Prop :=
  ∃ p, FromSpawn p ∧ (OnTile s p ∨
    ∃ d, openSide levelLayout p d ∧ OnEdge 32 (32 * p.1) (32 * p.2) d s.walker)

theorem located_reset : Located .reset :=
  ⟨(10, 10), Connected.refl _, Or.inl ⟨by decide, by decide⟩⟩

theorem FromSpawn.next {p : Int × Int} {d : Side} (hp : FromSpawn p)
    (hd : openSide levelLayout p d) : FromSpawn (d.next p) :=
  hp.trans (Connected.single hd)

/-- Every tick with no side open but those of the maze of the level keeps the player
located. -/
theorem playerTick_located {s : PlayerReg} (hs : PlayerInv s) {l : Layout}
    (hsub : ∀ p d, openSide l p d → openSide levelLayout p d) (h : Located s)
    (keycode : BitVec 16) : Located (playerTick s l keycode) := by
  obtain ⟨p, hp, hnear⟩ := h
  rcases playerTick_near hs hsub hnear keycode with hnear | ⟨d, hd, hon⟩
  · exact ⟨p, hp, hnear⟩
  · exact ⟨d.next p, hp.next hd, Or.inl hon⟩

/-- The samples of a run with the maze of the level in force. -/
def levelRun (Reset : Nat → Bool) (keycode : Nat → BitVec 16) (n : Nat) : PlayerIn :=
  ⟨Reset n, levelLayout, keycode n⟩

theorem playerMovement_located (Reset : Nat → Bool) (keycode : Nat → BitVec 16) (n : Nat) :
    Located (playerMovement.run (levelRun Reset keycode) n) := by
  induction n with
  | zero => exact located_reset
  | succ n ih =>
    have hstep : playerMovement.run (levelRun Reset keycode) (n + 1) =
        if Reset n then .reset
        else playerTick (playerMovement.run (levelRun Reset keycode) n) levelLayout
          (keycode n) := rfl
    rw [hstep]
    split
    · exact located_reset
    · exact playerTick_located (playerMovement_inv _ n) (fun _ _ hd => hd) ih (keycode n)

/-! ## Ways on -/

/-- Holding the key of the heading leads from an edge to one of its two tiles. -/
theorem reach_tile {s : PlayerReg} (hs : PlayerInv s) (h : Located s) :
    ∃ keys p, FromSpawn p ∧ OnTile (playerMovement.play (ticks levelLayout keys) s) p ∧
      PlayerInv (playerMovement.play (ticks levelLayout keys) s) := by
  obtain ⟨p, hp, hon | ⟨d, hd, hedge⟩⟩ := h
  · exact ⟨[], p, hp, hon, hs⟩
  · obtain ⟨k, hk0, hk1, hx, hy, hdir⟩ := hedge
    -- The far end is the tile ahead, on either heading.
    have hahead : ∀ (q : Int × Int) (e : Side) (j : Nat), 0 < j → j < 32 → FromSpawn (e.next q) →
        s.walker = Towards (32 * q.1) (32 * q.2) e j →
        ∃ keys p, FromSpawn p ∧ OnTile (playerMovement.play (ticks levelLayout keys) s) p ∧
          PlayerInv (playerMovement.play (ticks levelLayout keys) s) := by
      intro q e j hj0 hj1 hq hw
      obtain ⟨hend, hinv, _⟩ := play_hold_edge (l := levelLayout) hs (Int.dvd_mul_right _ _)
        (Int.dvd_mul_right _ _) (by omega) hw (m := 32 - j) (by omega)
      rw [show (j : Int) + ((32 - j : Nat) : Int) = 32 by omega] at hend
      refine ⟨_, e.next q, hq, ?_, hinv⟩
      rw [OnTile, hend, Towards, Side.next]
      exact ⟨(Int.mul_add _ _ _).symm, (Int.mul_add _ _ _).symm⟩
    rcases hdir with hdir | hdir
    · refine hahead p d k.toNat (by omega) (by omega) (hp.next hd) ?_
      rw [Towards, ← hdir, Int.toNat_of_nonneg (by omega), ← hx, ← hy]
    · refine hahead (d.next p) d.opposite (32 - k).toNat (by omega) (by omega) ?_ ?_
      · rw [Side.opposite_next]
        exact hp
      · rw [Towards, ← hdir, Int.toNat_of_nonneg (by omega), Side.dx_opposite, Side.dy_opposite,
          Side.next]
        have hx' : s.walker.x = 32 * (p.1 + d.dx) + (32 - k) * -d.dx := by rw [hx]; ring
        have hy' : s.walker.y = 32 * (p.2 + d.dy) + (32 - k) * -d.dy := by rw [hy]; ring
        rw [← hx', ← hy']

/-- No soft-lock.  With the maze of the level in force, from every state that any keys
lead to, some further keys bring the player onto the centre of any tile that holds a
coin of the level. -/
theorem level_no_softlock (Reset : Nat → Bool) (keycode : Nat → BitVec 16) (n : Nat)
    (r c : Fin 12) (hcoin : levelCoins.getLsbD (coinBit r c) = true) :
    ∃ keys, Visits
      (playerMovement.play (ticks levelLayout keys)
        (playerMovement.run (levelRun Reset keycode) n)).posX
      (playerMovement.play (ticks levelLayout keys)
        (playerMovement.run (levelRun Reset keycode) n)).posY r c := by
  obtain ⟨keys, p, hp, hon, hinv⟩ :=
    reach_tile (playerMovement_inv _ n) (playerMovement_located Reset keycode n)
  obtain ⟨w, hw, hend⟩ := hp.connected (coin_fromSpawn hcoin)
  have hplay := (play_routeKeys hinv hon hw).1
  rw [hend] at hplay
  refine ⟨keys ++ routeKeys w, ?_⟩
  rw [ticks_append, Machine.play_append]
  obtain ⟨hx, hy⟩ := hplay
  simp only [PlayerReg.walker, moverWalker] at hx hy
  unfold Visits
  omega

/-- The coin of the tile `(2, 1)`, after the key right for `100` ticks. -/
theorem level_no_softlock_corner :
    ∃ keys, Visits
      (playerMovement.play (ticks levelLayout keys)
        (playerMovement.run (levelRun (fun _ => false) fun _ => keyD) 100)).posX
      (playerMovement.play (ticks levelLayout keys)
        (playerMovement.run (levelRun (fun _ => false) fun _ => keyD) 100)).posY 0 1 :=
  level_no_softlock (fun _ => false) (fun _ => keyD) 100 0 1 (by decide)

/-! ## In the game -/

/-- The closed layout opens no side that the maze of the level does not open. -/
theorem openSide_default (p : Int × Int) (d : Side) (h : openSide defaultLayout p d) :
    openSide levelLayout p d := by
  have hall : ∀ (x y : BitVec 5) (d : Side), (defaultLayout.turns x y).through d = true →
      (levelLayout.turns x y).through d = true := by
    decide +kernel
  exact hall _ _ d h

namespace Game

/-- Every layout of the game is that of the level or the closed one. -/
theorem openSide_layout (s : Game) (p : Int × Int) (d : Side) (h : openSide s.layout p d) :
    openSide levelLayout p d := by
  cases hcheck : s.gameState.check with
  | true =>
    rw [layout, hcheck] at h
    have hdefault : boundaries s.gameState.level true = defaultLayout := by
      rw [GameStateReg.level_eq]
      rfl
    rw [hdefault] at h
    exact openSide_default p d h
  | false =>
    rw [layout, hcheck, GameStateReg.level_eq] at h
    exact h

/-- An edge of the game keeps the player located. -/
theorem edge_located {s : Game} (hs : Inv s) (h : Located s.player) (i : GameIn) :
    Located (s.edge i).player := by
  cases hr : (s.edge i).gameReset with
  | true =>
    rw [(s.edge_of_reset i hr).player]
    exact located_reset
  | false =>
    have hrun := edge_of_not_reset hr
    rw [hrun.player, playerEdge]
    split
    · unfold playerMove
      split
      · exact located_reset
      · refine playerTick_located hs.player ?_ h i.playerKeycode
        rw [playerIn, hrun.seenLayout]
        split
        · exact openSide_layout _
        · exact openSide_layout _
    · exact h

end Game

/-- In every reachable state of the game the player is on a tile that the maze of the
level connects with the spawn tile, or on an edge behind an open side of such a tile. -/
theorem lab8_located (i : Nat → GameIn) (n : Nat) : Located (lab8.run i n).player := by
  induction n with
  | zero => exact located_reset
  | succ n ih => exact Game.edge_located (lab8_inv i n) ih (i n)

/-- A located player on a tile is on one that is connected with the spawn tile. -/
theorem Located.onTile {s : PlayerReg} (h : Located s) {q : Int × Int} (hq : OnTile s q) :
    FromSpawn q := by
  obtain ⟨p, hp, hon | ⟨d, _, hedge⟩⟩ := h
  · have heq : p = q := by
      obtain ⟨hx, hy⟩ := hon
      obtain ⟨hx', hy'⟩ := hq
      exact Prod.ext (by omega) (by omega)
    rwa [← heq]
  · exact absurd hq.centre
      (hedge.not_centre (Int.dvd_mul_right _ _) (Int.dvd_mul_right _ _))

/-- Keys in the maze of the level keep the player located. -/
theorem Located.play {s : PlayerReg} (hs : PlayerInv s) (h : Located s)
    (keys : List (BitVec 16)) :
    Located (playerMovement.play (ticks levelLayout keys) s) := by
  induction keys generalizing s with
  | nil => exact h
  | cons keycode keys ih =>
    rw [play_ticks_cons]
    exact ih (playerTick_inv hs _ _) (playerTick_located hs (fun _ _ hd => hd) h keycode)

/-- What is within reach does not depend on the past.  From every reachable state of the
game, keys in the maze of the level bring the player onto the centres of exactly those tiles
that are connected with the spawn tile. -/
theorem lab8_reach_iff (i : Nat → GameIn) (n : Nat) (q : Int × Int) :
    (∃ keys, OnTile (playerMovement.play (ticks levelLayout keys) (lab8.run i n).player) q) ↔
      FromSpawn q := by
  have hs := (lab8_inv i n).player
  have hlocated := lab8_located i n
  constructor
  · intro h
    obtain ⟨keys, hq⟩ := h
    exact (hlocated.play hs keys).onTile hq
  · intro hq
    obtain ⟨keys, p, hp, hon, hinv⟩ := reach_tile hs hlocated
    obtain ⟨w, hw, rfl⟩ := hp.connected hq
    refine ⟨keys ++ routeKeys w, ?_⟩
    rw [ticks_append, Machine.play_append]
    exact (play_routeKeys hinv hon hw).1

end SnakeMom
