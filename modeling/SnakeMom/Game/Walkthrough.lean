import SnakeMom.Game.Invariant
import SnakeMom.Player.Hold

/-!
# Playing the level

While no ghost moves, a player who keeps to the open sides and away from the
ghosts plays the level tile by tile.  This file computes the registers of such a
play without running it.

* `onScreen` are the states in which the ghosts are at their start tile, and
  `edge_onScreen` says what an edge without a ghost tick does to them.
* `play_hold` is the run lemma of one key that is held, with `edge_leave` and
  `edge_along` as its step lemmas.
* `play_walk` is the run lemma of a whole route.  `safeWalk` is its precondition,
  and it is computable, so a concrete route is checked by evaluation.
-/

namespace SnakeMom

open GridWalk Packed Sync

/-- An edge with a tick of the player and none of the ghosts. -/
def press (keycode : BitVec 16) : GameIn :=
  ⟨true, keycode, 0, 0, 0, 0, true, false, false, false, 0⟩

/-- An edge without a tick. -/
def wait (keycode : BitVec 16) : GameIn :=
  ⟨true, keycode, 0, 0, 0, 0, false, false, false, false, 0⟩

/-- The coins that are left after the tiles `visited`, by column and row. -/
def bankOf (visited : List (Int × Int)) : CoinBank := fun r c =>
  if (((c : Nat) : Int) + 1, ((r : Nat) : Int) + 1) ∈ visited then .INVISIBLE else .VISIBLE

/-- The ghosts at their start tile, and no reset. -/
def onScreen (state : ScreenState) (p : PlayerReg) (b : CoinBank) : Game where
  Reset_h := false
  gameState := ⟨state, false⟩
  player := p
  redGhost := .reset ghostStart ghostStart
  orangeGhost := .reset ghostStart ghostStart
  blueGhost := .reset ghostStart ghostStart
  pinkGhost := .reset ghostStart ghostStart
  coins := b

/-- The start tile of the ghosts. -/
def ghostHome : Walker := ⟨192, 192, none⟩

/-- Releasing the hardware reset and pressing Enter starts the level. -/
def startLevel : List GameIn := [wait 0, wait keyEnter]

theorem play_startLevel :
    lab8.play startLevel lab8.init = onScreen .LEVEL1 .reset .visible := rfl

/-! ## One edge -/

theorem onScreen_no_hit {state : ScreenState} {p : PlayerReg} {b : CoinBank}
    (hx : p.posX.toNat < 512) (hy : p.posY.toNat < 512)
    (h : ¬ Touch 16 (place p.posX p.posY) ghostHome) :
    (onScreen state p b).playerHitDetectFinal = false := by
  refine Game.playerHitDetectFinal_eq_false fun c => ?_
  have hg : (onScreen state p b).ghost c = .reset ghostStart ghostStart := by cases c <;> rfl
  rw [Game.playerHitDetect, hg, onScreen, ← Bool.not_eq_true,
    killPlayer_iff (by decide) (by decide) hx hy]
  exact h

/-- An edge without a ghost tick and without a hit. -/
theorem edge_onScreen {state : ScreenState} {p : PlayerReg} {b : CoinBank} {i : GameIn}
    (hkey : i.KEY0 = true) (hghost : i.clkGhost = false)
    (hhit : (onScreen state p b).playerHitDetectFinal = false) :
    (onScreen state p b).edge i =
      onScreen
        ((⟨state, false⟩ : GameStateReg).next i.keycode false (onScreen state p b).boardCheck).state
        ((onScreen state p b).playerEdge i) (coinAssembler.next b p.posX p.posY) := by
  have hrun := Game.edge_of_not_reset
    ((Game.edge_gameReset_iff (onScreen state p b) i).2 ⟨hkey, rfl, hhit⟩)
  have hghosts : ∀ c, ((onScreen state p b).edge i).ghost c = (onScreen state p b).ghost c := by
    intro c
    rw [hrun.ghost, Game.ghostEdge, hghost, if_neg Bool.false_ne_true]
  apply Game.ext
  · rw [Game.edge_Reset_h, hkey]
    rfl
  · rw [hrun.gameState]
    exact GameStateReg.ext rfl (GameStateReg.next_resetGame _ _ _)
  · exact hrun.player
  · exact hghosts .red
  · exact hghosts .orange
  · exact hghosts .blue
  · exact hghosts .pink
  · exact hrun.coins

/-- While a coin of the level is left, a tick of the player keeps the level on. -/
theorem edge_press {p : PlayerReg} {b : CoinBank} (keycode : BitVec 16)
    (hhit : (onScreen .LEVEL1 p b).playerHitDetectFinal = false)
    (hcoin : (onScreen .LEVEL1 p b).boardCheck = true) :
    (onScreen .LEVEL1 p b).edge (press keycode) =
      onScreen .LEVEL1 (playerTick p levelLayout keycode)
        (coinAssembler.next b p.posX p.posY) := by
  rw [edge_onScreen rfl rfl hhit, hcoin]
  rfl

/-! ## One key held -/

section Hold

variable {c r : Int} {d : Side} {visited : List (Int × Int)}

/-- Some coin of the level is not among the visited tiles. -/
def CoinsLeft (visited : List (Int × Int)) : Prop :=
  ∃ r c : Fin 12, levelCoins.getLsbD (coinBit r c) = true ∧
    (((c : Nat) : Int) + 1, ((r : Nat) : Int) + 1) ∉ visited

theorem CoinsLeft.of_cons {t : Int × Int} (h : CoinsLeft (t :: visited)) : CoinsLeft visited := by
  obtain ⟨r, c, hbit, hnot⟩ := h
  exact ⟨r, c, hbit, fun hmem => hnot (List.mem_cons_of_mem _ hmem)⟩

theorem boardCheck_bankOf_iff (state : ScreenState) (p : PlayerReg) :
    (onScreen state p (bankOf visited)).boardCheck = true ↔ CoinsLeft visited := by
  rw [Game.boardCheck, coinAssembler.boardCheck_iff]
  refine exists_congr fun r => exists_congr fun c => ?_
  rw [coin.presentCheck_iff, Game.origCoinLocs, GameStateReg.level_eq]
  refine and_congr Iff.rfl ?_
  simp only [onScreen, bankOf]
  split_ifs with h <;> simp [h]

/-- A tile centre of the board as a pair of registers. -/
theorem visits_ofInt {c' r' : Fin 12} (hc : 1 ≤ c ∧ c ≤ 12) (hr : 1 ≤ r ∧ r ≤ 12) :
    Visits (BitVec.ofInt 10 (32 * c)) (BitVec.ofInt 10 (32 * r)) r' c' ↔
      (((c' : Nat) : Int) + 1, ((r' : Nat) : Int) + 1) = (c, r) := by
  rw [Visits, BitVec.toNat_ofInt, BitVec.toNat_ofInt, Prod.mk.injEq]
  omega

theorem next_bankOf (hc : 1 ≤ c ∧ c ≤ 12) (hr : 1 ≤ r ∧ r ≤ 12) :
    coinAssembler.next (bankOf visited) (BitVec.ofInt 10 (32 * c)) (BitVec.ofInt 10 (32 * r)) =
      bankOf ((c, r) :: visited) := by
  rw [coinAssembler.next_eq]
  funext r' c'
  simp only [visits_ofInt hc hr, bankOf, List.mem_cons]
  split_ifs <;> simp_all

/-- Between two centres no coin is taken. -/
theorem next_along {k : Int} (h0 : 0 < k) (h1 : k < 32) (b : CoinBank) :
    coinAssembler.next b (Along c r d k).posX (Along c r d k).posY = b := by
  rw [coinAssembler.next_eq]
  funext r' c'
  have hc : ¬ Visits (Along c r d k).posX (Along c r d k).posY r' c' := by
    rw [Visits, Along, BitVec.toNat_ofInt, BitVec.toNat_ofInt]
    cases d <;> simp only [Side.dx, Side.dy] <;> omega
  rw [if_neg hc]

/-- The place `k` pixels into an edge. -/
def spotAlong (c r : Int) (d : Side) (k : Int) : Walker :=
  ⟨32 * c + k * d.dx, 32 * r + k * d.dy, none⟩

/-- The registers on an edge of the board hold the place. -/
theorem place_ofInt {x y : Int} (hx : 0 ≤ x ∧ x < 1024) (hy : 0 ≤ y ∧ y < 1024) :
    place (BitVec.ofInt 10 x) (BitVec.ofInt 10 y) = ⟨x, y, none⟩ := by
  simp only [place, BitVec.toNat_ofInt, Walker.mk.injEq, and_true]
  omega

/-- The edge behind side `d` of the tile is an edge of the board. -/
def OnBoard (c r : Int) (d : Side) : Prop :=
  (1 ≤ c ∧ c ≤ 12) ∧ (1 ≤ r ∧ r ≤ 12) ∧ (1 ≤ c + d.dx ∧ c + d.dx ≤ 12) ∧
    (1 ≤ r + d.dy ∧ r + d.dy ≤ 12)

instance (c r : Int) (d : Side) : Decidable (OnBoard c r d) :=
  inferInstanceAs (Decidable (_ ∧ _ ∧ _ ∧ _))

/-- On an edge of the board the player is hit exactly in contact with the start
tile of the ghosts. -/
theorem along_no_hit (hboard : OnBoard c r d) {p : PlayerReg} {k : Int} (h0 : 0 ≤ k)
    (h1 : k ≤ 32) (hx : p.posX = BitVec.ofInt 10 (32 * c + k * d.dx))
    (hy : p.posY = BitVec.ofInt 10 (32 * r + k * d.dy)) (state : ScreenState) (b : CoinBank)
    (h : ¬ Touch 16 (spotAlong c r d k) ghostHome) :
    (onScreen state p b).playerHitDetectFinal = false := by
  obtain ⟨hc, hr, hc', hr'⟩ := hboard
  have hkx : 32 ≤ 32 * c + k * d.dx ∧ 32 * c + k * d.dx ≤ 384 := by
    cases d <;> simp only [Side.dx] at hc' ⊢ <;> omega
  have hky : 32 ≤ 32 * r + k * d.dy ∧ 32 * r + k * d.dy ≤ 384 := by
    cases d <;> simp only [Side.dy] at hr' ⊢ <;> omega
  refine onScreen_no_hit ?_ ?_ ?_
  · rw [hx, BitVec.toNat_ofInt]
    omega
  · rw [hy, BitVec.toNat_ofInt]
    omega
  · rwa [hx, hy, place_ofInt (by omega) (by omega)]

/-- The first edge leaves the tile and takes its coin. -/
theorem edge_leave (hboard : OnBoard c r d) {p : PlayerReg} (hp : StandsOn p c r)
    (hopen : (p.turns levelLayout).through d = true)
    (hno : ¬ Touch 16 (spotAlong c r d 0) ghostHome) (hcoin : CoinsLeft visited) :
    (onScreen .LEVEL1 p (bankOf visited)).edge (press (keyOf d)) =
      onScreen .LEVEL1 (Along c r d 1) (bankOf ((c, r) :: visited)) := by
  have hx : p.posX = BitVec.ofInt 10 (32 * c + 0 * d.dx) := by
    rw [hp.posX, Int.zero_mul, Int.add_zero]
  have hy : p.posY = BitVec.ofInt 10 (32 * r + 0 * d.dy) := by
    rw [hp.posY, Int.zero_mul, Int.add_zero]
  rw [edge_press _ (along_no_hit hboard (Int.le_refl 0) (by omega) hx hy _ _ hno)
      ((boardCheck_bankOf_iff _ _).2 hcoin),
    along_one hp levelLayout hopen, hp.posX, hp.posY, next_bankOf hboard.1 hboard.2.1]

/-- The next edges go on and take nothing. -/
theorem edge_along (hboard : OnBoard c r d) {k : Int} (h0 : 0 < k) (h1 : k < 32)
    (hno : ¬ Touch 16 (spotAlong c r d k) ghostHome) (hcoin : CoinsLeft visited) :
    (onScreen .LEVEL1 (Along c r d k) (bankOf visited)).edge (press (keyOf d)) =
      onScreen .LEVEL1 (Along c r d (k + 1)) (bankOf visited) := by
  rw [edge_press _ (along_no_hit hboard (by omega) (by omega) rfl rfl _ _ hno)
      ((boardCheck_bankOf_iff _ _).2 hcoin),
    along_succ c r d h0 h1, next_along h0 h1]

/-- A key held for `n + 1` edges, with no contact before the last of them. -/
theorem play_hold (hboard : OnBoard c r d) {p : PlayerReg} (hp : StandsOn p c r)
    (hopen : (p.turns levelLayout).through d = true)
    (hcoin : CoinsLeft ((c, r) :: visited)) {n : Nat} (hn : n < 32)
    (hno : ∀ k : Int, 0 ≤ k → k ≤ n → ¬ Touch 16 (spotAlong c r d k) ghostHome) :
    lab8.play (List.replicate (n + 1) (press (keyOf d)))
        (onScreen .LEVEL1 p (bankOf visited)) =
      onScreen .LEVEL1 (Along c r d (n + 1)) (bankOf ((c, r) :: visited)) := by
  induction n with
  | zero =>
    have hfirst := edge_leave hboard hp hopen (hno 0 (Int.le_refl 0) (Int.le_refl 0))
      hcoin.of_cons
    rw [Nat.zero_add, List.replicate_one, Machine.play_cons, Machine.play_nil,
      show ((0 : Nat) : Int) + 1 = 1 from rfl, ← hfirst, lab8]
  | succ n ih =>
    have hprev := ih (by omega) (fun k hk0 hk1 => hno k hk0 (by omega))
    have hlast := edge_along hboard (k := (n : Int) + 1) (by omega) (by omega)
      (hno (n + 1) (by omega) (by omega)) hcoin
    rw [List.replicate_succ', Machine.play_append, hprev, Machine.play_cons, Machine.play_nil,
      Int.natCast_add, Int.natCast_one, ← hlast, lab8]

end Hold

/-! ## Routes -/

/-- A stop on a tile, with the tiles visited before it. -/
structure Spot where
  c : Int
  r : Int
  player : PlayerReg
  visited : List (Int × Int)

/-- The tile whose coin a route leaves for the end. -/
def lastTile : Int × Int := (6, 5)

namespace Spot

def start : Spot := ⟨10, 10, .reset, []⟩

/-- The next stop through side `d`. -/
def next (s : Spot) (d : Side) : Spot :=
  ⟨s.c + d.dx, s.r + d.dy, Along s.c s.r d 32, (s.c, s.r) :: s.visited⟩

def after (s : Spot) (l : List Side) : Spot := l.foldl next s

/-- The state of the game at a stop. -/
def game (s : Spot) : Game := onScreen .LEVEL1 s.player (bankOf s.visited)

/-- The side is open, and the edge behind it stays on the board, away from the
ghosts, and does not start from the last tile. -/
def Safe (c r : Int) (d : Side) : Prop :=
  OnBoard c r d ∧
    (levelLayout.turns (BitVec.ofInt 5 c) (BitVec.ofInt 5 r)).through d = true ∧
    (c, r) ≠ (6, 6) ∧ (c + d.dx, r + d.dy) ≠ (6, 6) ∧ (c, r) ≠ lastTile

instance (c r : Int) (d : Side) : Decidable (Safe c r d) :=
  inferInstanceAs (Decidable (_ ∧ _ ∧ _ ∧ _ ∧ _))

end Spot

/-- Every leg of the route is safe. -/
def safeWalk (c r : Int) : List Side → Bool
  | [] => true
  | d :: l => decide (Spot.Safe c r d) && safeWalk (c + d.dx) (r + d.dy) l

/-- The keys of a route: one key for `32` edges a tile. -/
def walk (l : List Side) : List GameIn :=
  l.flatMap fun d => List.replicate 32 (press (keyOf d))

theorem tile_ofInt {a : Int} (h : 1 ≤ a ∧ a ≤ 12) :
    tile (BitVec.ofInt 10 (32 * a)) = BitVec.ofInt 5 a := by
  refine tile_eq_ofInt ?_
  rw [BitVec.toNat_ofInt]
  omega

/-- What a route keeps at every stop. -/
structure Spot.Inv (s : Spot) : Prop where
  stands : StandsOn s.player s.c s.r
  last : lastTile ∉ s.visited

theorem Spot.inv_start : Spot.start.Inv := ⟨standsOn_reset, List.not_mem_nil⟩

theorem coinsLeft_of_last {visited : List (Int × Int)} (h : lastTile ∉ visited) :
    CoinsLeft visited := ⟨4, 5, by decide, h⟩

section Leg

variable {s : Spot} {d : Side} (hs : s.Inv) (hsafe : Spot.Safe s.c s.r d)

include hs hsafe

theorem Spot.next_inv : (s.next d).Inv where
  stands := standsOn_along s.c s.r d
  last := by
    rw [Spot.next, List.mem_cons, not_or]
    exact ⟨fun h => hsafe.2.2.2.2 h.symm, hs.last⟩

/-- One leg: a key held from one stop to the next. -/
theorem play_leg : lab8.play (List.replicate 32 (press (keyOf d))) s.game = (s.next d).game := by
  obtain ⟨hboard, hopen, hfrom, hto, hlast⟩ := hsafe
  have hturns : (s.player.turns levelLayout).through d = true := by
    rwa [PlayerReg.turns, hs.stands.posX, hs.stands.posY, tile_ofInt hboard.1,
      tile_ofInt hboard.2.1]
  refine play_hold hboard hs.stands hturns
    (coinsLeft_of_last (Spot.next_inv hs ⟨hboard, hopen, hfrom, hto, hlast⟩).last)
    (n := 31) (by omega) (fun k h0 h1 => ?_)
  -- Neither end of the leg is the start tile of the ghosts.
  rw [Ne, Prod.mk.injEq] at hfrom hto
  simp only [Touch, spotAlong, ghostHome]
  cases d <;> simp only [Side.dx, Side.dy] at hto ⊢ <;> omega

end Leg

/-- A safe route, played key by key, reaches its last stop. -/
theorem play_walk {s : Spot} (hs : s.Inv) {l : List Side} (hsafe : safeWalk s.c s.r l = true) :
    lab8.play (walk l) s.game = (s.after l).game ∧ (s.after l).Inv := by
  induction l generalizing s with
  | nil => exact ⟨rfl, hs⟩
  | cons d l ih =>
    rw [safeWalk, Bool.and_eq_true, decide_eq_true_iff] at hsafe
    obtain ⟨hplay, hinv⟩ := ih (Spot.next_inv hs hsafe.1) hsafe.2
    refine ⟨?_, hinv⟩
    rw [walk, List.flatMap_cons, Machine.play_append, play_leg hs hsafe.1]
    exact hplay

/-- The level, started and played along a safe route. -/
theorem play_route {l : List Side} (hsafe : safeWalk 10 10 l = true) :
    lab8.play (startLevel ++ walk l) lab8.init = (Spot.start.after l).game := by
  rw [Machine.play_append, play_startLevel]
  exact (play_walk Spot.inv_start hsafe).1

/-! ## To the ghosts

The player walks to the tile `(7, 6)`, next to the start tile of the ghosts, and
then towards it. -/

def contactRoute : List Side := [.left, .up, .up, .up, .up, .left, .left]

/-- The keys of the way, up to `n + 1` pixels past the tile `(7, 6)`. -/
def approach (n : Nat) : List GameIn :=
  startLevel ++ walk contactRoute ++ List.replicate (n + 1) (press keyA)

/-- Up to the first contact the player gets through. -/
theorem play_approach {n : Nat} (hn : n < 16) :
    lab8.play (approach n) lab8.init =
      onScreen .LEVEL1 (Along 7 6 .left (n + 1))
        (bankOf ((7, 6) :: (Spot.start.after contactRoute).visited)) := by
  have hsafe : safeWalk 10 10 contactRoute = true := by decide +kernel
  have hinv := (play_walk Spot.inv_start hsafe).2
  rw [approach, Machine.play_append, play_route hsafe]
  refine play_hold (d := .left) (by decide) hinv.stands (by decide +kernel)
    (coinsLeft_of_last ?_) (by omega) (fun k h0 h1 => ?_)
  · rw [List.mem_cons, not_or]
    exact ⟨by decide, hinv.last⟩
  · simp only [Touch, spotAlong, ghostHome, Side.dx, Side.dy]
    omega

end SnakeMom
