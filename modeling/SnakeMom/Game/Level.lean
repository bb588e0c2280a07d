import SnakeMom.Game.Walkthrough

/-!
# Starting and winning the level

The coins and the state machine are tied by the reset and by the board flag.

* Winning.  `lab8_invisible_iff` is the history of a coin in the whole game: it is
  off exactly if the player has stood on its tile since the last reset.
  `lab8_level_won_iff` lifts it to the board flag and the step from `LEVEL1` to
  `BEAT1`.
* Starting.  `Screens` is what the two other states say of the board: on the start
  screen the player is at spawn and every other coin is there, and on the beat
  screen no coin is left.  So the level is fresh exactly if it is started from the
  start screen, `lab8_level_fresh_iff`.
-/

namespace SnakeMom

open GridWalk Packed Sync

/-! ## The history of a coin -/

/-- The board flag falls exactly when every coin of the level is off. -/
theorem Game.boardCheck_eq_false_iff (s : Game) :
    s.boardCheck = false ↔ ∀ r c : Fin 12, levelCoins.getLsbD (coinBit r c) = true →
      s.coins r c = .INVISIBLE := by
  rw [← Bool.not_eq_true, boardCheck, coinAssembler.boardCheck_iff, origCoinLocs,
    GameStateReg.level_eq]
  simp only [not_exists, coin.presentCheck_iff, not_and, not_not]
  exact Iff.rfl

/-- How one edge changes a coin. -/
theorem Game.edge_invisible_iff (s : Game) (i : GameIn) (r c : Fin 12) :
    (s.edge i).coins r c = .INVISIBLE ↔
      ¬ (s.gameReset = true ∨ (s.edge i).gameReset = true) ∧
        (Visits s.player.posX s.player.posY r c ∨ s.coins r c = .INVISIBLE) := by
  cases hr : (s.edge i).gameReset with
  | true =>
    rw [(s.edge_of_reset i hr).coins]
    simp [CoinBank.visible]
  | false =>
    rw [(edge_of_not_reset hr).coins, coinAssembler.edge]
    cases s.gameReset with
    | true => simp [CoinBank.visible]
    | false => simpa using coinAssembler.next_invisible_iff s.coins _ _ r c

/-- A coin is off exactly if the player has stood on its tile since the last reset. -/
theorem lab8_invisible_iff (i : Nat → GameIn) (n : Nat) (r c : Fin 12) :
    (lab8.run i n).coins r c = .INVISIBLE ↔
      Since (fun k => (lab8.run i k).gameReset = true ∨ (lab8.run i (k + 1)).gameReset = true)
        (fun k => Visits (lab8.run i k).player.posX (lab8.run i k).player.posY r c) n :=
  latch_eq_since (fun k => (lab8.run i k).coins r c = .INVISIBLE)
    (fun h => CoinState.noConfusion h)
    (fun k => (lab8.run i k).edge_invisible_iff (i k) r c) n

/-- The history of a coin in the level, with its reset spelled out. -/
theorem lab8_invisible_iff_stood {i : Nat → GameIn} {n : Nat}
    (hlow : (lab8.run i n).gameReset = false) (r c : Fin 12) :
    (lab8.run i n).coins r c = .INVISIBLE ↔
      ∃ m < n, Visits (lab8.run i m).player.posX (lab8.run i m).player.posY r c ∧
        ∀ k, m ≤ k → k ≤ n → (lab8.run i k).gameReset = false := by
  rw [lab8_invisible_iff]
  refine exists_congr fun m => and_congr_right fun hm => and_congr_right fun _ => ?_
  constructor
  · intro h k hmk hkn
    rcases Nat.lt_or_eq_of_le hkn with hlt | rfl
    · have hk := h k hmk hlt
      rw [not_or, Bool.not_eq_true] at hk
      exact hk.1
    · exact hlow
  · intro h k hmk hkn
    simp only [h k hmk (Nat.le_of_lt hkn), h (k + 1) (by omega) hkn]
    decide

/-! ## Winning -/

/-- An edge leads from the level to the beat screen exactly if the hardware reset is
down after it, no ghost hits, and the board flag is down. -/
theorem Game.edge_won_iff (s : Game) (i : GameIn) (hlow : s.gameReset = false) :
    (s.gameState.state = .LEVEL1 ∧ (s.edge i).gameState.state = .BEAT1) ↔
      s.gameState.state = .LEVEL1 ∧ i.KEY0 = true ∧ s.playerHitDetectFinal = false ∧
        s.boardCheck = false := by
  refine and_congr_right fun hlevel => ?_
  cases hr : (s.edge i).gameReset with
  | true =>
    refine iff_of_false ?_ ?_
    · rw [edge_gameState_of_reset hr]
      decide
    · intro h
      obtain ⟨hkey, hhit, _⟩ := h
      exact not_low_of_reset hr hkey (Reset_h_of_gameReset hlow) hhit
  | false =>
    have hrun := edge_of_not_reset hr
    rw [hrun.gameState, GameStateReg.next_eq_BEAT1_iff, hlevel]
    simp [hrun.KEY0, hrun.no_hit]

/-- The win condition.  `gameState` goes from `LEVEL1` to `BEAT1` at edge `n` exactly
if it is in `LEVEL1`, the hardware reset is not asserted, `gameOver` is `0`, and the
player has stood, at some earlier edge since the last reset, on the centre of every
tile that holds a coin of the level. -/
theorem lab8_level_won_iff (i : Nat → GameIn) (n : Nat) :
    ((lab8.run i n).gameState.state = .LEVEL1 ∧
        (lab8.run i (n + 1)).gameState.state = .BEAT1) ↔
      (lab8.run i n).gameState.state = .LEVEL1 ∧ (lab8.run i (n + 1)).Reset_h = false ∧
        (lab8.run i n).playerHitDetectFinal = false ∧
        ∀ r c : Fin 12, levelCoins.getLsbD (143 - (12 * r + c)) = true →
          ∃ m < n, (lab8.run i m).player.posX.toNat = 32 * (c + 1) ∧
            (lab8.run i m).player.posY.toNat = 32 * (r + 1) ∧
            ∀ k, m ≤ k → k ≤ n → (lab8.run i k).gameReset = false := by
  by_cases hlevel : (lab8.run i n).gameState.state = .LEVEL1
  · have hlow : (lab8.run i n).gameReset = false :=
      (lab8_inv i n).gameReset_of_state (by rw [hlevel]; decide)
    rw [lab8_Reset_h, lab8_succ, Game.edge_won_iff _ _ hlow, Game.boardCheck_eq_false_iff,
      Bool.not_eq_false']
    simp only [lab8_invisible_iff_stood hlow, Visits, coinBit, and_assoc]
  · exact iff_of_false (fun h => hlevel h.1) (fun h => hlevel h.1)

/-! ## The start screen and the beat screen -/

/-- A closed tile leaves no heading at a centre. -/
theorem centreHeading_closed {t : Turns} (ht : t.Closed) (key h : Option Side) :
    centreHeading t key h = none := by
  cases hc : centreHeading t key h with
  | none => rfl
  | some d =>
    have hd := centreHeading_open hc
    rw [ht d] at hd
    cases hd

/-- The player rests on the spawn tile. -/
structure AtSpawn (p : PlayerReg) : Prop where
  posX : p.posX = 320
  posY : p.posY = 320
  posXInertia : p.posXInertia = 0
  posYInertia : p.posYInertia = 0

theorem atSpawn_reset : AtSpawn .reset := ⟨rfl, rfl, rfl, rfl⟩

/-- With every wall up, no key moves the player off the spawn tile. -/
theorem atSpawn_tick {p : PlayerReg} (hp : AtSpawn p) (keycode : BitVec 16) :
    AtSpawn (playerTick p defaultLayout keycode) := by
  have hcoded : Coded p.posXInertia p.posYInertia := by
    rw [hp.posXInertia, hp.posYInertia]
    exact coded_step none
  have hclosed : (p.turns defaultLayout).Closed := by
    rw [PlayerReg.turns, hp.posX, hp.posY]
    decide +kernel
  have hstill : playerHeading p (p.turns defaultLayout) keycode = none := by
    have hc : crossroadCheck p.posX p.posY = true := by
      rw [hp.posX, hp.posY]
      rfl
    rw [playerHeading, if_pos hc, centreHeading_closed hclosed]
  have hend := inertiaEnd_eq hcoded (p.turns defaultLayout) keycode
  rw [hstill] at hend
  refine ⟨?_, ?_, ?_, ?_⟩
  · rw [playerTick, hend, hp.posX]
    rfl
  · rw [playerTick, hend, hp.posY]
    rfl
  · rw [playerTick, hend]
    rfl
  · rw [playerTick, hend]
    rfl

namespace Game

/-- Every coin is there, but perhaps the one on the spawn tile. -/
def SpawnCoins (b : CoinBank) : Prop :=
  ∀ r c, ¬ Visits playerXOrigin playerYOrigin r c → b r c = .VISIBLE

/-- What the two screens outside the level say of the board. -/
structure Screens (s : Game) : Prop where
  newGame : s.gameState.state = .NEWGAME → AtSpawn s.player ∧ SpawnCoins s.coins
  beat : s.gameState.state = .BEAT1 → s.boardCheck = false

theorem screens_hardReset : Screens hardReset :=
  ⟨fun _ => ⟨atSpawn_reset, fun _ _ _ => rfl⟩, fun h => absurd h (by decide)⟩

/-- At spawn an edge takes at most the coin of the spawn tile. -/
theorem edge_spawnCoins {s : Game} (hp : AtSpawn s.player) (hb : SpawnCoins s.coins)
    (i : GameIn) : SpawnCoins (s.edge i).coins := by
  intro r c hne
  refine CoinState.visible_of_not (fun h => ?_)
  rcases ((s.edge_invisible_iff i r c).1 h).2 with hv | hv
  · rw [hp.posX, hp.posY] at hv
    exact hne hv
  · rw [hb r c hne] at hv
    cases hv

/-- A board without coins stays without coins until a reset. -/
theorem edge_boardCheck {s : Game} {i : GameIn} (hlow : s.gameReset = false)
    (hr : (s.edge i).gameReset = false) (h : s.boardCheck = false) :
    (s.edge i).boardCheck = false := by
  rw [boardCheck_eq_false_iff] at h ⊢
  intro r c hbit
  rw [edge_invisible_iff, hlow, hr]
  exact ⟨by decide, Or.inr (h r c hbit)⟩

theorem edge_screens {s : Game} (hs : Inv s) (hsc : Screens s) (i : GameIn) :
    Screens (s.edge i) := by
  cases hr : (s.edge i).gameReset with
  | true =>
    have hf := s.edge_of_reset i hr
    refine ⟨fun _ => ?_, fun h => ?_⟩
    · rw [hf.player, hf.coins]
      exact ⟨atSpawn_reset, fun _ _ _ => rfl⟩
    · rw [edge_gameState_of_reset hr] at h
      cases h
  | false =>
    have hrun := edge_of_not_reset hr
    refine ⟨fun h => ?_, fun h => ?_⟩
    · have hafter : (s.edge i).gameState.state ≠ .LEVEL1 := by
        rw [h]
        decide
      rw [hrun.gameState, GameStateReg.next_eq_NEWGAME_iff] at h
      have hl : (s.playerIn i).layout = defaultLayout :=
        hrun.seenLayout_default (by rw [h.1]; decide) hafter _
      obtain ⟨hp, hb⟩ := hsc.newGame h.1
      refine ⟨?_, edge_spawnCoins hp hb i⟩
      rw [hrun.player, playerEdge]
      split
      · unfold playerMove
        split
        · exact atSpawn_reset
        · rw [hl]
          exact atSpawn_tick hp i.playerKeycode
      · exact hp
    · rw [hrun.gameState, GameStateReg.next_eq_BEAT1_iff] at h
      rcases h with ⟨hstate, hboard⟩ | ⟨hstate, _⟩
      · exact edge_boardCheck (hs.gameReset_of_state (by rw [hstate]; decide)) hr hboard
      · exact edge_boardCheck (hs.gameReset_of_state (by rw [hstate]; decide)) hr
          (hsc.beat hstate)

/-! ## Starting -/

/-- Every coin of the level is there, but perhaps the one on the spawn tile. -/
def LevelFresh (s : Game) : Prop :=
  ∀ r c, ¬ Visits playerXOrigin playerYOrigin r c → levelCoins.getLsbD (coinBit r c) = true →
    s.coinLocs.getLsbD (coinBit r c) = true

theorem levelFresh_of_spawnCoins {s : Game} (h : SpawnCoins s.coins) : LevelFresh s := by
  intro r c hne hbit
  rw [coinLocs, coinAssembler.getLsbD_presentCheck, coin.presentCheck_iff, origCoinLocs,
    GameStateReg.level_eq, h r c hne]
  exact ⟨hbit, by decide⟩

theorem not_levelFresh_of_boardCheck {s : Game} (h : s.boardCheck = false) : ¬ LevelFresh s := by
  intro hfresh
  have hoff := (boardCheck_eq_false_iff s).1 h 0 1 (by decide)
  have hon := hfresh 0 1 (by decide) (by decide)
  rw [coinLocs, coinAssembler.getLsbD_presentCheck, coin.presentCheck_iff, hoff] at hon
  exact hon.2 rfl

/-- An edge that restarts the level from the beat screen. -/
structure Replays (s : Game) (i : GameIn) : Prop where
  KEY0 : i.KEY0 = true
  state : s.gameState.state = .BEAT1
  keycode : i.keycode = keyEnter
  no_hit : s.playerHitDetectFinal = false

/-- The edge enters the level. -/
def Enters (s : Game) (i : GameIn) : Prop :=
  s.gameState.state ≠ .LEVEL1 ∧ (s.edge i).gameState.state = .LEVEL1

theorem Replays.enters {s : Game} (hs : Inv s) {i : GameIn} (h : Replays s i) : Enters s i := by
  have hlow := hs.gameReset_of_state (by rw [h.state]; decide)
  have hrun := edge_of_not_reset
    ((s.edge_gameReset_iff i).2 ⟨h.KEY0, Reset_h_of_gameReset hlow, h.no_hit⟩)
  refine ⟨by rw [h.state]; decide, ?_⟩
  rw [hrun.gameState, GameStateReg.next_eq_LEVEL1_iff]
  exact Or.inr ⟨by rw [h.state]; decide, h.keycode⟩

/-- A level that is entered is fresh, before and after the edge, exactly if the edge
does not come from the beat screen. -/
theorem Enters.fresh_iff {s : Game} {i : GameIn} (hsc : Screens s) (h : Enters s i) :
    LevelFresh s ∧ LevelFresh (s.edge i) ↔ ¬ Replays s i := by
  have hr : (s.edge i).gameReset = false := by
    rw [← Bool.not_eq_true]
    intro hr
    have hlevel := h.2
    rw [edge_gameState_of_reset hr] at hlevel
    cases hlevel
  have hrun := edge_of_not_reset hr
  constructor
  · intro hfresh hre
    exact not_levelFresh_of_boardCheck (hsc.beat hre.state) hfresh.1
  · intro hno
    cases hstate : s.gameState.state with
    | LEVEL1 => exact absurd hstate h.1
    | BEAT1 =>
      have hlevel := h.2
      rw [hrun.gameState, GameStateReg.next_eq_LEVEL1_iff] at hlevel
      rcases hlevel with hlevel | hlevel
      · exact absurd hlevel.1 h.1
      · exact absurd ⟨hrun.KEY0, hstate, hlevel.2, hrun.no_hit⟩ hno
    | NEWGAME =>
      obtain ⟨hp, hb⟩ := hsc.newGame hstate
      exact ⟨levelFresh_of_spawnCoins hb, levelFresh_of_spawnCoins (edge_spawnCoins hp hb i)⟩

end Game

theorem lab8_screens (i : Nat → GameIn) (n : Nat) : (lab8.run i n).Screens := by
  induction n with
  | zero => exact Game.screens_hardReset
  | succ n ih => exact Game.edge_screens (lab8_inv i n) ih (i n)

/-- Every level that a run starts is fresh, exactly if no edge of the run restarts
the level from the beat screen. -/
theorem lab8_level_fresh_iff (i : Nat → GameIn) :
    (∀ n, (lab8.run i n).gameState.state ≠ .LEVEL1 →
        (lab8.run i (n + 1)).gameState.state = .LEVEL1 →
        (lab8.run i n).LevelFresh ∧ (lab8.run i (n + 1)).LevelFresh) ↔
      ∀ n, ¬ Game.Replays (lab8.run i n) (i n) := by
  constructor
  · intro h n hre
    have henter := hre.enters (lab8_inv i n)
    exact (henter.fresh_iff (lab8_screens i n)).1 (h n henter.1 henter.2) hre
  · intro h n hfrom hto
    exact (Game.Enters.fresh_iff (lab8_screens i n) ⟨hfrom, hto⟩).2 (h n)

/-! ## A level won

A route over all coins, with the ghosts left at their start tile. -/

def winningRoute : List Side :=
  [(3, Side.left), (2, .down), (2, .right), (1, .up), (1, .down), (2, .right), (11, .up),
    (2, .left), (2, .down), (1, .right), (1, .left), (2, .down), (1, .right), (2, .left),
    (3, .down), (2, .right), (1, .left), (1, .down), (1, .up), (3, .left), (4, .down),
    (2, .left), (2, .up), (2, .left), (2, .up), (2, .right), (1, .down), (1, .up), (1, .right),
    (3, .up), (1, .left), (2, .up), (2, .right), (1, .down), (3, .up), (2, .right), (1, .left),
    (2, .down), (1, .right), (1, .left), (6, .down), (1, .up), (1, .left), (2, .down),
    (2, .left), (2, .down), (2, .left), (11, .up), (3, .right), (1, .left), (2, .down),
    (2, .left), (2, .down), (4, .right)].flatMap fun (n, d) => List.replicate n d

/-- The level is started and the route walked; the last coin is taken while the player
waits. -/
def allTaken : List GameIn := startLevel ++ walk winningRoute ++ [wait 0]

/-- The same, and with one more edge the level is won. -/
def wonLevel : List GameIn := startLevel ++ walk winningRoute ++ [wait 0, wait 0]

/-- The tiles of the route. -/
def wonTiles : List (Int × Int) := lastTile :: (Spot.start.after winningRoute).visited

theorem wonTiles_all : ¬ CoinsLeft wonTiles := by
  unfold CoinsLeft
  decide +kernel

theorem boardCheck_of_all {state : ScreenState} {p : PlayerReg} {visited : List (Int × Int)}
    (h : ¬ CoinsLeft visited) : (onScreen state p (bankOf visited)).boardCheck = false := by
  rw [← Bool.not_eq_true, boardCheck_bankOf_iff]
  exact h

/-- An edge without a tick on the last tile. -/
theorem edge_wait (state : ScreenState) (visited : List (Int × Int)) (keycode : BitVec 16) :
    (onScreen state (Along 5 5 .right 32) (bankOf visited)).edge (wait keycode) =
      onScreen
        ((⟨state, false⟩ : GameStateReg).next keycode false
          (onScreen state (Along 5 5 .right 32) (bankOf visited)).boardCheck).state
        (Along 5 5 .right 32) (bankOf (lastTile :: visited)) := by
  have hhit := along_no_hit (c := 5) (r := 5) (d := .right) (p := Along 5 5 .right 32) (k := 32)
    (by decide) (by decide) (by decide) rfl rfl state (bankOf visited) (by decide)
  rw [edge_onScreen rfl rfl hhit]
  exact congrArg (onScreen _ _) (next_bankOf (c := 6) (r := 5) (by omega) (by omega))

/-- All coins are taken with the player on the tile `(6, 5)`. -/
theorem play_allTaken :
    lab8.play allTaken lab8.init =
      onScreen .LEVEL1 (Along 5 5 .right 32) (bankOf wonTiles) := by
  have hsafe : safeWalk 10 10 winningRoute = true := by decide +kernel
  have hinv := (play_walk Spot.inv_start hsafe).2
  have hend : (Spot.start.after winningRoute).player = Along 5 5 .right 32 := by decide +kernel
  have hleft := (boardCheck_bankOf_iff .LEVEL1 (Along 5 5 .right 32)).2
    (coinsLeft_of_last hinv.last)
  have hfirst := (edge_wait .LEVEL1 _ 0).trans (by rw [hleft])
  rw [allTaken, Machine.play_append, play_route hsafe, Spot.game, hend, Machine.play_cons,
    Machine.play_nil, show lab8.step = Game.edge from rfl, hfirst]
  rfl

/-- With the next edge the level is beaten. -/
theorem edge_allTaken :
    (onScreen .LEVEL1 (Along 5 5 .right 32) (bankOf wonTiles)).edge (wait 0) =
      onScreen .BEAT1 (Along 5 5 .right 32) (bankOf (lastTile :: wonTiles)) :=
  (edge_wait .LEVEL1 wonTiles 0).trans (by rw [boardCheck_of_all wonTiles_all]; rfl)

theorem play_wonLevel :
    lab8.play wonLevel lab8.init =
      onScreen .BEAT1 (Along 5 5 .right 32) (bankOf (lastTile :: wonTiles)) := by
  have hsplit : wonLevel = allTaken ++ [wait 0] := by
    rw [wonLevel, allTaken, List.append_assoc _ [wait 0], List.singleton_append]
  rw [hsplit, Machine.play_append, play_allTaken, Machine.play_cons, Machine.play_nil,
    show lab8.step = Game.edge from rfl, edge_allTaken]

/-- The level is won by the route, which has been on the tile `(11, 1)`. -/
theorem lab8_level_won_iff_route :
    (lab8.run (Machine.stream allTaken (wait 0)) (allTaken.length + 1)).gameState.state =
        .BEAT1 ∧
      ∃ m < allTaken.length,
        (lab8.run (Machine.stream allTaken (wait 0)) m).player.posX.toNat = 352 ∧
        (lab8.run (Machine.stream allTaken (wait 0)) m).player.posY.toNat = 32 ∧
        ∀ k, m ≤ k → k ≤ allTaken.length →
          (lab8.run (Machine.stream allTaken (wait 0)) k).gameReset = false := by
  have hrun := (lab8.run_stream allTaken (wait 0)).trans play_allTaken
  have hwon : (lab8.run (Machine.stream allTaken (wait 0))
      (allTaken.length + 1)).gameState.state = .BEAT1 := by
    rw [lab8_succ, hrun, Machine.stream_length, edge_allTaken]
    rfl
  have hall := ((lab8_level_won_iff (Machine.stream allTaken (wait 0)) allTaken.length).1
    ⟨by rw [hrun]; rfl, hwon⟩).2.2.2
  exact ⟨hwon, hall 0 10 (by decide)⟩

/-- After the victory Enter starts a level that has no coin left. -/
theorem lab8_level_replayed_empty :
    (lab8.run (Machine.stream wonLevel (wait keyEnter)) wonLevel.length).gameState.state
        = .BEAT1 ∧
      (lab8.run (Machine.stream wonLevel (wait keyEnter)) (wonLevel.length + 1)).gameState.state
        = .LEVEL1 ∧
      ¬ (lab8.run (Machine.stream wonLevel (wait keyEnter)) wonLevel.length).LevelFresh ∧
      ¬ (lab8.run (Machine.stream wonLevel (wait keyEnter)) (wonLevel.length + 1)).LevelFresh := by
  have hall : ¬ CoinsLeft (lastTile :: wonTiles) := fun h => wonTiles_all h.of_cons
  rw [lab8_succ, Machine.stream_length, Machine.run_stream, play_wonLevel, edge_wait]
  exact ⟨rfl, rfl, Game.not_levelFresh_of_boardCheck (boardCheck_of_all hall),
    Game.not_levelFresh_of_boardCheck (boardCheck_of_all fun h => hall h.of_cons)⟩

end SnakeMom
