import SnakeMom.Video.Player
import SnakeMom.Game.Reach

/-!
# The picture of the level and its maze

The walls that are drawn come from `levelData`, and the walls that stop a mover from
`boundaries`.  Nothing in the source joins the two.

* `WallPixel` is the picture, and `wall_iff` says that it is what `color_mapper` draws.
* `Drawn` says that the picture leaves room for the player on one side of a tile.
  `levelData_shows_maze` compares this with the maze, for all tiles of the board.
* `player_lit` bounds what is lit of the player, and `lab8_player_off_walls` joins it with
  the places the player can reach.
-/

namespace SnakeMom

open GridWalk Packed Sync

/-! ## The picture -/

/-- The picture of the level has a wall at the pixel. -/
def WallPixel (X Y : Nat) : Prop :=
  Y ≤ 400 ∧ (runAt 0 levelData.runs Y).getLsbD X = true

namespace color_mapper

variable {i : ColorMapperIn}

/-- In the level a wall is drawn exactly where the picture has one. -/
theorem wall_iff (hlevel : i.level = true) :
    (wallCheck i && wallBit i levelData.levelOut) = true ↔
      WallPixel i.DrawX.toNat i.DrawY.toNat := by
  have hrow (hcheck : wallCheck i = true) (hy : i.DrawY.toNat ≤ 400) :
      levelData.levelOut (levelADDR i) = runAt 0 levelData.runs i.DrawY.toNat := by
    refine levelData.levelOut_of_toNat ?_
    have h220 : (220 : BitVec 10).toNat = 220 := rfl
    rw [levelADDR, if_pos hcheck, hlevel, if_pos rfl, BitVec.toNat_add, h220]
    omega
  have hcheck : wallCheck i = true ↔ i.DrawX.toNat < 416 ∧ i.DrawY.toNat ≤ 400 := by
    rw [wallCheck, Bool.and_eq_true, decide_eq_true_iff, decide_eq_true_iff]
    exact Iff.rfl
  rw [Bool.and_eq_true, WallPixel, wallBit]
  constructor
  · intro h
    have hy := (hcheck.1 h.1).2
    rw [hrow h.1 hy] at h
    exact ⟨hy, h.2⟩
  · intro h
    have hx : i.DrawX.toNat < 416 := by
      by_contra hge
      have hbit := BitVec.getLsbD_of_ge (runAt 0 levelData.runs i.DrawY.toNat) i.DrawX.toNat
        (by omega)
      rw [h.2] at hbit
      cases hbit
    have hon := hcheck.2 ⟨hx, h.1⟩
    rw [hrow hon h.1]
    exact ⟨hon, h.2⟩

end color_mapper

/-! ## The picture and the maze -/

/-- The pixels that the player lights on the way from tile `p` through side `d`, or at
either end, are in this box. -/
structure InSweep (p : Int × Int) (d : Side) (X Y : Int) : Prop where
  left : 32 * min p.1 (d.next p).1 - 13 ≤ X
  right : X ≤ 32 * max p.1 (d.next p).1 + 12
  top : 32 * min p.2 (d.next p).2 - 10 ≤ Y
  bottom : Y ≤ 32 * max p.2 (d.next p).2 + 10

/-- No wall is drawn where the player passes. -/
def Drawn (p : Int × Int) (d : Side) : Prop :=
  ∀ X Y : Nat, InSweep p d X Y → ¬ WallPixel X Y

/-- The test of the box against the runs of the picture. -/
def drawnTest (p : Int × Int) (d : Side) : Bool :=
  clearBox
    (window (32 * min p.1 (d.next p).1 - 13).toNat (32 * max p.1 (d.next p).1 + 13).toNat)
    levelData.runs (32 * min p.2 (d.next p).2 - 10).toNat
    (min 401 (32 * max p.2 (d.next p).2 + 11).toNat)

theorem drawn_iff (p : Int × Int) (d : Side) : Drawn p d ↔ drawnTest p d = true := by
  rw [drawnTest, clearBox_iff]
  simp only [land_window_eq_zero_iff]
  constructor
  · intro h Y htop hbottom X hleft hright
    have hbox : InSweep p d X Y := ⟨by omega, by omega, by omega, by omega⟩
    rw [← Bool.not_eq_true]
    exact fun hbit => h X Y hbox ⟨by omega, hbit⟩
  · intro h X Y hbox hwall
    obtain ⟨hleft, hright, htop, hbottom⟩ := hbox
    have hclear := h Y (by omega) (by have := hwall.1; omega) X (by omega) (by omega)
    rw [hwall.2] at hclear
    cases hclear

/-- The two rows of tiles in the middle of the board. -/
def InMiddle (p : Int × Int) : Prop := p.2 = 6 ∨ p.2 = 7

/-- Four columns of tiles lead through the middle. -/
def ThroughMiddle (x : Int) : Prop := x = 2 ∨ x = 5 ∨ x = 8 ∨ x = 11

/-- A side in the middle of the board that is not on one of the four ways through. -/
def Painted (p : Int × Int) (d : Side) : Prop :=
  (InMiddle p ∨ InMiddle (d.next p)) ∧ ¬ ((d = .up ∨ d = .down) ∧ ThroughMiddle p.1)

instance (p : Int × Int) : Decidable (InMiddle p) := inferInstanceAs (Decidable (_ ∨ _))

instance (x : Int) : Decidable (ThroughMiddle x) := inferInstanceAs (Decidable (_ ∨ _))

instance (p : Int × Int) (d : Side) : Decidable (Painted p d) :=
  inferInstanceAs (Decidable (_ ∧ _))

/-- The picture and the maze, side by side. -/
theorem drawnTest_eq {p : Int × Int} (hx : 1 ≤ p.1 ∧ p.1 ≤ 12) (hy : 1 ≤ p.2 ∧ p.2 ≤ 12)
    (d : Side) : drawnTest p d = decide (openSide levelLayout p d ∧ ¬ Painted p d) := by
  have hall : ∀ x < 12, ∀ y < 12, ∀ d : Side,
      drawnTest ((x + 1 : Nat), (y + 1 : Nat)) d =
        decide (openSide levelLayout ((x + 1 : Nat), (y + 1 : Nat)) d ∧
          ¬ Painted ((x + 1 : Nat), (y + 1 : Nat)) d) := by
    decide +kernel
  obtain ⟨x, y⟩ := p
  simp only at hx hy
  obtain ⟨x, rfl⟩ : ∃ k : Nat, x = (k + 1 : Nat) := ⟨(x - 1).toNat, by omega⟩
  obtain ⟨y, rfl⟩ : ∃ k : Nat, y = (k + 1 : Nat) := ⟨(y - 1).toNat, by omega⟩
  exact hall x (by omega) y (by omega) d

/-- For every tile of the board and each of its sides: the picture leaves room for the
player to pass exactly if the maze has the side open and it is not one of the painted ones.
So no way that is drawn is closed, and the ways that are open but not drawn lead along or
into the two rows in the middle. -/
theorem levelData_shows_maze {p : Int × Int} (hx : 1 ≤ p.1 ∧ p.1 ≤ 12)
    (hy : 1 ≤ p.2 ∧ p.2 ≤ 12) (d : Side) :
    Drawn p d ↔ openSide levelLayout p d ∧ ¬ Painted p d := by
  rw [drawn_iff, drawnTest_eq hx hy, decide_eq_true_iff]

/-- The way to the left of the spawn tile is drawn. -/
theorem levelData_shows_maze_spawn : Drawn (10, 10) .left :=
  (levelData_shows_maze (by decide) (by decide) .left).2 (by decide)

/-! ## The player and the walls -/

/-- The rows that are lit in a picture of the player, and the columns. -/
theorem spriteData_margins (dir : BitVec 2) {r : Nat} (hr : r ≤ 32) {c : Nat}
    (h : (playerBank.spriteData.getD (32 * dir.toNat + r) 0).getMsbD c = true) :
    (6 ≤ r ∧ r ≤ 26) ∧ 3 ≤ c ∧ c ≤ 28 := by
  have hrows : ∀ dir : BitVec 2, ∀ r < 33,
      playerBank.spriteData.getD (32 * dir.toNat + r) 0 = 0 ∨ 6 ≤ r ∧ r ≤ 26 ∧
        (playerBank.spriteData.getD (32 * dir.toNat + r) 0).toNat &&& window 0 3 = 0 ∧
        (playerBank.spriteData.getD (32 * dir.toNat + r) 0).toNat &&& window 29 32 = 0 := by
    decide +kernel
  rcases hrows dir r (by omega) with hblank | ⟨hlo, hhi, hright, hleft⟩
  · have hdark : (0 : BitVec 32).getMsbD c = false := BitVec.getMsbD_zero
    rw [hblank, hdark] at h
    cases h
  · rw [BitVec.getMsbD_eq_getLsbD, Bool.and_eq_true, decide_eq_true_iff] at h
    obtain ⟨hc, hbit⟩ := h
    refine ⟨⟨hlo, hhi⟩, ?_, ?_⟩
    · by_contra hlt
      rw [(land_window_eq_zero_iff _ _ _).1 hleft _ (by omega) (by omega)] at hbit
      cases hbit
    · by_contra hgt
      rw [(land_window_eq_zero_iff _ _ _).1 hright _ (by omega) (by omega)] at hbit
      cases hbit

namespace color_mapper

variable {i : ColorMapperIn}

/-- What is lit of the player is in a box around its place. -/
theorem player_lit (hsize : i.playerSize = playerPosSize)
    (hX : 16 ≤ i.playerX.toNat ∧ i.playerX.toNat ≤ 416)
    (hY : 16 ≤ i.playerY.toNat ∧ i.playerY.toNat ≤ 416)
    (h : (playerCheck i && playerBit i) = true) :
    (i.playerX.toNat ≤ i.DrawX.toNat + 13 ∧ i.DrawX.toNat ≤ i.playerX.toNat + 12) ∧
      i.playerY.toNat ≤ i.DrawY.toNat + 10 ∧ i.DrawY.toNat ≤ i.playerY.toNat + 10 := by
  rw [Bool.and_eq_true] at h
  obtain ⟨hcheck, hbit⟩ := h
  obtain ⟨⟨hlox, hhix⟩, hloy, hhiy⟩ := (playerCheck_iff hsize hX hY).1 hcheck
  have haddr := toNat_playerADDR hsize hcheck hloy hhiy
  rw [Nat.add_assoc] at haddr
  rw [playerBit_eq, playerBank.spriteOut_of_toNat haddr, playerColumn,
    toNat_offset hsize hlox hhix] at hbit
  obtain ⟨hrow, hcolumn⟩ := spriteData_margins i.dir (by omega) hbit
  omega

end color_mapper

/-- The player is on one of the four ways through the middle, or above or below it. -/
def InCorridors (posX posY : BitVec 10) : Prop :=
  (posX.toNat = 64 ∨ posX.toNat = 160 ∨ posX.toNat = 256 ∨ posX.toNat = 352) ∨
    (64 ≤ posX.toNat ∧ posX.toNat ≤ 352) ∧ (posY.toNat ≤ 160 ∨ 256 ≤ posY.toNat)

/-- A tile that is connected with the spawn tile is in the region of the level and has an
open side. -/
theorem FromSpawn.exit {p : Int × Int} (h : FromSpawn p) :
    LevelRegion p ∧ ∃ d, openSide levelLayout p d := by
  refine ⟨h.region levelRegion_reversible (by decide), ?_⟩
  have hback := h.symm levelRegion_reversible (by decide)
  obtain ⟨w, hw, hend⟩ := hback
  cases w with
  | nil =>
    rw [endOf_nil] at hend
    rw [hend]
    exact ⟨.left, by decide⟩
  | cons d w => exact ⟨d, hw.1⟩

/-- The tile is on one of the four ways through the middle, or above or below it. -/
def InWays (p : Int × Int) : Prop :=
  ThroughMiddle p.1 ∨ (2 ≤ p.1 ∧ p.1 ≤ 11) ∧ (p.2 ≤ 5 ∨ 8 ≤ p.2)

instance (p : Int × Int) : Decidable (InWays p) := inferInstanceAs (Decidable (_ ∨ _))

/-- Such a tile has a way that is drawn, if it has an open side at all. -/
theorem exists_drawn {p : Int × Int} (hp : FromSpawn p) (hin : InWays p) : ∃ d, Drawn p d := by
  have hall : ∀ x < 12, ∀ y < 12, ∀ d : Side,
      openSide levelLayout ((x + 1 : Nat), (y + 1 : Nat)) d →
      InWays ((x + 1 : Nat), (y + 1 : Nat)) →
      ∃ e : Side, drawnTest ((x + 1 : Nat), (y + 1 : Nat)) e = true := by
    decide +kernel
  obtain ⟨hregion, d, hd⟩ := hp.exit
  obtain ⟨x, y⟩ := p
  have hbound : (1 ≤ x ∧ x ≤ 12) ∧ 1 ≤ y ∧ y ≤ 12 := by
    simp only [LevelRegion, InWays, ThroughMiddle, Prod.mk.injEq] at hregion hin
    omega
  obtain ⟨x, rfl⟩ : ∃ k : Nat, x = (k + 1 : Nat) := ⟨(x - 1).toNat, by omega⟩
  obtain ⟨y, rfl⟩ : ∃ k : Nat, y = (k + 1 : Nat) := ⟨(y - 1).toNat, by omega⟩
  obtain ⟨e, he⟩ := hall x (by omega) y (by omega) d hd hin
  exact ⟨e, (drawn_iff _ _).2 he⟩

/-- In the corridors the player is on a way that is drawn. -/
theorem Located.drawn {s : PlayerReg} (h : Located s) (hin : InCorridors s.posX s.posY) :
    ∃ p d, Drawn p d ∧ ∃ k : Int, 0 ≤ k ∧ k ≤ 32 ∧
      s.walker.At (32 * p.1 + k * d.dx) (32 * p.2 + k * d.dy) := by
  obtain ⟨p, hp, hon | ⟨d, hd, hedge⟩⟩ := h
  · obtain ⟨hx, hy⟩ := hon
    simp only [PlayerReg.walker, moverWalker] at hx hy
    rw [InCorridors] at hin
    obtain ⟨d, hd⟩ := exists_drawn hp (by rw [InWays, ThroughMiddle]; omega)
    refine ⟨p, d, hd, 0, by omega, by omega, ?_⟩
    simp only [PlayerReg.walker, moverWalker, Walker.At]
    omega
  · obtain ⟨k, hk0, hk1, hx, hy, -⟩ := hedge
    refine ⟨p, d, ?_, k, by omega, by omega, hx, hy⟩
    have hregion := hp.exit.1
    simp only [PlayerReg.walker, moverWalker] at hx hy
    rw [InCorridors] at hin
    simp only [LevelRegion, Prod.ext_iff] at hregion
    have hbound : p.1 ≤ 12 := by
      cases d <;> simp only [Side.dx] at hx <;> omega
    rw [drawn_iff, drawnTest_eq (by omega) (by omega), decide_eq_true_iff]
    refine ⟨hd, ?_⟩
    intro hpainted
    obtain ⟨hmiddle, hway⟩ := hpainted
    cases d with
    | left =>
      simp only [Side.dx, Side.dy, Side.next, InMiddle] at hx hy hmiddle
      omega
    | right =>
      simp only [Side.dx, Side.dy, Side.next, InMiddle] at hx hy hmiddle
      omega
    | up =>
      simp only [Side.dx, Side.dy, Side.next, InMiddle] at hx hy hmiddle
      exact hway ⟨Or.inl rfl, by rw [ThroughMiddle]; omega⟩
    | down =>
      simp only [Side.dx, Side.dy, Side.next, InMiddle] at hx hy hmiddle
      exact hway ⟨Or.inr rfl, by rw [ThroughMiddle]; omega⟩

/-- The player is on the board, or on its way out behind the open border. -/
theorem Located.bounds {s : PlayerReg} (h : Located s) :
    (32 ≤ s.posX.toNat ∧ s.posX.toNat ≤ 416) ∧ 32 ≤ s.posY.toNat ∧ s.posY.toNat ≤ 384 := by
  obtain ⟨p, hp, hon | ⟨d, hd, hedge⟩⟩ := h
  · have hregion := hp.exit.1
    obtain ⟨hx, hy⟩ := hon
    simp only [PlayerReg.walker, moverWalker] at hx hy
    simp only [LevelRegion, Prod.ext_iff] at hregion
    omega
  · have hregion := hp.exit.1
    have hnext := (hp.next hd).exit.1
    obtain ⟨k, hk0, hk1, hx, hy, -⟩ := hedge
    simp only [PlayerReg.walker, moverWalker] at hx hy
    simp only [LevelRegion, Prod.ext_iff, Side.next] at hregion hnext
    cases d <;> simp only [Side.dx, Side.dy] at hx hy hnext <;> omega

/-- In every reachable state of the game with the player in the corridors, no pixel that is
lit for the player is one where a wall is drawn. -/
theorem lab8_player_off_walls (i : Nat → GameIn) (n : Nat) (keycode : BitVec 16)
    (DrawX DrawY : BitVec 10) {c : ColorMapperIn}
    (hc : c = (lab8.run i n).colorMapperIn keycode DrawX DrawY)
    (hin : InCorridors (lab8.run i n).player.posX (lab8.run i n).player.posY)
    (hlit : (color_mapper.playerCheck c && color_mapper.playerBit c) = true) :
    (color_mapper.wallCheck c && color_mapper.wallBit c levelData.levelOut) = false := by
  subst hc
  have hlocated := lab8_located i n
  obtain ⟨p, d, hd, k, hk0, hk1, hx, hy⟩ := hlocated.drawn hin
  have hbounds := hlocated.bounds
  have hbox := color_mapper.player_lit rfl ⟨Nat.le_trans (by decide) hbounds.1.1, hbounds.1.2⟩
    ⟨Nat.le_trans (by decide) hbounds.2.1, Nat.le_trans hbounds.2.2 (by decide)⟩ hlit
  simp only [PlayerReg.walker, moverWalker] at hx hy
  rw [← Bool.not_eq_true, color_mapper.wall_iff (GameStateReg.level_eq _)]
  refine hd _ _ ?_
  obtain ⟨⟨hleft, hright⟩, htop, hbottom⟩ := hbox
  simp only [Game.colorMapperIn] at hleft hright htop hbottom
  cases d <;> simp only [Side.dx, Side.dy] at hx hy
  all_goals
    constructor <;> simp only [Side.next, Side.dx, Side.dy, Game.colorMapperIn] <;> omega

/-- The player that has just started is lit at its place, where no wall is drawn. -/
theorem lab8_player_off_walls_start :
    (color_mapper.wallCheck (Game.hardReset.colorMapperIn 0 320 320) &&
      color_mapper.wallBit (Game.hardReset.colorMapperIn 0 320 320) levelData.levelOut) = false :=
  lab8_player_off_walls (fun _ => wait 0) 0 0 320 320 rfl (Or.inr ⟨by decide, Or.inr (by decide)⟩)
    (by decide +kernel)

end SnakeMom
