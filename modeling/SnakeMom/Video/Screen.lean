import SnakeMom.Video.Coins
import SnakeMom.Video.Level

/-!
# What the screen says of the game

The background of the screen is what is drawn where neither the player nor a ghost is lit.
In a run it depends on the past through the coins only.

* `color_mapper_background` is the order of the last three colours.
* `CoinShown` says in terms of the run where a coin is drawn, and `lab8_coin_iff` that the
  flag and the bit of the coins agree with it.
* `lab8_background` is the whole background, in every reachable state.
-/

namespace SnakeMom

open Packed Sync

namespace color_mapper

variable {i : ColorMapperIn}

/-- Where nothing moves, a coin is drawn over a wall and a wall over black. -/
theorem color_mapper_background (levelData : BitVec 10 → BitVec 416) (h : ¬ i.Covered) :
    color_mapper levelData i =
      if (coinCheck i && coinBit i) = true then ⟨0x00, 0xff, 0xff⟩
      else if (wallCheck i && wallBit i levelData) = true then ⟨0xff, 0x00, 0xff⟩
      else ⟨0x00, 0x00, 0x00⟩ := by
  have hplayer : ¬ (playerCheck i && playerBit i) = true := fun hp => h (Or.inl hp)
  have hred : ¬ (redGhostCheck i && ghostRedBit i) = true := fun hg => h (Or.inr ⟨.red, hg⟩)
  have horange : ¬ (orangeGhostCheck i && ghostOrangeBit i) = true :=
    fun hg => h (Or.inr ⟨.orange, hg⟩)
  have hblue : ¬ (blueGhostCheck i && ghostBlueBit i) = true := fun hg => h (Or.inr ⟨.blue, hg⟩)
  have hpink : ¬ (pinkGhostCheck i && ghostPinkBit i) = true := fun hg => h (Or.inr ⟨.pink, hg⟩)
  unfold color_mapper
  rw [if_neg hplayer, if_neg hred, if_neg horange, if_neg hblue, if_neg hpink]

/-- The two pixels of a coin. -/
theorem coinCheck_and_coinBit_iff : (coinCheck i && coinBit i) = true ↔
    ∃ c r : Fin 12, i.coinLocs.getLsbD (SnakeMom.coinBit r c) = true ∧
      i.DrawY.toNat = 32 * (r + 1) + 1 ∧
      (i.DrawX.toNat + 2 = 32 * (c + 1) ∨ i.DrawX.toNat + 1 = 32 * (c + 1)) := by
  rw [Bool.and_eq_true]
  constructor
  · intro h
    obtain ⟨hcheck, hbit⟩ := h
    rw [coinBit_iff hcheck] at hbit
    obtain ⟨c, r, hcoin, hx, hy⟩ := ColorMapperIn.onCoin_iff.1 (coinCheck_iff.1 hcheck)
    exact ⟨c, r, hcoin, by omega, by omega⟩
  · intro h
    obtain ⟨c, r, hcoin, hy, hx⟩ := h
    have hcheck : coinCheck i = true :=
      coinCheck_iff.2 (ColorMapperIn.onCoin_iff.2 ⟨c, r, hcoin, by omega, by omega⟩)
    exact ⟨hcheck, (coinBit_iff hcheck).2 (by omega)⟩

end color_mapper

/-! ## In a run -/

section Run

variable (i : Nat → GameIn) (n : Nat)

/-- The player has stood on the tile in row `r` and column `c` since the last reset. -/
def Stood (r c : Fin 12) : Prop :=
  ∃ m < n, Visits (lab8.run i m).player.posX (lab8.run i m).player.posY r c ∧
    ∀ k, m ≤ k → k ≤ n → (lab8.run i k).gameReset = false

/-- The pixel is one of the two that are drawn for a coin of the level on which the player
has not stood. -/
def CoinShown (X Y : Nat) : Prop :=
  ∃ c r : Fin 12, (levelCoins.getLsbD (coinBit r c) = true ∧ ¬ Stood i n r c) ∧
    Y = 32 * (r + 1) + 1 ∧ (X + 2 = 32 * (c + 1) ∨ X + 1 = 32 * (c + 1))

/-- The coins that are present. -/
theorem lab8_coinLocs_iff (r c : Fin 12) :
    (lab8.run i n).coinLocs.getLsbD (coinBit r c) = true ↔
      levelCoins.getLsbD (coinBit r c) = true ∧ ¬ Stood i n r c := by
  have hoff : (lab8.run i n).coins r c = .INVISIBLE ↔ Stood i n r c := by
    cases hr : (lab8.run i n).gameReset with
    | false => exact lab8_invisible_iff_stood hr r c
    | true =>
      rw [((lab8_inv i n).fresh hr).coins]
      refine iff_of_false (fun h => nomatch h) ?_
      intro h
      obtain ⟨m, hm, -, hlow⟩ := h
      rw [hlow n (Nat.le_of_lt hm) (Nat.le_refl n)] at hr
      cases hr
  rw [Game.coinLocs, coinAssembler.getLsbD_presentCheck, coin.presentCheck_iff,
    Game.origCoinLocs, GameStateReg.level_eq, hoff]
  exact Iff.rfl

theorem lab8_coin_iff (keycode : BitVec 16) (DrawX DrawY : BitVec 10) {p : ColorMapperIn}
    (hp : p = (lab8.run i n).colorMapperIn keycode DrawX DrawY) :
    (color_mapper.coinCheck p && color_mapper.coinBit p) = true ↔
      CoinShown i n DrawX.toNat DrawY.toNat := by
  subst hp
  rw [color_mapper.coinCheck_and_coinBit_iff]
  refine exists_congr fun c => exists_congr fun r => and_congr_left fun _ => ?_
  exact lab8_coinLocs_iff i n r c

open Classical in
/-- The background in every reachable state.  A pixel at which neither the player nor a ghost
is lit has the colour of a coin exactly if it is one of the two of a coin of the level on
which the player has not stood since the last reset.  Otherwise it has the colour of a wall
if the picture of the level has a wall there, and is black if not. -/
theorem lab8_background (keycode : BitVec 16) (DrawX DrawY : BitVec 10)
    (h : ¬ ((lab8.run i n).colorMapperIn keycode DrawX DrawY).Covered) :
    color_mapper levelData.levelOut ((lab8.run i n).colorMapperIn keycode DrawX DrawY) =
      if CoinShown i n DrawX.toNat DrawY.toNat then ⟨0x00, 0xff, 0xff⟩
      else if WallPixel DrawX.toNat DrawY.toNat then ⟨0xff, 0x00, 0xff⟩
      else ⟨0x00, 0x00, 0x00⟩ := by
  have hlevel : ((lab8.run i n).colorMapperIn keycode DrawX DrawY).level = true :=
    GameStateReg.level_eq _
  rw [color_mapper.color_mapper_background _ h]
  simp only [lab8_coin_iff i n keycode DrawX DrawY rfl, color_mapper.wall_iff hlevel]
  rfl

end Run

/-- On the way to the ghosts the coin of the tile `(2, 1)` is drawn, and the one of the tile
`(9, 9)` has been taken. -/
theorem lab8_background_coin :
    color_mapper levelData.levelOut
        ((lab8.run (Machine.stream (approach 0) (wait 0)) (approach 0).length).colorMapperIn
          keyA 62 33) = ⟨0x00, 0xff, 0xff⟩ ∧
      color_mapper levelData.levelOut
        ((lab8.run (Machine.stream (approach 0) (wait 0)) (approach 0).length).colorMapperIn
          keyA 286 289) = ⟨0x00, 0x00, 0x00⟩ := by
  have hrun := (lab8.run_stream (approach 0) (wait 0)).trans (play_approach (n := 0) (by omega))
  have hcoins := lab8_coinLocs_iff (Machine.stream (approach 0) (wait 0)) (approach 0).length
  rw [hrun] at hcoins
  refine ⟨?_, ?_⟩
  · have h := lab8_background _ _ keyA 62 33 (by
      rw [hrun]
      exact ColorMapperIn.not_covered_of_check (by decide) (fun g => by cases g <;> decide))
    rw [if_pos ⟨1, 0, (hcoins 0 1).1 (by decide +kernel), by decide⟩] at h
    exact h
  · have h := lab8_background _ _ keyA 286 289 (by
      rw [hrun]
      exact ColorMapperIn.not_covered_of_check (by decide) (fun g => by cases g <;> decide))
    have hX : (286 : BitVec 10).toNat = 286 := rfl
    have hY : (289 : BitVec 10).toNat = 289 := rfl
    rw [hX, hY, if_neg, if_neg] at h
    · exact h
    · unfold WallPixel
      decide +kernel
    · intro hshown
      obtain ⟨c, r, hcoin, hy, hx⟩ := hshown
      obtain rfl : c = 8 := by omega
      obtain rfl : r = 8 := by omega
      exact absurd ((hcoins 8 8).2 hcoin) (by decide +kernel)

end SnakeMom
