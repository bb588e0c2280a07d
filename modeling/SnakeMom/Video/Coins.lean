import SnakeMom.Video.Ghosts
import SnakeMom.Coin.History

/-!
# What is drawn of a coin

A coin is a box of four by four pixels around the centre of its tile.  The flag finds the
box, and the address counts its lines from row 0 of the bank.  The four rows of the picture
are the rows 3 to 6 of the bank, and two of their four bits leave the module.

* `onCoin_iff`: the boxes by the output bits of `coinAssembler`.
* `coinCheck_iff`: the pixels at which the flag is up, which are the boxes of the coins that
  are present.
* `coinBit_iff`: which pixels of a box are lit.
* `coin_drawn_iff`: at which pixels the coins are drawn as their boxes say.
-/

namespace SnakeMom

/-! ## Boxes -/

namespace ColorMapperIn

variable (i : ColorMapperIn)

/-- The coin that the visit of column `c` and row `r` removes is present. -/
def CoinAt (c r : Nat) : Prop :=
  ∃ k, coinAssembler.Removes (BitVec.ofNat 10 (32 * c)) (BitVec.ofNat 10 (32 * r)) k ∧
    i.coinLocs.getLsbD k = true

/-- The pixel is one of the four by four in the middle of the tile in column `c` and row
`r`. -/
def InCoinBox (c r : Nat) : Prop :=
  (32 * c ≤ i.DrawX.toNat + 2 ∧ i.DrawX.toNat ≤ 32 * c + 1) ∧
    32 * r ≤ i.DrawY.toNat + 2 ∧ i.DrawY.toNat ≤ 32 * r + 1

/-- The pixel lies in the box of a coin that is present. -/
def OnCoin : Prop :=
  ∃ c r, (1 ≤ c ∧ c ≤ 12) ∧ (1 ≤ r ∧ r ≤ 12) ∧ i.CoinAt c r ∧ i.InCoinBox c r

/-- The pixel is lit as one of the player or of a ghost. -/
def Covered : Prop :=
  (color_mapper.playerCheck i && color_mapper.playerBit i) = true ∨
    ∃ g, (color_mapper.ghostCheck i g && color_mapper.ghostBit i g) = true

variable {i}

theorem coinAt_succ_iff (c r : Fin 12) :
    i.CoinAt (c + 1) (r + 1) ↔ i.coinLocs.getLsbD (coinBit r c) = true := by
  have hv : Visits (BitVec.ofNat 10 (32 * (c + 1))) (BitVec.ofNat 10 (32 * (r + 1))) r c := by
    rw [Visits, BitVec.toNat_ofNat, BitVec.toNat_ofNat]
    omega
  unfold CoinAt
  simp only [coinAssembler.removes_iff hv, exists_eq_left]

theorem exists_fin_succ {c : Nat} (h : 1 ≤ c ∧ c ≤ 12) : ∃ c' : Fin 12, c = c' + 1 :=
  ⟨⟨c - 1, by omega⟩, (Nat.sub_add_cancel h.1).symm⟩

/-- The boxes by the output bits of `coinAssembler`. -/
theorem onCoin_iff : i.OnCoin ↔
    ∃ c r : Fin 12, i.coinLocs.getLsbD (coinBit r c) = true ∧ i.InCoinBox (c + 1) (r + 1) := by
  constructor
  · rintro ⟨c, r, hc, hr, hat, hbox⟩
    obtain ⟨c, rfl⟩ := exists_fin_succ hc
    obtain ⟨r, rfl⟩ := exists_fin_succ hr
    exact ⟨c, r, (coinAt_succ_iff c r).1 hat, hbox⟩
  · rintro ⟨c, r, hat, hbox⟩
    exact ⟨c + 1, r + 1, by omega, by omega, (coinAt_succ_iff c r).2 hat, hbox⟩

/-- A pixel outside all frames is not covered. -/
theorem not_covered_of_check (hplayer : color_mapper.playerCheck i = false)
    (hghost : ∀ g, color_mapper.ghostCheck i g = false) : ¬ i.Covered := by
  rintro (hp | ⟨g, hg⟩)
  · rw [hplayer] at hp
    cases hp
  · rw [hghost g] at hg
    cases hg

end ColorMapperIn

namespace color_mapper

variable {i : ColorMapperIn}

/-! ## The wires in numbers -/

section Stretch

variable (D : BitVec 10)

theorem toNat_stretch : (D - 30).toNat = (D.toNat + 994) % 1024 := by
  have h30 : (30 : BitVec 10).toNat = 30 := rfl
  rw [BitVec.toNat_sub, h30, Nat.add_comm]

/-- The upper bits of a stretched coordinate. -/
theorem toNat_stretch_high :
    ((D - 30).extractLsb' 5 5).toNat = (D.toNat + 994) % 1024 / 32 := by
  rw [BitVec.extractLsb'_toNat, toNat_stretch, Nat.shiftRight_eq_div_pow]
  omega

/-- The lower bits of a stretched coordinate. -/
theorem toNat_stretch_low {k : Nat} (hk : k ≤ 10) :
    ((D - 30).extractLsb' 0 k).toNat = (D.toNat + 994) % 2 ^ k := by
  have hdvd : 2 ^ k ∣ 1024 := pow_dvd_pow 2 hk
  rw [BitVec.extractLsb'_toNat, toNat_stretch, Nat.shiftRight_zero, Nat.mod_mod_of_dvd _ hdvd]

end Stretch

/-- The index of the flag counts the tiles from the left of `coinLocs`. -/
theorem getMsbD_coinLocs (r c : Fin 12) :
    i.coinLocs.getMsbD (12 * r + c) = i.coinLocs.getLsbD (SnakeMom.coinBit r c) := by
  have hlt : 12 * (r : Nat) + c < 144 := by omega
  rw [BitVec.getMsbD_eq_getLsbD, decide_eq_true hlt, Bool.true_and, SnakeMom.coinBit]

/-- The flag in numbers. -/
theorem coinCheck_toNat : coinCheck i = true ↔
    ((16 < i.DrawX.toNat ∧ i.DrawX.toNat < 410) ∧ 16 < i.DrawY.toNat ∧ i.DrawY.toNat ≤ 400) ∧
      i.coinLocs.getMsbD ((i.DrawY.toNat + 994) % 1024 / 32 * 12 +
        (i.DrawX.toNat + 994) % 1024 / 32) = true ∧
      (i.DrawX.toNat + 994) % 32 ≤ 3 ∧ (i.DrawY.toNat + 994) % 32 ≤ 3 := by
  have h16 : (16 : BitVec 10).toNat = 16 := rfl
  have h410 : (410 : BitVec 10).toNat = 410 := rfl
  have h400 : (400 : BitVec 10).toNat = 400 := rfl
  have h3 : (3 : BitVec 5).toNat = 3 := rfl
  have hlow (D : BitVec 10) : ((D - 30).extractLsb' 0 5).toNat = (D.toNat + 994) % 32 :=
    toNat_stretch_low D (by omega)
  simp only [coinCheck, xStretch, yStretch, Bool.and_eq_true, decide_eq_true_eq, gt_iff_lt,
    BitVec.lt_def, BitVec.le_def, toNat_stretch_high, hlow, h16, h410, h400, h3]
  constructor
  · rintro ⟨⟨⟨⟨⟨⟨hX, hY⟩, hX'⟩, hY'⟩, hbit⟩, hx⟩, hy⟩
    exact ⟨⟨⟨hX, hX'⟩, hY, hY'⟩, hbit, hx, hy⟩
  · rintro ⟨⟨⟨hX, hX'⟩, hY, hY'⟩, hbit, hx, hy⟩
    exact ⟨⟨⟨⟨⟨⟨hX, hY⟩, hX'⟩, hY'⟩, hbit⟩, hx⟩, hy⟩

/-- The flag is up in the boxes of the coins that are present. -/
theorem coinCheck_iff : coinCheck i = true ↔ i.OnCoin := by
  rw [coinCheck_toNat, ColorMapperIn.onCoin_iff]
  constructor
  · rintro ⟨⟨hX, hY⟩, hbit, hx, hy⟩
    -- Neither difference has wrapped, for below 30 its lower bits are beyond 3.
    obtain ⟨c, hc⟩ : ∃ c : Fin 12, (i.DrawX.toNat + 994) % 1024 / 32 = c :=
      ⟨⟨(i.DrawX.toNat + 994) % 1024 / 32, by omega⟩, rfl⟩
    obtain ⟨r, hr⟩ : ∃ r : Fin 12, (i.DrawY.toNat + 994) % 1024 / 32 = r :=
      ⟨⟨(i.DrawY.toNat + 994) % 1024 / 32, by omega⟩, rfl⟩
    refine ⟨c, r, ?_, ?_⟩
    · rw [← getMsbD_coinLocs, ← hc, ← hr, Nat.mul_comm]
      exact hbit
    · unfold ColorMapperIn.InCoinBox
      omega
  · rintro ⟨c, r, hbit, hbox⟩
    unfold ColorMapperIn.InCoinBox at hbox
    have hc : (i.DrawX.toNat + 994) % 1024 / 32 = c := by omega
    have hr : (i.DrawY.toNat + 994) % 1024 / 32 = r := by omega
    refine ⟨by omega, ?_, by omega⟩
    rw [hc, hr, Nat.mul_comm, getMsbD_coinLocs]
    exact hbit

/-- Of the four rows that the flag can address, the bank lights the last, and its two
columns. -/
theorem getLsbD_coinBank (renderSelect : BitVec 3) (k : Fin 4) :
    (coinBank.spriteOut renderSelect).getLsbD k = true ∧ renderSelect.toNat ≤ 3 ↔
      renderSelect.toNat = 3 ∧ k.val < 2 := by
  revert renderSelect k
  decide +kernel

/-- In a box the bit is set on the lowest line, in its left half. -/
theorem coinBit_iff (hcheck : coinCheck i = true) :
    coinBit i = true ↔ i.DrawY.toNat % 32 = 1 ∧ 30 ≤ i.DrawX.toNat % 32 := by
  obtain ⟨-, -, hx, hy⟩ := coinCheck_toNat.1 hcheck
  have haddr : (coinADDR i).toNat = (i.DrawY.toNat + 994) % 32 := by
    rw [coinADDR, if_pos hcheck, yStretch, toNat_stretch_low _ (by omega)]
    omega
  have hcolumn : ((xStretch i).extractLsb' 0 2).toNat = (i.DrawX.toNat + 994) % 32 := by
    rw [xStretch, toNat_stretch_low _ (by omega)]
    omega
  have h := getLsbD_coinBank (coinADDR i) ⟨(i.DrawX.toNat + 994) % 32, by omega⟩
  rw [haddr, and_iff_left hy] at h
  rw [coinBit, hcolumn]
  refine h.trans ?_
  show (i.DrawY.toNat + 994) % 32 = 3 ∧ (i.DrawX.toNat + 994) % 32 < 2 ↔ _
  omega

/-! ## The colour -/

/-- Where neither the player nor a ghost is lit, a pixel has the colour of a coin exactly
if the wires of the coins say so. -/
theorem color_mapper_coin_iff (levelData : BitVec 10 → BitVec 416) (h : ¬ i.Covered) :
    color_mapper levelData i = ⟨0x00, 0xff, 0xff⟩ ↔ coinCheck i = true ∧ coinBit i = true := by
  have hplayer : ¬ (playerCheck i && playerBit i) = true := fun hp => h (Or.inl hp)
  have hred : ¬ (redGhostCheck i && ghostRedBit i) = true := fun hg => h (Or.inr ⟨.red, hg⟩)
  have horange : ¬ (orangeGhostCheck i && ghostOrangeBit i) = true :=
    fun hg => h (Or.inr ⟨.orange, hg⟩)
  have hblue : ¬ (blueGhostCheck i && ghostBlueBit i) = true := fun hg => h (Or.inr ⟨.blue, hg⟩)
  have hpink : ¬ (pinkGhostCheck i && ghostPinkBit i) = true := fun hg => h (Or.inr ⟨.pink, hg⟩)
  rw [← Bool.and_eq_true]
  unfold color_mapper
  rw [if_neg hplayer, if_neg hred, if_neg horange, if_neg hblue, if_neg hpink]
  by_cases hcoin : (coinCheck i && coinBit i) = true
  · rw [if_pos hcoin]
    exact iff_of_true rfl hcoin
  · rw [if_neg hcoin]
    refine iff_of_false ?_ hcoin
    by_cases hwall : (wallCheck i && wallBit i levelData) = true
    · rw [if_pos hwall]
      decide
    · rw [if_neg hwall]
      decide

/-- The coins are drawn at a pixel as their boxes say exactly if the pixel is in none of
the boxes of the coins that are present, or one of the two left ones of the lowest line of
such a box. -/
theorem coin_drawn_iff (levelData : BitVec 10 → BitVec 416) (h : ¬ i.Covered) :
    (color_mapper levelData i = ⟨0x00, 0xff, 0xff⟩ ↔ i.OnCoin) ↔
      (i.OnCoin → i.DrawY.toNat % 32 = 1 ∧ 30 ≤ i.DrawX.toNat % 32) := by
  rw [color_mapper_coin_iff levelData h, ← coinCheck_iff]
  constructor
  · intro hdrawn hcheck
    exact (coinBit_iff hcheck).1 (hdrawn.2 hcheck).2
  · intro hleft
    constructor
    · intro hlit
      exact hlit.1
    · intro hcheck
      exact ⟨hcheck, (coinBit_iff hcheck).2 (hleft hcheck)⟩

/-- The lowest line of a coin of the first maze, at tile `(2, 1)`. -/
theorem coin_drawn_iff_line :
    color_mapper levelData.levelOut (Game.hardReset.colorMapperIn 0 62 33) = ⟨0x00, 0xff, 0xff⟩ ↔
      (Game.hardReset.colorMapperIn 0 62 33).OnCoin :=
  (coin_drawn_iff levelData.levelOut (ColorMapperIn.not_covered_of_check (by decide)
    (fun g => by cases g <;> decide))).2 fun _ => by decide

/-- The centre of that coin is black, although the coin is there. -/
theorem coin_not_drawn_at_centre :
    ¬ (Game.hardReset.colorMapperIn 0 64 32).Covered ∧
      ¬ (color_mapper levelData.levelOut (Game.hardReset.colorMapperIn 0 64 32) =
          ⟨0x00, 0xff, 0xff⟩ ↔ (Game.hardReset.colorMapperIn 0 64 32).OnCoin) := by
  refine ⟨ColorMapperIn.not_covered_of_check (by decide) (fun g => by cases g <;> decide), ?_⟩
  intro h
  have hon : (Game.hardReset.colorMapperIn 0 64 32).OnCoin :=
    ColorMapperIn.onCoin_iff.2 ⟨1, 0, by decide +kernel, by
      unfold ColorMapperIn.InCoinBox
      decide⟩
  exact absurd (h.2 hon) (by decide +kernel)

end color_mapper

end SnakeMom
