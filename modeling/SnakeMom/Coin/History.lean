import SnakeMom.Coin.Model
import SnakeMom.Mover

/-!
# What the coins remember

The two index mappings of the source, rows of twelve and slices of twelve, are
solved here once: `getLsbD_presentCheck` says which register each of the 144
output bits shows, and `boardCheck_iff` says that the board flag is the
disjunction of all of them.  `removes_iff` says which bit the visit of a tile
takes away.

A coin register is a latch that a reset clears and the visit of its own tile
centre sets, so `Sync.Since` describes it: `coinMachine_invisible_iff`.
`coinAssembler_history` is the law of the whole output.
-/

namespace SnakeMom

open Packed Sync

/-! ## The index mapping -/

theorem coinRowInstances_eq (j : Fin 12) :
    coinRowInstances j = ⟨11 - j, 11 - j, BitVec.ofNat 5 (j + 1)⟩ := by
  match j with
  | 0 | 1 | 2 | 3 | 4 | 5 | 6 | 7 | 8 | 9 | 10 | 11 => rfl

theorem coinAssemblerInstances_eq (k : Fin 12) :
    coinAssemblerInstances k = ⟨132 - 12 * k, BitVec.ofNat 5 (k + 1), 132 - 12 * k, 11 - k⟩ := by
  match k with
  | 0 | 1 | 2 | 3 | 4 | 5 | 6 | 7 | 8 | 9 | 10 | 11 => rfl

/-- The output bit of the coin in row `r` and column `c`, both counted from `0`. -/
def coinBit (r c : Fin 12) : Nat := 143 - (12 * r + c)

/-- It is bit `11 - c` of the slice of the row. -/
theorem coinBit_eq (r c : Fin 12) : coinBit r c = 132 - 12 * r + (11 - c) := by
  unfold coinBit
  omega

theorem coinBit_lt (r c : Fin 12) : coinBit r c < 144 := by
  unfold coinBit
  omega

theorem coinBit_inj {r c r' c' : Fin 12} (h : coinBit r c = coinBit r' c') :
    r = r' ∧ c = c' := by
  unfold coinBit at h
  omega

theorem exists_coinBit {l : Nat} (h : l < 144) : ∃ r c : Fin 12, coinBit r c = l := by
  refine ⟨⟨(143 - l) / 12, by omega⟩, ⟨(143 - l) % 12, by omega⟩, ?_⟩
  unfold coinBit
  show 143 - (12 * ((143 - l) / 12) + (143 - l) % 12) = l
  omega

/-- Bit `11 - j` of a row shows the coin of column `j`. -/
theorem coinRow.getLsbD_presentCheck (row : Fin 12 → CoinState) (coinResetIndex : BitVec 12)
    (j : Fin 12) :
    (coinRow.presentCheck row coinResetIndex).getLsbD (11 - j) =
      coin.presentCheck (row j) (coinResetIndex.getLsbD (11 - j)) := by
  rw [coinRow.presentCheck, getLsbD_assemble _ (by omega), Bool.eq_iff_iff, List.any_eq_true]
  simp only [coinRowInstances_eq, List.mem_map, List.mem_finRange, true_and,
    exists_exists_eq_and, Bool.and_eq_true, decide_eq_true_eq, BitVec.getLsbD_ofBool]
  constructor
  · intro h
    obtain ⟨j', hle, hzero, hv⟩ := h
    have hj : j' = j := Fin.ext (by omega)
    rwa [hj] at hv
  · intro hv
    exact ⟨j, Nat.le_refl _, Nat.sub_self _, hv⟩

/-- A row reads the bits of its own coins. -/
theorem coinAssembler.getLsbD_rowCoins (coinArrangement : BitVec 144) (r c : Fin 12) :
    (coinAssembler.rowCoins coinArrangement r).getLsbD (11 - c) =
      coinArrangement.getLsbD (coinBit r c) := by
  have hbit := coinBit_eq r c
  rw [coinAssembler.rowCoins, BitVec.getLsbD_extractLsb', coinAssemblerInstances_eq, hbit]
  simp only [show 11 - (c : Nat) < 12 by omega, decide_true, Bool.true_and]

/-- Each output bit shows its own coin. -/
theorem coinAssembler.getLsbD_presentCheck (bank : CoinBank) (coinArrangement : BitVec 144)
    (r c : Fin 12) :
    (coinAssembler.presentCheck bank coinArrangement).getLsbD (coinBit r c) =
      coin.presentCheck (bank r c) (coinArrangement.getLsbD (coinBit r c)) := by
  have hbit := coinBit_eq r c
  rw [← coinAssembler.getLsbD_rowCoins coinArrangement, ← coinRow.getLsbD_presentCheck,
    coinAssembler.presentCheck, getLsbD_assemble _ (coinBit_lt r c),
    Bool.eq_iff_iff, List.any_eq_true]
  simp only [coinAssemblerInstances_eq, List.mem_map, List.mem_finRange, true_and,
    exists_exists_eq_and, Bool.and_eq_true, decide_eq_true_eq]
  constructor
  · intro h
    obtain ⟨k, hle, hv⟩ := h
    -- A slice below row `r` ends before the bit, and one above it starts after.
    have hlt := BitVec.lt_of_getLsbD hv
    have hk : k = r := Fin.ext (by rw [hbit] at hle hlt; omega)
    subst hk
    rwa [hbit, Nat.add_sub_cancel_left] at hv
  · intro hv
    refine ⟨r, by omega, ?_⟩
    rwa [hbit, Nat.add_sub_cancel_left]

/-- A row flag is up exactly when some coin of the row is present. -/
theorem coinRow.emptyRow_iff (row : Fin 12 → CoinState) (coinResetIndex : BitVec 12) :
    coinRow.emptyRow row coinResetIndex = true ↔
      ∃ j : Fin 12, coin.presentCheck (row j) (coinResetIndex.getLsbD (11 - j)) = true := by
  rw [coinRow.emptyRow, bne_iff_ne]
  constructor
  · intro hne
    by_contra hall
    apply hne
    apply BitVec.eq_of_getLsbD_eq
    intro i hi
    have hj := coinRow.getLsbD_presentCheck row coinResetIndex ⟨11 - i, by omega⟩
    rw [show 11 - (11 - i) = i by omega] at hj
    rw [hj, show (0 : BitVec 12).getLsbD i = false from BitVec.getLsbD_zero]
    rw [← Bool.not_eq_true]
    exact fun h => hall ⟨⟨11 - i, by omega⟩, by rwa [show 11 - (11 - i) = i by omega]⟩
  · intro h hzero
    obtain ⟨j, hj⟩ := h
    rw [← coinRow.getLsbD_presentCheck, hzero] at hj
    exact absurd hj (by rw [show (0 : BitVec 12) = 0#12 from rfl, BitVec.getLsbD_zero]; decide)

/-- The board flag is up exactly when some coin of the board is present. -/
theorem coinAssembler.boardCheck_iff (bank : CoinBank) (coinArrangement : BitVec 144) :
    coinAssembler.boardCheck bank coinArrangement = true ↔
      ∃ r c : Fin 12,
        coin.presentCheck (bank r c) (coinArrangement.getLsbD (coinBit r c)) = true := by
  rw [coinAssembler.boardCheck, List.any_eq_true]
  simp only [coinAssembler.rowCheck, List.any_eq_true, List.mem_finRange, true_and,
    Bool.and_eq_true, beq_iff_eq, coinRow.emptyRow_iff, getLsbD_rowCoins, coinAssemblerInstances_eq]
  constructor
  · intro h
    obtain ⟨_, r, _, c, hv⟩ := h
    exact ⟨r, c, hv⟩
  · intro h
    obtain ⟨r, c, hv⟩ := h
    exact ⟨⟨11 - r, by omega⟩, r, rfl, c, hv⟩

/-! ## Visits -/

/-- The player stands on the centre of the tile in row `r` and column `c`, both
counted from `0`. -/
def Visits (playerPosX playerPosY : BitVec 10) (r c : Fin 12) : Prop :=
  playerPosX.toNat = 32 * (c + 1) ∧ playerPosY.toNat = 32 * (r + 1)

instance (playerPosX playerPosY : BitVec 10) (r c : Fin 12) :
    Decidable (Visits playerPosX playerPosY r c) :=
  inferInstanceAs (Decidable (_ ∧ _))

theorem Visits.unique {posX posY : BitVec 10} {r c r' c' : Fin 12} (h : Visits posX posY r c)
    (h' : Visits posX posY r' c') : r = r' ∧ c = c' := by
  unfold Visits at h h'
  omega

theorem coinAssembler.crossroadCheck_eq (posX posY : BitVec 10) :
    coinAssembler.crossroadCheck posX posY = (tileBound posX && tileBound posY) := by
  simp only [coinAssembler.crossroadCheck, tileBound, Bool.not_or, Bool.and_assoc]

/-- The three comparisons of a coin together single out one position. -/
theorem coinAssembler.visits_iff (posX posY : BitVec 10) (r c : Fin 12) :
    (posX.extractLsb' 5 5 = (coinRowInstances c).coinPosX ∧
        posY.extractLsb' 5 5 = (coinAssemblerInstances r).coinPosY ∧
        coinAssembler.crossroadCheck posX posY = true) ↔ Visits posX posY r c := by
  have hx := toNat_tile posX
  have hy := toNat_tile posY
  rw [tile] at hx hy
  rw [coinAssembler.crossroadCheck_eq, Bool.and_eq_true, tileBound_iff, tileBound_iff,
    coinRowInstances_eq, coinAssemblerInstances_eq, ← BitVec.toNat_inj, ← BitVec.toNat_inj,
    hx, hy, BitVec.toNat_ofNat, BitVec.toNat_ofNat, Visits]
  omega

/-- One edge turns a coin off exactly on a visit of its own tile. -/
theorem coinAssembler.next_invisible_iff (bank : CoinBank) (posX posY : BitVec 10)
    (r c : Fin 12) :
    coinAssembler.next bank posX posY r c = .INVISIBLE ↔
      Visits posX posY r c ∨ bank r c = .INVISIBLE := by
  rw [← coinAssembler.visits_iff, coinAssembler.next, coinRow.next]
  cases bank r c with
  | INVISIBLE => simp [coin.next]
  | VISIBLE =>
    simp only [coin.next, reduceCtorEq, or_false]
    split_ifs with h
    · exact iff_of_true rfl h
    · exact iff_of_false (by decide) h

/-- One edge turns off the coin of the tile that is visited and no other. -/
theorem coinAssembler.next_apply (bank : CoinBank) (posX posY : BitVec 10) (r c : Fin 12) :
    coinAssembler.next bank posX posY r c =
      if Visits posX posY r c then .INVISIBLE else bank r c := by
  have h := coinAssembler.next_invisible_iff bank posX posY r c
  split_ifs with hv
  · exact h.2 (Or.inl hv)
  · cases hb : bank r c with
    | INVISIBLE => exact h.2 (Or.inr hb)
    | VISIBLE =>
      cases hn : coinAssembler.next bank posX posY r c with
      | VISIBLE => rfl
      | INVISIBLE =>
        rcases h.1 hn with hv' | hi
        · exact absurd hv' hv
        · rw [hb] at hi
          cases hi

theorem coinAssembler.next_eq (bank : CoinBank) (posX posY : BitVec 10) :
    coinAssembler.next bank posX posY = fun r c =>
      if Visits posX posY r c then .INVISIBLE else bank r c := by
  funext r c
  exact next_apply bank posX posY r c

/-- An output is up exactly when the coin is placed and its register is on. -/
theorem coin.presentCheck_iff (state : CoinState) (coinReset : Bool) :
    coin.presentCheck state coinReset = true ↔ coinReset = true ∧ ¬ state = .INVISIBLE := by
  cases state <;> simp [coin.presentCheck]

/-! ## The coin that a visit removes -/

/-- A visit of `(X, Y)` takes bit `k` of the output away and leaves the others. -/
def coinAssembler.Removes (X Y : BitVec 10) (k : Nat) : Prop :=
  ∀ bank coinArrangement l,
    (coinAssembler.presentCheck (coinAssembler.next bank X Y) coinArrangement).getLsbD l =
      ((coinAssembler.presentCheck bank coinArrangement).getLsbD l && decide (l ≠ k))

/-- The visit of a tile removes the bit of that tile. -/
theorem coinAssembler.removes_iff {X Y : BitVec 10} {r c : Fin 12} (h : Visits X Y r c)
    {k : Nat} : Removes X Y k ↔ k = coinBit r c := by
  constructor
  · intro hk
    by_contra hne
    have hbit := hk .visible (BitVec.allOnes 144) (coinBit r c)
    rw [getLsbD_presentCheck, getLsbD_presentCheck, next_apply, if_pos h,
      decide_eq_true (Ne.symm hne), Bool.and_true, BitVec.getLsbD_allOnes,
      decide_eq_true (coinBit_lt r c)] at hbit
    exact absurd hbit Bool.false_ne_true
  · rintro rfl bank coinArrangement l
    by_cases hl : l < 144
    · obtain ⟨r', c', rfl⟩ := exists_coinBit hl
      rw [getLsbD_presentCheck, getLsbD_presentCheck, next_apply]
      by_cases hv : Visits X Y r' c'
      · obtain ⟨rfl, rfl⟩ := h.unique hv
        rw [if_pos h, decide_eq_false (fun hne => hne rfl), Bool.and_false]
        rfl
      · have hne : coinBit r' c' ≠ coinBit r c := by
          intro heq
          obtain ⟨rfl, rfl⟩ := coinBit_inj heq
          exact hv h
        rw [if_neg hv, decide_eq_true hne, Bool.and_true]
    · rw [BitVec.getLsbD_of_ge _ _ (by omega), BitVec.getLsbD_of_ge _ _ (by omega),
        Bool.false_and]

/-! ## The history of a coin -/

/-- After a reset a coin is off exactly when its own tile has been visited since. -/
theorem coinMachine_invisible_iff (bank : CoinBank) (i : Nat → CoinIn) {m n : Nat}
    (hmn : m < n) (hreset : (i m).Reset = true) (r c : Fin 12) :
    (coinMachine bank).run i n r c = .INVISIBLE ↔
      Since (fun k => (i k).Reset = true)
        (fun k => Visits (i k).playerPosX (i k).playerPosY r c) n := by
  refine latch_eq_since_of_reset (fun k => (coinMachine bank).run i k r c = .INVISIBLE)
    hmn hreset (fun k => ?_)
  rw [show (coinMachine bank).run i (k + 1) =
    coinAssembler.edge ((coinMachine bank).run i k) (i k) from rfl, coinAssembler.edge]
  cases (i k).Reset with
  | true => simp [CoinBank.visible]
  | false =>
    simpa using coinAssembler.next_invisible_iff ((coinMachine bank).run i k) _ _ r c

/-- The law of the output.  Let edge `m` be the last reset before edge `n`.  The
bit of the tile in column `c` and row `r` is up at edge `n` exactly when the
arrangement places a coin there and no edge since the reset has sampled the player
at `(32 * c, 32 * r)`. -/
theorem coinAssembler_history (bank : CoinBank) (coinArrangement : BitVec 144)
    (i : Nat → CoinIn) {m n c r : Nat} (hmn : m < n) (hreset : (i m).Reset = true)
    (hlast : ∀ k, m < k → k < n → (i k).Reset = false)
    (hc1 : 1 ≤ c) (hc2 : c ≤ 12) (hr1 : 1 ≤ r) (hr2 : r ≤ 12) :
    (coinAssembler.presentCheck ((coinMachine bank).run i n) coinArrangement).getLsbD
        (143 - (12 * (r - 1) + (c - 1))) = true ↔
      coinArrangement.getLsbD (143 - (12 * (r - 1) + (c - 1))) = true ∧
        ¬ ∃ k, m < k ∧ k < n ∧
          (i k).playerPosX.toNat = 32 * c ∧ (i k).playerPosY.toNat = 32 * r := by
  have hvisit : ∀ k, Visits (i k).playerPosX (i k).playerPosY ⟨r - 1, by omega⟩ ⟨c - 1, by omega⟩ ↔
      (i k).playerPosX.toNat = 32 * c ∧ (i k).playerPosY.toNat = 32 * r := fun k => by
    simp only [Visits, Nat.sub_add_cancel hr1, Nat.sub_add_cancel hc1]
  rw [show 143 - (12 * (r - 1) + (c - 1)) =
      coinBit ⟨r - 1, by omega⟩ ⟨c - 1, by omega⟩ from rfl,
    coinAssembler.getLsbD_presentCheck, coin.presentCheck_iff,
    coinMachine_invisible_iff bank i hmn hreset,
    since_of_reset hmn hreset (fun k h1 h2 => by rw [hlast k h1 h2]; decide)]
  simp only [hvisit]

/-- The player resets the board, stands on a tile, and its coin is gone. -/
theorem coinAssembler_history_visit :
    (coinAssembler.presentCheck ((coinMachine .visible).run
        (fun k => ⟨k == 0, 64, 96⟩) 2) (BitVec.allOnes 144)).getLsbD 118 = false := by
  have h := coinAssembler_history .visible (BitVec.allOnes 144) (fun k => ⟨k == 0, 64, 96⟩)
    (m := 0) (n := 2) (c := 2) (r := 3) (by decide) rfl
    (fun k h1 h2 => by simp [show k = 1 by omega]) (by decide) (by decide) (by decide) (by decide)
  rw [← Bool.not_eq_true]
  exact fun hup => (h.1 hup).2 ⟨1, by decide, by decide, rfl, rfl⟩

end SnakeMom
