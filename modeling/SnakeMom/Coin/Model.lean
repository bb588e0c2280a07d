import SnakeMom.Lib.Machine
import SnakeMom.Lib.Packed

/-!
# `coinBank.sv`: the coins

A `coin` is a two-state machine that the player's visit turns off and a reset
turns on.  `coinRow` is twelve coins and `coinAssembler` is twelve rows.  The
instance lines of the source are the two tables `coinRowInstances` and
`coinAssemblerInstances`: each line names the bits that the instance reads and
drives and the constant of its column or row.

A bank holds one register an instance: `bank k j` is the coin of the `j`-th line
of the `k`-th row, both counted from `0` in the order of the source.
-/

namespace SnakeMom

open Packed

inductive CoinState where
  | INVISIBLE
  | VISIBLE
deriving DecidableEq, Repr

theorem CoinState.visible_of_not {b : CoinState} (h : ¬ b = .INVISIBLE) : b = .VISIBLE := by
  cases b with
  | VISIBLE => rfl
  | INVISIBLE => exact absurd rfl h

namespace coin

/-- The `next_state` of a coin. -/
def next (state : CoinState) (playerPosX playerPosY : BitVec 10) (coinPosX coinPosY : BitVec 5)
    (crossroadCheck : Bool) : CoinState :=
  match state with
  | .VISIBLE =>
    if playerPosX.extractLsb' 5 5 = coinPosX ∧ playerPosY.extractLsb' 5 5 = coinPosY ∧
        crossroadCheck = true then .INVISIBLE
    else .VISIBLE
  | .INVISIBLE => .INVISIBLE

/-- The output of a coin. -/
def presentCheck (state : CoinState) (coinReset : Bool) : Bool :=
  match state with
  | .INVISIBLE => false
  | .VISIBLE => coinReset

end coin

/-! ## The instances -/

/-- One instance line of `coinRow`: the bit of `coinResetIndex` and of
`presentCheck`, and the column. -/
structure CoinInstance where
  coinResetIndex : Nat
  presentCheck : Nat
  coinPosX : BitVec 5

/-- The instances `coin1` to `coin12`. -/
def coinRowInstances : Fin 12 → CoinInstance
  | 0 => ⟨11, 11, 0x01⟩
  | 1 => ⟨10, 10, 0x02⟩
  | 2 => ⟨9, 9, 0x03⟩
  | 3 => ⟨8, 8, 0x04⟩
  | 4 => ⟨7, 7, 0x05⟩
  | 5 => ⟨6, 6, 0x06⟩
  | 6 => ⟨5, 5, 0x07⟩
  | 7 => ⟨4, 4, 0x08⟩
  | 8 => ⟨3, 3, 0x09⟩
  | 9 => ⟨2, 2, 0x0a⟩
  | 10 => ⟨1, 1, 0x0b⟩
  | 11 => ⟨0, 0, 0x0c⟩

/-- One instance line of `coinAssembler`: the low ends of the slices of
`coinArrangement` and of `presentCheck`, which are twelve bits wide, the row, and
the index of `rowCheck`. -/
structure RowInstance where
  coinResetIndex : Nat
  coinPosY : BitVec 5
  presentCheck : Nat
  emptyRow : Nat

/-- The instances `row1` to `row12`. -/
def coinAssemblerInstances : Fin 12 → RowInstance
  | 0 => ⟨132, 0x01, 132, 11⟩
  | 1 => ⟨120, 0x02, 120, 10⟩
  | 2 => ⟨108, 0x03, 108, 9⟩
  | 3 => ⟨96, 0x04, 96, 8⟩
  | 4 => ⟨84, 0x05, 84, 7⟩
  | 5 => ⟨72, 0x06, 72, 6⟩
  | 6 => ⟨60, 0x07, 60, 5⟩
  | 7 => ⟨48, 0x08, 48, 4⟩
  | 8 => ⟨36, 0x09, 36, 3⟩
  | 9 => ⟨24, 0x0a, 24, 2⟩
  | 10 => ⟨12, 0x0b, 12, 1⟩
  | 11 => ⟨0, 0x0c, 0, 0⟩

/-! ## Rows -/

namespace coinRow

/-- The twelve outputs of a row. -/
def presentCheck (row : Fin 12 → CoinState) (coinResetIndex : BitVec 12) : BitVec 12 :=
  assemble 12 ((List.finRange 12).map fun j =>
    ((coinRowInstances j).presentCheck, BitVec.ofBool
      (coin.presentCheck (row j)
        (coinResetIndex.getLsbD (coinRowInstances j).coinResetIndex))))

/-- `emptyRow` is `1` when the row still has a coin. -/
def emptyRow (row : Fin 12 → CoinState) (coinResetIndex : BitVec 12) : Bool :=
  presentCheck row coinResetIndex != 0

/-- The twelve next states of a row. -/
def next (row : Fin 12 → CoinState) (playerPosX playerPosY : BitVec 10) (coinPosY : BitVec 5)
    (crossroadCheck : Bool) : Fin 12 → CoinState := fun j =>
  coin.next (row j) playerPosX playerPosY (coinRowInstances j).coinPosX coinPosY crossroadCheck

end coinRow

/-! ## The assembler -/

/-- The registers of all coins. -/
abbrev CoinBank := Fin 12 → Fin 12 → CoinState

/-- Every coin is there. -/
def CoinBank.visible : CoinBank := fun _ _ => .VISIBLE

/-- What one edge of the coins' clock samples. -/
structure CoinIn where
  Reset : Bool
  playerPosX : BitVec 10
  playerPosY : BitVec 10
deriving DecidableEq, Repr

namespace coinAssembler

/-- Both coordinates have their five low bits clear. -/
def crossroadCheck (playerPosX playerPosY : BitVec 10) : Bool :=
  !(playerPosX.getLsbD 0 || playerPosX.getLsbD 1 || playerPosX.getLsbD 2 ||
    playerPosX.getLsbD 3 || playerPosX.getLsbD 4 || playerPosY.getLsbD 0 ||
    playerPosY.getLsbD 1 || playerPosY.getLsbD 2 || playerPosY.getLsbD 3 ||
    playerPosY.getLsbD 4)

/-- The slice of `coinArrangement` that row `k` reads. -/
def rowCoins (coinArrangement : BitVec 144) (k : Fin 12) : BitVec 12 :=
  coinArrangement.extractLsb' (coinAssemblerInstances k).coinResetIndex 12

/-- The 144 outputs. -/
def presentCheck (bank : CoinBank) (coinArrangement : BitVec 144) : BitVec 144 :=
  assemble 144 ((List.finRange 12).map fun k =>
    ((coinAssemblerInstances k).presentCheck,
      coinRow.presentCheck (bank k) (rowCoins coinArrangement k)))

/-- The array `rowCheck`: index `m` is driven by the instance that names it. -/
def rowCheck (bank : CoinBank) (coinArrangement : BitVec 144) (m : Fin 12) : Bool :=
  (List.finRange 12).any fun k =>
    (coinAssemblerInstances k).emptyRow == m &&
      coinRow.emptyRow (bank k) (rowCoins coinArrangement k)

/-- `if (rowCheck)` is read as the disjunction of the twelve flags. -/
def boardCheck (bank : CoinBank) (coinArrangement : BitVec 144) : Bool :=
  (List.finRange 12).any (rowCheck bank coinArrangement)

/-- The next states of all coins. -/
def next (bank : CoinBank) (playerPosX playerPosY : BitVec 10) : CoinBank := fun k =>
  coinRow.next (bank k) playerPosX playerPosY (coinAssemblerInstances k).coinPosY
    (crossroadCheck playerPosX playerPosY)

/-- One edge of the coins' clock. -/
def edge (bank : CoinBank) (i : CoinIn) : CoinBank :=
  if i.Reset then .visible else next bank i.playerPosX i.playerPosY

end coinAssembler

/-- The bank as a machine, from any state of its registers. -/
def coinMachine (bank : CoinBank) : Sync.Machine CoinIn CoinBank :=
  ⟨bank, coinAssembler.edge⟩

end SnakeMom
