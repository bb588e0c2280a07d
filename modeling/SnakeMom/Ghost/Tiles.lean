import SnakeMom.Ghost.Cadence
import SnakeMom.Ghost.Contact
import SnakeMom.Lib.Route

/-!
# A ghost on the tiles

From one tile centre to the next a ghost takes `32` ticks, and it only looks at its samples
on the first of them.  So it refines a machine that moves from tile to tile.

* `TileGhost` has the tile, the side the ghost came through, and the number of its turns.
  It compares its tile with the player on integers, and its turns take one pair of random
  bits after the other.
* `ghostHeading_tiles` says that on a tile centre the registers choose the turn of the
  machine.
* `ghostMovement_refines_tiles` is the refinement: `n` ticks after a reset the ghost is
  `n % 32` pixels into leg `n / 32` of the machine.
-/

namespace SnakeMom

open GridWalk Packed Sync

/-- The side that the `case` over the open sides chooses. -/
def turnSide (t : Turns) (v : TurnView) : Side :=
  (headingOf (ghostTurn t v).1 (ghostTurn t v).2).getD .up

/-- The choice is an exit of the tile. -/
theorem turnSide_exit (t : Turns) (v : TurnView) :
    headingOf (ghostTurn t v).1 (ghostTurn t v).2 = some (turnSide t v) ∧
      ghostExits t (turnSide t v) := by
  obtain ⟨d, hd, hexit⟩ := ghostTurn_exit t v
  rw [turnSide, hd, headingOf_step]
  exact ⟨rfl, hexit⟩

/-! ## The machine on the tiles -/

/-- A ghost on a tile. -/
structure TileGhost where
  tile : Int × Int
  /-- The side it came through, if it has moved. -/
  heading : Option Side
  /-- The turns it has taken. -/
  turns : Nat

namespace TileGhost

variable (t : TileGhost) (i : GhostIn)

def start (x y : Nat) : TileGhost := ⟨(x, y), none, 0⟩

/-- What a turn reads besides the open sides. -/
def view : TurnView where
  r := i.generation.extractLsb' (2 * (t.turns % 8)) 2
  leftMove := decide (t.heading = some .left)
  upMove := decide (t.heading = some .up)
  downMove := decide (t.heading = some .down)
  leftPass := decide (32 * t.tile.1 < i.playerX.toNat)
  rightPass := decide ((i.playerX.toNat : Int) < 32 * t.tile.1)
  upPass := decide (32 * t.tile.2 < i.playerY.toNat)
  downPass := decide ((i.playerY.toNat : Int) < 32 * t.tile.2)

/-- The open sides of the tile. -/
def openSides : Turns :=
  i.layout.turns (BitVec.ofInt 5 t.tile.1) (BitVec.ofInt 5 t.tile.2)

/-- The side the ghost leaves the tile through. -/
def turn : Side := turnSide (t.openSides i) (t.view i)

/-- One leg. -/
def leg : TileGhost := ⟨(t.turn i).next t.tile, some (t.turn i), t.turns + 1⟩

/-- The walker `m` pixels into the leg through side `d`. -/
def into (d : Side) (m : Nat) : Walker :=
  ⟨32 * t.tile.1 + m * d.dx, 32 * t.tile.2 + m * d.dy, if m = 0 then t.heading else some d⟩

/-- A leg is `32` pixels long. -/
theorem into_last (d : Side) : t.into (t.turn i) 32 = (t.leg i).into d 0 := by
  rw [into, into, if_neg (by decide : ¬ 32 = 0), if_pos rfl, leg, Side.next, Walker.mk.injEq]
  refine ⟨?_, ?_, rfl⟩
  all_goals
    push_cast
    ring

end TileGhost

def ghostTiles (x y : Nat) : Machine GhostIn TileGhost := ⟨.start x y, TileGhost.leg⟩

theorem ghostTiles_turns (x y : Nat) (i : Nat → GhostIn) (k : Nat) :
    ((ghostTiles x y).run i k).turns = k := by
  induction k with
  | zero => rfl
  | succ k ih => exact congrArg (· + 1) ih

/-! ## One tick -/

section Tick

variable {s : GhostReg} {t : TileGhost} {i : GhostIn}

/-- The registers hold the state of the machine, on a tile centre. -/
structure OnTileCentre (s : GhostReg) (t : TileGhost) : Prop where
  walker : s.walker = ⟨32 * t.tile.1, 32 * t.tile.2, t.heading⟩
  count : s.generationCount.toNat = t.turns % 8

/-- The registers of a ghost on the board show a turn what the machine sees. -/
theorem OnTileCentre.view (h : OnTileCentre s t) (hs : GhostInv 416 s)
    (hpx : i.playerX.toNat ≤ 416) (hpy : i.playerY.toNat ≤ 416) : s.view i = t.view i := by
  have hwalker := h.walker
  simp only [GhostReg.walker, moverWalker, Walker.mk.injEq] at hwalker
  obtain ⟨hx, hy, hh⟩ := hwalker
  obtain ⟨hcx, hcy⟩ := hs.coded
  rw [hh] at hcx hcy
  obtain ⟨_, hx1, _, hy1⟩ := hs.inBox
  simp only [GhostReg.walker, moverWalker] at hx1 hy1
  have hsx : s.posX.toNat < 512 := by omega
  have hsy : s.posY.toNat < 512 := by omega
  have hpx' : i.playerX.toNat < 512 := by omega
  have hpy' : i.playerY.toNat < 512 := by omega
  rw [GhostReg.view, TileGhost.view, rSelect_eq, h.count, hcx, hcy, leftMoveCheck_stepX,
    upMoveCheck_stepY, downMoveCheck_stepY, TurnView.mk.injEq]
  refine ⟨rfl, rfl, rfl, rfl, ?_, ?_, ?_, ?_⟩
  · rw [Bool.eq_iff_iff, GhostReg.leftPass, belowPass_iff hsx hpx', decide_eq_true_iff]
    omega
  · rw [Bool.eq_iff_iff, GhostReg.rightPass, abovePass_iff hsx hpx', decide_eq_true_iff]
    omega
  · rw [Bool.eq_iff_iff, GhostReg.upPass, belowPass_iff hsy hpy', decide_eq_true_iff]
    omega
  · rw [Bool.eq_iff_iff, GhostReg.downPass, abovePass_iff hsy hpy', decide_eq_true_iff]
    omega

/-- On a tile centre the registers choose the turn of the machine. -/
theorem ghostHeading_tiles (h : OnTileCentre s t) (hs : GhostInv 416 s)
    (hpx : i.playerX.toNat ≤ 416) (hpy : i.playerY.toNat ≤ 416) :
    ghostHeading s i = some (t.turn i) := by
  have hwalker := h.walker
  simp only [GhostReg.walker, moverWalker, Walker.mk.injEq] at hwalker
  have hcentre : s.walker.Centre 32 := by
    rw [h.walker]
    exact ⟨Int.dvd_mul_right _ _, Int.dvd_mul_right _ _⟩
  have hturns : s.turns i.layout = t.openSides i := by
    rw [GhostReg.turns, tile_eq_ofInt hwalker.1, tile_eq_ofInt hwalker.2.1]
    rfl
  rw [ghostHeading, if_pos (s.centre_iff.1 hcentre), GhostReg.turn, hturns,
    h.view hs hpx hpy]
  exact (turnSide_exit _ _).1

/-- One tick into the leg through side `d`. -/
theorem ghostTick_into (hs : GhostInv 416 s) {d : Side} {m : Nat} (hw : s.walker = t.into d m)
    (hd : ghostHeading s i = some d) : (ghostTick s i).walker = t.into d (m + 1) := by
  obtain ⟨e, he, hmoves⟩ := ghostTick_moves hs i
  have hed : e = d := Option.some.inj (he.symm.trans hd)
  rw [hmoves, hw, hed, TileGhost.into, TileGhost.into, if_neg (Nat.succ_ne_zero m),
    Walker.mk.injEq]
  refine ⟨?_, ?_, rfl⟩
  all_goals
    push_cast
    ring

end Tick

/-! ## The refinement -/

/-- A ghost refines the machine on the tiles.  `n` ticks after a reset, with the start tile on
the board or its border, and the player there too at every tick `32 * k` before, it is
`n % 32` pixels into leg `n / 32`, which it has begun with the samples of tick
`32 * (n / 32)`; the samples of other ticks do not matter.  The leg leaves its tile through
an open side, or upwards if there is none. -/
theorem ghostMovement_refines_tiles {fiveXStart fiveYStart : BitVec 5}
    (hx : fiveXStart.toNat ≤ 13) (hy : fiveYStart.toNat ≤ 13) (i : Nat → GhostIn) {j n : Nat}
    (hfresh : (ghostMovement fiveXStart fiveYStart).run i j = .reset fiveXStart fiveYStart)
    (hreset : ∀ k < n, (i (j + k)).Reset = false)
    (hplayer : ∀ k, 32 * k < n →
      (i (j + 32 * k)).playerX.toNat ≤ 416 ∧ (i (j + 32 * k)).playerY.toNat ≤ 416)
    {t : TileGhost} (ht : t = (ghostTiles fiveXStart.toNat fiveYStart.toNat).run
      (fun k => i (j + 32 * k)) (n / 32)) :
    ((ghostMovement fiveXStart fiveYStart).run i (j + n)).walker =
        t.into (t.turn (i (j + 32 * (n / 32)))) (n % 32) ∧
      ghostExits (t.openSides (i (j + 32 * (n / 32)))) (t.turn (i (j + 32 * (n / 32)))) := by
  refine ⟨?_, (turnSide_exit _ _).2⟩
  subst ht
  induction n with
  | zero =>
    rw [Nat.add_zero, hfresh]
    simp only [GhostReg.walker, moverWalker, GhostReg.reset, toNat_tileStart, TileGhost.into,
      ghostTiles, TileGhost.start]
    simp
    rfl
  | succ n ih =>
    have hx' : 32 * (fiveXStart.toNat : Int) ≤ 416 := by omega
    have hy' : 32 * (fiveYStart.toNat : Int) ≤ 416 := by omega
    have hprev := ih (fun k hk => hreset k (by omega)) (fun k hk => hplayer k (by omega))
    have hinv := ghostMovement_inv ghostBox_416 hx' hy' i (j + n)
    have hcadence := ghostMovement_cadence_inv hfresh fun k hk =>
      hreset k (Nat.lt_succ_of_lt hk)
    have hturns := ghostTiles_turns fiveXStart.toNat fiveYStart.toNat (fun k => i (j + 32 * k))
      (n / 32)
    rw [← Nat.add_assoc, ghostMovement_run_tick (hreset n (Nat.lt_succ_self n))]
    generalize (ghostMovement fiveXStart fiveYStart).run i (j + n) = s at hprev hinv hcadence
    generalize ht : (ghostTiles fiveXStart.toNat fiveYStart.toNat).run
      (fun k => i (j + 32 * k)) (n / 32) = t at hprev hturns
    -- the turn of a leg is read on its centre and carried on after it
    have hheading : ghostHeading s (i (j + n)) = some (t.turn (i (j + 32 * (n / 32)))) := by
      by_cases hc : 32 ∣ n
      · have hn : 32 * (n / 32) = n := Nat.mul_div_cancel' hc
        have hmod : n % 32 = 0 := Nat.mod_eq_zero_of_dvd hc
        obtain ⟨hpx, hpy⟩ := hplayer (n / 32) (by omega)
        rw [hn] at hprev hpx hpy ⊢
        refine ghostHeading_tiles ⟨?_, ?_⟩ hinv hpx hpy
        · rw [hprev, hmod]
          simp [TileGhost.into]
        · rw [hcadence.count, hturns]
          omega
      · have hmod : n % 32 ≠ 0 := fun h => hc (Nat.dvd_of_mod_eq_zero h)
        rw [ghostHeading_carried (fun h => hc (hcadence.centre_iff.1 h)), hprev, TileGhost.into,
          if_neg hmod]
    rw [ghostTick_into hinv hprev hheading]
    by_cases hlast : n % 32 = 31
    · have hdiv : (n + 1) / 32 = n / 32 + 1 := by omega
      have hmod : (n + 1) % 32 = 0 := by omega
      rw [hdiv, hmod, Machine.run_succ, ht, hlast]
      exact t.into_last _ _
    · have hdiv : (n + 1) / 32 = n / 32 := by omega
      have hmod : (n + 1) % 32 = n % 32 + 1 := by omega
      rw [hdiv, hmod, ht]

/-- Forty ticks on the start screen: eight pixels into the second leg. -/
theorem ghostMovement_refines_tiles_second :
    ((ghostMovement 6 6).run (fun _ => startScreenTick) 40).walker = ⟨192, 152, some .up⟩ := by
  have hstart : (6 : BitVec 5).toNat ≤ 13 := by decide
  have h := (ghostMovement_refines_tiles hstart hstart (fun _ => startScreenTick)
    (j := 0) (n := 40) rfl (fun _ _ => rfl) (fun _ _ => ⟨by decide, by decide⟩) rfl).1
  rw [Nat.zero_add] at h
  exact h.trans (by decide)

end SnakeMom
