import SnakeMom.Ghost.Model
import SnakeMom.Wall.Boundaries

/-!
# A ghost walks the grid

`ghostTick` refines the rule of motion of the grid, with one exit more than the
walls give.  The exits at a centre are the open sides of the tile, and on a closed
tile, where no side is open, the way up: this is the arm `4'h0` of the `case`.

* `GhostInv` is the invariant of the refinement, for a box that reaches past the
  border of the board.  `ghostTick_step` and `ghostTick_inv` are its step lemmas.
* `ghostHeading_isSome` says that a ghost never rests.
* `ghostMovement_respects_walls_iff` is what remains of respecting the walls: a
  ghost does so in a run exactly if it never ticks on a closed tile.
-/

namespace SnakeMom

open GridWalk Packed

/-- A box of tiles that reaches past the border of the board and leaves room in the
position registers. -/
structure GhostBox (hi : Int) : Prop where
  dvd : 32 ∣ hi
  border : 416 ≤ hi
  room : hi ≤ 992

/-- What every tick keeps, whatever the layout, the generation word and the
player. -/
structure GhostInv (hi : Int) (s : GhostReg) : Prop where
  box : GhostBox hi
  coded : Coded s.posXInertia s.posYInertia
  aligned : Aligned 32 s.walker
  inBox : InBox 0 hi s.walker

theorem toNat_tileStart (fiveStart : BitVec 5) :
    (tileStart fiveStart).toNat = 32 * fiveStart.toNat := by
  rw [tileStart, BitVec.toNat_append, Nat.shiftLeft_eq]
  simp [Nat.mul_comm]

theorem ghostBox_416 : GhostBox 416 := ⟨by decide, by decide, by decide⟩

/-- A ghost starts on a tile centre. -/
theorem centre_reset (fiveXStart fiveYStart : BitVec 5) :
    (GhostReg.reset fiveXStart fiveYStart).walker.Centre 32 := by
  constructor
  all_goals
    simp only [GhostReg.walker, moverWalker, GhostReg.reset, toNat_tileStart]
    omega

theorem ghostInv_reset {hi : Int} {fiveXStart fiveYStart : BitVec 5} (hbox : GhostBox hi)
    (hx : 32 * (fiveXStart.toNat : Int) ≤ hi) (hy : 32 * (fiveYStart.toNat : Int) ≤ hi) :
    GhostInv hi (.reset fiveXStart fiveYStart) where
  box := hbox
  coded := coded_step none
  aligned := fun h => absurd (centre_reset fiveXStart fiveYStart) h
  inBox := by
    simp only [InBox, GhostReg.walker, moverWalker, GhostReg.reset, toNat_tileStart]
    omega

/-! ## The tick refines the rule of motion -/

/-- The sides a ghost may leave a centre through. -/
def ghostExits (t : Turns) (d : Side) : Prop :=
  t.through d = true ∨ t.Closed ∧ d = .up

/-- The heading after a tick. -/
def ghostHeading (s : GhostReg) (i : GhostIn) : Option Side :=
  if s.crossroad then headingOf (s.turn i).1 (s.turn i).2 else s.walker.heading

theorem GhostReg.centre_iff (s : GhostReg) : s.walker.Centre 32 ↔ s.crossroad = true := by
  rw [GhostReg.crossroad, Bool.and_eq_true, tileBound_iff, tileBound_iff]
  rfl

/-- The turn is one of the exits of the tile. -/
theorem ghostTurn_exit (t : Turns) (v : TurnView) :
    ∃ d, ghostTurn t v = (stepX (some d), stepY (some d)) ∧ ghostExits t d :=
  ghostTurn_cases t v

/-- At a centre the heading is the side of the turn. -/
theorem ghostHeading_centre {s : GhostReg} (hc : s.walker.Centre 32) (i : GhostIn) :
    ∃ d, ghostHeading s i = some d ∧ ghostExits (s.turns i.layout) d := by
  obtain ⟨d, hd, hexit⟩ := ghostTurn_exit (s.turns i.layout) (s.view i)
  refine ⟨d, ?_, hexit⟩
  rw [ghostHeading, if_pos (s.centre_iff.1 hc), GhostReg.turn, hd, headingOf_step]

/-- The block computes the inertia of the chosen heading. -/
theorem GhostReg.inertiaEnd_eq {s : GhostReg} (hs : Coded s.posXInertia s.posYInertia)
    (i : GhostIn) :
    s.inertiaEnd i = (stepX (ghostHeading s i), stepY (ghostHeading s i)) := by
  rw [GhostReg.inertiaEnd, ghostHeading]
  cases hc : s.crossroad with
  | false =>
    rw [if_pos rfl, if_neg Bool.false_ne_true]
    exact Prod.ext hs.1 hs.2
  | true =>
    obtain ⟨d, hd, _⟩ := ghostTurn_exit (s.turns i.layout) (s.view i)
    rw [if_neg (by decide), if_pos rfl, GhostReg.turn, hd, headingOf_step]

/-- The walker one tick later, before any wrap is excluded. -/
def ghostTarget (s : GhostReg) (i : GhostIn) : Walker :=
  ⟨s.walker.x + headingDx (ghostHeading s i), s.walker.y + headingDy (ghostHeading s i),
    ghostHeading s i⟩

section Tick

variable {hi : Int} {s : GhostReg}

/-- A ghost never rests. -/
theorem ghostHeading_isSome (hs : GhostInv hi s) (i : GhostIn) :
    ∃ d, ghostHeading s i = some d := by
  by_cases hc : s.walker.Centre 32
  · obtain ⟨d, hd, _⟩ := ghostHeading_centre hc i
    exact ⟨d, hd⟩
  · obtain ⟨d, hd, _⟩ := hs.aligned hc
    rw [s.centre_iff] at hc
    exact ⟨d, by rw [ghostHeading, if_neg hc, hd]⟩

theorem ghostTarget_step (hs : GhostInv hi s) (i : GhostIn) :
    Step 32 (ghostExits (s.turns i.layout)) s.walker (ghostTarget s i) where
  moved_x := rfl
  moved_y := rfl
  leaves := by
    intro hc d hd
    obtain ⟨d', hd', hexit⟩ := ghostHeading_centre hc i
    have heq : some d' = some d := hd'.symm.trans hd
    rw [Option.some.injEq] at heq
    rwa [← heq]
  follows := by
    intro hc
    obtain ⟨d, hd, _⟩ := hs.aligned hc
    rw [s.centre_iff] at hc
    refine ⟨d, hd, Or.inl ?_⟩
    rw [ghostTarget, ghostHeading, if_neg hc, hd]

/-- No exit leads out of the box; a closed tile is on the board. -/
theorem ghostExits_not_outward (l : Layout) (hhi : 416 ≤ hi) {d : Side}
    (hd : ghostExits (s.turns l) d) : ¬ Outward 0 hi s.walker d := by
  rcases hd with hd | ⟨hclosed, rfl⟩
  · exact turns_not_outward l rfl rfl hhi hd
  · intro hout
    have hy : s.posY.toNat = 0 := by
      simp only [Outward, GhostReg.walker, moverWalker] at hout
      omega
    refine wallVerify_off_not_closed l.xWalls l.yWalls (Or.inr (Or.inr (Or.inl ?_))) hclosed
    rw [toNat_tile, hy]

theorem ghostTarget_inBox (hs : GhostInv hi s) (i : GhostIn) :
    InBox 0 hi (ghostTarget s i) :=
  (ghostTarget_step hs i).inBox (by omega) hs.box.dvd hs.aligned hs.inBox
    (fun _ _ hd => ghostExits_not_outward i.layout hs.box.border hd)

/-- A tick moves the registers to the target: nothing wraps. -/
theorem ghostTick_walker (hs : GhostInv hi s) (i : GhostIn) :
    (ghostTick s i).walker = ghostTarget s i := by
  have hroom := hs.box.room
  obtain ⟨hx0, hx1, hy0, hy1⟩ := ghostTarget_inBox hs i
  simp only [ghostTarget, GhostReg.walker, moverWalker] at hx0 hx1 hy0 hy1
  simp only [GhostReg.walker, ghostTick, ghostTarget, moverWalker, s.inertiaEnd_eq hs.coded,
    headingOf_step]
  rw [toNat_add_stepX _ _ hx0 (by omega), toNat_add_stepY _ _ hy0 (by omega)]

/-- A tick takes a ghost one pixel along its heading. -/
theorem ghostTick_moves (hs : GhostInv hi s) (i : GhostIn) :
    ∃ d, ghostHeading s i = some d ∧
      (ghostTick s i).walker = ⟨s.walker.x + d.dx, s.walker.y + d.dy, some d⟩ := by
  obtain ⟨d, hd⟩ := ghostHeading_isSome hs i
  refine ⟨d, hd, ?_⟩
  rw [ghostTick_walker hs, ghostTarget, hd, headingDx_some, headingDy_some]

/-- The tick is a step of the grid. -/
theorem ghostTick_step (hs : GhostInv hi s) (i : GhostIn) :
    Step 32 (ghostExits (s.turns i.layout)) s.walker (ghostTick s i).walker := by
  rw [ghostTick_walker hs]
  exact ghostTarget_step hs i

theorem ghostTick_inv (hs : GhostInv hi s) (i : GhostIn) : GhostInv hi (ghostTick s i) where
  box := hs.box
  coded := by
    simp only [ghostTick, s.inertiaEnd_eq hs.coded]
    exact coded_step _
  aligned := (ghostTick_step hs i).aligned hs.aligned
  inBox := by
    rw [ghostTick_walker hs]
    exact ghostTarget_inBox hs i

/-- The invariant holds along every run that starts in the box. -/
theorem ghostMovement_inv {fiveXStart fiveYStart : BitVec 5} (hbox : GhostBox hi)
    (hx : 32 * (fiveXStart.toNat : Int) ≤ hi) (hy : 32 * (fiveYStart.toNat : Int) ≤ hi)
    (i : Nat → GhostIn) (n : Nat) :
    GhostInv hi ((ghostMovement fiveXStart fiveYStart).run i n) := by
  refine (ghostMovement fiveXStart fiveYStart).run_invariant (ghostInv_reset hbox hx hy) ?_ i n
  intro s a hs
  simp only [ghostMovement, ghostMove]
  split
  · exact ghostInv_reset hbox hx hy
  · exact ghostTick_inv hs a

end Tick

/-- Every start tile is in the largest box. -/
theorem ghostMovement_inv_any (fiveXStart fiveYStart : BitVec 5) (i : Nat → GhostIn)
    (n : Nat) : GhostInv 992 ((ghostMovement fiveXStart fiveYStart).run i n) := by
  have hx := fiveXStart.isLt
  have hy := fiveYStart.isLt
  exact ghostMovement_inv ⟨by decide, by decide, by decide⟩ (by omega) (by omega) i n

/-! ## Walls -/

/-- Tick `j` respects the walls: it leaves the ghost in place or moves it one pixel through
an open side. -/
def RespectsWallsAt (P : Nat → GhostReg) (i : Nat → GhostIn) (j : Nat) : Prop :=
  (P (j + 1)).walker.At (P j).walker.x (P j).walker.y ∨
    ∃ d : Side, ((P j).turns (i j).layout).through d = true ∧
      (P (j + 1)).walker.At ((P j).walker.x + d.dx) ((P j).walker.y + d.dy)

/-- On a closed tile this means not to move. -/
theorem RespectsWallsAt.still {P : Nat → GhostReg} {i : Nat → GhostIn} {j : Nat}
    (h : RespectsWallsAt P i j) (hclosed : ((P j).turns (i j).layout).Closed) :
    (P (j + 1)).walker.At (P j).walker.x (P j).walker.y := by
  rcases h with hstill | ⟨d, hopen, _⟩
  · exact hstill
  · rw [hclosed d] at hopen
    cases hopen

theorem ghostMovement_run_tick {fiveXStart fiveYStart : BitVec 5} {i : Nat → GhostIn}
    {j : Nat} (hreset : (i j).Reset = false) :
    (ghostMovement fiveXStart fiveYStart).run i (j + 1) =
      ghostTick ((ghostMovement fiveXStart fiveYStart).run i j) (i j) := by
  simp [Sync.Machine.run_succ, ghostMovement, ghostMove, hreset]

/-- A tick at a centre respects the walls exactly if some side of the tile is
open. -/
theorem respectsWallsAt_iff (fiveXStart fiveYStart : BitVec 5) (i : Nat → GhostIn) {j : Nat}
    (hreset : (i j).Reset = false)
    (hcentre : ((ghostMovement fiveXStart fiveYStart).run i j).walker.Centre 32) :
    RespectsWallsAt ((ghostMovement fiveXStart fiveYStart).run i) i j ↔
      ¬ (((ghostMovement fiveXStart fiveYStart).run i j).turns (i j).layout).Closed := by
  have hinv := ghostMovement_inv_any fiveXStart fiveYStart i j
  obtain ⟨d, hd, hexit⟩ := ghostHeading_centre hcentre (i j)
  have htick : ((ghostMovement fiveXStart fiveYStart).run i (j + 1)).walker =
      ghostTarget ((ghostMovement fiveXStart fiveYStart).run i j) (i j) := by
    rw [ghostMovement_run_tick hreset, ghostTick_walker hinv]
  constructor
  · intro h hclosed
    have hstill := h.still hclosed
    rw [htick] at hstill
    exact (ghostTarget_step hinv (i j)).moves hd hstill
  · intro hopen
    refine Or.inr ⟨d, hexit.resolve_right (fun h => hopen h.1), ?_⟩
    rw [htick]
    simp only [Walker.At, ghostTarget, hd, headingDx_some, headingDy_some, and_self]

/-- A ghost respects the walls in a run exactly if it never ticks on a centre with
all four sides closed: there the `case` sends it up. -/
theorem ghostMovement_respects_walls_iff (fiveXStart fiveYStart : BitVec 5)
    (i : Nat → GhostIn) :
    (∀ j, (i j).Reset = false →
        ((ghostMovement fiveXStart fiveYStart).run i j).walker.Centre 32 →
        RespectsWallsAt ((ghostMovement fiveXStart fiveYStart).run i) i j) ↔
      ∀ j, (i j).Reset = false →
        ((ghostMovement fiveXStart fiveYStart).run i j).walker.Centre 32 →
        ¬ (((ghostMovement fiveXStart fiveYStart).run i j).turns (i j).layout).Closed := by
  constructor
  · intro h j hreset hcentre
    exact (respectsWallsAt_iff _ _ i hreset hcentre).1 (h j hreset hcentre)
  · intro h j hreset hcentre
    exact (respectsWallsAt_iff _ _ i hreset hcentre).2 (h j hreset hcentre)

/-- A tick on the start screen, where the layout is the closed one. -/
def startScreenTick : GhostIn := ⟨false, defaultLayout, 0, 320, 320⟩

/-- On the start screen a ghost leaves its closed start tile upwards. -/
theorem ghostMovement_leaves_closed_tile :
    startScreenTick.Reset = false ∧
      ((ghostMovement 6 6).run (fun _ => startScreenTick) 0).walker.Centre 32 ∧
      (((ghostMovement 6 6).run (fun _ => startScreenTick) 0).turns
        startScreenTick.layout).Closed ∧
      ((ghostMovement 6 6).run (fun _ => startScreenTick) 1).walker.At 192 191 ∧
      ¬ RespectsWallsAt ((ghostMovement 6 6).run (fun _ => startScreenTick))
        (fun _ => startScreenTick) 0 := by
  have hclosed : (((ghostMovement 6 6).run (fun _ => startScreenTick) 0).turns
      startScreenTick.layout).Closed := by decide
  refine ⟨rfl, by decide, hclosed, by decide, fun h => ?_⟩
  exact absurd (h.still hclosed) (by decide)

end SnakeMom
