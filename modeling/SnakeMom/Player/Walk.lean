import SnakeMom.Player.Model

/-!
# The player walks the grid

`playerTick` refines the rule of motion of the grid: its exits at a centre are the
sides that `wallVerify` reports open for that tile in the layout of that tick.
`PlayerInv` is the invariant that makes the refinement work.  The inertia
registers hold a heading, the player is aligned with a grid line, and both
coordinates are between `0` and `416`, so no addition wraps.

The walls are not fixed.  Every theorem here holds for an arbitrary layout at
every tick, which is how the layout behaves between the start screen and the
level.
-/

namespace SnakeMom

open GridWalk Packed

/-- What every tick keeps, whatever the layout and the key. -/
structure PlayerInv (s : PlayerReg) : Prop where
  coded : Coded s.posXInertia s.posYInertia
  aligned : Aligned 32 s.walker
  inBox : InBox 0 416 s.walker

theorem playerInv_reset : PlayerInv .reset where
  coded := coded_step none
  aligned := fun h => absurd (by decide) h
  inBox := by decide

/-! ## The tick refines the rule of motion -/

/-- The walker one tick later, before any wrap is excluded. -/
def playerTarget (s : PlayerReg) (l : Layout) (keycode : BitVec 16) : Walker :=
  let h := playerHeading s (s.turns l) keycode
  ⟨s.walker.x + headingDx h, s.walker.y + headingDy h, h⟩

/-- At a centre the chosen heading leads through an open side. -/
theorem centreHeading_open {t : Turns} {key h : Option Side} {d : Side}
    (hd : centreHeading t key h = some d) : t.through d = true := by
  unfold centreHeading at hd
  split at hd
  · rename_i k hk
    rw [Option.some.injEq] at hd
    subst hd
    exact (Option.filter_eq_some_iff.1 hk).2
  · exact (Option.filter_eq_some_iff.1 hd).2

/-- Between two centres the heading stays or turns back. -/
theorem edgeHeading_cases {key : Option Side} {d : Side} :
    edgeHeading key (some d) = some d ∨ edgeHeading key (some d) = some d.opposite := by
  unfold edgeHeading
  split
  · rename_i hk
    exact Or.inr hk.symm
  · exact Or.inl rfl

theorem PlayerReg.centre_iff (s : PlayerReg) :
    s.walker.Centre 32 ↔ crossroadCheck s.posX s.posY = true :=
  (crossroadCheck_iff s.posX s.posY).symm

theorem playerTarget_step {s : PlayerReg} (hs : PlayerInv s) (l : Layout)
    (keycode : BitVec 16) :
    Step 32 (fun d => (s.turns l).through d = true) s.walker (playerTarget s l keycode) where
  moved_x := rfl
  moved_y := rfl
  leaves := by
    intro hc d hd
    rw [s.centre_iff] at hc
    simp only [playerTarget, playerHeading, hc, if_true] at hd
    exact centreHeading_open hd
  follows := by
    intro hc
    obtain ⟨d, hd, _⟩ := hs.aligned hc
    rw [s.centre_iff, Bool.not_eq_true] at hc
    refine ⟨d, hd, ?_⟩
    simp only [playerTarget, playerHeading, hc, Bool.false_eq_true, if_false, hd]
    exact edgeHeading_cases

theorem playerTarget_inBox {s : PlayerReg} (hs : PlayerInv s) (l : Layout)
    (keycode : BitVec 16) : InBox 0 416 (playerTarget s l keycode) :=
  (playerTarget_step hs l keycode).inBox (by omega) (by omega) hs.aligned hs.inBox
    (fun _ _ hd => turns_not_outward l rfl rfl (by omega) hd)

/-- A tick moves the registers to the target: nothing wraps. -/
theorem playerTick_walker {s : PlayerReg} (hs : PlayerInv s) (l : Layout)
    (keycode : BitVec 16) : (playerTick s l keycode).walker = playerTarget s l keycode := by
  obtain ⟨hx0, hx1, hy0, hy1⟩ := playerTarget_inBox hs l keycode
  simp only [playerTarget, PlayerReg.walker, moverWalker] at hx0 hx1 hy0 hy1
  simp only [PlayerReg.walker, playerTick, playerTarget, moverWalker,
    inertiaEnd_eq hs.coded, headingOf_step]
  rw [toNat_add_stepX _ _ hx0 (by omega), toNat_add_stepY _ _ hy0 (by omega)]

/-- The tick is a step of the grid. -/
theorem playerTick_step {s : PlayerReg} (hs : PlayerInv s) (l : Layout)
    (keycode : BitVec 16) :
    Step 32 (fun d => (s.turns l).through d = true) s.walker
      (playerTick s l keycode).walker := by
  rw [playerTick_walker hs]
  exact playerTarget_step hs l keycode

theorem playerTick_inv {s : PlayerReg} (hs : PlayerInv s) (l : Layout)
    (keycode : BitVec 16) : PlayerInv (playerTick s l keycode) where
  coded := by
    simp only [playerTick, inertiaEnd_eq hs.coded]
    exact coded_step _
  aligned := (playerTick_step hs l keycode).aligned hs.aligned
  inBox := by
    rw [playerTick_walker hs]
    exact playerTarget_inBox hs l keycode

theorem playerMove_inv {s : PlayerReg} (hs : PlayerInv s) (i : PlayerIn) :
    PlayerInv (playerMove s i) := by
  unfold playerMove
  split
  · exact playerInv_reset
  · exact playerTick_inv hs i.layout i.keycode

/-- The invariant holds along every run. -/
theorem playerMovement_inv (i : Nat → PlayerIn) (n : Nat) :
    PlayerInv (playerMovement.run i n) :=
  playerMovement.run_invariant playerInv_reset (fun _ a hs => playerMove_inv hs a) i n

/-! ## Runs -/

theorem playerMovement_run_tick {i : Nat → PlayerIn} {n : Nat} (hreset : (i n).Reset = false) :
    playerMovement.run i (n + 1) =
      playerTick (playerMovement.run i n) (i n).layout (i n).keycode := by
  simp [Sync.Machine.run_succ, playerMovement, playerMove, hreset]

/-- Between two resets a run is a trace of the grid. -/
theorem playerMovement_trace (i : Nat → PlayerIn) {j m : Nat}
    (hreset : ∀ k, j ≤ k → k < m → (i k).Reset = false) :
    Trace 32 (fun k d => ((playerMovement.run i k).turns (i k).layout).through d = true)
      (fun k => (playerMovement.run i k).walker) j m := by
  intro k hjk hkm
  simp only [playerMovement_run_tick (hreset k hjk hkm)]
  exact playerTick_step (playerMovement_inv i k) _ _

/-- The player never passes through a wall.  When tick `j` moves it off a centre,
it takes a side that is open there in the layout of that tick.  From then on, as
long as it meets no centre, it is strictly between the two ends of that edge and
every tick moves it; the first centre it meets is one of the two ends. -/
theorem playerMovement_respects_walls (i : Nat → PlayerIn) (j : Nat)
    (hreset : (i j).Reset = false)
    (hcentre : (playerMovement.run i j).walker.Centre 32)
    (hmove : ¬ (playerMovement.run i (j + 1)).walker.At
      (playerMovement.run i j).walker.x (playerMovement.run i j).walker.y) :
    ∃ d, ((playerMovement.run i j).turns (i j).layout).through d = true ∧
      ∀ m, j < m → (∀ k, j ≤ k → k < m → (i k).Reset = false) →
        (∀ k, j < k → k < m → ¬ (playerMovement.run i k).walker.Centre 32) →
        (OnEdge 32 (playerMovement.run i j).walker.x (playerMovement.run i j).walker.y d
            (playerMovement.run i m).walker ∧
          ((i m).Reset = false → ¬ (playerMovement.run i (m + 1)).walker.At
            (playerMovement.run i m).walker.x (playerMovement.run i m).walker.y)) ∨
        (playerMovement.run i m).walker.At
          (playerMovement.run i j).walker.x (playerMovement.run i j).walker.y ∨
        (playerMovement.run i m).walker.At
          ((playerMovement.run i j).walker.x + 32 * d.dx)
          ((playerMovement.run i j).walker.y + 32 * d.dy) := by
  have hone : ∀ k, (i k).Reset = false →
      Trace 32 (fun k d => ((playerMovement.run i k).turns (i k).layout).through d = true)
        (fun k => (playerMovement.run i k).walker) k (k + 1) := fun k hk =>
    playerMovement_trace i (fun k' h1 h2 => by rwa [show k' = k by omega])
  have hfirst := hone j hreset j (Nat.le_refl j) (Nat.lt_succ_self j)
  cases hd : (playerMovement.run i (j + 1)).walker.heading with
  | none =>
    have hx := hfirst.moved_x
    have hy := hfirst.moved_y
    simp only [hd, headingDx_none, headingDy_none, Int.add_zero] at hx hy
    exact absurd ⟨hx, hy⟩ hmove
  | some d =>
    refine ⟨d, hfirst.leaves hcentre d hd, fun m hjm hno hmid => ?_⟩
    rcases (playerMovement_trace i hno).edge (by decide) hcentre hd hjm hmid with he | hend
    · refine Or.inl ⟨he, fun hm => ?_⟩
      have hlast := hone m hm m (Nat.le_refl m) (Nat.lt_succ_self m)
      obtain ⟨d', _, hd' | hd'⟩ :=
        hlast.follows (he.not_centre hcentre.1 hcentre.2)
      · exact hlast.moves hd'
      · exact hlast.moves hd'
    · exact Or.inr hend

/-- The first tick to the right in an open corridor. -/
theorem playerMovement_respects_walls_right :
    ∃ d, (PlayerReg.reset.turns ⟨0, 0⟩).through d = true ∧
      (playerMovement.run (fun _ => ⟨false, ⟨0, 0⟩, keyD⟩) 1).walker.At 321 320 := by
  obtain ⟨d, hd, _⟩ := playerMovement_respects_walls (fun _ => ⟨false, ⟨0, 0⟩, keyD⟩) 0
    rfl (by decide) (by decide)
  exact ⟨d, hd, by decide⟩

end SnakeMom
