import SnakeMom.Lib.GridWalk

/-!
# Two boxes that walk towards each other

Two walkers carry a box of side `L`.  The boxes overlap when both distances are
below `L`, and they touch when one distance is `L` and the other is below `L`.

A detector that looks for the exact distance `L` sees every contact between two
moves only if no move jumps over it.  One walker moving alone never does.
`overlap_after_iff` says exactly when two walkers moving together do: they meet
head on from distance `L + 1`, or they turn the same corner from distance `L` on
both axes.
-/

namespace GridWalk

/-- Both distances are below `L`. -/
def Overlap (L : Int) (p g : Walker) : Prop :=
  (g.x - p.x).natAbs < L ∧ (g.y - p.y).natAbs < L

/-- The boxes share a piece of border: one distance is `L`, the other below. -/
def Touch (L : Int) (p g : Walker) : Prop :=
  (g.x - p.x).natAbs = L ∧ (g.y - p.y).natAbs < L ∨
    (g.y - p.y).natAbs = L ∧ (g.x - p.x).natAbs < L

instance (L : Int) (p g : Walker) : Decidable (Overlap L p g) :=
  inferInstanceAs (Decidable (_ ∧ _))

instance (L : Int) (p g : Walker) : Decidable (Touch L p g) :=
  inferInstanceAs (Decidable (_ ∨ _))

/-- How far `g` is from `p` along the direction of side `d`. -/
def ahead (d : Side) (p g : Walker) : Int := (g.x - p.x) * d.dx + (g.y - p.y) * d.dy

/-- How far `g` is from `p` across the direction of side `d`. -/
def aside (d : Side) (p g : Walker) : Int := (g.x - p.x) * d.dy + (g.y - p.y) * d.dx

/-- The pairs of moves that jump over the contact: head on from distance `L + 1`,
or round a corner from distance `L` on both axes. -/
def Jumps (L : Int) (p g : Walker) : Option Side → Option Side → Prop
  | some d, some e =>
    e = d.opposite ∧ ahead d p g = L + 1 ∧ (aside d p g).natAbs < L ∨
      d.dx * e.dx + d.dy * e.dy = 0 ∧ ahead d p g = L ∧ ahead e p g = -L
  | _, _ => False

instance (L : Int) (p g : Walker) (hp hg : Option Side) : Decidable (Jumps L p g hp hg) := by
  unfold Jumps
  split <;> infer_instance

/-- `w'` is `w` after one move with heading `h`. -/
def Moved (w w' : Walker) (h : Option Side) : Prop :=
  w'.x = w.x + headingDx h ∧ w'.y = w.y + headingDy h

section Contact

variable {L : Int} {p p' g g' : Walker} {hp hg : Option Side}

/-- A walker that moves alone does not jump over the contact. -/
theorem not_jumps_alone (h : hp = none ∨ hg = none) : ¬ Jumps L p g hp hg := by
  rcases h with rfl | rfl
  · simp [Jumps]
  · cases hp <;> simp [Jumps]

/-- Boxes that neither overlap nor touch overlap after one move of each exactly if
the pair of moves jumps over the contact. -/
theorem overlap_after_iff (hL : 1 < L) (hno : ¬ Overlap L p g) (hnt : ¬ Touch L p g)
    (hmp : Moved p p' hp) (hmg : Moved g g' hg) :
    Overlap L p' g' ↔ Jumps L p g hp hg := by
  -- Only the relative position matters, and both moves change it.
  have hx : g'.x - p'.x = g.x - p.x + (headingDx hg - headingDx hp) := by
    rw [hmp.1, hmg.1]
    omega
  have hy : g'.y - p'.y = g.y - p.y + (headingDy hg - headingDy hp) := by
    rw [hmp.2, hmg.2]
    omega
  unfold Overlap at hno ⊢
  unfold Touch at hnt
  rw [hx, hy]
  unfold Jumps ahead aside
  clear hx hy hmp hmg
  generalize g.x - p.x = a at *
  generalize g.y - p.y = b at *
  -- The boxes are apart on one axis, or corner to corner.
  have hapart : L < a.natAbs ∨ L < b.natAbs ∨ (a.natAbs : Int) = L ∧ (b.natAbs : Int) = L := by
    omega
  clear hnt
  rcases hp with _ | d <;> rcases hg with _ | e
  · simp only [headingDx_none, headingDy_none, Int.sub_zero, Int.add_zero, iff_false]
    exact hno
  · clear hno
    cases e <;> simp only [headingDx_none, headingDy_none, headingDx_some, headingDy_some,
      Side.dx, Side.dy, iff_false] <;> omega
  · clear hno
    cases d <;> simp only [headingDx_none, headingDy_none, headingDx_some, headingDy_some,
      Side.dx, Side.dy, iff_false] <;> omega
  · clear hno
    cases d <;> cases e <;> simp only [headingDx_some, headingDy_some, Side.dx, Side.dy,
      Side.opposite, reduceCtorEq, false_and, true_and, false_or] <;> omega

/-- A move changes a coordinate by at most one. -/
theorem Moved.natAbs_x_le {w w' : Walker} {h : Option Side} (hm : Moved w w' h) :
    (w'.x - w.x).natAbs ≤ 1 := by
  rw [hm.1, add_sub_cancel_left]
  rcases h with _ | d
  · simp
  · cases d <;> simp [Side.dx]

/-- A walker that moves with heading `d` comes one closer to what is ahead. -/
theorem Moved.ahead_left {d : Side} (hm : Moved p p' (some d)) :
    ahead d p' g = ahead d p g - 1 := by
  unfold ahead
  rw [hm.1, hm.2]
  cases d <;> simp only [headingDx_some, headingDy_some, Side.dx, Side.dy] <;> omega

/-- What is ahead goes away by at most one in a move. -/
theorem Moved.ahead_right_le (d : Side) (hm : Moved g g' hg) :
    ahead d p g' ≤ ahead d p g + 1 := by
  unfold ahead
  rw [hm.1, hm.2]
  rcases hg with _ | e
  · simp
  · cases d <;> cases e <;> simp only [headingDx_some, headingDy_some, Side.dx, Side.dy] <;>
      omega

/-- A walker that is more than `L` behind does not touch. -/
theorem not_touch_of_behind (d : Side) (h : ahead d p g < -L) : ¬ Touch L p g := by
  unfold Touch
  unfold ahead at h
  cases d <;> simp only [Side.dx, Side.dy] at h <;> omega

/-- Walkers that are more than `L + 2` apart do not touch after one move of each. -/
theorem not_touch_after_of_far (hmp : Moved p p' hp) (hmg : Moved g g' hg)
    (hfar : L + 2 < (g.x - p.x).natAbs) : ¬ Touch L p' g' := by
  have hp1 := hmp.natAbs_x_le
  have hg1 := hmg.natAbs_x_le
  unfold Touch
  omega

end Contact

end GridWalk
