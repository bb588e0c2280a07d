import Mathlib.Tactic.ByContra
import Mathlib.Tactic.Ring
import Mathlib.Data.Fintype.OfMap
import Mathlib.Algebra.Order.Group.Int
import Mathlib.Algebra.Order.Ring.Int

/-!
# Walking along the lines of a grid

A walker has an integer position and a heading.  The grid has pitch `n`: a
position is a centre when both coordinates are multiples of `n`.  `Step` is the
one rule of motion.  The walker always moves one unit along its new heading, and
without a heading it rests.  At a centre it may take any heading that the current
tile offers as an exit; between two centres it may only go on or turn back.

There are five groups.

* Edges.  `OnEdge n cx cy d w` says that `w` is strictly between the centre
  `(cx, cy)` and its neighbour on side `d`.  `Step.onEdge` is the step rule: the
  walker stays on the edge or reaches one of its two ends.
* Alignment.  `Aligned` says that a walker between two centres is on a grid line
  and heads along it.  Every step keeps it.
* Boxes.  `Step.inBox_iff` says when a step keeps an aligned walker in a box of
  tiles; `Step.inBox` is the case in which no exit at the border leads out.
* Strides.  `InStride` counts the moves of a walker that never rests and never turns
  back; `InStride.centre_iff` says that it meets a centre every `p` moves.
* Traces.  `Trace.edge` follows a walker from a centre to the next one.
-/

namespace GridWalk

/-- The four sides of a tile. -/
inductive Side where
  | left
  | right
  | up
  | down
deriving DecidableEq, Repr

instance : Fintype Side :=
  Fintype.ofList [.left, .right, .up, .down] (fun d => by cases d <;> decide)

namespace Side

/-- The side across the tile. -/
def opposite : Side → Side
  | left => right
  | right => left
  | up => down
  | down => up

/-- One unit through a side, along the first axis. -/
def dx : Side → Int
  | left => -1
  | right => 1
  | _ => 0

/-- One unit through a side, along the second axis; it grows downwards. -/
def dy : Side → Int
  | up => -1
  | down => 1
  | _ => 0

@[simp] theorem opposite_opposite (d : Side) : d.opposite.opposite = d := by
  cases d <;> rfl

@[simp] theorem dx_opposite (d : Side) : d.opposite.dx = -d.dx := by
  cases d <;> rfl

@[simp] theorem dy_opposite (d : Side) : d.opposite.dy = -d.dy := by
  cases d <;> rfl

end Side

/-- A position on the plane and the side the last move went through. -/
structure Walker where
  x : Int
  y : Int
  heading : Option Side
deriving DecidableEq, Repr

/-- The first coordinate of a move; no heading is no move. -/
def headingDx : Option Side → Int
  | none => 0
  | some d => d.dx

/-- The second coordinate of a move. -/
def headingDy : Option Side → Int
  | none => 0
  | some d => d.dy

@[simp] theorem headingDx_none : headingDx none = 0 := rfl
@[simp] theorem headingDy_none : headingDy none = 0 := rfl
@[simp] theorem headingDx_some (d : Side) : headingDx (some d) = d.dx := rfl
@[simp] theorem headingDy_some (d : Side) : headingDy (some d) = d.dy := rfl

/-- One unit along a heading. -/
def Walker.move (w : Walker) (h : Option Side) : Walker :=
  ⟨w.x + headingDx h, w.y + headingDy h, h⟩

/-- Both coordinates are multiples of the pitch. -/
def Walker.Centre (n : Int) (w : Walker) : Prop := n ∣ w.x ∧ n ∣ w.y

instance (n : Int) (w : Walker) : Decidable (w.Centre n) :=
  inferInstanceAs (Decidable (_ ∧ _))

/-- The rule of motion, for a tile whose exits are `exits`. -/
structure Step (n : Int) (exits : Side → Prop) (w w' : Walker) : Prop where
  moved_x : w'.x = w.x + headingDx w'.heading
  moved_y : w'.y = w.y + headingDy w'.heading
  leaves : w.Centre n → ∀ d, w'.heading = some d → exits d
  follows : ¬ w.Centre n → ∃ d, w.heading = some d ∧
    (w'.heading = some d ∨ w'.heading = some d.opposite)

/-! ## Multiples of the pitch -/

section Multiples

variable {n : Int}

/-- Strictly between two neighbouring multiples there is none. -/
theorem not_dvd_of_between {c k : Int} (hc : n ∣ c) (hk : 0 < k) (hkn : k < n) :
    ¬ n ∣ c + k := by
  intro h
  have hk' : n ∣ k := (Int.dvd_add_right hc).1 h
  exact absurd (Int.le_of_dvd hk hk') (by omega)

theorem not_dvd_of_between_sub {c k : Int} (hc : n ∣ c) (hk : 0 < k) (hkn : k < n) :
    ¬ n ∣ c - k := by
  intro h
  have hk' : n ∣ k := by
    rw [show k = c - (c - k) by omega]
    exact Int.dvd_sub hc h
  exact absurd (Int.le_of_dvd hk hk') (by omega)

end Multiples

/-! ## Edges -/

/-- The walker is strictly between the centre `(cx, cy)` and its neighbour on
side `d`, and heads along that edge. -/
def OnEdge (n cx cy : Int) (d : Side) (w : Walker) : Prop :=
  ∃ k, 0 < k ∧ k < n ∧ w.x = cx + k * d.dx ∧ w.y = cy + k * d.dy ∧
    (w.heading = some d ∨ w.heading = some d.opposite)

/-- The walker is at the given place, whatever its heading. -/
def Walker.At (w : Walker) (x y : Int) : Prop := w.x = x ∧ w.y = y

instance (w : Walker) (x y : Int) : Decidable (w.At x y) :=
  inferInstanceAs (Decidable (_ ∧ _))

section Edges

variable {n cx cy : Int} {d : Side} {exits : Side → Prop} {w w' : Walker}

theorem OnEdge.not_centre (hx : n ∣ cx) (hy : n ∣ cy) (h : OnEdge n cx cy d w) :
    ¬ w.Centre n := by
  obtain ⟨k, hk, hkn, hwx, hwy, _⟩ := h
  intro hc
  obtain ⟨hcx, hcy⟩ := hc
  cases d with
  | left =>
    rw [hwx, show cx + k * Side.left.dx = cx - k by simp only [Side.dx]; ring] at hcx
    exact not_dvd_of_between_sub hx hk hkn hcx
  | right =>
    rw [hwx, show cx + k * Side.right.dx = cx + k by simp only [Side.dx]; ring] at hcx
    exact not_dvd_of_between hx hk hkn hcx
  | up =>
    rw [hwy, show cy + k * Side.up.dy = cy - k by simp only [Side.dy]; ring] at hcy
    exact not_dvd_of_between_sub hy hk hkn hcy
  | down =>
    rw [hwy, show cy + k * Side.down.dy = cy + k by simp only [Side.dy]; ring] at hcy
    exact not_dvd_of_between hy hk hkn hcy

/-- A walker that leaves a centre is on the edge behind the side it took. -/
theorem Step.leave (hn : 1 < n) (h : Step n exits w w')
    (hd : w'.heading = some d) : OnEdge n w.x w.y d w' := by
  refine ⟨1, by omega, hn, ?_, ?_, Or.inl hd⟩
  · rw [h.moved_x, hd, headingDx_some, one_mul]
  · rw [h.moved_y, hd, headingDy_some, one_mul]

/-- A walker with a heading does not stand still. -/
theorem Step.moves (h : Step n exits w w') (hd : w'.heading = some d) :
    ¬ w'.At w.x w.y := by
  intro hat
  obtain ⟨hx, hy⟩ := hat
  rw [h.moved_x, hd] at hx
  rw [h.moved_y, hd] at hy
  cases d <;> simp [Side.dx, Side.dy] at hx hy

/-- A step on an edge stays on the edge or reaches one of its two ends. -/
theorem Step.onEdge (hx : n ∣ cx) (hy : n ∣ cy) (he : OnEdge n cx cy d w)
    (h : Step n exits w w') :
    OnEdge n cx cy d w' ∨ w'.At cx cy ∨ w'.At (cx + n * d.dx) (cy + n * d.dy) := by
  have hnc := he.not_centre hx hy
  obtain ⟨k, hk, hkn, hwx, hwy, hwh⟩ := he
  -- The heading is along the edge, so one step moves `k` by one either way.
  have hkeep : ∃ e, (w'.heading = some d ∧ e = 1 ∨ w'.heading = some d.opposite ∧ e = -1) ∧
      w'.x = cx + (k + e) * d.dx ∧ w'.y = cy + (k + e) * d.dy := by
    have hor : w'.heading = some d ∨ w'.heading = some d.opposite := by
      obtain ⟨d', hd', hnext⟩ := h.follows hnc
      rcases hwh with hw | hw <;> rw [hw, Option.some.injEq] at hd' <;> subst hd'
      · exact hnext
      · rw [Side.opposite_opposite] at hnext
        exact hnext.symm
    rcases hor with hd | hd
    · refine ⟨1, Or.inl ⟨hd, rfl⟩, ?_, ?_⟩
      · rw [h.moved_x, hd, hwx, headingDx_some]; ring
      · rw [h.moved_y, hd, hwy, headingDy_some]; ring
    · refine ⟨-1, Or.inr ⟨hd, rfl⟩, ?_, ?_⟩
      · rw [h.moved_x, hd, hwx, headingDx_some, Side.dx_opposite]; ring
      · rw [h.moved_y, hd, hwy, headingDy_some, Side.dy_opposite]; ring
  obtain ⟨e, he, hx', hy'⟩ := hkeep
  have hebound : -1 ≤ e ∧ e ≤ 1 := by
    rcases he with ⟨_, rfl⟩ | ⟨_, rfl⟩ <;> omega
  rcases Int.lt_trichotomy (k + e) 0 with hlt | hzero | hpos
  · omega
  · refine Or.inr (Or.inl ⟨?_, ?_⟩)
    · rw [hx', hzero]; ring
    · rw [hy', hzero]; ring
  · rcases Int.lt_or_eq_of_le (show k + e ≤ n by omega) with hlt | heq
    · exact Or.inl ⟨k + e, hpos, hlt, hx', hy', he.imp And.left And.left⟩
    · refine Or.inr (Or.inr ⟨?_, ?_⟩)
      · rw [hx', heq]
      · rw [hy', heq]

end Edges

/-! ## Strides

A walker that never rests and never turns back meets a centre every `p` moves. -/

section Strides

variable {p t : Nat} {w w' : Walker}

/-- After `t` moves the walker is `t % p` units into an edge, heading along it. -/
def InStride (p t : Nat) (w : Walker) : Prop :=
  ∃ cx cy d, (p : Int) ∣ cx ∧ (p : Int) ∣ cy ∧ w.x = cx + (t % p : Nat) * Side.dx d ∧
    w.y = cy + (t % p : Nat) * Side.dy d ∧ (t % p ≠ 0 → w.heading = some d)

theorem InStride.of_centre (hc : w.Centre p) : InStride p 0 w := by
  refine ⟨w.x, w.y, .left, hc.1, hc.2, ?_, ?_, fun h => absurd (Nat.zero_mod p) h⟩
  · simp
  · simp

/-- The centres of a stride are the multiples of the pitch. -/
theorem InStride.centre_iff (hp : 0 < p) (h : InStride p t w) : w.Centre p ↔ p ∣ t := by
  obtain ⟨cx, cy, d, hcx, hcy, hx, hy, hd⟩ := h
  rw [Nat.dvd_iff_mod_eq_zero]
  constructor
  · intro hc
    by_contra hne
    have hlt := Nat.mod_lt t hp
    exact OnEdge.not_centre (d := d) hcx hcy
      ⟨(t % p : Nat), by omega, by omega, hx, hy, Or.inl (hd hne)⟩ hc
  · intro hzero
    rw [hzero, Int.natCast_zero, Int.zero_mul, Int.add_zero] at hx hy
    rw [Walker.Centre, hx, hy]
    exact ⟨hcx, hcy⟩

/-- One more move, which between two centres keeps the heading. -/
theorem InStride.succ (hp : 1 < p) (h : InStride p t w) {d : Side} (hd : w'.heading = some d)
    (hx' : w'.x = w.x + d.dx) (hy' : w'.y = w.y + d.dy)
    (hkeep : ¬ w.Centre p → w.heading = some d) : InStride p (t + 1) w' := by
  have hcentre := h.centre_iff (Nat.lt_of_succ_lt hp)
  obtain ⟨cx, cy, e, hcx, hcy, hx, hy, he⟩ := h
  by_cases hzero : t % p = 0
  · have hone : (t + 1) % p = 1 := by rw [Nat.add_mod, hzero, Nat.zero_add, Nat.mod_mod,
      Nat.mod_eq_of_lt hp]
    rw [hzero, Int.natCast_zero, Int.zero_mul, Int.add_zero] at hx hy
    refine ⟨cx, cy, d, hcx, hcy, ?_, ?_, fun _ => hd⟩
    · rw [hone, hx', hx, Int.natCast_one, Int.one_mul]
    · rw [hone, hy', hy, Int.natCast_one, Int.one_mul]
  · have heq : e = d := by
      have hnc : ¬ w.Centre p := fun hc => hzero (Nat.mod_eq_zero_of_dvd (hcentre.1 hc))
      have hboth := (he hzero).symm.trans (hkeep hnc)
      rwa [Option.some.injEq] at hboth
    subst heq
    have hlt := Nat.mod_lt t (Nat.lt_of_succ_lt hp)
    by_cases hlast : t % p + 1 = p
    · -- The far end of the edge is the next centre.
      have hnext : (t + 1) % p = 0 := by
        rw [Nat.add_mod, Nat.mod_eq_of_lt hp, hlast, Nat.mod_self]
      have hfar : ∀ a : Int, (p : Int) * a = (t % p : Nat) * a + a := fun a => by
        have hp' : (p : Int) = (t % p : Nat) + 1 := by omega
        exact (congrArg (· * a) hp').trans (by ring)
      refine ⟨cx + p * e.dx, cy + p * e.dy, e, ?_, ?_, ?_, ?_, fun h => absurd hnext h⟩
      · exact Int.dvd_add hcx (Int.dvd_mul_right _ _)
      · exact Int.dvd_add hcy (Int.dvd_mul_right _ _)
      · rw [hnext, hx', hx, hfar]
        push_cast
        ring
      · rw [hnext, hy', hy, hfar]
        push_cast
        ring
    · have hnext : (t + 1) % p = t % p + 1 := by
        rw [Nat.add_mod, Nat.mod_eq_of_lt hp, Nat.mod_eq_of_lt (by omega)]
      refine ⟨cx, cy, e, hcx, hcy, ?_, ?_, fun _ => hd⟩
      · rw [hnext, hx', hx]
        push_cast
        ring
      · rw [hnext, hy', hy]
        push_cast
        ring

end Strides

/-! ## Alignment -/

/-- Between two centres the walker is on a grid line and heads along it. -/
def Aligned (n : Int) (w : Walker) : Prop :=
  ¬ w.Centre n → ∃ d, w.heading = some d ∧
    (d.dx = 0 → n ∣ w.x) ∧ (d.dy = 0 → n ∣ w.y)

/-- A position on a grid line: at least one coordinate is a multiple. -/
theorem Aligned.on_line {n : Int} {w : Walker} (h : Aligned n w) :
    n ∣ w.x ∨ n ∣ w.y := by
  by_cases hc : w.Centre n
  · exact Or.inl hc.1
  · obtain ⟨d, _, hx, hy⟩ := h hc
    cases d with
    | left | right => exact Or.inr (hy rfl)
    | up | down => exact Or.inl (hx rfl)

/-- Every step keeps the alignment. -/
theorem Step.aligned {n : Int} {exits : Side → Prop} {w w' : Walker}
    (ha : Aligned n w) (h : Step n exits w w') : Aligned n w' := by
  intro hc'
  by_cases hc : w.Centre n
  · cases hd : w'.heading with
    | none =>
      have hx := h.moved_x
      have hy := h.moved_y
      rw [hd, headingDx_none, Int.add_zero] at hx
      rw [hd, headingDy_none, Int.add_zero] at hy
      exact absurd (by rw [Walker.Centre, hx, hy]; exact hc) hc'
    | some d =>
      refine ⟨d, rfl, fun hdx => ?_, fun hdy => ?_⟩
      · rw [h.moved_x, hd, headingDx_some, hdx, Int.add_zero]
        exact hc.1
      · rw [h.moved_y, hd, headingDy_some, hdy, Int.add_zero]
        exact hc.2
  · obtain ⟨d, hd, hx, hy⟩ := ha hc
    obtain ⟨d', hd', hnext⟩ := h.follows hc
    rw [hd, Option.some.injEq] at hd'
    subst hd'
    rcases hnext with hn | hn
    · refine ⟨d, hn, fun hdx => ?_, fun hdy => ?_⟩
      · rw [h.moved_x, hn, headingDx_some, hdx, Int.add_zero]
        exact hx hdx
      · rw [h.moved_y, hn, headingDy_some, hdy, Int.add_zero]
        exact hy hdy
    · refine ⟨d.opposite, hn, fun hdx => ?_, fun hdy => ?_⟩
      · rw [h.moved_x, hn, headingDx_some, hdx, Int.add_zero]
        exact hx (by rw [Side.dx_opposite] at hdx; omega)
      · rw [h.moved_y, hn, headingDy_some, hdy, Int.add_zero]
        exact hy (by rw [Side.dy_opposite] at hdy; omega)

/-! ## Boxes -/

/-- Both coordinates are between `lo` and `hi`. -/
def InBox (lo hi : Int) (w : Walker) : Prop :=
  lo ≤ w.x ∧ w.x ≤ hi ∧ lo ≤ w.y ∧ w.y ≤ hi

instance (lo hi : Int) (w : Walker) : Decidable (InBox lo hi w) :=
  inferInstanceAs (Decidable (_ ∧ _ ∧ _ ∧ _))

/-- Side `d` leads out of the box. -/
def Outward (lo hi : Int) (w : Walker) : Side → Prop
  | .left => w.x = lo
  | .right => w.x = hi
  | .up => w.y = lo
  | .down => w.y = hi

section Boxes

variable {n lo hi : Int} {exits : Side → Prop} {w w' : Walker}

/-- A move through a side that does not lead out stays in the box. -/
theorem InBox.move {d : Side} (hb : InBox lo hi w) (hd : ¬ Outward lo hi w d)
    (hx : w'.x = w.x + d.dx) (hy : w'.y = w.y + d.dy) : InBox lo hi w' := by
  obtain ⟨h1, h2, h3, h4⟩ := hb
  unfold InBox
  rw [hx, hy]
  cases d <;> simp only [Outward, Side.dx, Side.dy] at hd ⊢ <;> omega

/-- Between two centres no side along the way leads out of a box of tiles. -/
theorem not_outward_of_not_centre (hlo : n ∣ lo) (hhi : n ∣ hi) {d : Side}
    (hc : ¬ w.Centre n) (hx : d.dx = 0 → n ∣ w.x) (hy : d.dy = 0 → n ∣ w.y) :
    ¬ Outward lo hi w d := by
  intro hout
  apply hc
  cases d with
  | left => exact ⟨by rw [show w.x = lo from hout]; exact hlo, hy rfl⟩
  | right => exact ⟨by rw [show w.x = hi from hout]; exact hhi, hy rfl⟩
  | up => exact ⟨hx rfl, by rw [show w.y = lo from hout]; exact hlo⟩
  | down => exact ⟨hx rfl, by rw [show w.y = hi from hout]; exact hhi⟩

/-- A move through a side that leads out leaves the box. -/
theorem InBox.not_move {d : Side} (hd : Outward lo hi w d)
    (hx : w'.x = w.x + d.dx) (hy : w'.y = w.y + d.dy) : ¬ InBox lo hi w' := by
  intro hb
  obtain ⟨h1, h2, h3, h4⟩ := hb
  rw [hx] at h1 h2
  rw [hy] at h3 h4
  cases d <;> simp only [Outward, Side.dx, Side.dy] at hd h1 h2 h3 h4 <;> omega

/-- A step keeps an aligned walker in a box of tiles exactly if it does not leave a
centre through a side that leads out. -/
theorem Step.inBox_iff (hlo : n ∣ lo) (hhi : n ∣ hi) (ha : Aligned n w) (hb : InBox lo hi w)
    (h : Step n exits w w') :
    InBox lo hi w' ↔ ∀ d, w.Centre n → w'.heading = some d → ¬ Outward lo hi w d := by
  have hx := h.moved_x
  have hy := h.moved_y
  constructor
  · intro hb' d _ hd hout
    rw [hd] at hx hy
    exact InBox.not_move hout hx hy hb'
  · intro hout
    by_cases hc : w.Centre n
    · cases hd : w'.heading with
      | none =>
        rw [hd, headingDx_none, Int.add_zero] at hx
        rw [hd, headingDy_none, Int.add_zero] at hy
        rw [InBox, hx, hy]
        exact hb
      | some d =>
        rw [hd] at hx hy
        exact hb.move (hout d hc hd) hx hy
    · obtain ⟨d, hd, hdx, hdy⟩ := ha hc
      obtain ⟨d', hd', hnext | hnext⟩ := h.follows hc <;>
        rw [hd, Option.some.injEq] at hd' <;> subst hd' <;> rw [hnext] at hx hy
      · exact hb.move (not_outward_of_not_centre hlo hhi hc hdx hdy) hx hy
      · refine hb.move (not_outward_of_not_centre hlo hhi hc (fun h0 => hdx ?_)
          (fun h0 => hdy ?_)) hx hy
        · rw [Side.dx_opposite] at h0
          omega
        · rw [Side.dy_opposite] at h0
          omega

/-- An aligned walker stays in a box of tiles as soon as no exit of the tile it is
on leads out. -/
theorem Step.inBox (hlo : n ∣ lo) (hhi : n ∣ hi) (ha : Aligned n w) (hb : InBox lo hi w)
    (hout : w.Centre n → ∀ d, exits d → ¬ Outward lo hi w d) (h : Step n exits w w') :
    InBox lo hi w' :=
  (h.inBox_iff hlo hhi ha hb).2 (fun d hc hd => hout hc d (h.leaves hc d hd))

end Boxes

/-! ## Traces -/

/-- A sequence of walkers, each one step after the one before. -/
def Trace (n : Int) (exits : Nat → Side → Prop) (ws : Nat → Walker) (lo hi : Nat) : Prop :=
  ∀ k, lo ≤ k → k < hi → Step n (exits k) (ws k) (ws (k + 1))

/-- From a centre the walker stays on the edge it took until it reaches one of
the two ends of that edge. -/
theorem Trace.edge {n : Int} {exits : Nat → Side → Prop} {ws : Nat → Walker}
    {j m : Nat} {d : Side} (hn : 1 < n) (h : Trace n exits ws j m)
    (hj : (ws j).Centre n) (hd : (ws (j + 1)).heading = some d) (hjm : j < m)
    (hno : ∀ k, j < k → k < m → ¬ (ws k).Centre n) :
    OnEdge n (ws j).x (ws j).y d (ws m) ∨ (ws m).At (ws j).x (ws j).y ∨
      (ws m).At ((ws j).x + n * d.dx) ((ws j).y + n * d.dy) := by
  induction m with
  | zero => exact absurd hjm (Nat.not_lt_zero j)
  | succ m ih =>
    rcases Nat.lt_succ_iff_lt_or_eq.mp hjm with hlt | rfl
    · have hprev := ih (fun k h1 h2 => h k h1 (by omega)) hlt
        (fun k h1 h2 => hno k h1 (by omega))
      have hnc := hno m hlt (Nat.lt_succ_self m)
      rcases hprev with he | ⟨hx, hy⟩ | ⟨hx, hy⟩
      · exact (h m (by omega) (by omega)).onEdge hj.1 hj.2 he
      · exact absurd (by rw [Walker.Centre, hx, hy]; exact hj) hnc
      · refine absurd ?_ hnc
        rw [Walker.Centre, hx, hy]
        exact ⟨Int.dvd_add hj.1 (Int.dvd_mul_right n _),
          Int.dvd_add hj.2 (Int.dvd_mul_right n _)⟩
    · exact Or.inl ((h j (Nat.le_refl j) hjm).leave hn hd)

end GridWalk
