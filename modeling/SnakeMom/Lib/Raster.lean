import Mathlib.Logic.Function.Iterate
import Mathlib.Tactic.Ring
import Mathlib.Tactic.SplitIfs

/-!
# Raster counters

A raster has two counters of `w` bits.  The column starts again instead of reaching `W`, and
the row takes a step whenever the column starts again, and itself starts again instead of
reaching `H`.  Nothing keeps the counters below `W` and `H` but the tests for equality, so a
raster that begins outside goes on to the end of its register first.

* `Raster.lag` is the number of steps until both counters are inside.  Every step lowers it
  by one, which gives `inside_iterate_iff`: from any contents the raster comes inside, and
  from then on it stays there.
* `Raster.index` numbers the positions inside, and a step adds one to the number, modulo
  `W * H`.
* `filterMap_scan` is about the order: the positions of a window, taken from a scan of the
  whole raster, come row by row.
-/

namespace Sync

variable {w : Nat}

/-- One step of a counter that starts again instead of reaching `total`. -/
def lap (total c : BitVec w) : BitVec w := if c + 1 = total then 0 else c + 1

/-- The increment, as a number. -/
theorem toNat_add_one_of_lt {total : BitVec w} (h : 0 < total.toNat) (c : BitVec w) :
    (c + 1).toNat = if c.toNat + 1 = 2 ^ w then 0 else c.toNat + 1 := by
  have hfit := total.isLt
  have hc := c.isLt
  have hone : (1 : BitVec w).toNat = 1 :=
    BitVec.toNat_one (Nat.pos_of_ne_zero fun hw => by subst hw; omega)
  rw [BitVec.toNat_add, hone]
  split_ifs with hend
  · rw [hend, Nat.mod_self]
  · exact Nat.mod_eq_of_lt (by omega)

/-- The counter is at its last value. -/
theorem add_one_eq_iff {total : BitVec w} (h : 0 < total.toNat) (c : BitVec w) :
    c + 1 = total ↔ c.toNat + 1 = total.toNat := by
  have hfit := total.isLt
  rw [← BitVec.toNat_inj, toNat_add_one_of_lt h]
  split_ifs <;> omega

/-- A counter starts again at its total and at the end of its register. -/
theorem toNat_lap {total : BitVec w} (h : 0 < total.toNat) (c : BitVec w) :
    (lap total c).toNat =
      if c.toNat + 1 = total.toNat ∨ c.toNat + 1 = 2 ^ w then 0 else c.toNat + 1 := by
  have hzero : (0 : BitVec w).toNat = 0 := BitVec.toNat_zero
  unfold lap
  split_ifs with h1 h2 h2
  · exact hzero
  · exact absurd (Or.inl ((add_one_eq_iff h c).1 h1)) h2
  · rw [toNat_add_one_of_lt h, if_pos]
    exact h2.resolve_left fun he => h1 ((add_one_eq_iff h c).2 he)
  · rw [toNat_add_one_of_lt h, if_neg fun he => h2 (Or.inr he)]

/-- The counters of a raster. -/
structure Raster (w : Nat) where
  x : BitVec w
  y : BitVec w
deriving DecidableEq, Repr

namespace Raster

variable {W H : BitVec w}

/-- One step. -/
def next (W H : BitVec w) (r : Raster w) : Raster w :=
  ⟨lap W r.x, if r.x + 1 = W then lap H r.y else r.y⟩

/-- Both counters are below their totals. -/
structure Inside (W H : BitVec w) (r : Raster w) : Prop where
  x : r.x.toNat < W.toNat
  y : r.y.toNat < H.toNat

/-- The number of steps until both counters are inside.  A row counter outside waits for
the ends of `2 ^ w - y` lines. -/
def lag (W H : BitVec w) (r : Raster w) : Nat :=
  if r.y.toNat < H.toNat then
    if r.x.toNat < W.toNat then 0 else 2 ^ w - r.x.toNat
  else
    (2 ^ w - 1 - r.y.toNat) * W.toNat +
      if r.x.toNat < W.toNat then W.toNat - r.x.toNat else 2 ^ w - r.x.toNat + W.toNat

section Settle

variable (hW : 0 < W.toNat) (hH : 0 < H.toNat)

include hW

theorem toNat_next_x (r : Raster w) :
    (r.next W H).x.toNat =
      if r.x.toNat + 1 = W.toNat ∨ r.x.toNat + 1 = 2 ^ w then 0 else r.x.toNat + 1 :=
  toNat_lap hW r.x

include hH

theorem toNat_next_y (r : Raster w) :
    (r.next W H).y.toNat =
      if r.x.toNat + 1 = W.toNat then
        if r.y.toNat + 1 = H.toNat ∨ r.y.toNat + 1 = 2 ^ w then 0 else r.y.toNat + 1
      else r.y.toNat := by
  rw [next, ← toNat_lap hH, apply_ite BitVec.toNat]
  simp only [add_one_eq_iff hW]

omit hH in
/-- The lag is zero exactly inside. -/
theorem lag_eq_zero_iff (r : Raster w) : r.lag W H = 0 ↔ r.Inside W H := by
  have hx := r.x.isLt
  unfold lag
  constructor
  · intro h
    split_ifs at h with hy hxW hxW
    · exact ⟨hxW, hy⟩
    all_goals omega
  · intro h
    rw [if_pos h.y, if_pos h.x]

/-- Every step lowers the lag by one. -/
theorem lag_next (r : Raster w) : (r.next W H).lag W H = r.lag W H - 1 := by
  have hx := r.x.isLt
  have hy := r.y.isLt
  have hWw := W.isLt
  have hHw := H.isLt
  -- The lines still to come are one fewer after a line end.
  have hrow : r.y.toNat + 1 ≠ 2 ^ w →
      (2 ^ w - 1 - r.y.toNat) * W.toNat =
        (2 ^ w - 1 - (r.y.toNat + 1)) * W.toNat + W.toNat := by
    intro hne
    rw [← Nat.succ_mul]
    congr 1
    omega
  have hlast : r.y.toNat + 1 = 2 ^ w → (2 ^ w - 1 - r.y.toNat) * W.toNat = 0 := by
    intro he
    rw [show 2 ^ w - 1 - r.y.toNat = 0 by omega, Nat.zero_mul]
  unfold lag
  rw [toNat_next_x hW, toNat_next_y hW hH]
  split_ifs <;> omega

theorem lag_iterate (n : Nat) (r : Raster w) :
    ((next W H)^[n] r).lag W H = r.lag W H - n := by
  induction n with
  | zero => rfl
  | succ n ih =>
    rw [Function.iterate_succ_apply', lag_next hW hH, ih]
    omega

/-- From any contents, the counters are inside exactly once the lag has passed. -/
theorem inside_iterate_iff (n : Nat) (r : Raster w) :
    ((next W H)^[n] r).Inside W H ↔ r.lag W H ≤ n := by
  rw [← lag_eq_zero_iff hW, lag_iterate hW hH]
  omega

omit hW hH in
/-- The lag is greatest just past both totals. -/
theorem lag_le (r : Raster w) :
    r.lag W H ≤ (2 ^ w - W.toNat) + (2 ^ w - H.toNat) * W.toNat := by
  have hWw := W.isLt
  have hHw := H.isLt
  unfold lag
  split_ifs with hy hx hx
  · exact Nat.zero_le _
  · omega
  all_goals
    have hrows : (2 ^ w - 1 - r.y.toNat + 1) * W.toNat ≤ (2 ^ w - H.toNat) * W.toNat :=
      Nat.mul_le_mul_right _ (by omega)
    rw [Nat.succ_mul] at hrows
    omega

end Settle

/-! ## The positions inside -/

/-- The number of a position. -/
def index (W : BitVec w) (r : Raster w) : Nat := r.y.toNat * W.toNat + r.x.toNat

namespace Inside

variable {r : Raster w} (h : r.Inside W H)

include h

theorem pos_x : 0 < W.toNat := Nat.lt_of_le_of_lt (Nat.zero_le _) h.x

theorem pos_y : 0 < H.toNat := Nat.lt_of_le_of_lt (Nat.zero_le _) h.y

theorem index_lt : r.index W < W.toNat * H.toNat := by
  have hrow : (r.y.toNat + 1) * W.toNat ≤ H.toNat * W.toNat := Nat.mul_le_mul_right _ h.y
  rw [Nat.succ_mul, Nat.mul_comm H.toNat] at hrow
  have hx := h.x
  unfold index
  omega

theorem index_mod : r.index W % W.toNat = r.x.toNat := by
  rw [index, Nat.add_comm, Nat.add_mul_mod_self_right, Nat.mod_eq_of_lt h.x]

theorem index_div : r.index W / W.toNat = r.y.toNat := by
  rw [index, Nat.add_comm, Nat.add_mul_div_right _ _ h.pos_x, Nat.div_eq_of_lt h.x,
    Nat.zero_add]

/-- The raster stays inside. -/
theorem next : (r.next W H).Inside W H :=
  (inside_iterate_iff h.pos_x h.pos_y 1 r).2
    (by rw [(lag_eq_zero_iff h.pos_x r).2 h]; omega)

/-- A step goes on to the next number, and from the last to the first. -/
theorem index_next : (r.next W H).index W = (r.index W + 1) % (W.toNat * H.toNat) := by
  have hlt := h.next.index_lt
  have hx := h.x
  have hy := h.y
  have hWw := W.isLt
  have hHw := H.isLt
  have hstep : (r.next W H).index W = r.index W + 1 ∨
      (r.next W H).index W = 0 ∧ r.index W + 1 = W.toNat * H.toNat := by
    unfold index
    rw [toNat_next_x h.pos_x, toNat_next_y h.pos_x h.pos_y]
    by_cases hline : r.x.toNat + 1 = W.toNat
    · rw [if_pos (Or.inl hline), if_pos hline]
      by_cases hframe : r.y.toNat + 1 = H.toNat
      · rw [if_pos (Or.inl hframe), ← hframe, Nat.mul_comm W.toNat, Nat.succ_mul]
        omega
      · rw [if_neg (by omega), Nat.succ_mul]
        omega
    · rw [if_neg hline, if_neg (by omega)]
      omega
  rcases hstep with he | ⟨he, hend⟩
  · rw [he, Nat.mod_eq_of_lt (he ▸ hlt)]
  · rw [he, hend, Nat.mod_self]

theorem iterate (n : Nat) : ((Raster.next W H)^[n] r).Inside W H := by
  induction n with
  | zero => exact h
  | succ n ih =>
    rw [Function.iterate_succ_apply']
    exact ih.next

theorem index_iterate (n : Nat) :
    ((Raster.next W H)^[n] r).index W = (r.index W + n) % (W.toNat * H.toNat) := by
  induction n with
  | zero => exact (Nat.mod_eq_of_lt h.index_lt).symm
  | succ n ih =>
    rw [Function.iterate_succ_apply', (h.iterate n).index_next, ih, Nat.mod_add_mod]
    rfl

end Inside

end Raster

/-! ## The order of a scan -/

/-- A scan of `h` rows is the scan of its rows. -/
theorem map_range_mul {α : Type*} (f : Nat → Nat → α) {w : Nat} (hw : 0 < w) (h : Nat) :
    (List.range (w * h)).map (fun n => f (n % w) (n / w)) =
      (List.range h).flatMap fun y => (List.range w).map fun x => f x y := by
  induction h with
  | zero => rfl
  | succ h ih =>
    rw [Nat.mul_succ, List.range_add, List.map_append, ih, List.range_succ,
      List.flatMap_append, List.flatMap_cons, List.flatMap_nil, List.append_nil,
      List.map_map]
    congr 1
    refine List.map_congr_left fun x hx => ?_
    have hlt := List.mem_range.1 hx
    rw [Function.comp_apply, Nat.mul_add_mod, Nat.mod_eq_of_lt hlt, Nat.mul_add_div hw,
      Nat.div_eq_of_lt hlt, Nat.add_zero]

/-- Only the part of a range below `m` passes the test. -/
theorem filterMap_range_lt {α : Type*} (f : Nat → α) (m n : Nat) :
    (List.range n).filterMap (fun k => if k < m then some (f k) else none) =
      (List.range (min m n)).map f := by
  induction n with
  | zero => simp
  | succ n ih =>
    rw [List.range_succ, List.filterMap_append, ih]
    by_cases hlt : n < m
    · rw [Nat.min_eq_right (Nat.le_of_lt hlt), Nat.min_eq_right hlt, List.range_succ]
      simp [hlt]
    · rw [Nat.min_eq_left (by omega), Nat.min_eq_left (by omega)]
      simp [hlt]

/-- The same for parts of any length. -/
theorem flatMap_range_lt {α : Type*} (f : Nat → List α) (m n : Nat) :
    ((List.range n).flatMap fun k => if k < m then f k else []) =
      (List.range (min m n)).flatMap f := by
  induction n with
  | zero => simp
  | succ n ih =>
    rw [List.range_succ, List.flatMap_append, ih]
    by_cases hlt : n < m
    · rw [Nat.min_eq_right (Nat.le_of_lt hlt), Nat.min_eq_right hlt, List.range_succ]
      simp [hlt]
    · rw [Nat.min_eq_left (by omega), Nat.min_eq_left (by omega)]
      simp [hlt]

/-- A window of `w` by `h` positions, out of a scan of `W` by `H`, comes row by row. -/
theorem filterMap_scan {α : Type*} (f : Nat → Nat → α) {w h W H : Nat} (hW : 0 < W)
    (hw : w ≤ W) (hh : h ≤ H) :
    (List.range (W * H)).filterMap
        (fun n => if n % W < w ∧ n / W < h then some (f (n % W) (n / W)) else none) =
      (List.range h).flatMap fun y => (List.range w).map fun x => f x y := by
  have hrow : ∀ y, (List.range W).filterMap
      (fun x => if x < w ∧ y < h then some (f x y) else none) =
        if y < h then (List.range w).map (fun x => f x y) else [] := by
    intro y
    by_cases hy : y < h
    · simp only [hy, and_true, if_true]
      rw [filterMap_range_lt, Nat.min_eq_left hw]
    · simp [hy]
  have hsplit := congrArg (List.filterMap id) (map_range_mul
    (fun x y => if x < w ∧ y < h then some (f x y) else none) hW H)
  rw [List.filterMap_map, List.filterMap_flatMap] at hsplit
  simp only [List.filterMap_map, Function.id_comp, hrow] at hsplit
  rw [hsplit, flatMap_range_lt, Nat.min_eq_left hh]

end Sync
