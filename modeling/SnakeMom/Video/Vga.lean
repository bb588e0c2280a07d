import SnakeMom.Lib.Machine
import SnakeMom.Lib.Raster

/-!
# `VGA_controller.sv`

The controller is a raster of 800 by 525 clocks of `VGA_CLK`, of which the first 640 by 480
are the picture.  Its three pins are registers too, and are computed from the next values of
the counters, so after an edge they go with the counters of after it.

* `raster_edge` finds a `Sync.Raster` in the counters, and `inStep_edge` says that the pins
  go with them after any edge without a reset.
* `VGA_controller_settles` is about any contents of the registers: the counters come inside
  the raster without a reset.
* `VGA_controller_frame` is the picture that a frame carries, and `VGA_controller_sync` is
  the view of a monitor, which only sees the pins.

The clock is made by a PLL, and the reset is an input here.
-/

namespace SnakeMom

open Sync

/-- The registers of the controller. -/
structure VgaReg where
  VGA_HS : Bool
  VGA_VS : Bool
  VGA_BLANK_N : Bool
  h_counter : BitVec 10
  v_counter : BitVec 10
deriving DecidableEq, Repr

namespace VgaReg

def H_TOTAL : BitVec 10 := 800
def V_TOTAL : BitVec 10 := 525

def reset : VgaReg := ⟨false, false, false, 0, 0⟩

section Comb

variable (s : VgaReg)

def DrawX : BitVec 10 := s.h_counter
def DrawY : BitVec 10 := s.v_counter

def h_counter_in : BitVec 10 :=
  if s.h_counter + 1 = H_TOTAL then 0 else s.h_counter + 1

def v_counter_in : BitVec 10 :=
  if s.h_counter + 1 = H_TOTAL then
    if s.v_counter + 1 = V_TOTAL then 0 else s.v_counter + 1
  else s.v_counter

def VGA_HS_in : Bool := if s.h_counter_in ≥ 656 ∧ s.h_counter_in < 752 then false else true

def VGA_VS_in : Bool := if s.v_counter_in ≥ 490 ∧ s.v_counter_in < 492 then false else true

def VGA_BLANK_N_in : Bool :=
  if s.h_counter_in < 640 ∧ s.v_counter_in < 480 then true else false

end Comb

/-- The registers after an edge of `VGA_CLK`. -/
def edge (s : VgaReg) (Reset : Bool) : VgaReg :=
  if Reset then reset
  else ⟨s.VGA_HS_in, s.VGA_VS_in, s.VGA_BLANK_N_in, s.h_counter_in, s.v_counter_in⟩

end VgaReg

/-- The controller, from any state of its registers. -/
def VGA_controller (s : VgaReg) : Machine Bool VgaReg := ⟨s, VgaReg.edge⟩

namespace VgaReg

/-! ## One edge -/

/-- The counters. -/
def raster (s : VgaReg) : Raster 10 := ⟨s.h_counter, s.v_counter⟩

/-- The pins go with the counters. -/
structure InStep (s : VgaReg) : Prop where
  hs : s.VGA_HS = false ↔ 656 ≤ s.DrawX.toNat ∧ s.DrawX.toNat < 752
  vs : s.VGA_VS = false ↔ 490 ≤ s.DrawY.toNat ∧ s.DrawY.toNat < 492
  blank : s.VGA_BLANK_N = true ↔ s.DrawX.toNat < 640 ∧ s.DrawY.toNat < 480

theorem raster_edge (s : VgaReg) :
    (s.edge false).raster = s.raster.next H_TOTAL V_TOTAL := rfl

/-- After an edge without a reset the pins go with the counters, whatever they were
before. -/
theorem inStep_edge (s : VgaReg) : (s.edge false).InStep where
  hs := by
    show s.VGA_HS_in = false ↔ 656 ≤ s.h_counter_in.toNat ∧ s.h_counter_in.toNat < 752
    simp [VGA_HS_in, BitVec.le_def, BitVec.lt_def]
  vs := by
    show s.VGA_VS_in = false ↔ 490 ≤ s.v_counter_in.toNat ∧ s.v_counter_in.toNat < 492
    simp [VGA_VS_in, BitVec.le_def, BitVec.lt_def]
  blank := by
    show s.VGA_BLANK_N_in = true ↔ s.h_counter_in.toNat < 640 ∧ s.v_counter_in.toNat < 480
    simp [VGA_BLANK_N_in, BitVec.lt_def]

/-- `VGA_VS` falls between two states whose pins go with their counters only at the start
of line 490.  The row counter is then the one that moved, so the column starts again. -/
theorem raster_of_fall {s : VgaReg} (hs : s.InStep) (hhigh : s.VGA_VS = true)
    (hfall : (s.edge false).VGA_VS = false) : (s.edge false).raster = ⟨0, 490⟩ := by
  have hbefore := mt hs.vs.2 (by rw [hhigh]; decide)
  have hafter := (inStep_edge s).vs.1 hfall
  rw [DrawY] at hbefore hafter
  show (⟨s.h_counter_in, s.v_counter_in⟩ : Raster 10) = ⟨0, 490⟩
  change 490 ≤ s.v_counter_in.toNat ∧ s.v_counter_in.toNat < 492 at hafter
  unfold v_counter_in at hafter ⊢
  unfold h_counter_in
  by_cases hline : s.h_counter + 1 = H_TOTAL
  · rw [if_pos hline] at hafter ⊢
    rw [if_pos hline]
    by_cases hframe : s.v_counter + 1 = V_TOTAL
    · rw [if_pos hframe] at hafter
      exact absurd hafter.1 (by decide)
    · rw [if_neg hframe] at hafter ⊢
      have hone : (s.v_counter + 1).toNat = 490 := by
        rw [toNat_add_one_of_lt (show 0 < V_TOTAL.toNat by decide)] at hafter ⊢
        split_ifs at hafter ⊢ <;> omega
      rw [Raster.mk.injEq]
      exact ⟨rfl, BitVec.eq_of_toNat_eq hone⟩
  · rw [if_neg hline] at hafter
    exact absurd hafter hbefore

/-- The number of clocks until both counters are inside the raster. -/
def settling (s : VgaReg) : Nat := s.raster.lag H_TOTAL V_TOTAL

/-- A pixel of the picture is taken while `VGA_BLANK_N` is high. -/
def shown {α : Type*} (pic : BitVec 10 → BitVec 10 → α) (s : VgaReg) : Option α :=
  if s.VGA_BLANK_N then some (pic s.DrawX s.DrawY) else none

end VgaReg

/-! ## Runs -/

section Run

open VgaReg

variable {s₀ : VgaReg} {Reset : Nat → Bool}

theorem vga_succ (n : Nat) : (VGA_controller s₀).run Reset (n + 1) =
    ((VGA_controller s₀).run Reset n).edge (Reset n) := rfl

theorem vga_inStep {n : Nat} (hlow : Reset n = false) :
    ((VGA_controller s₀).run Reset (n + 1)).InStep := by
  rw [vga_succ, hlow]
  exact inStep_edge _

/-- Without a reset the counters step along the raster. -/
theorem vga_raster {m n : Nat} (hlow : ∀ k < n, Reset (m + k) = false) :
    ((VGA_controller s₀).run Reset (m + n)).raster =
      (Raster.next H_TOTAL V_TOTAL)^[n] ((VGA_controller s₀).run Reset m).raster := by
  induction n with
  | zero => rfl
  | succ n ih =>
    rw [Function.iterate_succ_apply', ← ih fun k hk => hlow k (Nat.lt_succ_of_lt hk),
      ← Nat.add_assoc, vga_succ, hlow n (Nat.lt_succ_self n), raster_edge]

/-- The counters in closed form, from position `i` of the raster. -/
theorem vga_position {m n i : Nat} (hlow : ∀ k < n, Reset (m + k) = false)
    (hin : ((VGA_controller s₀).run Reset m).raster.Inside H_TOTAL V_TOTAL)
    (hi : ((VGA_controller s₀).run Reset m).raster.index H_TOTAL = i) :
    ((VGA_controller s₀).run Reset (m + n)).DrawX.toNat = (i + n) % 420000 % 800 ∧
      ((VGA_controller s₀).run Reset (m + n)).DrawY.toNat = (i + n) % 420000 / 800 := by
  have hat := hin.iterate n
  have hindex := hin.index_iterate n
  rw [← vga_raster hlow] at hat hindex
  have hx := hat.index_mod
  have hy := hat.index_div
  rw [hindex, hi] at hx hy
  exact ⟨hx.symm, hy.symm⟩

end Run

/-- The raster stabilises by itself.  From any contents of the registers and without a
reset, the counters are inside the raster exactly from the clock on that `settling` tells,
which is at most `399424` clocks away.  The picture is unblanked exactly at its pixels from
the first edge on. -/
theorem VGA_controller_settles (s₀ : VgaReg) {Reset : Nat → Bool} {m n : Nat}
    (hlow : ∀ k < n, Reset (m + k) = false) {s : VgaReg}
    (hs : s = (VGA_controller s₀).run Reset (m + n)) :
    (s.DrawX.toNat < 800 ∧ s.DrawY.toNat < 525 ↔
        ((VGA_controller s₀).run Reset m).settling ≤ n) ∧
      ((VGA_controller s₀).run Reset m).settling ≤ 399424 ∧
      (0 < n → (s.VGA_BLANK_N = true ↔ s.DrawX.toNat < 640 ∧ s.DrawY.toNat < 480)) := by
  have hiff := Raster.inside_iterate_iff (W := VgaReg.H_TOTAL) (H := VgaReg.V_TOTAL)
    (by decide) (by decide) n ((VGA_controller s₀).run Reset m).raster
  rw [← vga_raster hlow, ← hs] at hiff
  refine ⟨?_, Raster.lag_le _, fun hn => ?_⟩
  · rw [VgaReg.settling, ← hiff]
    constructor
    · intro h
      exact ⟨h.1, h.2⟩
    · intro h
      exact ⟨h.x, h.y⟩
  · obtain ⟨j, rfl⟩ := Nat.exists_eq_succ_of_ne_zero (Nat.pos_iff_ne_zero.1 hn)
    rw [hs]
    exact (vga_inStep (hlow j (Nat.lt_succ_self j))).blank

/-- Just past both totals the raster takes longest. -/
theorem VGA_controller_settles_slowest :
    ((VGA_controller ⟨true, true, true, 800, 525⟩).run (fun _ => false)
        (0 + 399424)).DrawX.toNat < 800 ∧
      VgaReg.settling ⟨true, true, true, 800, 525⟩ = 399424 :=
  ⟨((VGA_controller_settles ⟨true, true, true, 800, 525⟩ (m := 0)
    (n := 399424) (fun _ _ => rfl) rfl).1.2 (by decide)).1, by decide⟩

/-- A frame carries the picture.  Over the 420000 clocks from a start of a frame, with no
reset at the edges from the one that leads to it on, the unblanked pixels are the 640 by 480
pixels of the picture row by row.  The picture may change under way, and pixel `(x, y)` is
taken from it `800 * y + x` clocks after the start. -/
theorem VGA_controller_frame {α : Type*} (pic : Nat → BitVec 10 → BitVec 10 → α)
    (s₀ : VgaReg) {Reset : Nat → Bool} {n : Nat}
    (hlow : ∀ k < 420000, Reset (n + k) = false)
    (hX : ((VGA_controller s₀).run Reset (n + 1)).DrawX = 0)
    (hY : ((VGA_controller s₀).run Reset (n + 1)).DrawY = 0) :
    (List.range (800 * 525)).filterMap
        (fun k => ((VGA_controller s₀).run Reset (n + 1 + k)).shown (pic (n + 1 + k))) =
      (List.range 480).flatMap fun y => (List.range 640).map fun x =>
        pic (n + 1 + (800 * y + x)) (BitVec.ofNat 10 x) (BitVec.ofNat 10 y) := by
  have hraster : ((VGA_controller s₀).run Reset (n + 1)).raster = ⟨0, 0⟩ := by
    rw [VgaReg.raster, ← VgaReg.DrawX, ← VgaReg.DrawY, hX, hY]
  have hin : ((VGA_controller s₀).run Reset (n + 1)).raster.Inside
      VgaReg.H_TOTAL VgaReg.V_TOTAL := by
    rw [hraster]
    exact ⟨by decide, by decide⟩
  have hpixel : ∀ k < 800 * 525,
      ((VGA_controller s₀).run Reset (n + 1 + k)).shown (pic (n + 1 + k)) =
        if k % 800 < 640 ∧ k / 800 < 480 then
          some (pic (n + 1 + (800 * (k / 800) + k % 800)) (BitVec.ofNat 10 (k % 800))
            (BitVec.ofNat 10 (k / 800)))
        else none := by
    intro k hk
    have hstep : ((VGA_controller s₀).run Reset (n + 1 + k)).InStep := by
      rw [Nat.add_right_comm]
      exact vga_inStep (hlow k hk)
    obtain ⟨hx, hy⟩ := vga_position (m := n + 1) (n := k) (i := 0)
      (fun j hj => by rw [Nat.add_assoc]; exact hlow (1 + j) (by omega)) hin
      (by rw [hraster]; rfl)
    have hmod : k % 420000 = k := Nat.mod_eq_of_lt hk
    rw [Nat.zero_add, hmod] at hx hy
    rw [Nat.div_add_mod, ← hx, ← hy, BitVec.ofNat_toNat, BitVec.ofNat_toNat,
      BitVec.setWidth_eq, BitVec.setWidth_eq, VgaReg.shown]
    simp only [hstep.blank]
  rw [← filterMap_scan
    (fun x y => pic (n + 1 + (800 * y + x)) (BitVec.ofNat 10 x) (BitVec.ofNat 10 y))
    (by omega : 0 < 800) (by omega : 640 ≤ 800) (by omega : 480 ≤ 525)]
  exact List.filterMap_congr fun k hk => hpixel k (List.mem_range.1 hk)

/-- The frame that begins at once. -/
theorem VGA_controller_frame_first :
    (List.range (800 * 525)).filterMap
        (fun k => ((VGA_controller ⟨true, true, true, 799, 524⟩).run (fun _ => false)
          (0 + 1 + k)).shown (fun x y => x ^^^ y)) =
      (List.range 480).flatMap fun y => (List.range 640).map fun x =>
        BitVec.ofNat 10 x ^^^ BitVec.ofNat 10 y :=
  VGA_controller_frame (fun _ x y => x ^^^ y) ⟨true, true, true, 799, 524⟩
    (n := 0) (fun _ _ => rfl) rfl rfl

/-- The pins tell a monitor where it is.  `n` clocks after `VGA_VS` fell, with no reset since
the edge before the fall, the column is `n % 800` and the row is `490 + n / 800`, modulo 525.
Nothing is asked of the registers before that. -/
theorem VGA_controller_sync (s₀ : VgaReg) {Reset : Nat → Bool} {m n : Nat}
    (hlow : ∀ k < n + 2, Reset (m + k) = false)
    (hhigh : ((VGA_controller s₀).run Reset (m + 1)).VGA_VS = true)
    (hfall : ((VGA_controller s₀).run Reset (m + 2)).VGA_VS = false) :
    ((VGA_controller s₀).run Reset (m + 2 + n)).DrawX.toNat = n % 800 ∧
      ((VGA_controller s₀).run Reset (m + 2 + n)).DrawY.toNat = (490 + n / 800) % 525 := by
  have hnext : (VGA_controller s₀).run Reset (m + 2) =
      ((VGA_controller s₀).run Reset (m + 1)).edge false := by
    rw [← hlow 1 (by omega)]
    rfl
  have hraster : ((VGA_controller s₀).run Reset (m + 2)).raster = ⟨0, 490⟩ := by
    rw [hnext] at hfall ⊢
    exact VgaReg.raster_of_fall (vga_inStep (hlow 0 (by omega))) hhigh hfall
  obtain ⟨hx, hy⟩ := vga_position (m := m + 2) (n := n) (i := 392000)
    (fun k hk => by rw [Nat.add_assoc]; exact hlow (2 + k) (by omega))
    (by rw [hraster]; exact ⟨by decide, by decide⟩) (by rw [hraster]; rfl)
  rw [hx, hy]
  omega

/-- One frame after the fall. -/
theorem VGA_controller_sync_frame :
    ((VGA_controller ⟨false, false, true, 798, 489⟩).run (fun _ => false)
        (0 + 2 + 420000)).DrawY.toNat = (490 + 420000 / 800) % 525 :=
  (VGA_controller_sync ⟨false, false, true, 798, 489⟩ (m := 0)
    (fun _ _ => rfl) (by decide) (by decide)).2

end SnakeMom
