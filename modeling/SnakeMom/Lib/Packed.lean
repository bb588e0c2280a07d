import Mathlib.Data.List.GetD
import Mathlib.Tactic.ByContra
import Mathlib.Tactic.Ring

/-!
# Packed vectors and wrap-around differences

Three small theories about `BitVec` that hardware descriptions rest on.

* Slices.  A vector declared with an ascending range counts its bits from the
  most significant end.  `slice v a b` is the part select `v[a:b]` of such a
  vector, and `getMsbD_slice` gives its bits.  `assemble` is the vector that a
  list of instances drives, each one its own part of it, and `getLsbD_assemble`
  gives the bits of the whole.
* Arrays.  `fill n rows` is a packed array `[0:n-1]` that a literal with fewer rows fills
  from its low end, which is the end of the array (`getD_fill`).
* Pictures.  `expand runs` are rows that are given in runs of equal ones, and `clearBox`
  tests a box of bits run by run (`clearBox_iff`).
* Differences.  `x + (~y + 1)` is a subtraction that may wrap.  When both
  operands are below half the range, the sign bit of the difference is the order
  (`sign_sub`), and choosing between the two differences by that bit gives the
  absolute difference (`toNat_absDiff`).
-/

namespace Packed

/-! ## Slices -/

section Slices

variable {w k : Nat}

/-- The part select `v[a:b]` of a vector declared `[0:w-1]`. -/
def slice (v : BitVec w) (a b : Nat) : BitVec (b - a + 1) :=
  v.extractLsb' (w - 1 - b) (b - a + 1)

/-- Bit `i` of a slice is bit `a + i` of the vector. -/
theorem getMsbD_slice (v : BitVec w) {a b i : Nat} (hab : a ≤ b) (hb : b < w)
    (hi : i ≤ b - a) : (slice v a b).getMsbD i = v.getMsbD (a + i) := by
  have hlt : i < b - a + 1 := by omega
  have hlt' : a + i < w := by omega
  have hidx : w - 1 - b + (b - a + 1 - 1 - i) = w - 1 - (a + i) := by omega
  rw [BitVec.getMsbD_eq_getLsbD, BitVec.getMsbD_eq_getLsbD, slice,
    BitVec.getLsbD_extractLsb', hidx]
  simp only [hlt, hlt', show b - a + 1 - 1 - i < b - a + 1 by omega, decide_true,
    Bool.true_and]

/-- The vector whose parts are driven by the entries of `l`: an entry `(lo, v)`
drives the bits from `lo` up. -/
def assemble (w : Nat) (l : List (Nat × BitVec k)) : BitVec w :=
  l.foldr (fun part acc => (part.2.setWidth w <<< part.1) ||| acc) 0#w

/-- A bit of the whole is the bit of the part that drives it. -/
theorem getLsbD_assemble (l : List (Nat × BitVec k)) {i : Nat} (hi : i < w) :
    (assemble w l).getLsbD i =
      l.any (fun part => decide (part.1 ≤ i) && part.2.getLsbD (i - part.1)) := by
  induction l with
  | nil => simp [assemble]
  | cons part l ih =>
    rw [List.any_cons, ← ih, assemble, List.foldr_cons, BitVec.getLsbD_or,
      BitVec.getLsbD_shiftLeft, BitVec.getLsbD_setWidth, ← assemble]
    by_cases hle : part.1 ≤ i
    · simp [hi, hle, show ¬ i < part.1 by omega, show i - part.1 < w by omega]
    · simp [hle, show i < part.1 by omega]

end Slices

/-! ## Arrays -/

section Arrays

variable {w n k : Nat} {rows : List (BitVec w)}

/-- A packed array `[0:n-1]` that is assigned the rows `rows`: the assignment extends
them by zeros at the high end, where the array begins. -/
def fill (n : Nat) (rows : List (BitVec w)) : List (BitVec w) :=
  List.replicate (n - rows.length) 0 ++ rows

/-- The rows of the literal are the last ones. -/
theorem getD_fill (k : Nat) :
    (fill n rows).getD (n - rows.length + k) 0 = rows.getD k 0 := by
  rw [fill, List.getD_append_right _ _ _ _ (by rw [List.length_replicate]; omega),
    List.length_replicate, Nat.add_sub_cancel_left]

end Arrays

/-! ## Pictures -/

section Pictures

variable {α : Type} {w : Nat}

/-- Rows that are given in runs: how many, and which row. -/
def expand (runs : List (Nat × α)) : List α :=
  runs.flatMap fun run => List.replicate run.1 run.2

theorem length_expand (runs : List (Nat × α)) :
    (expand runs).length = (runs.map Prod.fst).sum := by
  rw [expand, List.length_flatMap]
  simp only [List.length_replicate]

/-- Row `k` of the runs. -/
def runAt (default : α) : List (Nat × α) → Nat → α
  | [], _ => default
  | run :: runs, k => if k < run.1 then run.2 else runAt default runs (k - run.1)

theorem getD_expand (default : α) (runs : List (Nat × α)) (k : Nat) :
    (expand runs).getD k default = runAt default runs k := by
  induction runs generalizing k with
  | nil => rfl
  | cons run runs ih =>
    have hcons : expand (run :: runs) = List.replicate run.1 run.2 ++ expand runs := rfl
    rw [hcons, runAt]
    by_cases hk : k < run.1
    · rw [if_pos hk, List.getD_append _ _ _ _ (by rwa [List.length_replicate]),
        List.getD_replicate _ hk]
    · rw [if_neg hk, List.getD_append_right _ _ _ _ (by rw [List.length_replicate]; omega),
        List.length_replicate, ih]

/-- The bits from `lo` up to `hi`, without `hi`. -/
def window (lo hi : Nat) : Nat := ((1 <<< (hi - lo)) - 1) <<< lo

theorem testBit_window (lo hi k : Nat) :
    (window lo hi).testBit k = (decide (lo ≤ k) && decide (k < hi)) := by
  rw [window, Nat.testBit_shiftLeft, Nat.one_shiftLeft, Nat.testBit_two_pow_sub_one,
    Bool.eq_iff_iff]
  simp only [Bool.and_eq_true, decide_eq_true_iff]
  omega

/-- A row without a bit in a window. -/
theorem land_window_eq_zero_iff (row : BitVec w) (lo hi : Nat) :
    row.toNat &&& window lo hi = 0 ↔ ∀ k, lo ≤ k → k < hi → row.getLsbD k = false := by
  rw [Nat.eq_iff_testBit_eq]
  simp only [Nat.testBit_and, testBit_window, Nat.zero_testBit, Bool.and_eq_false_iff,
    decide_eq_false_iff_not, BitVec.testBit_toNat]
  constructor
  · intro h k hlo hhi
    rcases h k with h | h | h
    · exact h
    · exact absurd hlo h
    · exact absurd hhi h
  · intro h k
    by_cases hlo : lo ≤ k
    · by_cases hhi : k < hi
      · exact Or.inl (h k hlo hhi)
      · exact Or.inr (Or.inr hhi)
    · exact Or.inr (Or.inl hlo)

/-- No row from `top` up to `bottom`, without `bottom`, has a bit of `mask`. -/
def clearBox (mask : Nat) : List (Nat × BitVec w) → Nat → Nat → Bool
  | [], _, _ => true
  | run :: runs, top, bottom =>
    (decide (run.1 ≤ top) || decide (bottom ≤ top) || run.2.toNat &&& mask == 0) &&
      clearBox mask runs (top - run.1) (bottom - run.1)

theorem clearBox_iff (mask : Nat) (runs : List (Nat × BitVec w)) (top bottom : Nat) :
    clearBox mask runs top bottom = true ↔
      ∀ k, top ≤ k → k < bottom → (runAt 0 runs k).toNat &&& mask = 0 := by
  induction runs generalizing top bottom with
  | nil =>
    simp only [clearBox, runAt, true_iff]
    intro k _ _
    exact Nat.zero_and mask
  | cons run runs ih =>
    rw [clearBox, Bool.and_eq_true, Bool.or_eq_true, Bool.or_eq_true, decide_eq_true_iff,
      decide_eq_true_iff, beq_iff_eq, ih]
    constructor
    · intro h k htop hbottom
      obtain ⟨hfirst, hrest⟩ := h
      rw [runAt]
      by_cases hk : k < run.1
      · rw [if_pos hk]
        exact hfirst.resolve_left (by omega)
      · rw [if_neg hk]
        exact hrest (k - run.1) (by omega) (by omega)
    · intro h
      refine ⟨?_, fun k htop hbottom => ?_⟩
      · by_cases hk : top < run.1 ∧ top < bottom
        · have hrow := h top (Nat.le_refl top) hk.2
          rw [runAt, if_pos hk.1] at hrow
          exact Or.inr hrow
        · exact Or.inl (by omega)
      · have hrow := h (k + run.1) (by omega) (by omega)
        rwa [runAt, if_neg (by omega), Nat.add_sub_cancel] at hrow

end Pictures

/-! ## Differences -/

section Differences

variable {w : Nat}

/-- Adding the two's complement is subtracting. -/
theorem add_not_add_one (x y : BitVec w) : x + (~~~y + 1#w) = x - y := by
  rw [← BitVec.neg_eq_not_add, BitVec.sub_eq_add_neg]

variable {x y : BitVec (w + 1)}

/-- The sign bit of a difference of two small operands is their order. -/
theorem sign_sub (hx : x.toNat < 2 ^ w) (hy : y.toNat < 2 ^ w) :
    (x - y).getLsbD w = decide (x.toNat < y.toNat) := by
  have hmsb := BitVec.msb_eq_getLsbD_last (x - y)
  rw [Nat.add_sub_cancel] at hmsb
  rw [← hmsb, BitVec.msb_eq_decide, Nat.add_sub_cancel]
  have hpow : 2 ^ (w + 1) = 2 * 2 ^ w := by rw [pow_succ, mul_comm]
  by_cases hlt : x.toNat < y.toNat
  · rw [BitVec.toNat_sub_of_lt (BitVec.lt_def.2 hlt)]
    simp only [hlt, decide_true, decide_eq_true_eq]
    omega
  · rw [BitVec.toNat_sub_of_le (BitVec.le_def.2 (by omega))]
    simp only [hlt, decide_false, decide_eq_false_iff_not]
    omega

/-- The difference chosen by the sign bit is the absolute difference. -/
theorem toNat_absDiff (hx : x.toNat < 2 ^ w) (hy : y.toNat < 2 ^ w) :
    (if (x - y).getLsbD w then y - x else x - y).toNat =
      ((x.toNat : Int) - y.toNat).natAbs := by
  rw [sign_sub hx hy]
  by_cases hlt : x.toNat < y.toNat
  · rw [if_pos (decide_eq_true hlt), BitVec.toNat_sub_of_le (BitVec.le_def.2 (by omega))]
    omega
  · rw [if_neg (by simpa using hlt), BitVec.toNat_sub_of_le (BitVec.le_def.2 (by omega))]
    omega

/-- A difference vanishes exactly when its operands are equal. -/
theorem sub_eq_zero_iff (x y : BitVec w) : x - y = 0#w ↔ x = y := by
  constructor
  · intro h
    have : x - y + y = 0#w + y := by rw [h]
    rwa [BitVec.sub_add_cancel, BitVec.zero_add] at this
  · intro h
    rw [h]
    exact BitVec.sub_self y

end Differences

end Packed
