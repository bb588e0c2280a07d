import SnakeMom.Ghost.Walk

/-!
# The cadence of a ghost

A ghost never rests and between two centres never turns back, so it meets a centre
every `32` ticks, in any layout and from any start tile.  At each centre it takes a
turn and moves on to the next pair of random bits.

`Cadence n` is the invariant of the `n`-th tick after a reset, `ghostTick_cadence` its
step lemma and `ghostMovement_cadence` the law of a run.
-/

namespace SnakeMom

open GridWalk Packed

/-- What holds `n` ticks after a reset. -/
structure Cadence (n : Nat) (s : GhostReg) : Prop where
  stride : InStride 32 n s.walker
  count : s.generationCount.toNat = (n + 31) / 32 % 8

theorem Cadence.centre_iff {n : Nat} {s : GhostReg} (h : Cadence n s) :
    s.walker.Centre 32 ↔ 32 ∣ n :=
  h.stride.centre_iff (by decide)

theorem cadence_reset (fiveXStart fiveYStart : BitVec 5) :
    Cadence 0 (.reset fiveXStart fiveYStart) where
  stride := InStride.of_centre (centre_reset fiveXStart fiveYStart)
  count := rfl

/-- The counter of the pairs goes round. -/
theorem toNat_generationNext (g : BitVec 3) : (generationNext g).toNat = (g.toNat + 1) % 8 := by
  revert g
  decide

/-- The pair of random bits that a count selects. -/
theorem rSelect_eq (g : BitVec 3) (generation : BitVec 16) :
    rSelect g generation = generation.extractLsb' (2 * g.toNat) 2 := by
  have hlt := g.isLt
  unfold rSelect
  generalize g.toNat = k at hlt
  interval_cases k <;> rfl

/-- Between two centres the heading is carried on. -/
theorem ghostHeading_carried {s : GhostReg} (hc : ¬ s.walker.Centre 32) (i : GhostIn) :
    ghostHeading s i = s.walker.heading := by
  rw [s.centre_iff] at hc
  rw [ghostHeading, if_neg hc]

/-- A tick takes the cadence one further. -/
theorem ghostTick_cadence {hi : Int} {n : Nat} {s : GhostReg} (hs : GhostInv hi s)
    (h : Cadence n s) (i : GhostIn) : Cadence (n + 1) (ghostTick s i) where
  stride := by
    obtain ⟨d, hd, hw⟩ := ghostTick_moves hs i
    rw [hw]
    exact h.stride.succ (by omega) rfl rfl rfl
      (fun hc => (ghostHeading_carried hc i).symm.trans hd)
  count := by
    have hcount := h.count
    have hcentre := h.centre_iff
    rw [s.centre_iff] at hcentre
    rw [ghostTick, GhostReg.generationInc]
    cases hc : s.crossroad with
    | false =>
      rw [hc] at hcentre
      have hnot : ¬ 32 ∣ n := fun hdvd => Bool.false_ne_true (hcentre.2 hdvd)
      rw [if_pos rfl, hcount]
      omega
    | true =>
      have hdvd := hcentre.1 hc
      rw [if_neg (by decide), toNat_generationNext, hcount]
      omega

/-- The cadence along a run, from any reset on. -/
theorem ghostMovement_cadence_inv {fiveXStart fiveYStart : BitVec 5} {i : Nat → GhostIn}
    {j n : Nat}
    (hfresh : (ghostMovement fiveXStart fiveYStart).run i j = .reset fiveXStart fiveYStart)
    (hreset : ∀ k < n, (i (j + k)).Reset = false) :
    Cadence n ((ghostMovement fiveXStart fiveYStart).run i (j + n)) := by
  induction n with
  | zero =>
    rw [Nat.add_zero, hfresh]
    exact cadence_reset _ _
  | succ n ih =>
    rw [← Nat.add_assoc, ghostMovement_run_tick (hreset n (Nat.lt_succ_self n))]
    exact ghostTick_cadence (ghostMovement_inv_any fiveXStart fiveYStart i (j + n))
      (ih fun k hk => hreset k (Nat.lt_succ_of_lt hk)) _

/-- The cadence of a ghost: `n` ticks after a reset it is on a tile centre exactly if
`n` is a multiple of `32`, and it has used `⌈n / 32⌉` pairs of random bits.  So its
`k`-th turn falls on tick `32 * k` and reads the pair `k % 8` of the generation word
of that tick; at the other ticks it goes on as before. -/
theorem ghostMovement_cadence (fiveXStart fiveYStart : BitVec 5) (i : Nat → GhostIn)
    (j n : Nat) {s : GhostReg} (hs : s = (ghostMovement fiveXStart fiveYStart).run i (j + n))
    (hfresh : (ghostMovement fiveXStart fiveYStart).run i j = .reset fiveXStart fiveYStart)
    (hreset : ∀ k < n, (i (j + k)).Reset = false) :
    (s.walker.Centre 32 ↔ 32 ∣ n) ∧
      s.generationCount.toNat = (n + 31) / 32 % 8 ∧
      (∀ k, n = 32 * k →
        s.inertiaEnd (i (j + n)) = s.turn (i (j + n)) ∧
          (s.view (i (j + n))).r =
            (i (j + n)).generation.extractLsb' (2 * (k % 8)) 2) ∧
      (¬ 32 ∣ n → s.inertiaEnd (i (j + n)) = (s.posXInertia, s.posYInertia)) := by
  subst hs
  have h := ghostMovement_cadence_inv hfresh hreset
  have hcentre := h.centre_iff
  rw [GhostReg.centre_iff] at hcentre
  refine ⟨h.centre_iff, h.count, fun k hk => ⟨?_, ?_⟩, fun hn => ?_⟩
  · have hcross := hcentre.2 ⟨k, hk⟩
    rw [GhostReg.inertiaEnd, hcross, if_neg (by decide)]
  · have hcount : (n + 31) / 32 % 8 = k % 8 := by omega
    rw [GhostReg.view, rSelect_eq, h.count, hcount]
  · rw [GhostReg.inertiaEnd, if_pos (Bool.eq_false_iff.2 fun hc => hn (hcentre.1 hc))]

/-- A tick whose word has `3` as its first pair only. -/
def firstPairTick : GhostIn := { startScreenTick with generation := 0x2493 }

/-- The ninth turn uses the first pair again. -/
theorem ghostMovement_cadence_ninth :
    (((ghostMovement 6 6).run (fun _ => firstPairTick) 256).view firstPairTick).r = 3 := by
  have h := ghostMovement_cadence 6 6 (fun _ => firstPairTick) 0 256 rfl rfl (fun _ _ => rfl)
  rw [Nat.zero_add] at h
  exact (h.2.2.1 8 rfl).2

end SnakeMom
