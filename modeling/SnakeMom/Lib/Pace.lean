import Mathlib.Data.Finset.Card
import Mathlib.Tactic.Ring

/-!
# Places that lie apart

A point pays for its way: from one moment to the next its cost grows at least by the
distance that it moves.  So it cannot visit many places that lie apart for little.

* `Distance` are the laws of a distance in whole units, and `taxi` is one on pairs.
* `Paid.dist_le` bounds the distance between two moments by the cost between them.
* `Paid.card_le` bounds the number of places that are visited.
-/

namespace Pace

/-- A distance in whole units. -/
structure Distance {α : Type} (dist : α → α → Nat) : Prop where
  self : ∀ a, dist a a = 0
  triangle : ∀ a b c, dist a c ≤ dist a b + dist b c

/-- The distance over both axes. -/
def taxi (p q : Nat × Nat) : Nat :=
  ((q.1 : Int) - p.1).natAbs + ((q.2 : Int) - p.2).natAbs

theorem distance_taxi : Distance taxi where
  self p := by simp [taxi]
  triangle p q r := by
    unfold taxi
    omega

section Paid

variable {α β : Type} {dist : α → α → Nat} {pos : Nat → α} {cost : Nat → Nat} {m n : Nat}

/-- From `m` to `n` every move is paid for. -/
def Paid (dist : α → α → Nat) (pos : Nat → α) (cost : Nat → Nat) (m n : Nat) : Prop :=
  ∀ k, m ≤ k → k < n → dist (pos k) (pos (k + 1)) + cost k ≤ cost (k + 1)

/-- The way between two moments is paid for. -/
theorem Paid.dist_le (hd : Distance dist) (h : Paid dist pos cost m n) {a b : Nat}
    (hma : m ≤ a) (hab : a ≤ b) (hbn : b ≤ n) : dist (pos a) (pos b) + cost a ≤ cost b := by
  induction b, hab using Nat.le_induction with
  | base => rw [hd.self, Nat.zero_add]
  | succ b hab ih =>
    have hway := ih (by omega)
    have hstep := h b (by omega) (by omega)
    have htriangle := hd.triangle (pos a) (pos b) (pos (b + 1))
    omega

/-- Of places that are at least `p` apart, each one visited after the first one costs
`p`. -/
theorem Paid.card_le (hd : Distance dist) (h : Paid dist pos cost m n) (hmn : m ≤ n) {p : Nat}
    (hp : 0 < p) {places : Finset β} {place : β → α}
    (hapart : ∀ s ∈ places, ∀ t ∈ places, s ≠ t → p ≤ dist (place s) (place t))
    (hvisit : ∀ s ∈ places, ∃ k, m ≤ k ∧ k ≤ n ∧ pos k = place s) :
    p * (places.card - 1) + cost m ≤ cost n := by
  classical
  have htime : ∀ s, ∃ k, s ∈ places → m ≤ k ∧ k ≤ n ∧ pos k = place s := fun s => by
    by_cases hs : s ∈ places
    · obtain ⟨k, hk⟩ := hvisit s hs
      exact ⟨k, fun _ => hk⟩
    · exact ⟨0, fun h => absurd h hs⟩
  choose time htime using htime
  have hcost : ∀ s ∈ places, cost m ≤ cost (time s) ∧ cost (time s) ≤ cost n := fun s hs => by
    obtain ⟨hm, hn, -⟩ := htime s hs
    have hbefore := h.dist_le hd (Nat.le_refl m) hm hn
    have hafter := h.dist_le hd hm hn (Nat.le_refl n)
    omega
  -- two places in one stretch of cost below `p` would be less than `p` apart
  have hfar : ∀ s ∈ places, ∀ t ∈ places, time s ≤ time t →
      (cost (time s) - cost m) / p = (cost (time t) - cost m) / p → s = t := by
    intro s hs t ht hle heq
    by_contra hne
    have hway := h.dist_le hd (htime s hs).1 hle (htime t ht).2.1
    rw [(htime s hs).2.2, (htime t ht).2.2] at hway
    have hfar := hapart s hs t ht hne
    have hlow := (hcost s hs).1
    have hsum : cost (time s) - cost m + p ≤ cost (time t) - cost m := by omega
    have hdiv := Nat.div_le_div_right (c := p) hsum
    rw [Nat.add_div_right _ hp] at hdiv
    omega
  have hcard : places.card ≤ (Finset.range ((cost n - cost m) / p + 1)).card := by
    refine Finset.card_le_card_of_injOn (fun s => (cost (time s) - cost m) / p) ?_ ?_
    · intro s hs
      have hs : s ∈ places := hs
      have hle := (hcost s hs).2
      have hdiv : (cost (time s) - cost m) / p ≤ (cost n - cost m) / p :=
        Nat.div_le_div_right (by omega)
      rw [Finset.mem_coe, Finset.mem_range]
      exact Nat.lt_succ_of_le hdiv
    · intro s hs t ht heq
      rcases Nat.le_total (time s) (time t) with hle | hle
      · exact hfar s hs t ht hle heq
      · exact (hfar t ht s hs hle heq.symm).symm
  rw [Finset.card_range] at hcard
  have hmul : p * (places.card - 1) ≤ p * ((cost n - cost m) / p) :=
    Nat.mul_le_mul_left p (Nat.sub_le_of_le_add hcard)
  have hdiv := Nat.mul_div_le (cost n - cost m) p
  have hgrows := h.dist_le hd (Nat.le_refl m) hmn (Nat.le_refl n)
  omega

end Paid

end Pace
