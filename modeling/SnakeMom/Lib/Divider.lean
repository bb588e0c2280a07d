import Mathlib.Data.Nat.Count
import Mathlib.Data.Nat.GCD.Basic

/-!
# Clock dividers

A divider is a counter of `w` bits and an output.  It counts the edges of a clock up to a
limit, and at the edge that finds the counter at the limit it starts again and its output
flips.

* `wave p` is the output in closed form: `p` edges down, `p` edges up, and so on.
* `Divider.After limit n d` says what a divider holds `n` edges after it was cleared, and
  `After.tick` is its step lemma.  The counter stops at the limit, so it never wraps.
* `rises_both_iff` says when two divided clocks rise together.
* `rises out n` counts the rising edges of an output.  `rises_wave` is its closed form, by
  which a divider with a lower limit is never behind one with a higher limit.
-/

namespace Sync

/-- The output of a divider that flips at every `p`-th edge. -/
def wave (p n : Nat) : Bool := decide (n / p % 2 = 1)

@[simp] theorem wave_zero (p : Nat) : wave p 0 = false := by
  simp [wave]

theorem wave_eq_true_iff {p n : Nat} : wave p n = true ↔ n / p % 2 = 1 := decide_eq_true_iff

theorem wave_eq_false_iff {p n : Nat} : wave p n = false ↔ n / p % 2 = 0 := by
  rw [wave, decide_eq_false_iff_not]
  omega

theorem toNat_wave (p n : Nat) : (wave p n).toNat = n / p % 2 := by
  cases hw : wave p n with
  | false => exact (wave_eq_false_iff.1 hw).symm
  | true => exact (wave_eq_true_iff.1 hw).symm

/-- At a multiple of the period the output flips. -/
theorem wave_succ_of_dvd {p n : Nat} (h : p ∣ n + 1) : wave p (n + 1) = !wave p n := by
  have hdiv : (n + 1) / p = n / p + 1 := Nat.succ_div_of_dvd h
  cases hw : wave p n with
  | false =>
    rw [wave_eq_false_iff] at hw
    rw [Bool.not_false, wave_eq_true_iff, hdiv]
    omega
  | true =>
    rw [wave_eq_true_iff] at hw
    rw [Bool.not_true, wave_eq_false_iff, hdiv]
    omega

/-- Elsewhere it is kept. -/
theorem wave_succ_of_not_dvd {p n : Nat} (h : ¬ p ∣ n + 1) : wave p (n + 1) = wave p n := by
  rw [wave, wave, Nat.succ_div_of_not_dvd h]

/-- Below the end of a period the remainder goes up by one. -/
theorem succ_mod_of_not_dvd {p n : Nat} (hp : 0 < p) (h : ¬ p ∣ n + 1) :
    (n + 1) % p = n % p + 1 := by
  have hlt := Nat.mod_lt n hp
  have hne : n % p + 1 ≠ p := by
    intro heq
    apply h
    rw [Nat.dvd_iff_mod_eq_zero, ← Nat.mod_add_mod, heq, Nat.mod_self]
  rw [← Nat.mod_add_mod, Nat.mod_eq_of_lt (by omega)]

/-! ## The registers -/

/-- The registers of a divider. -/
structure Divider (w : Nat) where
  count : BitVec w
  out : Bool
deriving DecidableEq, Repr

namespace Divider

variable {w : Nat}

/-- What a reset leaves. -/
def cleared : Divider w := ⟨0, false⟩

/-- One edge of the clock. -/
def tick (limit : BitVec w) (d : Divider w) : Divider w :=
  if d.count ≥ limit then ⟨0, !d.out⟩ else ⟨d.count + 1, d.out⟩

/-- What a divider holds `n` edges after it was cleared. -/
structure After (limit : BitVec w) (n : Nat) (d : Divider w) : Prop where
  count : d.count.toNat = n % (limit.toNat + 1)
  out : d.out = wave (limit.toNat + 1) n

variable {limit : BitVec w} {n : Nat} {d : Divider w}

theorem After.cleared : After limit 0 (cleared : Divider w) where
  count := by
    rw [Divider.cleared, Nat.zero_mod]
    exact BitVec.toNat_zero
  out := (wave_zero _).symm

/-- The counter stays within its limit. -/
theorem After.count_le (h : After limit n d) : d.count.toNat ≤ limit.toNat := by
  rw [h.count]
  exact Nat.le_of_lt_succ (Nat.mod_lt n (Nat.succ_pos _))

/-- The counter is at the limit exactly before a multiple of the period. -/
theorem After.count_ge_iff (h : After limit n d) :
    d.count ≥ limit ↔ limit.toNat + 1 ∣ n + 1 := by
  have hle := h.count_le
  have hcount := h.count
  rw [Nat.dvd_iff_mod_eq_zero, Nat.succ_mod_succ_eq_zero_iff, ← hcount, ge_iff_le,
    BitVec.le_def]
  omega

/-- One edge takes a divider one further.  Below the limit the increment does not wrap, as
the limit itself fits the counter. -/
theorem After.tick (h : After limit n d) : After limit (n + 1) (d.tick limit) := by
  by_cases hlim : d.count ≥ limit
  · have hdvd := h.count_ge_iff.1 hlim
    rw [Divider.tick, if_pos hlim]
    refine ⟨?_, ?_⟩
    · rw [Nat.mod_eq_zero_of_dvd hdvd]
      exact BitVec.toNat_zero
    · rw [wave_succ_of_dvd hdvd, h.out]
  · have hdvd : ¬ limit.toNat + 1 ∣ n + 1 := fun hd => hlim (h.count_ge_iff.2 hd)
    have hlt : d.count.toNat < limit.toNat := by
      rw [ge_iff_le, BitVec.le_def] at hlim
      omega
    have hfit := limit.isLt
    rw [Divider.tick, if_neg hlim]
    refine ⟨?_, ?_⟩
    · show (d.count + 1).toNat = (n + 1) % (limit.toNat + 1)
      have hone : (1 : BitVec w).toNat = 1 :=
        BitVec.toNat_one (Nat.pos_of_ne_zero fun hw => by subst hw; omega)
      rw [BitVec.toNat_add, hone, Nat.mod_eq_of_lt (by omega), h.count,
        succ_mod_of_not_dvd (Nat.succ_pos _) hdvd]
    · rw [wave_succ_of_not_dvd hdvd, h.out]

end Divider

/-! ## Rising edges -/

/-- `out` rises with edge `n`. -/
def Rises (out : Nat → Bool) (n : Nat) : Prop := out n = false ∧ out (n + 1) = true

instance (out : Nat → Bool) : DecidablePred (Rises out) := fun n =>
  inferInstanceAs (Decidable (out n = false ∧ out (n + 1) = true))

/-- How many of the first `n` edges `out` rises with. -/
def rises (out : Nat → Bool) (n : Nat) : Nat := Nat.count (Rises out) n

theorem rises_succ (out : Nat → Bool) (n : Nat) :
    rises out (n + 1) = rises out n + if Rises out n then 1 else 0 := Nat.count_succ _ _

/-- The count looks at the output up to its last edge only. -/
theorem rises_congr {f g : Nat → Bool} {n : Nat} (h : ∀ k ≤ n, f k = g k) :
    rises f n = rises g n := by
  induction n with
  | zero => rfl
  | succ n ih =>
    have hstep : Rises f n ↔ Rises g n := by
      rw [Rises, Rises, h n (Nat.le_succ n), h (n + 1) (Nat.le_refl _)]
    have hold := ih fun k hk => h k (Nat.le_succ_of_le hk)
    unfold rises at hold ⊢
    rw [Nat.count_succ, Nat.count_succ, hold]
    simp only [hstep]

/-- A divided clock rises with the odd multiples of its period. -/
theorem rises_wave_iff {p n : Nat} :
    Rises (wave p) n ↔ p ∣ n + 1 ∧ (n + 1) / p % 2 = 1 := by
  by_cases hdvd : p ∣ n + 1
  · rw [Rises, wave_succ_of_dvd hdvd, Bool.not_eq_true', and_self, wave_eq_false_iff,
      Nat.succ_div_of_dvd hdvd, and_iff_right hdvd]
    omega
  · rw [Rises, wave_succ_of_not_dvd hdvd]
    constructor
    · rintro ⟨hlow, hhigh⟩
      rw [hlow] at hhigh
      cases hhigh
    · intro h
      exact absurd h.1 hdvd

/-- Two divided clocks with odd periods that share no factor rise together with the odd
multiples of the product only. -/
theorem rises_both_iff {p q : Nat} (hp : p % 2 = 1) (hq : q % 2 = 1) (hpq : Nat.Coprime p q)
    {n : Nat} : Rises (wave p) n ∧ Rises (wave q) n ↔
      p * q ∣ n + 1 ∧ (n + 1) / (p * q) % 2 = 1 := by
  have hp0 : 0 < p := Nat.pos_of_ne_zero fun h => by rw [h] at hp; cases hp
  have hq0 : 0 < q := Nat.pos_of_ne_zero fun h => by rw [h] at hq; cases hq
  -- With `n + 1 = p * q * t` the quotients are `q * t`, `p * t` and `t`.
  have hquot : ∀ t, n + 1 = p * q * t →
      (n + 1) / p % 2 = t % 2 ∧ (n + 1) / q % 2 = t % 2 ∧ (n + 1) / (p * q) % 2 = t % 2 := by
    intro t ht
    refine ⟨?_, ?_, ?_⟩
    · rw [ht, Nat.mul_assoc, Nat.mul_div_cancel_left _ hp0, Nat.mul_mod, hq, Nat.one_mul,
        Nat.mod_mod]
    · rw [ht, Nat.mul_comm p, Nat.mul_assoc, Nat.mul_div_cancel_left _ hq0, Nat.mul_mod, hp,
        Nat.one_mul, Nat.mod_mod]
    · rw [ht, Nat.mul_div_cancel_left _ (Nat.mul_pos hp0 hq0)]
  rw [rises_wave_iff, rises_wave_iff]
  constructor
  · intro h
    obtain ⟨⟨hpn, hodd⟩, hqn, _⟩ := h
    obtain ⟨t, ht⟩ := hpq.mul_dvd_of_dvd_of_dvd hpn hqn
    obtain ⟨h1, _, h3⟩ := hquot t ht
    exact ⟨⟨t, ht⟩, by rw [h3, ← h1, hodd]⟩
  · intro h
    obtain ⟨⟨t, ht⟩, hodd⟩ := h
    obtain ⟨h1, h2, h3⟩ := hquot t ht
    refine ⟨⟨⟨q * t, by rw [ht, Nat.mul_assoc]⟩, by rw [h1, ← h3, hodd]⟩,
      ⟨p * t, by rw [ht, Nat.mul_comm p, Nat.mul_assoc]⟩, by rw [h2, ← h3, hodd]⟩

/-- Every second flip is a rise, beginning with the first. -/
theorem rises_wave (p n : Nat) : rises (wave p) n = (n / p + 1) / 2 := by
  induction n with
  | zero => simp [rises]
  | succ n ih =>
    unfold rises at ih ⊢
    rw [Nat.count_succ, ih]
    by_cases hdvd : p ∣ n + 1
    · have hdiv : (n + 1) / p = n / p + 1 := Nat.succ_div_of_dvd hdvd
      by_cases hodd : (n + 1) / p % 2 = 1
      · rw [if_pos (rises_wave_iff.2 ⟨hdvd, hodd⟩)]
        omega
      · rw [if_neg fun h => hodd (rises_wave_iff.1 h).2]
        omega
    · rw [if_neg fun h => hdvd (rises_wave_iff.1 h).1, Nat.succ_div_of_not_dvd hdvd, add_zero]

/-- The faster of two clocks is never behind. -/
theorem rises_wave_le {p q : Nat} (hp : 0 < p) (hpq : p ≤ q) (n : Nat) :
    rises (wave q) n ≤ rises (wave p) n := by
  have hdiv : n / q ≤ n / p := Nat.div_le_div_left hpq hp
  rw [rises_wave, rises_wave]
  omega

/-- In any stretch of `n` edges, the slower of two clocks rises at most once more than the
faster one. -/
theorem rises_wave_stretch_le {p q : Nat} (hp : 0 < p) (hpq : p ≤ q) (a n : Nat) :
    rises (wave q) (a + n) + rises (wave p) a ≤
      rises (wave p) (a + n) + rises (wave q) a + 1 := by
  have hq : 0 < q := Nat.lt_of_lt_of_le hp hpq
  have hform : ∀ r, 0 < r → ∀ k, rises (wave r) k = (k + r) / (2 * r) := fun r hr k => by
    rw [rises_wave, Nat.mul_comm 2, ← Nat.div_div_eq_div_mul, Nat.add_div_right _ hr]
  rw [hform p hp, hform p hp, hform q hq, hform q hq]
  -- `u` full periods of the faster clock fit, and `u + 1` of the slower one suffice.
  obtain ⟨u, v, hv, hn⟩ : ∃ u v, v < 2 * p ∧ n = u * (2 * p) + v :=
    ⟨n / (2 * p), n % (2 * p), Nat.mod_lt _ (by omega), (Nat.div_add_mod' n (2 * p)).symm⟩
  have hfast : (a + p) / (2 * p) + u ≤ (a + n + p) / (2 * p) := by
    rw [← Nat.add_mul_div_right _ _ (by omega : 0 < 2 * p)]
    exact Nat.div_le_div_right (by omega)
  have hslow : (a + n + q) / (2 * q) ≤ (a + q) / (2 * q) + (u + 1) := by
    have hfit : (u + 1) * (2 * p) ≤ (u + 1) * (2 * q) := Nat.mul_le_mul_left _ (by omega)
    have hlast : (u + 1) * (2 * p) = u * (2 * p) + 2 * p := Nat.succ_mul _ _
    rw [← Nat.add_mul_div_right _ _ (by omega : 0 < 2 * q)]
    exact Nat.div_le_div_right (by omega)
  omega

end Sync
