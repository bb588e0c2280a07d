import SnakeMom.Lib.Divider
import SnakeMom.Lib.Machine

/-!
# `lab8.sv`: the slow clocks

One block of `lab8` divides `Clk` twice.  `count` and `clkDivide` are the divider that
clocks the player, `ghostCount` and `clkGhost` the one that clocks the ghosts.

* `ClockReg.next` is the `else` branch.  Each counter is assigned twice in it, and the
  later assignment is the one that counts.
* `next_player` and `next_ghosts` find a `Sync.Divider` in each half of the registers.
* `clockDividers_closed_form` is the state after any number of edges since a reset, and
  says that the player is never behind in ticks.
-/

namespace SnakeMom

open Sync

/-- The registers of the block. -/
structure ClockReg where
  count : BitVec 18
  ghostCount : BitVec 18
  clkDivide : Bool
  clkGhost : Bool
deriving DecidableEq, Repr

namespace ClockReg

def reset : ClockReg := ⟨0, 0, false, false⟩

/-- The registers after an edge.  All conditions and right sides are of before the edge. -/
def next (s : ClockReg) : ClockReg :=
  let r := { s with count := s.count + 1, ghostCount := s.ghostCount + 1 }
  let r := if s.count ≥ 200000 then { r with count := 0, clkDivide := !s.clkDivide } else r
  if s.ghostCount ≥ 262000 then { r with ghostCount := 0, clkGhost := !s.clkGhost } else r

/-- One run of the block, at an edge of `Clk` or at a rise of `Reset_h`.  At the latter
`Reset_h` is up. -/
def edge (s : ClockReg) (Reset_h : Bool) : ClockReg := if Reset_h then reset else s.next

/-- The divider of the player. -/
def player (s : ClockReg) : Divider 18 := ⟨s.count, s.clkDivide⟩

/-- The divider of the ghosts. -/
def ghosts (s : ClockReg) : Divider 18 := ⟨s.ghostCount, s.clkGhost⟩

theorem next_player (s : ClockReg) : s.next.player = s.player.tick 200000 := by
  unfold next player Divider.tick
  split_ifs <;> rfl

theorem next_ghosts (s : ClockReg) : s.next.ghosts = s.ghosts.tick 262000 := by
  unfold next ghosts Divider.tick
  split_ifs <;> rfl

/-- What the block holds `n` edges after a reset. -/
structure After (n : Nat) (s : ClockReg) : Prop where
  player : Divider.After 200000 n s.player
  ghosts : Divider.After 262000 n s.ghosts

theorem after_reset : After 0 reset where
  player := Divider.After.cleared
  ghosts := Divider.After.cleared

theorem After.next {n : Nat} {s : ClockReg} (h : After n s) : After (n + 1) s.next where
  player := by
    rw [next_player]
    exact h.player.tick
  ghosts := by
    rw [next_ghosts]
    exact h.ghosts.tick

end ClockReg

/-- The block, from any state of its registers. -/
def clockDividers (s : ClockReg) : Machine Bool ClockReg := ⟨s, ClockReg.edge⟩

section Run

variable (s₀ : ClockReg) (Reset_h : Nat → Bool) (m : Nat)

/-- The registers `n` edges after the reset at edge `m`. -/
def clocksSince (n : Nat) : ClockReg := (clockDividers s₀).run Reset_h (m + 1 + n)

/-- The ticks of the player in the `n` edges after edge `m`. -/
def playerTicks (n : Nat) : Nat := rises (fun k => (clocksSince s₀ Reset_h m k).clkDivide) n

/-- The ticks of the ghosts in the `n` edges after edge `m`. -/
def ghostTicks (n : Nat) : Nat := rises (fun k => (clocksSince s₀ Reset_h m k).clkGhost) n

variable {s₀ Reset_h m} {n : Nat}

theorem clocksSince_after (hreset : Reset_h m = true)
    (hlast : ∀ k, m < k → k ≤ m + n → Reset_h k = false) :
    (clocksSince s₀ Reset_h m n).After n := by
  induction n with
  | zero =>
    have h : clocksSince s₀ Reset_h m 0 = ClockReg.reset := if_pos hreset
    rw [h]
    exact ClockReg.after_reset
  | succ n ih =>
    have hlow := hlast (m + 1 + n) (by omega) (by omega)
    have h : clocksSince s₀ Reset_h m (n + 1) = (clocksSince s₀ Reset_h m n).next :=
      if_neg (Bool.eq_false_iff.1 hlow)
    rw [h]
    exact (ih fun k hk hkn => hlast k hk (by omega)).next

theorem playerTicks_eq (hreset : Reset_h m = true)
    (hlast : ∀ k, m < k → k ≤ m + n → Reset_h k = false) :
    playerTicks s₀ Reset_h m n = rises (wave 200001) n :=
  rises_congr fun k hk =>
    (clocksSince_after hreset fun l hl hlk => hlast l hl (by omega)).player.out

theorem ghostTicks_eq (hreset : Reset_h m = true)
    (hlast : ∀ k, m < k → k ≤ m + n → Reset_h k = false) :
    ghostTicks s₀ Reset_h m n = rises (wave 262001) n :=
  rises_congr fun k hk =>
    (clocksSince_after hreset fun l hl hlk => hlast l hl (by omega)).ghosts.out

end Run

/-- The dividers in closed form.  `n` edges after a reset both counters are within their
limits, so that neither has wrapped, both clocks are where the number of edges says, and
the player has had at least as many ticks as the ghosts. -/
theorem clockDividers_closed_form (s₀ : ClockReg) (Reset_h : Nat → Bool) {m n : Nat}
    {s : ClockReg} (hs : s = (clockDividers s₀).run Reset_h (m + 1 + n))
    (hreset : Reset_h m = true) (hlast : ∀ k, m < k → k ≤ m + n → Reset_h k = false) :
    (s.count.toNat = n % 200001 ∧ s.count.toNat ≤ 200000) ∧
      (s.ghostCount.toNat = n % 262001 ∧ s.ghostCount.toNat ≤ 262000) ∧
      s.clkDivide.toNat = n / 200001 % 2 ∧ s.clkGhost.toNat = n / 262001 % 2 ∧
      ghostTicks s₀ Reset_h m n ≤ playerTicks s₀ Reset_h m n := by
  have h : s.After n := by
    rw [hs]
    exact clocksSince_after hreset hlast
  refine ⟨⟨h.player.count, h.player.count_le⟩, ⟨h.ghosts.count, h.ghosts.count_le⟩, ?_, ?_, ?_⟩
  · rw [← toNat_wave]
    exact congrArg Bool.toNat h.player.out
  · rw [← toNat_wave]
    exact congrArg Bool.toNat h.ghosts.out
  · rw [ghostTicks_eq hreset hlast, playerTicks_eq hreset hlast]
    exact rises_wave_le (by decide) (by decide) n

/-- The first tick of the player, whatever the registers held before the reset. -/
theorem clockDividers_closed_form_first :
    ((clockDividers ⟨7, 9, true, true⟩).run (fun k => k == 0) (0 + 1 + 200001)).clkDivide.toNat =
      200001 / 200001 % 2 :=
  (clockDividers_closed_form ⟨7, 9, true, true⟩ (fun k => k == 0) rfl rfl
    (fun _ hk _ => beq_false_of_ne (Nat.ne_of_gt hk))).2.2.1

end SnakeMom
