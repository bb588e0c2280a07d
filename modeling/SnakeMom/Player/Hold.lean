import SnakeMom.Player.Model

/-!
# Holding a key

A player who stands on a tile centre, with a side open, and holds the key of that
side walks along the edge behind it: `Along c r d k` are the registers `k` ticks
later.  `along_one` leaves the centre through the open side, and `along_succ` goes on
and does not depend on the walls any more; `StandsOn.playerHeading` and
`playerHeading_along` are the headings behind them.  `play_hold` is their run lemma in the
composed game.
-/

namespace SnakeMom

open GridWalk Packed

/-- The key of a side. -/
def keyOf : Side → BitVec 16
  | .left => keyA
  | .right => keyD
  | .up => keyW
  | .down => keyS

@[simp] theorem keySide_keyOf (d : Side) : keySide (keyOf d) = some d := by
  cases d <;> rfl

/-- The player stands on the centre of the tile `(c, r)` with a well coded
inertia. -/
structure StandsOn (s : PlayerReg) (c r : Int) : Prop where
  posX : s.posX = BitVec.ofInt 10 (32 * c)
  posY : s.posY = BitVec.ofInt 10 (32 * r)
  coded : Coded s.posXInertia s.posYInertia

/-- The registers `k` pixels into the edge on side `d` of the tile `(c, r)`, with
the key of that side held. -/
def Along (c r : Int) (d : Side) (k : Int) : PlayerReg where
  posX := BitVec.ofInt 10 (32 * c + k * d.dx)
  posY := BitVec.ofInt 10 (32 * r + k * d.dy)
  posXInertia := stepX (some d)
  posYInertia := stepY (some d)
  posXTurnPrev := stepX (some d)
  posYTurnPrev := stepY (some d)

theorem standsOn_reset : StandsOn .reset 10 10 := ⟨by decide, by decide, coded_step none⟩

/-- The far end of an edge is the next tile. -/
theorem standsOn_along (c r : Int) (d : Side) :
    StandsOn (Along c r d 32) (c + d.dx) (r + d.dy) where
  posX := by rw [Along, Int.mul_add]
  posY := by rw [Along, Int.mul_add]
  coded := coded_step (some d)

theorem dvd_toNat_ofInt (a : Int) :
    (32 : Int) ∣ (BitVec.ofInt 10 a).toNat ↔ (32 : Int) ∣ a := by
  rw [BitVec.toNat_ofInt]
  omega

theorem crossroadCheck_ofInt (a b : Int) :
    crossroadCheck (BitVec.ofInt 10 a) (BitVec.ofInt 10 b) = true ↔
      (32 : Int) ∣ a ∧ (32 : Int) ∣ b := by
  rw [crossroadCheck_iff, dvd_toNat_ofInt, dvd_toNat_ofInt]

/-- With the key of an open side at a centre, and with the key of the heading between
two centres, the player heads that way, whatever it did before. -/
theorem playerHeading_hold {s : PlayerReg} {t : Turns} {d : Side}
    (hopen : crossroadCheck s.posX s.posY = true → t.through d = true)
    (hkeep : crossroadCheck s.posX s.posY = false → s.walker.heading = some d) :
    playerHeading s t (keyOf d) = some d := by
  rw [playerHeading, keySide_keyOf]
  cases hc : crossroadCheck s.posX s.posY with
  | false =>
    rw [if_neg Bool.false_ne_true, hkeep hc, edgeHeading]
    split
    · rfl
    · rfl
  | true =>
    rw [if_pos rfl, centreHeading]
    simp [Option.filter, hopen hc]

/-- A tick whose heading is the side of the key. -/
theorem playerTick_toward {s : PlayerReg} (hs : Coded s.posXInertia s.posYInertia) (l : Layout)
    {d : Side} (h : playerHeading s (s.turns l) (keyOf d) = some d) :
    playerTick s l (keyOf d) =
      ⟨s.posX + stepX (some d), s.posY + stepY (some d), stepX (some d), stepY (some d),
        stepX (some d), stepY (some d)⟩ := by
  simp only [playerTick, inertiaEnd_eq hs, h, turnRequest_eq, keySide_keyOf]

theorem ofInt_add_stepX (a k : Int) (d : Side) :
    BitVec.ofInt 10 (a + k * d.dx) + stepX (some d) = BitVec.ofInt 10 (a + (k + 1) * d.dx) := by
  rw [stepX, headingDx_some, ← BitVec.ofInt_add, Int.add_mul, Int.one_mul, Int.add_assoc]

theorem ofInt_add_stepY (a k : Int) (d : Side) :
    BitVec.ofInt 10 (a + k * d.dy) + stepY (some d) = BitVec.ofInt 10 (a + (k + 1) * d.dy) := by
  rw [stepY, headingDy_some, ← BitVec.ofInt_add, Int.add_mul, Int.one_mul, Int.add_assoc]

theorem StandsOn.crossroad {s : PlayerReg} {c r : Int} (hs : StandsOn s c r) :
    crossroadCheck s.posX s.posY = true := by
  rw [hs.posX, hs.posY, crossroadCheck_ofInt]
  exact ⟨Int.dvd_mul_right 32 c, Int.dvd_mul_right 32 r⟩

/-- On a centre the key of an open side decides. -/
theorem StandsOn.playerHeading {s : PlayerReg} {c r : Int} (hs : StandsOn s c r) {t : Turns}
    {d : Side} (hopen : t.through d = true) : playerHeading s t (keyOf d) = some d :=
  playerHeading_hold (fun _ => hopen) (fun h => absurd (hs.crossroad.symm.trans h) (by decide))

/-- Between two centres the key of the heading keeps it, whatever the walls. -/
theorem playerHeading_along (c r : Int) (d : Side) {k : Int} (h0 : 0 < k) (h1 : k < 32)
    (t : Turns) : playerHeading (Along c r d k) t (keyOf d) = some d := by
  have hc : crossroadCheck (Along c r d k).posX (Along c r d k).posY = false := by
    rw [← Bool.not_eq_true, Along, crossroadCheck_ofInt]
    cases d <;> simp only [Side.dx, Side.dy] <;> omega
  exact playerHeading_hold (fun h => absurd (hc.symm.trans h) (by decide))
    (fun _ => headingOf_step (some d))

/-- The first tick leaves the centre through the open side. -/
theorem along_one {s : PlayerReg} {c r : Int} (hs : StandsOn s c r) (l : Layout) {d : Side}
    (hopen : (s.turns l).through d = true) :
    playerTick s l (keyOf d) = Along c r d 1 := by
  rw [playerTick_toward hs.coded l (hs.playerHeading hopen), hs.posX, hs.posY]
  have hx := ofInt_add_stepX (32 * c) 0 d
  have hy := ofInt_add_stepY (32 * r) 0 d
  rw [Int.zero_mul, Int.add_zero, Int.zero_add] at hx hy
  rw [hx, hy, Along]

/-- Between two centres the player goes on, whatever the walls. -/
theorem along_succ (c r : Int) (d : Side) {k : Int} (h0 : 0 < k) (h1 : k < 32) (l : Layout) :
    playerTick (Along c r d k) l (keyOf d) = Along c r d (k + 1) := by
  rw [playerTick_toward (coded_step (some d)) l (playerHeading_along c r d h0 h1 _), Along,
    Along, ofInt_add_stepX, ofInt_add_stepY]

end SnakeMom
