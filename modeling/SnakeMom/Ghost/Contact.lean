import SnakeMom.Ghost.Model
import SnakeMom.Lib.Contact

/-!
# The comparison of a ghost with the player

`killPlayer` and the four pass flags are computed from wrapped 10-bit differences and
their sign bits.  For positions below `512`, which covers every reachable one, they
are what they are on integers: `killPlayer_iff` says that the two boxes of side `16`
touch, and `abovePass_iff` and `belowPass_iff` that a pass flag is an order.
`contact_exact` joins them for the positions that are reachable.
-/

namespace SnakeMom

open GridWalk Packed

section Axis

variable {pos player : BitVec 10} (hpos : pos.toNat < 512) (hplayer : player.toNat < 512)

include hpos hplayer

/-- The difference of one axis is the absolute difference. -/
theorem toNat_difference :
    (difference pos player).toNat = ((pos.toNat : Int) - player.toNat).natAbs := by
  have ha : aCompare pos player = pos - player := add_not_add_one pos player
  have hb : bCompare pos player = player - pos := by
    rw [bCompare, BitVec.add_comm]
    exact add_not_add_one player pos
  rw [difference, ha, hb]
  exact toNat_absDiff hpos hplayer

/-- `!xContact`: the distance is exactly `16`. -/
theorem axisContact_eq_zero_iff :
    axisContact pos player = 0 ↔ ((pos.toNat : Int) - player.toNat).natAbs = 16 := by
  rw [axisContact, show difference pos player + (~~~lenContact + 1) =
    difference pos player - lenContact from add_not_add_one _ _]
  rw [show (0 : BitVec 10) = 0#10 from rfl, sub_eq_zero_iff, ← BitVec.toNat_inj,
    toNat_difference hpos hplayer]
  rfl

/-- `xContact[9]`: the distance is below `16`. -/
theorem axisContact_sign_iff :
    (axisContact pos player).getLsbD 9 = true ↔
      ((pos.toNat : Int) - player.toNat).natAbs < 16 := by
  have hd := toNat_difference hpos hplayer
  rw [axisContact, show difference pos player + (~~~lenContact + 1) =
    difference pos player - lenContact from add_not_add_one _ _]
  have hsmall : (difference pos player).toNat < 2 ^ 9 := by omega
  rw [sign_sub hsmall (show lenContact.toNat < 2 ^ 9 by decide), decide_eq_true_iff, hd]
  rfl

/-- `rightPass` and `downPass`: the ghost is above the player on the axis. -/
theorem abovePass_iff : abovePass pos player = true ↔ player.toNat < pos.toNat := by
  have ha : aCompare pos player = pos - player := add_not_add_one pos player
  rw [abovePass, ha, sign_sub hpos hplayer, Bool.and_eq_true, Bool.not_eq_true',
    decide_eq_false_iff_not, bne_iff_ne, ne_eq, show (0 : BitVec 10) = 0#10 from rfl,
    sub_eq_zero_iff, ← BitVec.toNat_inj]
  omega

/-- `leftPass` and `upPass`: the ghost is below the player on the axis. -/
theorem belowPass_iff : belowPass pos player = true ↔ pos.toNat < player.toNat := by
  have ha : aCompare pos player = pos - player := add_not_add_one pos player
  have hne : (aCompare pos player != 0) = true ↔ pos.toNat ≠ player.toNat := by
    rw [ha, bne_iff_ne, ne_eq, show (0 : BitVec 10) = 0#10 from rfl, sub_eq_zero_iff,
      ← BitVec.toNat_inj]
  have habove := abovePass_iff hpos hplayer
  unfold abovePass at habove
  unfold belowPass
  split
  · rename_i h
    rw [habove] at h
    simp only [Bool.false_eq_true, false_iff]
    omega
  · rename_i h
    rw [habove] at h
    rw [hne]
    omega

end Axis

/-- A position given by its two registers. -/
def place (posX posY : BitVec 10) : Walker := ⟨posX.toNat, posY.toNat, none⟩

/-- `killPlayer` is the contact of the two boxes of side `16`. -/
theorem killPlayer_iff {s : GhostReg} {playerX playerY : BitVec 10}
    (hsx : s.posX.toNat < 512) (hsy : s.posY.toNat < 512)
    (hpx : playerX.toNat < 512) (hpy : playerY.toNat < 512) :
    s.killPlayer playerX playerY = true ↔ Touch 16 (place playerX playerY) s.walker := by
  simp only [GhostReg.killPlayer, Bool.or_eq_true, Bool.and_eq_true, beq_iff_eq,
    axisContact_eq_zero_iff hsx hpx, axisContact_eq_zero_iff hsy hpy,
    axisContact_sign_iff hsx hpx, axisContact_sign_iff hsy hpy]
  simp only [Touch, place, GhostReg.walker, moverWalker]
  omega

/-- The distance of two coordinates, as integers. -/
def distance (pos player : BitVec 10) : Nat := ((pos.toNat : Int) - player.toNat).natAbs

/-- Up to coordinate `416` the wrap-around comparison is the one on integers. -/
theorem contact_exact (s : GhostReg) (playerX playerY : BitVec 10)
    (hsx : s.posX.toNat ≤ 416) (hsy : s.posY.toNat ≤ 416)
    (hpx : playerX.toNat ≤ 416) (hpy : playerY.toNat ≤ 416) :
    (s.killPlayer playerX playerY = true ↔
        max (distance s.posX playerX) (distance s.posY playerY) = 16 ∧
          min (distance s.posX playerX) (distance s.posY playerY) < 16) ∧
      (s.leftPass playerX = true ↔ s.posX.toNat < playerX.toNat) ∧
      (s.rightPass playerX = true ↔ playerX.toNat < s.posX.toNat) ∧
      (s.upPass playerY = true ↔ s.posY.toNat < playerY.toNat) ∧
      (s.downPass playerY = true ↔ playerY.toNat < s.posY.toNat) := by
  refine ⟨?_, belowPass_iff (by omega) (by omega), abovePass_iff (by omega) (by omega),
    belowPass_iff (by omega) (by omega), abovePass_iff (by omega) (by omega)⟩
  rw [killPlayer_iff (by omega) (by omega) (by omega) (by omega)]
  simp only [Touch, place, GhostReg.walker, moverWalker, distance]
  omega

/-- A ghost to the right of the player, in contact, on the far side of the board. -/
theorem contact_exact_right :
    (GhostReg.reset 13 1).killPlayer 400 20 = true ∧
      (GhostReg.reset 13 1).rightPass 400 = true := by
  obtain ⟨hkill, _, hright, _, _⟩ :=
    contact_exact (.reset 13 1) 400 20 (by decide) (by decide) (by decide) (by decide)
  exact ⟨hkill.2 (by decide), hright.2 (by decide)⟩

end SnakeMom
