import SnakeMom.Ghost.Walk
import SnakeMom.Ghost.Contact
import Mathlib.Data.Finset.Card

/-!
# Where a ghost turns

The `case` over the open sides is written out arm by arm.  Two uniform laws hold
across its arms.

* With three open sides the ghost hunts: it asks for the player on one side after
  the other and takes the last side without asking (`ghostTurn_hunt`).  If an open
  side leads nearer to the player, it takes one that does (`ghostTurn_three`).
* With two open sides it follows the corridor, and turns back exactly on the random
  pair `3` (`ghostTurn_two`).

`ghostTick_turn_policy` is what they say of a tick, on positions.
-/

namespace SnakeMom

open GridWalk Packed

/-- The open sides of a tile. -/
def Turns.openSides (t : Turns) : Finset Side :=
  Finset.univ.filter fun d => t.through d = true

@[simp] theorem Turns.mem_openSides (t : Turns) (d : Side) :
    d ∈ t.openSides ↔ t.through d = true := by
  simp [Turns.openSides]

/-- The turn through a side. -/
def goSide (d : Side) : BitVec 10 × BitVec 10 := (stepX (some d), stepY (some d))

/-- The player is on side `d` of the ghost; a pass flag names the side of the player
that the ghost is on. -/
def TurnView.playerOn (v : TurnView) : Side → Bool
  | .left => v.rightPass
  | .right => v.leftPass
  | .up => v.downPass
  | .down => v.upPass

/-! ## The arms -/

/-- The four arms with three open sides: two sides are taken if the player is there,
and the third one otherwise. -/
theorem ghostTurn_hunt {t : Turns} (ht : t.openSides.card = 3) (v : TurnView) :
    ∃ a b c, (∀ d, t.through d = true ↔ d = a ∨ d = b ∨ d = c) ∧
      ghostTurn t v =
        if v.playerOn a then goSide a else if v.playerOn b then goSide b else goSide c := by
  obtain ⟨l, r, u, d⟩ := t
  cases l <;> cases r <;> cases u <;> cases d <;> try (exact absurd ht (by decide))
  case false.true.true.true => exact ⟨.right, .up, .down, by decide, rfl⟩
  case true.false.true.true => exact ⟨.left, .up, .down, by decide, rfl⟩
  case true.true.false.true => exact ⟨.down, .left, .right, by decide, rfl⟩
  case true.true.true.false => exact ⟨.up, .left, .right, by decide, rfl⟩

/-- With three open sides the turn goes towards the player, if one of them does. -/
theorem ghostTurn_three {t : Turns} (ht : t.openSides.card = 3) {v : TurnView}
    (hv : ∃ d, t.through d = true ∧ v.playerOn d = true) :
    ∃ d, t.through d = true ∧ v.playerOn d = true ∧ ghostTurn t v = goSide d := by
  obtain ⟨a, b, c, hopen, hturn⟩ := ghostTurn_hunt ht v
  obtain ⟨d, hd, hside⟩ := hv
  rw [hturn]
  cases ha : v.playerOn a with
  | true => exact ⟨a, (hopen a).2 (Or.inl rfl), ha, rfl⟩
  | false =>
    cases hb : v.playerOn b with
    | true => exact ⟨b, (hopen b).2 (Or.inr (Or.inl rfl)), hb, rfl⟩
    | false =>
      have hc : d = c := by
        rcases (hopen d).1 hd with rfl | rfl | rfl
        · rw [hside] at ha
          cases ha
        · rw [hside] at hb
          cases hb
        · rfl
      rw [hc] at hside
      exact ⟨c, (hopen c).2 (Or.inr (Or.inr rfl)), hside, rfl⟩

/-- The ghost moves with heading `h`. -/
structure TurnView.Moving (v : TurnView) (h : Side) : Prop where
  left : v.leftMove = decide (h = .left)
  up : v.upMove = decide (h = .up)
  down : v.downMove = decide (h = .down)

/-- The six arms with two open sides, for a ghost that came through one of them. -/
theorem ghostTurn_two {t : Turns} (ht : t.openSides.card = 2) {v : TurnView} {h : Side}
    (hv : v.Moving h) (hback : t.through h.opposite = true) :
    ∃ d, d ≠ h.opposite ∧ t.through d = true ∧
      ghostTurn t v = if v.r = 0b11 then goSide h.opposite else goSide d := by
  obtain ⟨hl, hu, hd⟩ := hv
  obtain ⟨r, leftMove, upMove, downMove, leftPass, rightPass, upPass, downPass⟩ := v
  simp only at hl hu hd
  subst hl hu hd
  obtain ⟨l, r', u, d⟩ := t
  cases l <;> cases r' <;> cases u <;> cases d <;> try (exact absurd ht (by decide))
  all_goals cases h <;> try (exact absurd hback (by decide))
  case false.false.true.true.up => exact ⟨.up, by decide, rfl, rfl⟩
  case false.false.true.true.down => exact ⟨.down, by decide, rfl, rfl⟩
  case false.true.false.true.left => exact ⟨.down, by decide, rfl, rfl⟩
  case false.true.false.true.up => exact ⟨.right, by decide, rfl, rfl⟩
  case false.true.true.false.left => exact ⟨.up, by decide, rfl, rfl⟩
  case false.true.true.false.down => exact ⟨.right, by decide, rfl, rfl⟩
  case true.false.false.true.right => exact ⟨.down, by decide, rfl, rfl⟩
  case true.false.false.true.up => exact ⟨.left, by decide, rfl, rfl⟩
  case true.false.true.false.right => exact ⟨.up, by decide, rfl, rfl⟩
  case true.false.true.false.down => exact ⟨.left, by decide, rfl, rfl⟩
  case true.true.false.false.left => exact ⟨.left, by decide, rfl, rfl⟩
  case true.true.false.false.right => exact ⟨.right, by decide, rfl, rfl⟩

/-! ## The tick -/

/-- The Manhattan distance of two places. -/
def manhattan (x y px py : Int) : Nat := (x - px).natAbs + (y - py).natAbs

/-- A move through side `d` is nearer to the player. -/
def Approaches (s : GhostReg) (i : GhostIn) (d : Side) : Prop :=
  manhattan (s.posX.toNat + d.dx) (s.posY.toNat + d.dy) i.playerX.toNat i.playerY.toNat <
    manhattan s.posX.toNat s.posY.toNat i.playerX.toNat i.playerY.toNat

/-- The tick moves the ghost through side `d`. -/
def LeavesThrough (s : GhostReg) (i : GhostIn) (d : Side) : Prop :=
  ((ghostTick s i).posX.toNat : Int) = s.posX.toNat + d.dx ∧
    ((ghostTick s i).posY.toNat : Int) = s.posY.toNat + d.dy

/-- The pass flags say which sides are nearer to the player. -/
theorem playerOn_iff {s : GhostReg} {i : GhostIn} (hsx : s.posX.toNat < 512)
    (hsy : s.posY.toNat < 512) (hpx : i.playerX.toNat < 512) (hpy : i.playerY.toNat < 512)
    (d : Side) : (s.view i).playerOn d = true ↔ Approaches s i d := by
  unfold Approaches manhattan
  cases d with
  | left =>
    rw [TurnView.playerOn, GhostReg.view, GhostReg.rightPass, abovePass_iff hsx hpx]
    simp only [Side.dx, Side.dy]
    omega
  | right =>
    rw [TurnView.playerOn, GhostReg.view, GhostReg.leftPass, belowPass_iff hsx hpx]
    simp only [Side.dx, Side.dy]
    omega
  | up =>
    rw [TurnView.playerOn, GhostReg.view, GhostReg.downPass, abovePass_iff hsy hpy]
    simp only [Side.dx, Side.dy]
    omega
  | down =>
    rw [TurnView.playerOn, GhostReg.view, GhostReg.upPass, belowPass_iff hsy hpy]
    simp only [Side.dx, Side.dy]
    omega

/-- On a centre of the board the tick applies the turn, and nothing wraps. -/
theorem leavesThrough_of_turn {s : GhostReg} {i : GhostIn} {d : Side}
    (hcentre : s.walker.Centre 32) (hboard : BoardTile (tile s.posX) (tile s.posY))
    (hturn : s.turn i = goSide d) : LeavesThrough s i d := by
  obtain ⟨⟨hx1, hx2⟩, hy1, hy2⟩ := hboard
  rw [toNat_tile] at hx1 hx2 hy1 hy2
  have hend : s.inertiaEnd i = goSide d := by
    rw [GhostReg.inertiaEnd, s.centre_iff.1 hcentre, if_neg (by decide), hturn]
  have hdx : -1 ≤ d.dx ∧ d.dx ≤ 1 := by cases d <;> decide
  have hdy : -1 ≤ d.dy ∧ d.dy ≤ 1 := by cases d <;> decide
  rw [LeavesThrough, ghostTick, hend, goSide]
  constructor
  · exact toNat_add_stepX _ (some d) (by rw [headingDx_some]; omega)
      (by rw [headingDx_some]; omega)
  · exact toNat_add_stepY _ (some d) (by rw [headingDy_some]; omega)
      (by rw [headingDy_some]; omega)

/-- Inertia registers that hold a heading give the motion flags of that heading. -/
theorem view_moving {s : GhostReg} {h : Side} (hx : s.posXInertia = stepX (some h))
    (hy : s.posYInertia = stepY (some h)) (i : GhostIn) : (s.view i).Moving h where
  left := by simp [GhostReg.view, hx]
  up := by simp [GhostReg.view, hy]
  down := by simp [GhostReg.view, hy]

/-- The turn policy, on a tile centre of the board.  With three open sides, if some
open side leads nearer to the player, the ghost leaves through one that does.  With
two, a ghost that came through one of them turns back exactly on the random pair `3`
and otherwise leaves through the other. -/
theorem ghostTick_turn_policy (s : GhostReg) (i : GhostIn) (hcentre : s.walker.Centre 32)
    (hboard : BoardTile (tile s.posX) (tile s.posY)) (hpx : i.playerX.toNat ≤ 416)
    (hpy : i.playerY.toNat ≤ 416) :
    ((s.turns i.layout).openSides.card = 3 →
        (∃ d ∈ (s.turns i.layout).openSides, Approaches s i d) →
        ∃ d ∈ (s.turns i.layout).openSides, Approaches s i d ∧ LeavesThrough s i d) ∧
      ∀ h : Side, (s.turns i.layout).openSides.card = 2 →
        s.posXInertia = stepX (some h) → s.posYInertia = stepY (some h) →
        h.opposite ∈ (s.turns i.layout).openSides →
        (rSelect s.generationCount i.generation = 3 → LeavesThrough s i h.opposite) ∧
          (rSelect s.generationCount i.generation ≠ 3 →
            ∃ d ∈ (s.turns i.layout).openSides, d ≠ h.opposite ∧ LeavesThrough s i d) := by
  have hsx : s.posX.toNat < 512 := by
    have h := hboard.1.2
    rw [toNat_tile] at h
    omega
  have hsy : s.posY.toNat < 512 := by
    have h := hboard.2.2
    rw [toNat_tile] at h
    omega
  have hnear := playerOn_iff (s := s) (i := i) hsx hsy (by omega) (by omega)
  constructor
  · intro hthree hex
    obtain ⟨e, he, happ⟩ := hex
    rw [Turns.mem_openSides] at he
    obtain ⟨d, hd, hside, hturn⟩ := ghostTurn_three hthree ⟨e, he, (hnear e).2 happ⟩
    exact ⟨d, (Turns.mem_openSides _ _).2 hd, (hnear d).1 hside,
      leavesThrough_of_turn hcentre hboard hturn⟩
  · intro h htwo hx hy hback
    rw [Turns.mem_openSides] at hback
    obtain ⟨d, hne, hd, hturn⟩ := ghostTurn_two htwo (view_moving hx hy i) hback
    constructor
    · intro hr
      exact leavesThrough_of_turn hcentre hboard (hturn.trans (if_pos hr))
    · intro hr
      exact ⟨d, (Turns.mem_openSides _ _).2 hd, hne,
        leavesThrough_of_turn hcentre hboard (hturn.trans (if_neg hr))⟩

/-- A tick in the level, with the player to the left. -/
def huntTick : GhostIn := ⟨false, levelLayout, 0, 96, 160⟩

/-- On the tile `(5, 5)` of the level the sides left, right and down are open, and the
ghost leaves towards the player. -/
theorem ghostTick_turn_policy_hunt :
    ∃ d, Approaches (.reset 5 5) huntTick d ∧ LeavesThrough (.reset 5 5) huntTick d := by
  obtain ⟨hhunt, _⟩ := ghostTick_turn_policy (.reset 5 5) huntTick (by decide)
    ⟨by decide, by decide⟩ (by decide) (by decide)
  have hleft : Approaches (.reset 5 5) huntTick .left := by
    unfold Approaches
    decide
  obtain ⟨d, _, happ, hleave⟩ := hhunt (by decide) ⟨.left, by decide, hleft⟩
  exact ⟨d, happ, hleave⟩

end SnakeMom
