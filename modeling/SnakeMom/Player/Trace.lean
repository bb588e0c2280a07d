import Mathlib.Data.List.Destutter
import SnakeMom.Player.Route

/-!
# The tiles the player visits

In a fixed layout the player and a token on the graph of open sides have the same traces,
up to stuttering: what the keys make of the centres the player meets are the routes of the
token, and every route is one.

* `NearTile` is the simulation: the player is on the tile of the token, or on an open edge
  of it.
* `playerTick_near` is its step.  A tick leaves the token where it is, or takes it through
  an open side onto whose tile the player has come.
* `playerMovement_traces` is the equality of the traces.
-/

namespace SnakeMom

open GridWalk Packed Sync

/-! ## One tick -/

/-- The player is on the centre of tile `p`, or on an edge behind an open side of it. -/
def NearTile (l : Layout) (s : PlayerReg) (p : Int × Int) : Prop :=
  OnTile s p ∨ ∃ d, openSide l p d ∧ OnEdge 32 (32 * p.1) (32 * p.2) d s.walker

section Tick

variable {l m : Layout} {s : PlayerReg} {p : Int × Int}

/-- A tick stays near the tile, or comes onto a neighbour through an open side.  The tick
may see more walls than the token does. -/
theorem playerTick_near (hs : PlayerInv s) (hsub : ∀ p d, openSide m p d → openSide l p d)
    (h : NearTile l s p) (keycode : BitVec 16) :
    NearTile l (playerTick s m keycode) p ∨
      ∃ d, openSide l p d ∧ OnTile (playerTick s m keycode) (d.next p) := by
  have hstep := playerTick_step hs m keycode
  rcases h with hon | ⟨d, hd, hedge⟩
  · refine Or.inl ?_
    cases hh : (playerTick s m keycode).walker.heading with
    | none =>
      have hx := hstep.moved_x
      have hy := hstep.moved_y
      rw [hh, headingDx_none, Int.add_zero] at hx
      rw [hh, headingDy_none, Int.add_zero] at hy
      exact Or.inl ⟨hx.trans hon.1, hy.trans hon.2⟩
    | some d =>
      have hopen := hstep.leaves hon.centre d hh
      rw [hon.turns m] at hopen
      have hleave := hstep.leave (by omega) hh
      rw [hon.1, hon.2] at hleave
      exact Or.inr ⟨d, hsub p d hopen, hleave⟩
  · rcases hstep.onEdge (Int.dvd_mul_right _ _) (Int.dvd_mul_right _ _) hedge with
      hstay | hback | hfar
    · exact Or.inl (Or.inr ⟨d, hd, hstay⟩)
    · exact Or.inl (Or.inl hback)
    · refine Or.inr ⟨d, hd, ?_⟩
      rwa [← Int.mul_add, ← Int.mul_add] at hfar

end Tick

/-! ## The traces -/

section Traces

variable {l : Layout} {s : PlayerReg} {p : Int × Int}

theorem visitedTiles_nil : visitedTiles l [] s = (centreTile s).toList := by
  rw [visitedTiles]
  cases h : centreTile s with
  | none => exact List.filterMap_cons_none h
  | some p => exact List.filterMap_cons_some h

theorem visitedTiles_cons (keycode : BitVec 16) (keys : List (BitVec 16)) :
    visitedTiles l (keycode :: keys) s =
      (centreTile s).toList ++ visitedTiles l keys (playerTick s l keycode) := by
  rw [visitedTiles, play_ticks_cons, trail_ticks_cons, List.cons_append, List.filterMap_cons]
  cases centreTile s <;> rfl

/-- On a tile the visited tiles begin with it. -/
theorem OnTile.visitedTiles (h : OnTile s p) (keys : List (BitVec 16)) :
    ∃ rest, SnakeMom.visitedTiles l keys s = p :: rest := by
  cases keys with
  | nil => exact ⟨[], by rw [visitedTiles_nil, h.centreTile]; rfl⟩
  | cons keycode keys => exact ⟨_, by rw [visitedTiles_cons, h.centreTile]; rfl⟩

theorem NearTile.centreTile (h : NearTile l s p) :
    (centreTile s).toList = [] ∨ (centreTile s).toList = [p] := by
  rcases h with hon | ⟨d, _, hedge⟩
  · exact Or.inr (by rw [hon.centreTile]; rfl)
  · refine Or.inl ?_
    rw [centreTile_of_not_centre (hedge.not_centre (Int.dvd_mul_right _ _)
      (Int.dvd_mul_right _ _))]
    rfl

/-- A list of tiles without its immediate repetitions. -/
def condensed (tiles : List (Int × Int)) : List (Int × Int) := tiles.destutter (· ≠ ·)

theorem condensed_cons_self (rest : List (Int × Int)) :
    condensed (p :: p :: rest) = condensed (p :: rest) :=
  List.destutter'_cons_neg rest (fun h => h rfl)

theorem condensed_cons_ne {q : Int × Int} (h : p ≠ q) (rest : List (Int × Int)) :
    condensed (p :: q :: rest) = p :: condensed (q :: rest) :=
  List.destutter'_cons_pos rest h

/-- Tiles are left by their sides. -/
theorem Side.next_ne (d : Side) (p : Int × Int) : p ≠ d.next p := by
  intro h
  have hx := congrArg Prod.fst h
  have hy := congrArg Prod.snd h
  cases d <;> simp [Side.next, Side.dx, Side.dy] at hx hy

/-- A route has no repetitions. -/
theorem condensed_tilesOf (p : Int × Int) (w : List Side) :
    condensed (tilesOf p w) = tilesOf p w := by
  induction w generalizing p with
  | nil => rfl
  | cons d w ih =>
    have hcons : ∀ q, ∃ rest, tilesOf q w = q :: rest := fun q => by
      cases w with
      | nil => exact ⟨[], rfl⟩
      | cons e w => exact ⟨_, rfl⟩
    obtain ⟨rest, hrest⟩ := hcons (d.next p)
    have hnext := ih (d.next p)
    rw [tilesOf, hrest, condensed_cons_ne (Side.next_ne d p), ← hrest, hnext]

/-- From near a tile the tiles that are visited after it are those of a route. -/
theorem NearTile.route (hs : PlayerInv s) (h : NearTile l s p) (keys : List (BitVec 16)) :
    ∃ w, IsRoute (openSide l) p w ∧ condensed (p :: visitedTiles l keys s) = tilesOf p w := by
  induction keys generalizing s p with
  | nil =>
    refine ⟨[], trivial, ?_⟩
    rw [visitedTiles_nil]
    rcases h.centreTile with hnone | hsome
    · rw [hnone]
      rfl
    · rw [hsome, condensed_cons_self]
      rfl
  | cons keycode keys ih =>
    have hinv := playerTick_inv hs l keycode
    -- being on the tile already is a stutter
    have hstutter : condensed (p :: visitedTiles l (keycode :: keys) s) =
        condensed (p :: visitedTiles l keys (playerTick s l keycode)) := by
      rw [visitedTiles_cons]
      rcases h.centreTile with hnone | hsome
      · rw [hnone, List.nil_append]
      · rw [hsome, List.singleton_append, condensed_cons_self]
    rw [hstutter]
    rcases playerTick_near hs (fun _ _ hd => hd) h keycode with hnear | ⟨d, hd, hon⟩
    · exact ih hinv hnear
    · obtain ⟨w, hw, htiles⟩ := ih hinv (Or.inl hon)
      obtain ⟨rest, hrest⟩ := hon.visitedTiles (l := l) keys
      refine ⟨d :: w, ⟨hd, hw⟩, ?_⟩
      rw [hrest, condensed_cons_self] at htiles
      rw [hrest, condensed_cons_ne (Side.next_ne d p), htiles, tilesOf]

end Traces

/-- The traces of the player over tiles.  In any fixed layout and from any reachable state
on a tile centre, the lists of tiles that keys can make the player visit, without
repetitions, are exactly the routes through open sides. -/
theorem playerMovement_traces (i : Nat → PlayerIn) (n : Nat) (l : Layout) {p : Int × Int}
    (hp : OnTile (playerMovement.run i n) p) (tiles : List (Int × Int)) :
    (∃ keys, condensed (visitedTiles l keys (playerMovement.run i n)) = tiles) ↔
      ∃ w, IsRoute (openSide l) p w ∧ tilesOf p w = tiles := by
  have hs := playerMovement_inv i n
  constructor
  · intro h
    obtain ⟨keys, rfl⟩ := h
    obtain ⟨w, hw, htiles⟩ := NearTile.route hs (Or.inl hp : NearTile l _ p) keys
    obtain ⟨rest, hrest⟩ := hp.visitedTiles (l := l) keys
    rw [hrest, condensed_cons_self] at htiles
    exact ⟨w, hw, by rw [hrest, htiles]⟩
  · intro h
    obtain ⟨w, hw, rfl⟩ := h
    refine ⟨routeKeys w, ?_⟩
    rw [(play_routeKeys hs hp hw).2, condensed_tilesOf]

/-- With all walls down no keys take the player two tiles at once. -/
theorem playerMovement_traces_jump :
    ¬ ∃ keys, condensed (visitedTiles ⟨0, 0⟩ keys .reset) = [(10, 10), (12, 10)] := by
  have h := playerMovement_traces (fun _ => ⟨false, ⟨0, 0⟩, 0⟩) 0 ⟨0, 0⟩
    (p := (10, 10)) ⟨by decide, by decide⟩ [(10, 10), (12, 10)]
  intro hkeys
  obtain ⟨w, _, hw⟩ := h.1 hkeys
  match w with
  | [] => exact absurd hw (by decide)
  | [d] => cases d <;> exact absurd hw (by decide)
  | d :: e :: w => cases w <;> simp [tilesOf] at hw

end SnakeMom
