import SnakeMom.Wall.Boundaries
import SnakeMom.Player.Walk
import SnakeMom.Player.Hold
import SnakeMom.Lib.Route

/-!
# The player walks a route

Holding a key for `32` ticks takes the player from a tile to its neighbour, from any
inertia and after any history (`play_leg_of_centre`).  So every route through open
sides is walked by its keys, and the centres the player meets are exactly the tiles
of the route (`play_routeKeys`).

This refines the steps of single pixels to the moves on tiles.
`playerMovement_realises_routes` is the statement for all layouts and all reachable
states.
-/

namespace SnakeMom

open GridWalk Packed Sync

/-! ## Holding a key -/

/-- Ticks with a key, in a fixed layout. -/
def ticks (l : Layout) (keys : List (BitVec 16)) : List PlayerIn :=
  keys.map fun keycode => ⟨false, l, keycode⟩

theorem play_ticks_cons (l : Layout) (keycode : BitVec 16) (keys : List (BitVec 16))
    (s : PlayerReg) :
    playerMovement.play (ticks l (keycode :: keys)) s =
      playerMovement.play (ticks l keys) (playerTick s l keycode) :=
  playerMovement.play_cons _ _ s

theorem trail_ticks_cons (l : Layout) (keycode : BitVec 16) (keys : List (BitVec 16))
    (s : PlayerReg) :
    playerMovement.trail (ticks l (keycode :: keys)) s =
      s :: playerMovement.trail (ticks l keys) (playerTick s l keycode) :=
  playerMovement.trail_cons _ _ s

theorem ticks_append (l : Layout) (keys keys' : List (BitVec 16)) :
    ticks l (keys ++ keys') = ticks l keys ++ ticks l keys' :=
  List.map_append

/-- The walker `k` pixels from the place `(x, y)` towards side `d`. -/
def Towards (x y : Int) (d : Side) (k : Int) : Walker := ⟨x + k * d.dx, y + k * d.dy, some d⟩

/-- A tick with the key held: through an open side at a centre, straight on between
two centres. -/
theorem playerTick_hold {s : PlayerReg} (hs : PlayerInv s) {l : Layout} {d : Side}
    (hopen : s.walker.Centre 32 → (s.turns l).through d = true)
    (hkeep : ¬ s.walker.Centre 32 → s.walker.heading = some d) :
    (playerTick s l (keyOf d)).walker = Towards s.walker.x s.walker.y d 1 := by
  have hh : playerHeading s (s.turns l) (keyOf d) = some d := by
    refine playerHeading_hold (fun hc => hopen (s.centre_iff.2 hc)) (fun hc => hkeep ?_)
    rw [s.centre_iff, hc]
    decide
  rw [playerTick_walker hs, playerTarget, hh, Towards, headingDx_some, headingDy_some,
    Int.one_mul, Int.one_mul]

theorem towards_succ (x y : Int) (d : Side) (k : Int) :
    Towards (Towards x y d k).x (Towards x y d k).y d 1 = Towards x y d (k + 1) := by
  simp only [Towards, Walker.mk.injEq, and_true]
  constructor <;> ring

theorem towards_onEdge {x y k : Int} (d : Side) (h0 : 0 < k) (h1 : k < 32) :
    OnEdge 32 x y d (Towards x y d k) :=
  ⟨k, h0, h1, rfl, rfl, Or.inl rfl⟩

/-- The tile whose centre the player is on. -/
def centreTile (s : PlayerReg) : Option (Int × Int) :=
  if crossroadCheck s.posX s.posY then some (s.posX.toNat / 32, s.posY.toNat / 32) else none

theorem centreTile_of_not_centre {s : PlayerReg} (h : ¬ s.walker.Centre 32) :
    centreTile s = none := by
  rw [s.centre_iff] at h
  rw [centreTile, if_neg h]

section Hold

variable {l : Layout} {s : PlayerReg} {x y : Int} {d : Side}

/-- From inside an edge the key held for `m` ticks goes on, and meets no centre
before the last of them. -/
theorem play_hold_edge (hs : PlayerInv s) (hx : (32 : Int) ∣ x) (hy : (32 : Int) ∣ y) {k : Int}
    (h0 : 0 < k) (hw : s.walker = Towards x y d k) {m : Nat} (hm : k + m ≤ 32) :
    (playerMovement.play (ticks l (List.replicate m (keyOf d))) s).walker =
        Towards x y d (k + m) ∧
      PlayerInv (playerMovement.play (ticks l (List.replicate m (keyOf d))) s) ∧
      (playerMovement.trail (ticks l (List.replicate m (keyOf d))) s).filterMap centreTile =
        [] := by
  induction m generalizing s k with
  | zero => exact ⟨by rw [Int.natCast_zero, Int.add_zero]; exact hw, hs, rfl⟩
  | succ m ih =>
    have hnc : ¬ s.walker.Centre 32 := by
      rw [hw]
      exact (towards_onEdge d h0 (by omega)).not_centre hx hy
    have hnext : (playerTick s l (keyOf d)).walker = Towards x y d (k + 1) := by
      rw [playerTick_hold hs (fun hc => absurd hc hnc) (fun _ => by rw [hw]; rfl), hw,
        towards_succ]
    obtain ⟨hend, hinv, htrail⟩ := ih (playerTick_inv hs l (keyOf d)) (by omega) hnext (by omega)
    rw [List.replicate_succ, play_ticks_cons, trail_ticks_cons,
      List.filterMap_cons_none (centreTile_of_not_centre hnc)]
    rw [show k + ((m + 1 : Nat) : Int) = k + 1 + m by omega]
    exact ⟨hend, hinv, htrail⟩

/-- From a centre the key of an open side, held for `32` ticks, leads to the next
centre, and meets only the first one before. -/
theorem play_leg_of_centre (hs : PlayerInv s) (hc : s.walker.Centre 32)
    (hopen : (s.turns l).through d = true) :
    (playerMovement.play (ticks l (List.replicate 32 (keyOf d))) s).walker =
        Towards s.walker.x s.walker.y d 32 ∧
      PlayerInv (playerMovement.play (ticks l (List.replicate 32 (keyOf d))) s) ∧
      (playerMovement.trail (ticks l (List.replicate 32 (keyOf d))) s).filterMap centreTile =
        (centreTile s).toList := by
  have hfirst := playerTick_hold hs (fun _ => hopen) (fun h => absurd hc h)
  obtain ⟨hend, hinv, htrail⟩ := play_hold_edge (l := l) (playerTick_inv hs l (keyOf d)) hc.1 hc.2
    (by omega) hfirst (m := 31) (by omega)
  rw [show (32 : Nat) = 31 + 1 from rfl, List.replicate_succ, play_ticks_cons,
    trail_ticks_cons, List.filterMap_cons, htrail]
  refine ⟨hend, hinv, ?_⟩
  cases centreTile s <;> rfl

end Hold

/-! ## Routes -/

/-- Side `d` of tile `p` is open. -/
def openSide (l : Layout) (p : Int × Int) (d : Side) : Prop :=
  (l.turns (BitVec.ofInt 5 p.1) (BitVec.ofInt 5 p.2)).through d = true

instance (l : Layout) (p : Int × Int) (d : Side) : Decidable (openSide l p d) :=
  inferInstanceAs (Decidable (_ = true))

/-- The player is on the centre of tile `p`. -/
def OnTile (s : PlayerReg) (p : Int × Int) : Prop := s.walker.At (32 * p.1) (32 * p.2)

theorem OnTile.centre {s : PlayerReg} {p : Int × Int} (h : OnTile s p) : s.walker.Centre 32 := by
  obtain ⟨hx, hy⟩ := h
  rw [Walker.Centre, hx, hy]
  exact ⟨Int.dvd_mul_right _ _, Int.dvd_mul_right _ _⟩

theorem OnTile.turns {s : PlayerReg} {p : Int × Int} (h : OnTile s p) (l : Layout) :
    s.turns l = l.turns (BitVec.ofInt 5 p.1) (BitVec.ofInt 5 p.2) := by
  obtain ⟨hx, hy⟩ := h
  simp only [PlayerReg.walker, moverWalker] at hx hy
  rw [PlayerReg.turns, tile_eq_ofInt hx, tile_eq_ofInt hy]

theorem OnTile.centreTile {s : PlayerReg} {p : Int × Int} (h : OnTile s p) :
    centreTile s = some p := by
  rw [SnakeMom.centreTile, if_pos (s.centre_iff.1 h.centre)]
  obtain ⟨hx, hy⟩ := h
  simp only [PlayerReg.walker, moverWalker] at hx hy
  rw [Option.some.injEq, hx, hy]
  exact Prod.ext (by simp only; omega) (by simp only; omega)

/-- The keys of a route: each one held for `32` ticks. -/
def routeKeys (w : List Side) : List (BitVec 16) :=
  w.flatMap fun d => List.replicate 32 (keyOf d)

/-- The tile centres that the player meets while keys are pressed. -/
def visitedTiles (l : Layout) (keys : List (BitVec 16)) (s : PlayerReg) : List (Int × Int) :=
  (playerMovement.trail (ticks l keys) s ++ [playerMovement.play (ticks l keys) s]).filterMap
    centreTile

/-- A tile is one leg away from its neighbour. -/
theorem onTile_of_towards {s s' : PlayerReg} {p : Int × Int} {d : Side} (h : OnTile s p)
    (hw : s'.walker = Towards s.walker.x s.walker.y d 32) : OnTile s' (d.next p) := by
  rw [OnTile, hw, Towards, h.1, h.2, Side.next]
  exact ⟨(Int.mul_add 32 p.1 d.dx).symm, (Int.mul_add 32 p.2 d.dy).symm⟩

/-- A route through open sides, walked key by key. -/
theorem play_routeKeys {l : Layout} {s : PlayerReg} {p : Int × Int} (hs : PlayerInv s)
    (hp : OnTile s p) {w : List Side} (hw : IsRoute (openSide l) p w) :
    OnTile (playerMovement.play (ticks l (routeKeys w)) s) (endOf p w) ∧
      visitedTiles l (routeKeys w) s = tilesOf p w := by
  induction w generalizing s p with
  | nil =>
    refine ⟨hp, ?_⟩
    rw [visitedTiles, routeKeys, List.flatMap_nil, tilesOf]
    exact List.filterMap_cons_some hp.centreTile
  | cons d w ih =>
    obtain ⟨hd, hw⟩ := hw
    have hopen : (s.turns l).through d = true := by
      rw [hp.turns l]
      exact hd
    obtain ⟨hend, hinv, htrail⟩ := play_leg_of_centre hs hp.centre hopen
    obtain ⟨hlast, hvisited⟩ := ih hinv (onTile_of_towards hp hend) hw
    rw [routeKeys, List.flatMap_cons, ← routeKeys, ticks_append, Machine.play_append]
    refine ⟨hlast, ?_⟩
    rw [visitedTiles, ticks_append, Machine.trail_append, Machine.play_append, List.append_assoc,
      List.filterMap_append, htrail, hp.centreTile, tilesOf, ← hvisited, visitedTiles]
    rfl

/-- Movement by pixels realises every route over tiles, in any fixed layout.  From
every reachable state on a tile centre the key of an open side, held for `32` ticks,
leads to the next centre.  And every route from the spawn tile through open sides has
keys whose visited centres are exactly its tiles. -/
theorem playerMovement_realises_routes (l : Layout) :
    (∀ (i : Nat → PlayerIn) (n : Nat) (d : Side),
        (playerMovement.run i n).walker.Centre 32 →
        ((playerMovement.run i n).turns l).through d = true →
        (playerMovement.play (ticks l (List.replicate 32 (keyOf d)))
            (playerMovement.run i n)).walker.At
          ((playerMovement.run i n).walker.x + 32 * d.dx)
          ((playerMovement.run i n).walker.y + 32 * d.dy)) ∧
      ∀ w : List Side, IsRoute (openSide l) (10, 10) w →
        ∃ keys, visitedTiles l keys .reset = tilesOf (10, 10) w := by
  constructor
  · intro i n d hc hopen
    rw [(play_leg_of_centre (playerMovement_inv i n) hc hopen).1]
    exact ⟨rfl, rfl⟩
  · intro w hw
    exact ⟨routeKeys w, (play_routeKeys playerInv_reset ⟨by decide, by decide⟩ hw).2⟩

/-- In the maze of the level: the first leg to the left, and a route with a turn. -/
theorem playerMovement_realises_routes_turn :
    (playerMovement.play (ticks levelLayout (List.replicate 32 keyA)) .reset).walker.At
        288 320 ∧
      ∃ keys, visitedTiles levelLayout keys .reset = [(10, 10), (9, 10), (9, 9), (9, 8)] := by
  obtain ⟨hleg, hroute⟩ := playerMovement_realises_routes levelLayout
  refine ⟨hleg (fun _ => ⟨true, levelLayout, 0⟩) 0 .left (by decide) (by decide), ?_⟩
  exact hroute [.left, .up, .up] ⟨by decide, by decide, by decide, trivial⟩

end SnakeMom
