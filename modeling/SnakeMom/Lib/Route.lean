import SnakeMom.Lib.GridWalk

/-!
# Routes over tiles

A route is a list of sides, taken from tile to tile.  `exits p d` says that side `d`
of tile `p` may be taken.

* `IsRoute` says that every side of the list may be taken where it is taken.  `endOf`
  is the last tile, `tilesOf` the list of all of them.
* `Connected` says that some route leads from one tile to another.  It is reflexive
  and transitive, and in a region where every exit leads back it is symmetric
  (`Connected.symm`).
-/

namespace GridWalk

/-- The tile behind side `d`. -/
def Side.next (d : Side) (p : Int × Int) : Int × Int := (p.1 + d.dx, p.2 + d.dy)

@[simp] theorem Side.opposite_next (d : Side) (p : Int × Int) :
    d.opposite.next (d.next p) = p := by
  simp [Side.next]

section Routes

variable (exits : Int × Int → Side → Prop)

/-- Every side of the list is an exit of the tile where it is taken. -/
def IsRoute : Int × Int → List Side → Prop
  | _, [] => True
  | p, d :: l => exits p d ∧ IsRoute (d.next p) l

/-- The tile where a route ends. -/
def endOf (p : Int × Int) (l : List Side) : Int × Int := l.foldl (fun q d => d.next q) p

/-- The tiles of a route, from the first to the last. -/
def tilesOf : Int × Int → List Side → List (Int × Int)
  | p, [] => [p]
  | p, d :: l => p :: tilesOf (d.next p) l

@[simp] theorem endOf_nil (p : Int × Int) : endOf p [] = p := rfl

@[simp] theorem endOf_cons (p : Int × Int) (d : Side) (l : List Side) :
    endOf p (d :: l) = endOf (d.next p) l := rfl

theorem endOf_append (p : Int × Int) (l l' : List Side) :
    endOf p (l ++ l') = endOf (endOf p l) l' :=
  List.foldl_append

variable {exits}

theorem isRoute_append {p : Int × Int} {l l' : List Side} :
    IsRoute exits p (l ++ l') ↔ IsRoute exits p l ∧ IsRoute exits (endOf p l) l' := by
  induction l generalizing p with
  | nil => simp [IsRoute]
  | cons d l ih => rw [List.cons_append, IsRoute, IsRoute, ih, endOf_cons, and_assoc]

/-- Every tile of a route ends some part of it. -/
theorem exists_prefix_of_mem_tilesOf {p q : Int × Int} {l : List Side} (h : q ∈ tilesOf p l) :
    ∃ l₁ l₂, l = l₁ ++ l₂ ∧ endOf p l₁ = q := by
  induction l generalizing p with
  | nil =>
    rw [tilesOf, List.mem_singleton] at h
    exact ⟨[], [], rfl, h.symm⟩
  | cons d l ih =>
    rw [tilesOf, List.mem_cons] at h
    rcases h with rfl | h
    · exact ⟨[], d :: l, rfl, rfl⟩
    · obtain ⟨l₁, l₂, rfl, hend⟩ := ih h
      exact ⟨d :: l₁, l₂, rfl, hend⟩

variable (exits)

/-- Some route leads from `p` to `q`. -/
def Connected (p q : Int × Int) : Prop := ∃ l, IsRoute exits p l ∧ endOf p l = q

variable {exits}

theorem Connected.refl (p : Int × Int) : Connected exits p p := ⟨[], trivial, rfl⟩

theorem Connected.trans {p q r : Int × Int} (h : Connected exits p q)
    (h' : Connected exits q r) : Connected exits p r := by
  obtain ⟨l, hl, rfl⟩ := h
  obtain ⟨l', hl', rfl⟩ := h'
  exact ⟨l ++ l', isRoute_append.2 ⟨hl, hl'⟩, endOf_append p l l'⟩

theorem Connected.single {p : Int × Int} {d : Side} (h : exits p d) :
    Connected exits p (d.next p) :=
  ⟨[d], ⟨h, trivial⟩, rfl⟩

/-- The tiles of a route are connected with its first one. -/
theorem connected_of_mem_tilesOf {p q : Int × Int} {l : List Side} (hl : IsRoute exits p l)
    (h : q ∈ tilesOf p l) : Connected exits p q := by
  obtain ⟨l₁, l₂, rfl, hend⟩ := exists_prefix_of_mem_tilesOf h
  exact ⟨l₁, (isRoute_append.1 hl).1, hend⟩

/-- A region that no exit leaves, and where every exit leads back. -/
structure Reversible (exits : Int × Int → Side → Prop) (region : Int × Int → Prop) : Prop where
  next : ∀ p d, region p → exits p d → region (d.next p)
  back : ∀ p d, region p → exits p d → exits (d.next p) d.opposite

/-- In a reversible region routes can be taken back. -/
theorem Connected.symm {region : Int × Int → Prop} (hrev : Reversible exits region)
    {p q : Int × Int} (hp : region p) (h : Connected exits p q) : Connected exits q p := by
  obtain ⟨l, hl, rfl⟩ := h
  induction l generalizing p with
  | nil => exact Connected.refl p
  | cons d l ih =>
    obtain ⟨hd, hl⟩ := hl
    have hback := Connected.single (hrev.back p d hp hd)
    rw [Side.opposite_next] at hback
    exact (ih (hrev.next p d hp hd) hl).trans hback

/-- A route stays in a reversible region. -/
theorem Connected.region {region : Int × Int → Prop} (hrev : Reversible exits region)
    {p q : Int × Int} (hp : region p) (h : Connected exits p q) : region q := by
  obtain ⟨l, hl, rfl⟩ := h
  induction l generalizing p with
  | nil => exact hp
  | cons d l ih =>
    obtain ⟨hd, hl⟩ := hl
    exact ih (hrev.next p d hp hd) hl

end Routes

end GridWalk
