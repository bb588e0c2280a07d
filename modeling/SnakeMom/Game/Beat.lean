import SnakeMom.Game.Level

/-!
# The beat screen

On the beat screen every wall is up, but the movers go on ticking and a contact
still restarts the game.  Where they go no longer depends on the maze or on the
random words, so it can be computed on the grid.

* `closedPlayer` and `closedGhost` are one tick on the closed board.  A player on a
  tile centre rests there.  A ghost does not: it leaves the tile upwards, and past
  the upper border it turns back.
* `playerCourse` and `ghostCourse` are the courses from a given edge on, under the
  ticks and the keys to come.
* `beat_onCourse` is the run lemma: as long as the courses do not touch, the game
  stays on the beat screen and the movers are on their courses.
  `lab8_beat_stays_iff` is the law that follows.
-/

namespace SnakeMom

open GridWalk Packed Sync

/-! ## The closed board -/

/-- The open side of a tile when every wall is up.  A tile past the border leads
back, and a tile of the board has none. -/
def closedExit (w : Walker) : Option Side :=
  if w.y = 0 then some .down
  else if 416 ≤ w.y then some .up
  else if w.x = 0 then some .right
  else if 416 ≤ w.x then some .left
  else none

/-- One tick of a ghost on the closed board. -/
def closedGhost (w : Walker) : Walker :=
  w.move (if w.Centre 32 then some ((closedExit w).getD .up) else w.heading)

/-- One tick of the player on the closed board. -/
def closedPlayer (key : Option Side) (w : Walker) : Walker :=
  w.move (if w.Centre 32 then
      (closedExit w).filter fun d => decide (key = some d ∨ w.heading = some d)
    else edgeHeading key w.heading)

/-- On a tile centre the default layout opens the exit of the closed board. -/
theorem defaultLayout_through_iff {posX posY : BitVec 10} {w : Walker} (hx : w.x = posX.toNat)
    (hy : w.y = posY.toNat) (hc : w.Centre 32) (d : Side) :
    (defaultLayout.turns (tile posX) (tile posY)).through d = true ↔ closedExit w = some d := by
  obtain ⟨hcx, hcy⟩ := hc
  have htx := toNat_tile posX
  have hty := toNat_tile posY
  unfold closedExit
  split_ifs with hy0 hy1 hx0 hx1
  · rw [Layout.turns, wallVerify_off_top _ _ _ (by omega)]
    cases d <;> decide
  · rw [Layout.turns, wallVerify_off_bottom _ _ _ (by omega)]
    cases d <;> decide
  · rw [Layout.turns, wallVerify_off_left _ _ (by omega) (by omega) (by omega)]
    cases d <;> decide
  · rw [Layout.turns, wallVerify_off_right _ _ (by omega) (by omega) (by omega)]
    cases d <;> decide
  · rw [defaultLayout_closed (by omega) (by omega) (by omega) (by omega)]
    cases d <;> decide

/-- Under the default layout a tick of a ghost is a tick on the closed board. -/
theorem ghostTick_closed {s : GhostReg} (hs : GhostInv 416 s) {i : GhostIn}
    (hl : i.layout = defaultLayout) : (ghostTick s i).walker = closedGhost s.walker := by
  rw [ghostTick_walker hs]
  have hh : ghostHeading s i =
      if s.walker.Centre 32 then some ((closedExit s.walker).getD .up) else s.walker.heading := by
    by_cases hc : s.walker.Centre 32
    · obtain ⟨d, hd, hexit⟩ := ghostHeading_centre hc i
      have hiff := fun e => defaultLayout_through_iff (w := s.walker) rfl rfl hc e
      rw [if_pos hc, hd]
      rw [ghostExits, GhostReg.turns, hl] at hexit
      rcases hexit with hopen | ⟨hclosed, rfl⟩
      · rw [(hiff d).1 hopen]
        rfl
      · have hnone : closedExit s.walker = none := by
          rw [Option.eq_none_iff_forall_ne_some]
          intro e he
          have := (hiff e).2 he
          rw [hclosed e] at this
          cases this
        rw [hnone]
        rfl
    · rw [if_neg hc, ghostHeading, if_neg (fun h => hc (s.centre_iff.2 h))]
  rw [ghostTarget, hh]
  rfl

/-- With at most one side open, the player takes it on its key or carries on
through it. -/
theorem centreHeading_of_exit {t : Turns} {e : Option Side}
    (ht : ∀ d, t.through d = true ↔ e = some d) (key h : Option Side) :
    centreHeading t key h = e.filter fun d => decide (key = some d ∨ h = some d) := by
  cases e with
  | none =>
    rw [centreHeading_closed (fun d => by rw [← Bool.not_eq_true, ht]; simp)]
    rfl
  | some d =>
    have hopen : t.through d = true := (ht d).2 rfl
    have honly : ∀ k, t.through k = true → k = d := fun k hk =>
      (Option.some.inj ((ht k).1 hk)).symm
    cases hc : centreHeading t key h with
    | some k =>
      have hk := honly k (centreHeading_open hc)
      subst hk
      have hor : key = some k ∨ h = some k := by
        by_contra hno
        rw [not_or] at hno
        have hkey : key.filter t.through = none := by
          rw [Option.filter_eq_none_iff]
          exact fun a ha hopen' => hno.1 (by rw [ha, honly a hopen'])
        simp only [centreHeading, hkey, Option.filter_eq_some_iff] at hc
        exact hno.2 hc.1
      rw [Option.filter_some, if_pos (by simpa using hor)]
    | none =>
      have hno : ¬ (key = some d ∨ h = some d) := by
        intro hor
        rcases hor with rfl | rfl
        · simp [centreHeading, Option.filter, hopen] at hc
        · unfold centreHeading at hc
          split at hc
          · exact absurd hc (by simp)
          · simp [Option.filter, hopen] at hc
      rw [Option.filter_some, if_neg (by simpa using hno)]

/-- Under the default layout a tick of the player is a tick on the closed board. -/
theorem playerTick_closed {s : PlayerReg} (hs : PlayerInv s) (keycode : BitVec 16) :
    (playerTick s defaultLayout keycode).walker = closedPlayer (keySide keycode) s.walker := by
  rw [playerTick_walker hs, playerTarget, closedPlayer, playerHeading]
  by_cases hc : s.walker.Centre 32
  · rw [if_pos (s.centre_iff.1 hc), if_pos hc,
      centreHeading_of_exit (fun d => defaultLayout_through_iff (w := s.walker) rfl rfl hc d)]
    rfl
  · rw [if_neg (fun h => hc (s.centre_iff.2 h)), if_neg hc]
    rfl

/-! ## Courses -/

section Course

variable (i : Nat → GameIn) (n : Nat) (w : Walker)

/-- The course of a mover from edge `n` on: it moves at the edges on which its clock
rises. -/
def course (rises : GameIn → Bool) (move : GameIn → Walker → Walker) : Nat → Walker
  | 0 => w
  | k + 1 =>
    if rises (i (n + k)) then move (i (n + k)) (course rises move k) else course rises move k

/-- The course of the player on the closed board. -/
def playerCourse : Nat → Walker :=
  course i n w GameIn.clkDivide fun a => closedPlayer (keySide a.playerKeycode)

/-- The course of a ghost on the closed board. -/
def ghostCourse : Nat → Walker := course i n w GameIn.clkGhost fun _ => closedGhost

/-- A course only depends on the samples from its edge on. -/
theorem course_congr (i' : Nat → GameIn) (n' : Nat) {k : Nat}
    (h : ∀ l < k, i (n + l) = i' (n' + l)) (rises : GameIn → Bool)
    (move : GameIn → Walker → Walker) :
    course i n w rises move k = course i' n' w rises move k := by
  induction k with
  | zero => rfl
  | succ k ih =>
    rw [course, course, ih fun l hl => h l (Nat.lt_succ_of_lt hl), h k (Nat.lt_succ_self k)]

end Course

/-- No key Enter and no hardware reset at the edges from `n` to `m`. -/
def Quiet (i : Nat → GameIn) (n m : Nat) : Prop :=
  ∀ k, n ≤ k → k ≤ m → (i k).KEY0 = true ∧ (i k).keycode ≠ keyEnter

/-- The courses of the player and of some ghost touch, `k` edges after edge `n`. -/
def CoursesTouch (s : Game) (i : Nat → GameIn) (n k : Nat) : Prop :=
  ∃ c, Touch 16 (playerCourse i n s.player.walker k) (ghostCourse i n (s.ghost c).walker k)

/-- The game is on the beat screen, with the movers on the courses they had `k`
edges ago in state `s`. -/
structure OnCourse (s : Game) (i : Nat → GameIn) (n k : Nat) (t : Game) : Prop where
  state : t.gameState.state = .BEAT1
  player : t.player.walker = playerCourse i n s.player.walker k
  ghost : ∀ c, (t.ghost c).walker = ghostCourse i n (s.ghost c).walker k

namespace Game

/-- On the beat screen an edge without Enter, hardware reset and hit stays there and
moves the movers on the closed board. -/
theorem edge_beat {s : Game} (hs : Inv s) (hstate : s.gameState.state = .BEAT1) {i : GameIn}
    (hkey : i.KEY0 = true) (hcode : i.keycode ≠ keyEnter)
    (hhit : s.playerHitDetectFinal = false) :
    (s.edge i).gameState.state = .BEAT1 ∧
      (s.edge i).player.walker =
        (if i.clkDivide then closedPlayer (keySide i.playerKeycode) s.player.walker
          else s.player.walker) ∧
      ∀ c, ((s.edge i).ghost c).walker =
        if i.clkGhost then closedGhost (s.ghost c).walker else (s.ghost c).walker := by
  have hlow := hs.gameReset_of_state (by rw [hstate]; decide)
  have hrun := edge_of_not_reset
    ((s.edge_gameReset_iff i).2 ⟨hkey, Reset_h_of_gameReset hlow, hhit⟩)
  have hbeat : (s.edge i).gameState.state = .BEAT1 := by
    rw [hrun.gameState, GameStateReg.next_eq_BEAT1_iff]
    exact Or.inr ⟨hstate, hcode⟩
  have hseen : ∀ late, s.seenReset i late = false := fun late => by
    rw [hrun.seenReset, hlow, Bool.and_false]
  have hclosed : ∀ late, s.seenLayout i late = defaultLayout :=
    hrun.seenLayout_default (by rw [hstate]; decide) (by rw [hbeat]; decide)
  refine ⟨hbeat, ?_, fun c => ?_⟩
  · rw [hrun.player, playerEdge, playerMove, playerIn, hseen, hclosed]
    cases i.clkDivide with
    | false => rfl
    | true => exact playerTick_closed hs.player i.playerKeycode
  · rw [hrun.ghost c, ghostEdge, ghostMove, ghostIn, hseen, hclosed]
    cases i.clkGhost with
    | false => rfl
    | true => exact ghostTick_closed (hs.ghost c) rfl

/-- On its courses the game has a hit exactly when the courses touch. -/
theorem hit_iff_coursesTouch {s t : Game} {i : Nat → GameIn} {n k : Nat} (ht : Inv t)
    (h : OnCourse s i n k t) : t.playerHitDetectFinal = true ↔ CoursesTouch s i n k := by
  rw [playerHitDetectFinal_iff]
  refine exists_congr fun c => ?_
  rw [playerHitDetect_iff ht, h.player, h.ghost c]

end Game

/-! ## The law -/

/-- Without Enter and hardware reset, and as long as the courses do not touch, the
game stays on the beat screen and on its courses. -/
theorem beat_onCourse {i : Nat → GameIn} {n : Nat}
    (hstate : (lab8.run i n).gameState.state = .BEAT1) {m : Nat}
    (hquiet : ∀ k < m, (i (n + k)).KEY0 = true ∧ (i (n + k)).keycode ≠ keyEnter)
    (hno : ∀ k < m, ¬ CoursesTouch (lab8.run i n) i n k) :
    OnCourse (lab8.run i n) i n m (lab8.run i (n + m)) := by
  induction m with
  | zero => exact ⟨hstate, rfl, fun _ => rfl⟩
  | succ m ih =>
    have hprev := ih (fun k hk => hquiet k (by omega)) (fun k hk => hno k (by omega))
    have hinv := lab8_inv i (n + m)
    obtain ⟨hkey, hcode⟩ := hquiet m (Nat.lt_succ_self m)
    have hhit : (lab8.run i (n + m)).playerHitDetectFinal = false := by
      rw [← Bool.not_eq_true, Game.hit_iff_coursesTouch hinv hprev]
      exact hno m (Nat.lt_succ_self m)
    obtain ⟨hbeat, hplayer, hghost⟩ := Game.edge_beat hinv hprev.state hkey hcode hhit
    refine ⟨hbeat, ?_, fun c => ?_⟩
    · rw [← Nat.add_assoc, lab8_succ, hplayer, hprev.player]
      rfl
    · rw [← Nat.add_assoc, lab8_succ, hghost c, hprev.ghost c]
      rfl

/-- A hit on the beat screen leads to the start screen. -/
theorem beat_lost {i : Nat → GameIn} {n : Nat}
    (hhit : (lab8.run i n).playerHitDetectFinal = true) :
    (lab8.run i (n + 1)).gameState.state = .NEWGAME := by
  rw [lab8_succ, Game.edge_gameState_of_reset (Game.edge_gameReset_of_hit hhit (i n))]
  rfl

/-- From any edge on the beat screen on, the level stays beaten until Enter or a hardware
reset exactly if the courses of the player and of a ghost on the closed board do not touch
before that. -/
theorem lab8_beat_stays_iff (i : Nat → GameIn) {n : Nat}
    (hstate : (lab8.run i n).gameState.state = .BEAT1) :
    (∀ k, Quiet i n (n + k) → (lab8.run i (n + k + 1)).gameState.state = .BEAT1) ↔
      ∀ k, Quiet i n (n + k) → ¬ CoursesTouch (lab8.run i n) i n k := by
  constructor
  · intro h k hquiet
    induction k using Nat.strongRecOn with
    | ind k ih =>
      have hon := beat_onCourse hstate (m := k)
        (fun j hj => hquiet (n + j) (by omega) (by omega))
        (fun j hj => ih j hj (fun l h1 h2 => hquiet l h1 (by omega)))
      intro htouch
      have hlost := beat_lost ((Game.hit_iff_coursesTouch (lab8_inv i (n + k)) hon).2 htouch)
      rw [h k hquiet] at hlost
      cases hlost
  · intro h k hquiet
    have hon := beat_onCourse hstate (m := k + 1)
      (fun j hj => hquiet (n + j) (by omega) (by omega))
      (fun j hj => h j (fun l h1 h2 => hquiet l h1 (by omega)))
    exact hon.state

/-- An edge with a tick of the ghosts and none of the player. -/
def haunt : GameIn := ⟨true, 0, 0, 0, 0, 0, false, true, false, false, 0⟩

/-- The walkers at the victory: the player rests on the tile `(6, 5)`, and the ghosts wait
at their start tile. -/
structure Victory (s : Game) : Prop where
  state : s.gameState.state = .BEAT1
  player : s.player.walker = ⟨192, 160, some .right⟩
  ghost : ∀ c, (s.ghost c).walker = ⟨192, 192, none⟩

theorem victory_onScreen (b : CoinBank) :
    Victory (onScreen .BEAT1 (Along 5 5 .right 32) b) :=
  ⟨rfl, rfl, fun c => by cases c <;> rfl⟩

/-- The courses touch after `16` ticks of the ghosts and not before. -/
theorem coursesTouch_haunt {s : Game} (hs : Victory s) {i : Nat → GameIn} {n k : Nat}
    (hi : ∀ l < k, i (n + l) = haunt) (hk : k ≤ 16) : CoursesTouch s i n k ↔ k = 16 := by
  have hcourse : CoursesTouch s i n k ↔
      Touch 16 (playerCourse (fun _ => haunt) 0 ⟨192, 160, some .right⟩ k)
        (ghostCourse (fun _ => haunt) 0 ⟨192, 192, none⟩ k) := by
    simp only [CoursesTouch, hs.player, hs.ghost, playerCourse, ghostCourse]
    rw [course_congr i n _ (fun _ => haunt) 0 hi, course_congr i n _ (fun _ => haunt) 0 hi]
    exact ⟨fun ⟨_, h⟩ => h, fun h => ⟨.red, h⟩⟩
  rw [hcourse]
  clear hcourse hi
  revert k
  decide +kernel

/-- Fifteen ticks of the ghosts after the victory, and Enter with the next edge. -/
def shortHaunt : Nat → GameIn :=
  Machine.stream (wonLevel ++ List.replicate 15 haunt) (wait keyEnter)

/-- Until then the level stays beaten. -/
theorem lab8_beat_stays_iff_short :
    (lab8.run shortHaunt (wonLevel.length + 14 + 1)).gameState.state = .BEAT1 := by
  have hwon : lab8.run shortHaunt wonLevel.length = lab8.play wonLevel lab8.init := by
    rw [shortHaunt, Machine.run_stream_take _ _ _ (by simp), List.take_left]
  have hvictory : Victory (lab8.run shortHaunt wonLevel.length) := by
    rw [hwon, play_wonLevel]
    exact victory_onScreen _
  have hhaunt : ∀ k < 15, shortHaunt (wonLevel.length + k) = haunt := fun k hk => by
    rw [shortHaunt, Machine.stream, List.getD_append_right _ _ _ _ (Nat.le_add_right _ _),
      Nat.add_sub_cancel_left, List.getD_replicate _ hk]
  refine (lab8_beat_stays_iff shortHaunt hvictory.state).2 (fun k hquiet => ?_) 14 ?_
  · have hk : k < 15 := by
      by_contra hge
      have henter := (hquiet (wonLevel.length + 15) (by omega) (by omega)).2
      have hlast := Machine.stream_length (wonLevel ++ List.replicate 15 haunt) (wait keyEnter)
      rw [List.length_append, List.length_replicate] at hlast
      exact henter (by rw [shortHaunt, hlast]; rfl)
    rw [coursesTouch_haunt hvictory (fun l hl => hhaunt l (by omega)) (by omega)]
    omega
  · intro k h0 h1
    obtain ⟨l, hl⟩ := Nat.exists_eq_add_of_le h0
    rw [hl, hhaunt l (by omega)]
    decide

theorem quiet_haunt {i : Nat → GameIn} {n : Nat} (hi : ∀ k, i (n + k) = haunt) (m : Nat) :
    Quiet i n m := by
  intro k h0 _
  obtain ⟨j, rfl⟩ := Nat.exists_eq_add_of_le h0
  rw [hi j]
  decide

/-- From the victory on, ticks of the ghosts alone lead to a loss. -/
theorem beat_lost_of_haunt {i : Nat → GameIn} {n : Nat} (hwon : Victory (lab8.run i n))
    (hi : ∀ k, i (n + k) = haunt) :
    (lab8.run i (n + 16 + 1)).gameState.state = .NEWGAME := by
  have htouch (k : Nat) (hk : k ≤ 16) := coursesTouch_haunt hwon (fun l _ => hi l) hk
  have hon := beat_onCourse hwon.state (m := 16) (fun k _ => by rw [hi k]; decide)
    fun k hk h => absurd ((htouch k (by omega)).1 h) (by omega)
  exact beat_lost ((Game.hit_iff_coursesTouch (lab8_inv i (n + 16)) hon).2
    ((htouch 16 (Nat.le_refl 16)).2 rfl))

/-- The ghosts climb from their closed start tile, and the victory turns into a loss
without Enter. -/
theorem lab8_beat_lost :
    (lab8.run (Machine.stream wonLevel haunt) wonLevel.length).gameState.state = .BEAT1 ∧
      Quiet (Machine.stream wonLevel haunt) wonLevel.length (wonLevel.length + 16) ∧
      (lab8.run (Machine.stream wonLevel haunt) (wonLevel.length + 16 + 1)).gameState.state
        = .NEWGAME := by
  have hi := Machine.stream_length_add wonLevel haunt
  have hwon : Victory (lab8.run (Machine.stream wonLevel haunt) wonLevel.length) := by
    rw [lab8.run_stream wonLevel haunt, play_wonLevel]
    exact victory_onScreen _
  exact ⟨hwon.state, quiet_haunt hi _, beat_lost_of_haunt hwon hi⟩

end SnakeMom
