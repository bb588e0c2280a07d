import SnakeMom.Game.Walkthrough

/-!
# Contact and overlap

The contact test of a ghost looks for the exact distance `16`.  Between two edges
of `Clk` the player and a ghost may both move, so an edge on which both clocks rise
can jump over that distance.

* `JumpsContact` is the condition on one edge: both movers tick, they are about to
  touch, and their headings close the distance by two.
* `edge_separate_iff` is the step lemma, and `lab8_separate` is the law of a run: no
  ghost ever overlaps the player exactly if no edge jumps.
* `lab8_separate_of_one_clock` says that a run in which the two clocks never rise
  together is safe.
-/

namespace SnakeMom

open GridWalk Packed Sync

namespace Game

/-- The boxes of the player and of a ghost overlap. -/
def Overlaps (s : Game) (c : Ghost) : Prop :=
  Overlap 16 s.player.walker (s.ghost c).walker

/-- The boxes of the player and of a ghost touch. -/
def Touches (s : Game) (c : Ghost) : Prop :=
  Touch 16 s.player.walker (s.ghost c).walker

/-- No ghost overlaps the player. -/
def Separate (s : Game) : Prop := ∀ c, ¬ s.Overlaps c

/-- At this edge no reset is up, both movers tick, and their headings jump over the
contact: head on from distance `17`, or round a corner from `16` on both axes. -/
structure JumpsContact (s : Game) (i : GameIn) (c : Ghost) : Prop where
  KEY0 : i.KEY0 = true
  no_reset : s.gameReset = false
  no_hit : s.playerHitDetectFinal = false
  clkDivide : i.clkDivide = true
  clkGhost : i.clkGhost = true
  jumps : Jumps 16 s.player.walker (s.ghost c).walker (s.playerTickHeading i)
    (s.ghostTickHeading i c)

/-- The start tiles are far apart. -/
theorem Fresh.separate {s : Game} (h : Fresh s) : s.Separate := by
  intro c
  rw [Overlaps, h.player, h.ghost c]
  decide

/-- From the start tiles no pair of moves jumps. -/
theorem Fresh.not_jumps {s : Game} (h : Fresh s) (c : Ghost) (hp hg : Option Side) :
    ¬ Jumps 16 s.player.walker (s.ghost c).walker hp hg := by
  rw [h.player, h.ghost c]
  rcases hp with _ | d
  · exact not_jumps_alone (Or.inl rfl)
  · rcases hg with _ | e
    · exact not_jumps_alone (Or.inr rfl)
    · cases d <;> cases e <;> decide

/-- The moves of an edge that leaves the reset down jump exactly if both movers tick
and their headings jump. -/
theorem jumps_next_iff {s : Game} (hs : Inv s) {i : GameIn} (hr : (s.edge i).gameReset = false)
    (c : Ghost) :
    Jumps 16 s.player.walker (s.ghost c).walker (s.playerNext i) (s.ghostNext i c) ↔
      JumpsContact s i c := by
  obtain ⟨hkey, _, hhit⟩ := (s.edge_gameReset_iff i).1 hr
  constructor
  · intro h
    have hlow : s.gameReset = false := by
      rw [← Bool.not_eq_true]
      exact fun hup => (hs.fresh hup).not_jumps c _ _ h
    unfold playerNext ghostNext at h
    by_cases hp : i.clkDivide = true ∧ (s.playerIn i).Reset = false
    · by_cases hg : i.clkGhost = true ∧ (s.ghostIn i c).Reset = false
      · rw [if_pos hp, if_pos hg] at h
        exact ⟨hkey, hlow, hhit, hp.1, hg.1, h⟩
      · rw [if_neg hg] at h
        exact absurd h (not_jumps_alone (Or.inr rfl))
    · rw [if_neg hp] at h
      exact absurd h (not_jumps_alone (Or.inl rfl))
  · intro hj
    have hseen : ∀ late, s.seenReset i late = false := fun late => by
      rw [(edge_of_not_reset hr).seenReset, hj.no_reset, Bool.and_false]
    rw [playerNext, ghostNext, if_pos ⟨hj.clkDivide, hseen _⟩, if_pos ⟨hj.clkGhost, hseen _⟩]
    exact hj.jumps

/-- An edge keeps the ghosts off the player exactly if none of them jumps. -/
theorem edge_separate_iff {s : Game} (hs : Inv s) (i : GameIn) (hsep : s.Separate) :
    (s.edge i).Separate ↔ ∀ c, ¬ JumpsContact s i c := by
  cases hr : (s.edge i).gameReset with
  | true =>
    refine iff_of_true (s.edge_of_reset i hr).separate (fun c hj => ?_)
    exact not_low_of_reset hr hj.KEY0 (Reset_h_of_gameReset hj.no_reset) hj.no_hit
  | false =>
    have hhit := ((s.edge_gameReset_iff i).1 hr).2.2
    refine forall_congr' fun c => not_congr ?_
    have hnt : ¬ Touch 16 s.player.walker (s.ghost c).walker := by
      intro ht
      have hc := s.playerHitDetectFinal_iff.2 ⟨c, (playerHitDetect_iff hs c).2 ht⟩
      rw [hhit] at hc
      cases hc
    rw [Overlaps, overlap_after_iff (by omega) (hsep c) hnt (edge_player_moved hs hr)
      (edge_ghost_moved hs hr c), jumps_next_iff hs hr]

/-- An edge with at most one of the two clocks does not jump. -/
theorem not_jumpsContact_of_one_clock {s : Game} {i : GameIn} {c : Ghost}
    (hone : i.clkDivide = false ∨ i.clkGhost = false) : ¬ JumpsContact s i c := by
  intro hj
  rcases hone with h | h
  · exact absurd hj.clkDivide (by rw [h]; decide)
  · exact absurd hj.clkGhost (by rw [h]; decide)

/-- A contact raises `killPlayer`, and the next edge resets the board. -/
theorem Touches.reset {s : Game} (hs : Inv s) {c : Ghost} (h : s.Touches c) (i : GameIn) :
    s.playerHitDetect c = true ∧ (s.edge i).gameReset = true := by
  have hc := (playerHitDetect_iff hs c).2 h
  exact ⟨hc, edge_gameReset_of_hit (s.playerHitDetectFinal_iff.2 ⟨c, hc⟩) i⟩

end Game

/-- No ghost ever overlaps the player exactly if no edge jumps. -/
theorem lab8_separate (i : Nat → GameIn) :
    (∀ n, (lab8.run i n).Separate) ↔ ∀ n c, ¬ Game.JumpsContact (lab8.run i n) (i n) c :=
  lab8.run_iff (Q := fun s a => ∀ c, ¬ Game.JumpsContact s a c) (lab8_inv i)
    Game.fresh_hardReset.separate (fun _ a hs hsep => Game.edge_separate_iff hs a hsep)

/-- With one clock at a time no ghost ever overlaps the player. -/
theorem lab8_separate_of_one_clock {i : Nat → GameIn}
    (hone : ∀ n, (i n).clkDivide = false ∨ (i n).clkGhost = false) (n : Nat) :
    (lab8.run i n).Separate :=
  (lab8_separate i).2 (fun m _ => Game.not_jumpsContact_of_one_clock (hone m)) n

/-- The law of contact, for a run.  No ghost ever overlaps the player, and every
contact raises `killPlayer` and resets the board at the next edge, exactly if no
edge on which both clocks rise jumps over the contact. -/
theorem lab8_contact_detected_iff (i : Nat → GameIn) :
    (∀ n c, ¬ (lab8.run i n).Overlaps c ∧
        ((lab8.run i n).Touches c → (lab8.run i n).playerHitDetect c = true ∧
          (lab8.run i (n + 1)).gameReset = true)) ↔
      ∀ n c, ¬ Game.JumpsContact (lab8.run i n) (i n) c := by
  rw [← lab8_separate]
  constructor
  · intro h n c
    exact (h n c).1
  · intro h n c
    exact ⟨h n c, fun ht => ht.reset (lab8_inv i n) (i n)⟩

/-- An edge on which both clocks rise, with the key left; a ghost that reads its
first pair of random bits turns right. -/
def bothClocks : GameIn := ⟨true, keyA, 1, 1, 1, 1, true, true, false, false, 0⟩

/-- The player walks left towards the ghosts up to distance `17`, and then both
clocks rise. -/
def headOn : List GameIn := approach 14 ++ [bothClocks]

/-- The registers after the last edge: the player at `(208, 192)`, the ghosts at
`(193, 192)`. -/
theorem play_headOn :
    (lab8.play headOn lab8.init).player = Along 7 6 .left 16 ∧
      ∀ c, (lab8.play headOn lab8.init).ghost c = ⟨193, 192, 1, 0, 1, 0, 1⟩ := by
  rw [headOn, Machine.play_append, play_approach (by omega), Machine.play_cons,
    Machine.play_nil, show lab8.step = Game.edge from rfl]
  have hhit := along_no_hit (c := 7) (r := 6) (d := .left) (p := Along 7 6 .left 15) (k := 15)
    (by decide) (by decide) (by decide) rfl rfl .LEVEL1
    (bankOf ((7, 6) :: (Spot.start.after contactRoute).visited)) (by decide)
  have hrun := Game.edge_of_not_reset
    ((Game.edge_gameReset_iff _ bothClocks).2 ⟨rfl, rfl, hhit⟩)
  refine ⟨?_, fun c => ?_⟩
  · exact hrun.player.trans (along_succ 7 6 .left (by omega) (by omega) levelLayout)
  · rw [show ((14 : Nat) : Int) + 1 = 15 from rfl, hrun.ghost c]
    cases c <;> rfl

/-- The edge goes from distance `17` to distance `15`; no contact is reported. -/
theorem lab8_headOn_overlaps :
    (lab8.run (Machine.stream headOn (wait 0)) headOn.length).player.walker.At 208 192 ∧
      ((lab8.run (Machine.stream headOn (wait 0)) headOn.length).ghost .red).walker.At 193 192 ∧
      (lab8.run (Machine.stream headOn (wait 0)) headOn.length).Overlaps .red ∧
      (lab8.run (Machine.stream headOn (wait 0)) headOn.length).playerHitDetectFinal = false := by
  obtain ⟨hp, hg⟩ := play_headOn
  rw [Machine.run_stream, Game.Overlaps, hp, hg .red]
  refine ⟨by decide, by decide, by decide, ?_⟩
  refine Game.playerHitDetectFinal_eq_false fun c => ?_
  rw [Game.playerHitDetect, hp, hg c]
  rfl

end SnakeMom
