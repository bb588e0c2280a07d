import Mathlib.Tactic.SplitIfs

/-!
# `gameState.sv`: the state machine of the game

Three states and one registered side output, `resetGame`.  A hit (`gameOver`)
leads back to `NEWGAME` from every state and raises `resetGame`; every other
transition lowers it.
-/

namespace SnakeMom

inductive ScreenState where
  | LEVEL1
  | BEAT1
  | NEWGAME
deriving DecidableEq, Repr

def keyEnter : BitVec 16 := 0x0028

@[ext] structure GameStateReg where
  state : ScreenState
  resetGame : Bool
deriving DecidableEq, Repr

namespace GameStateReg

/-- The values of the reset branch. -/
def reset : GameStateReg := ⟨.NEWGAME, true⟩

/-- The pair `(next_state, resetGameNext)`. -/
def next (s : GameStateReg) (keycode : BitVec 16) (gameOver screenCheck : Bool) :
    GameStateReg :=
  if gameOver then ⟨.NEWGAME, true⟩
  else
    match s.state with
    | .NEWGAME => if keycode = keyEnter then ⟨.LEVEL1, false⟩ else ⟨.NEWGAME, false⟩
    | .LEVEL1 => if screenCheck then ⟨.LEVEL1, false⟩ else ⟨.BEAT1, false⟩
    | .BEAT1 => if keycode = keyEnter then ⟨.LEVEL1, false⟩ else ⟨.BEAT1, false⟩

/-- The output `check`, which selects the closed layout. -/
def check (s : GameStateReg) : Bool :=
  match s.state with
  | .NEWGAME => true
  | .LEVEL1 => false
  | .BEAT1 => true

/-- The output `level`. -/
def level (s : GameStateReg) : Bool :=
  match s.state with
  | .NEWGAME => true
  | .LEVEL1 => true
  | .BEAT1 => true

@[simp] theorem level_eq (s : GameStateReg) : s.level = true := by
  unfold level
  split <;> rfl

@[simp] theorem next_gameOver (s : GameStateReg) (keycode : BitVec 16) (screenCheck : Bool) :
    s.next keycode true screenCheck = reset := rfl

/-- Without a hit the reset output goes down. -/
theorem next_resetGame (s : GameStateReg) (keycode : BitVec 16) (screenCheck : Bool) :
    (s.next keycode false screenCheck).resetGame = false := by
  simp only [next, Bool.false_eq_true, if_false]
  cases s.state with
  | NEWGAME => simp only; split_ifs <;> rfl
  | LEVEL1 => cases screenCheck <;> rfl
  | BEAT1 => simp only; split_ifs <;> rfl

/-- How each state is entered without a hit. -/
theorem next_eq_LEVEL1_iff (s : GameStateReg) (keycode : BitVec 16) (screenCheck : Bool) :
    (s.next keycode false screenCheck).state = .LEVEL1 ↔
      (s.state = .LEVEL1 ∧ screenCheck = true) ∨ (s.state ≠ .LEVEL1 ∧ keycode = keyEnter) := by
  simp only [next, Bool.false_eq_true, if_false]
  cases s.state with
  | NEWGAME => simp only; split_ifs with h <;> simp [h]
  | LEVEL1 => cases screenCheck <;> simp
  | BEAT1 => simp only; split_ifs with h <;> simp [h]

theorem next_eq_BEAT1_iff (s : GameStateReg) (keycode : BitVec 16) (screenCheck : Bool) :
    (s.next keycode false screenCheck).state = .BEAT1 ↔
      (s.state = .LEVEL1 ∧ screenCheck = false) ∨ (s.state = .BEAT1 ∧ keycode ≠ keyEnter) := by
  simp only [next, Bool.false_eq_true, if_false]
  cases s.state with
  | NEWGAME => simp only; split_ifs with h <;> simp
  | LEVEL1 => cases screenCheck <;> simp
  | BEAT1 => simp only; split_ifs with h <;> simp [h]

theorem next_eq_NEWGAME_iff (s : GameStateReg) (keycode : BitVec 16) (screenCheck : Bool) :
    (s.next keycode false screenCheck).state = .NEWGAME ↔
      s.state = .NEWGAME ∧ keycode ≠ keyEnter := by
  simp only [next, Bool.false_eq_true, if_false]
  cases s.state with
  | NEWGAME => simp only; split_ifs with h <;> simp [h]
  | LEVEL1 => cases screenCheck <;> simp
  | BEAT1 => simp only; split_ifs with h <;> simp

end GameStateReg

end SnakeMom
