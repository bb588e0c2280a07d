import Mathlib.Tactic.ByContra
import Mathlib.Data.List.Basic

/-!
# Clocked machines and their runs

A clocked machine is an initial register value and a step that is applied at
every clock edge to the values sampled there.  A run is driven by an infinite
stream of samples, so a statement about `run i n` for every stream `i` and every
`n` is a statement about every reachable state.

There are three groups.

* The induction rules.  `run_invariant` is the plain rule.  `run_iff` is the
  exact rule: when, under an invariant, a step keeps `P` exactly if it is
  admissible, then `P` holds along the whole run exactly if every step of the
  run is admissible.  `run_map` carries a run over to another machine.
* Plays.  `play` runs the machine over a finite list of samples, `trail` lists the
  registers it goes through, and `run_stream` embeds a play in a run.
* History.  `Since reset event n` says that `event` has happened before edge `n`
  with no `reset` at or after it.  `latch_eq_since` says that a set and reset
  latch remembers exactly that.
-/

namespace Sync

/-- A clocked machine over registers `σ`; one value of `ι` is sampled at each
edge. -/
structure Machine (ι σ : Type*) where
  init : σ
  step : σ → ι → σ

namespace Machine

variable {ι σ : Type*} (M : Machine ι σ)

/-- The registers just before edge `n`, when edge `k` samples `i k`. -/
def run (i : Nat → ι) : Nat → σ
  | 0 => M.init
  | n + 1 => M.step (run i n) (i n)

@[simp] theorem run_zero (i : Nat → ι) : M.run i 0 = M.init := rfl

theorem run_succ (i : Nat → ι) (n : Nat) :
    M.run i (n + 1) = M.step (M.run i n) (i n) := rfl

/-! ## Induction rules -/

/-- What holds initially and is kept by every step holds along every run. -/
theorem run_invariant {P : σ → Prop} (hinit : P M.init)
    (hstep : ∀ s a, P s → P (M.step s a)) (i : Nat → ι) (n : Nat) :
    P (M.run i n) := by
  induction n with
  | zero => exact hinit
  | succ n ih => exact hstep _ _ ih

/-- The exact rule.  Under an invariant `J`, if a step keeps `P` exactly when it
is admissible, then a run keeps `P` exactly when all its steps are. -/
theorem run_iff {J P : σ → Prop} {Q : σ → ι → Prop} {i : Nat → ι}
    (hJ : ∀ n, J (M.run i n)) (hinit : P M.init)
    (hstep : ∀ s a, J s → P s → (P (M.step s a) ↔ Q s a)) :
    (∀ n, P (M.run i n)) ↔ ∀ n, Q (M.run i n) (i n) := by
  constructor
  · intro hP n
    exact (hstep _ _ (hJ n) (hP n)).1 (hP (n + 1))
  · intro hQ n
    induction n with
    | zero => exact hinit
    | succ n ih => exact (hstep _ _ (hJ n) ih).2 (hQ n)

/-- The functional simulation rule.  If every step of `M`, seen through `f`, is a step of
`N` on a sample that `g` makes, then a run of `M` is a run of `N`. -/
theorem run_map {κ τ : Type*} {N : Machine κ τ} {f : σ → τ} {g : σ → ι → κ}
    (hinit : f M.init = N.init) (hstep : ∀ s a, f (M.step s a) = N.step (f s) (g s a))
    (i : Nat → ι) (n : Nat) :
    f (M.run i n) = N.run (fun k => g (M.run i k) (i k)) n := by
  induction n with
  | zero => exact hinit
  | succ n ih => rw [run_succ, run_succ, hstep, ih]

/-! ## Plays -/

/-- The registers after a finite list of samples. -/
def play (l : List ι) (s : σ) : σ := l.foldl M.step s

@[simp] theorem play_nil (s : σ) : M.play [] s = s := rfl

@[simp] theorem play_cons (a : ι) (l : List ι) (s : σ) :
    M.play (a :: l) s = M.play l (M.step s a) := rfl

theorem play_append (l l' : List ι) (s : σ) :
    M.play (l ++ l') s = M.play l' (M.play l s) :=
  List.foldl_append

/-- The registers at each sample of a list, just before it is taken. -/
def trail : List ι → σ → List σ
  | [], _ => []
  | a :: l, s => s :: trail l (M.step s a)

@[simp] theorem trail_cons (a : ι) (l : List ι) (s : σ) :
    M.trail (a :: l) s = s :: M.trail l (M.step s a) := rfl

theorem trail_append (l l' : List ι) (s : σ) :
    M.trail (l ++ l') s = M.trail l s ++ M.trail l' (M.play l s) := by
  induction l generalizing s with
  | nil => rfl
  | cons a l ih => rw [List.cons_append, trail_cons, trail_cons, play_cons, ih, List.cons_append]

/-- The stream that offers the samples of `l` and then `a` for ever. -/
def stream (l : List ι) (a : ι) : Nat → ι := fun n => l.getD n a

@[simp] theorem stream_length_add (l : List ι) (a : ι) (k : Nat) :
    stream l a (l.length + k) = a := by
  simp [stream, List.getD_eq_getElem?_getD]

@[simp] theorem stream_length (l : List ι) (a : ι) : stream l a l.length = a :=
  stream_length_add l a 0

/-- The run of a stream goes through the play of each prefix. -/
theorem run_stream_take (l : List ι) (a : ι) {n : Nat} (hn : n ≤ l.length) :
    M.run (stream l a) n = M.play (l.take n) M.init := by
  induction n with
  | zero => rfl
  | succ n ih =>
    have hlt : n < l.length := hn
    rw [run_succ, ih (Nat.le_of_lt hlt), List.take_succ_eq_append_getElem hlt,
      play_append]
    simp [stream, List.getD_eq_getElem?_getD, hlt]

/-- The run of a stream reaches the play of its list. -/
theorem run_stream (l : List ι) (a : ι) :
    M.run (stream l a) l.length = M.play l M.init := by
  rw [run_stream_take M l a (Nat.le_refl _), List.take_length]

end Machine

/-! ## History -/

/-- `event` has happened at an edge before `n`, with no `reset` at that edge or
at any later one before `n`. -/
def Since (reset event : Nat → Prop) (n : Nat) : Prop :=
  ∃ m < n, event m ∧ ∀ k, m ≤ k → k < n → ¬ reset k

@[simp] theorem since_zero (reset event : Nat → Prop) : ¬ Since reset event 0 := by
  intro h
  obtain ⟨m, hm, _⟩ := h
  exact Nat.not_lt_zero m hm

/-- How the history grows by one edge. -/
theorem since_succ (reset event : Nat → Prop) (n : Nat) :
    Since reset event (n + 1) ↔ ¬ reset n ∧ (event n ∨ Since reset event n) := by
  constructor
  · intro h
    obtain ⟨m, hm, hev, hno⟩ := h
    refine ⟨hno n (Nat.le_of_lt_succ hm) (Nat.lt_succ_self n), ?_⟩
    rcases Nat.lt_succ_iff_lt_or_eq.mp hm with hlt | rfl
    · exact Or.inr ⟨m, hlt, hev, fun k hmk hkn => hno k hmk (Nat.lt_succ_of_lt hkn)⟩
    · exact Or.inl hev
  · intro h
    obtain ⟨hno, hev | ⟨m, hm, hev, hold⟩⟩ := h
    · refine ⟨n, Nat.lt_succ_self n, hev, fun k hnk hk => ?_⟩
      rwa [show k = n by omega]
    · refine ⟨m, Nat.lt_succ_of_lt hm, hev, fun k hmk hk => ?_⟩
      rcases Nat.lt_succ_iff_lt_or_eq.mp hk with hlt | rfl
      · exact hold k hmk hlt
      · exact hno

/-- Only the edges after a reset count. -/
theorem since_of_reset {reset event : Nat → Prop} {m n : Nat} (hm : m < n)
    (hreset : reset m) (hno : ∀ k, m < k → k < n → ¬ reset k) :
    Since reset event n ↔ ∃ k, m < k ∧ k < n ∧ event k := by
  constructor
  · intro h
    obtain ⟨k, hk, hev, hclear⟩ := h
    have hmk : m < k := by
      by_contra hle
      exact hclear m (by omega) hm hreset
    exact ⟨k, hmk, hk, hev⟩
  · intro h
    obtain ⟨k, hmk, hk, hev⟩ := h
    exact ⟨k, hk, hev, fun j hkj hj => hno j (by omega) hj⟩

/-- A latch that `reset` clears and `event` sets, clear at the start, is set
exactly when `event` has happened since the last `reset`. -/
theorem latch_eq_since (latch : Nat → Prop) {reset event : Nat → Prop} (hzero : ¬ latch 0)
    (hsucc : ∀ n, latch (n + 1) ↔ ¬ reset n ∧ (event n ∨ latch n)) (n : Nat) :
    latch n ↔ Since reset event n := by
  induction n with
  | zero => simp [hzero]
  | succ n ih => rw [hsucc, since_succ, ih]

/-- After a reset the latch remembers the events from then on, whatever it held
before. -/
theorem latch_eq_since_of_reset (latch : Nat → Prop) {reset event : Nat → Prop} {m n : Nat}
    (hm : m < n) (hreset : reset m)
    (hsucc : ∀ n, latch (n + 1) ↔ ¬ reset n ∧ (event n ∨ latch n)) :
    latch n ↔ Since reset event n := by
  induction n with
  | zero => exact absurd hm (Nat.not_lt_zero m)
  | succ n ih =>
    rw [hsucc, since_succ]
    rcases Nat.lt_succ_iff_lt_or_eq.mp hm with hlt | rfl
    · rw [ih hlt]
    · simp [hreset]

end Sync
