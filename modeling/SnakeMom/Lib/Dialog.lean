import Mathlib.Data.List.Basic

/-!
# Programs in a dialog with their environment

A program does things and asks questions.  What the environment answers is not known, so
a program is modelled by its reaction to every finite list of answers: what it has done
when the answers run out, or by the time it returns.

* `Dialog ι ε α` is a program with answers `ι`, events `ε` and result `α`; it is a monad
  with the operations `emit`, `ask` and `iterate`, a loop without a bound.
* `Live n m`: the program `m` never loops without asking, and it asks at least `n` times
  before it returns.  It is what makes the fuel of `iterate` harmless.
* `Steady m`: further answers do not change what `m` has done, so the reactions to the
  beginnings of an infinite list of answers are the beginnings of one run.
* `Monitor` follows the events of a program.  `M.wp m Q s` says that the monitor accepts
  all that `m` does from state `s`, that it accepts every question at which `m` may be
  left waiting, and that `Q` holds when `m` returns.  There is one rule for each
  operation, and `Keeps` for programs that keep an assertion.
* `Built A n m`: the program `m` is put together from the programs of `A`.  It keeps an
  assertion if these programs do; put together from questions and events (`Atom`), it is
  live and steady.
-/

namespace Talk

/-- How a run over a finite list of answers ends. -/
inductive Outcome (ι α : Type) where
  /-- The program has returned; `rest` are the answers that are left. -/
  | returned (a : α) (rest : List ι)
  /-- The program asks and there is no answer. -/
  | waiting
  /-- The program loops without asking. -/
  | spent

/-- What a program does over a finite list of answers. -/
structure Run (ι ε α : Type) where
  trace : List ε
  outcome : Outcome ι α

/-- A program that answers `ι` drive. -/
def Dialog (ι ε α : Type) : Type := List ι → Run ι ε α

/-- A run, continued where it has returned. -/
def Run.andThen {ι ε α β : Type} (r : Run ι ε α) (k : α → Dialog ι ε β) : Run ι ε β :=
  match r with
  | ⟨tr, .returned a rest⟩ =>
    match k a rest with
    | ⟨tr', outcome⟩ => ⟨tr ++ tr', outcome⟩
  | ⟨tr, .waiting⟩ => ⟨tr, .waiting⟩
  | ⟨tr, .spent⟩ => ⟨tr, .spent⟩

namespace Dialog

variable {ι ε α β σ : Type}

/-- Do something. -/
def emit (e : ε) : Dialog ι ε Unit := fun l => ⟨[e], .returned () l⟩

/-- Ask for an answer. -/
def ask : Dialog ι ε ι
  | [] => ⟨[], .waiting⟩
  | i :: l => ⟨[], .returned i l⟩

instance : Monad (Dialog ι ε) where
  pure a := fun l => ⟨[], .returned a l⟩
  bind m k := fun l => Run.andThen (m l) k

/-- A loop that gives up after `n` rounds. -/
def iterateFuel (body : σ → Dialog ι ε (σ ⊕ β)) : Nat → σ → Dialog ι ε β
  | 0, _ => fun _ => ⟨[], .spent⟩
  | n + 1, x => do
    match ← body x with
    | .inl x' => iterateFuel body n x'
    | .inr b => pure b

/-- Repeat `body` until it returns a result.  Every round is to ask, so that there are
no more rounds than answers. -/
def iterate (body : σ → Dialog ι ε (σ ⊕ β)) (x : σ) : Dialog ι ε β := fun l =>
  iterateFuel body (l.length + 1) x l

theorem bind_apply (m : Dialog ι ε α) (k : α → Dialog ι ε β) (l : List ι) :
    (m >>= k) l = Run.andThen (m l) k := rfl

/-! ## Programs that keep asking -/

/-- The program does not loop without asking, and asks `n` times before it returns. -/
structure Live (n : Nat) (m : Dialog ι ε α) : Prop where
  not_spent : ∀ l, (m l).outcome ≠ .spent
  asks : ∀ l a rest, (m l).outcome = .returned a rest → rest.length + n ≤ l.length

variable {n k : Nat} {m : Dialog ι ε α} {f : α → Dialog ι ε β}

theorem Live.mono (h : Live n m) (hk : k ≤ n) : Live k m :=
  ⟨h.not_spent, fun l a rest hr => by have := h.asks l a rest hr; omega⟩

theorem live_pure (a : α) : Live 0 (pure a : Dialog ι ε α) where
  not_spent _ h := by cases h
  asks l b rest h := by cases h; exact Nat.le_refl _

theorem live_emit (e : ε) : Live 0 (emit e : Dialog ι ε Unit) where
  not_spent _ h := by cases h
  asks l b rest h := by cases h; exact Nat.le_refl _

theorem live_ask : Live 1 (ask : Dialog ι ε ι) := by
  constructor
  · rintro (_ | ⟨i, l⟩) h <;> cases h
  · rintro (_ | ⟨i, l⟩) b rest h <;> cases h
    exact Nat.le_refl _

theorem Live.bind (hm : Live n m) (hf : ∀ a, Live k (f a)) : Live (n + k) (m >>= f) := by
  have key (l : List ι) : ((m >>= f) l).outcome ≠ .spent ∧
      ∀ b rest, ((m >>= f) l).outcome = .returned b rest → rest.length + (n + k) ≤ l.length := by
    rw [bind_apply]
    rcases hml : m l with ⟨tr, _ | _ | _⟩
    case returned a rest =>
      have hrest := hm.asks l a rest (by rw [hml])
      rcases hfr : f a rest with ⟨tr', o⟩
      simp only [Run.andThen, hfr]
      refine ⟨fun ho => (hf a).not_spent rest (by rw [hfr, ho]), fun b rest' ho => ?_⟩
      have := (hf a).asks rest b rest' (by rw [hfr, ho])
      omega
    case waiting => exact ⟨nofun, nofun⟩
    case spent => exact absurd (by rw [hml]) (hm.not_spent l)
  exact ⟨fun l => (key l).1, fun l => (key l).2⟩

/-- One round of a loop. -/
theorem iterateFuel_succ (body : σ → Dialog ι ε (σ ⊕ β)) (n : Nat) (x : σ) (l : List ι) :
    iterateFuel body (n + 1) x l =
      Run.andThen (body x l) fun r =>
        match r with
        | .inl x' => iterateFuel body n x'
        | .inr b => pure b := rfl

/-- A loop whose rounds ask has fuel enough. -/
theorem live_iterate {body : σ → Dialog ι ε (σ ⊕ β)} (hbody : ∀ x, Live 1 (body x)) (x : σ) :
    Live 1 (iterate body x) := by
  have key (n : Nat) (x : σ) (l : List ι) (hn : l.length < n) :
      (iterateFuel body n x l).outcome ≠ .spent ∧
        ∀ b rest, (iterateFuel body n x l).outcome = .returned b rest →
          rest.length + 1 ≤ l.length := by
    induction n generalizing x l with
    | zero => omega
    | succ n ih =>
      rw [iterateFuel_succ]
      rcases hl : body x l with ⟨tr, _ | _ | _⟩
      case returned r rest =>
        have hrest := (hbody x).asks l r rest (by rw [hl])
        rcases r with x' | b
        · obtain ⟨hspent, hasks⟩ := ih x' rest (by omega)
          rcases hx' : iterateFuel body n x' rest with ⟨tr', o⟩
          rw [hx'] at hspent hasks
          simp only [Run.andThen, hx']
          exact ⟨hspent, fun b rest' ho => by have := hasks b rest' ho; omega⟩
        · refine ⟨nofun, fun b' rest' ho => ?_⟩
          cases ho
          exact hrest
      case waiting => exact ⟨nofun, nofun⟩
      case spent => exact absurd (by rw [hl]) ((hbody x).not_spent l)
  exact ⟨fun l => (key _ x l (Nat.lt_succ_self _)).1, fun l => (key _ x l (Nat.lt_succ_self _)).2⟩

/-! ## More answers -/

/-- `r'` is `r` with `l'` as further answers: the same if `r` has returned, and at least
as much done if it was waiting. -/
def Grows (l' : List ι) (r r' : Run ι ε α) : Prop :=
  match r with
  | ⟨tr, .returned a rest⟩ => r' = ⟨tr, .returned a (rest ++ l')⟩
  | ⟨tr, .waiting⟩ => tr <+: r'.trace
  | ⟨_, .spent⟩ => True

/-- Further answers do not change what a program has done. -/
def Steady (m : Dialog ι ε α) : Prop := ∀ l l', Grows l' (m l) (m (l ++ l'))

theorem steady_pure (a : α) : Steady (pure a : Dialog ι ε α) := fun _ _ => rfl

theorem steady_emit (e : ε) : Steady (emit e : Dialog ι ε Unit) := fun _ _ => rfl

theorem steady_ask : Steady (ask : Dialog ι ε ι)
  | [], _ => List.nil_prefix
  | _ :: _, _ => rfl

/-- What a run has done comes first when it is continued. -/
theorem prefix_andThen (r : Run ι ε α) (g : α → Dialog ι ε β) :
    r.trace <+: (r.andThen g).trace := by
  rcases r with ⟨tr, _ | _ | _⟩
  · exact List.prefix_append tr _
  · exact List.prefix_refl tr
  · exact List.prefix_refl tr

theorem Grows.andThen {l' : List ι} {r r' : Run ι ε α} {g : α → Dialog ι ε β}
    (h : Grows l' r r')
    (hfg : ∀ a rest, r.outcome = .returned a rest → Grows l' (f a rest) (g a (rest ++ l'))) :
    Grows l' (r.andThen f) (r'.andThen g) := by
  rcases r with ⟨tr, _ | _ | _⟩
  case returned a rest =>
    have hr' : r' = ⟨tr, .returned a (rest ++ l')⟩ := h
    have hgrow := hfg a rest rfl
    subst hr'
    simp only [Run.andThen]
    rcases hfr : f a rest with ⟨tr', _ | _ | _⟩ <;> rw [hfr] at hgrow
    case returned b rest' =>
      have hg : g a (rest ++ l') = ⟨tr', .returned b (rest' ++ l')⟩ := hgrow
      rw [hg]
      rfl
    case waiting => exact (List.prefix_append_right_inj tr).2 hgrow
    case spent => trivial
  case waiting => exact List.IsPrefix.trans h (prefix_andThen r' g)
  case spent => trivial

theorem Steady.bind (hm : Steady m) (hf : ∀ a, Steady (f a)) : Steady (m >>= f) :=
  fun l l' => (hm l l').andThen fun a rest _ => hf a rest l'

theorem steady_iterate {body : σ → Dialog ι ε (σ ⊕ β)} (hlive : ∀ x, Live 1 (body x))
    (hbody : ∀ x, Steady (body x)) (x : σ) : Steady (iterate body x) := by
  have key (n : Nat) (k : Nat) (x : σ) (l l' : List ι) (hn : l.length < n)
      (hk : (l ++ l').length < k) :
      Grows l' (iterateFuel body n x l) (iterateFuel body k x (l ++ l')) := by
    induction n generalizing k x l with
    | zero => omega
    | succ n ih =>
      obtain ⟨k, rfl⟩ : ∃ j, k = j + 1 := ⟨k - 1, by omega⟩
      rw [iterateFuel_succ, iterateFuel_succ]
      refine (hbody x l l').andThen fun r rest hr => ?_
      have hrest := (hlive x).asks l r rest hr
      rw [List.length_append] at hk
      cases r with
      | inl x' => exact ih k x' rest (by omega) (by rw [List.length_append]; omega)
      | inr b => exact steady_pure b rest l'
  exact fun l l' => key _ _ x l l' (Nat.lt_succ_self _) (Nat.lt_succ_self _)

end Dialog

/-! ## Monitors -/

/-- An observer of the events: what it accepts, and at which of its states a program may
be left waiting. -/
structure Monitor (ε τ : Type) where
  step : τ → ε → τ
  ok : τ → ε → Prop
  idle : τ → Prop

namespace Monitor

variable {ι ε α β σ τ : Type} (M : Monitor ε τ)

/-- The state after some events. -/
def after (s : τ) (tr : List ε) : τ := tr.foldl M.step s

/-- All events are accepted. -/
def Checks (M : Monitor ε τ) : τ → List ε → Prop
  | _, [] => True
  | s, e :: tr => M.ok s e ∧ M.Checks (M.step s e) tr

@[simp] theorem after_nil (s : τ) : M.after s [] = s := rfl

theorem after_append (s : τ) (tr tr' : List ε) :
    M.after s (tr ++ tr') = M.after (M.after s tr) tr' := List.foldl_append

theorem checks_append (s : τ) (tr tr' : List ε) :
    M.Checks s (tr ++ tr') ↔ M.Checks s tr ∧ M.Checks (M.after s tr) tr' := by
  induction tr generalizing s with
  | nil => exact ⟨fun h => ⟨trivial, h⟩, fun h => h.2⟩
  | cons e tr ih =>
    have hstep := ih (M.step s e)
    constructor
    · rintro ⟨he, h⟩
      exact ⟨⟨he, (hstep.1 h).1⟩, (hstep.1 h).2⟩
    · rintro ⟨⟨he, h⟩, h'⟩
      exact ⟨he, hstep.2 ⟨h, h'⟩⟩

/-- What a run is to meet. -/
def Meets (s : τ) (Q : α → τ → Prop) (r : Run ι ε α) : Prop :=
  M.Checks s r.trace ∧
    match r.outcome with
    | .returned a _ => Q a (M.after s r.trace)
    | .waiting => M.idle (M.after s r.trace)
    | .spent => True

/-- Whatever is answered, the monitor accepts what `m` does from `s`, and `Q` holds when
`m` returns. -/
def wp (m : Dialog ι ε α) (Q : α → τ → Prop) (s : τ) : Prop := ∀ l, M.Meets s Q (m l)

variable {M} {m : Dialog ι ε α} {f : α → Dialog ι ε β} {s : τ}

/-- An accepted trace is accepted event by event. -/
theorem Checks.ok_of_eq {tr pre post : List ε} {e : ε} (h : M.Checks s tr)
    (htr : tr = pre ++ e :: post) : M.ok (M.after s pre) e := by
  rw [htr, checks_append] at h
  exact h.2.1

theorem wp_mono {Q Q' : α → τ → Prop} (h : M.wp m Q s) (hQ : ∀ a s', Q a s' → Q' a s') :
    M.wp m Q' s := by
  intro l
  obtain ⟨hchecks, hend⟩ := h l
  refine ⟨hchecks, ?_⟩
  rcases hl : (m l).outcome with a | _ | _ <;> rw [hl] at hend
  · exact hQ _ _ hend
  · exact hend
  · trivial

theorem wp_pure {a : α} {Q : α → τ → Prop} (h : Q a s) :
    M.wp (pure a : Dialog ι ε α) Q s := fun _ => ⟨trivial, h⟩

theorem wp_emit {e : ε} {Q : Unit → τ → Prop} (he : M.ok s e) (h : Q () (M.step s e)) :
    M.wp (Dialog.emit e : Dialog ι ε Unit) Q s := fun _ => ⟨⟨he, trivial⟩, h⟩

theorem wp_ask {Q : ι → τ → Prop} (hs : M.idle s) (h : ∀ i, Q i s) :
    M.wp (Dialog.ask : Dialog ι ε ι) Q s := by
  rintro (_ | ⟨i, l⟩)
  · exact ⟨trivial, hs⟩
  · exact ⟨trivial, h i⟩

theorem wp_bind {Q : β → τ → Prop} (h : M.wp m (fun a s' => M.wp (f a) Q s') s) :
    M.wp (m >>= f) Q s := by
  intro l
  have hl := h l
  rw [Dialog.bind_apply]
  rcases hml : m l with ⟨tr, _ | _ | _⟩ <;> rw [hml] at hl <;> obtain ⟨hchecks, hend⟩ := hl
  case returned a rest =>
    have hrest := hend rest
    rcases hfr : f a rest with ⟨tr', o⟩
    rw [hfr] at hrest
    simp only [Run.andThen, hfr]
    refine ⟨(checks_append M s tr tr').2 ⟨hchecks, hrest.1⟩, ?_⟩
    rw [after_append]
    exact hrest.2
  case waiting => exact ⟨hchecks, hend⟩
  case spent => exact ⟨hchecks, trivial⟩

/-- The rule of the loop: `J` holds before every round. -/
theorem wp_iterate {body : σ → Dialog ι ε (σ ⊕ β)} (J : σ → τ → Prop) {Q : β → τ → Prop}
    (hbody : ∀ x s, J x s → M.wp (body x) (fun r s' => Sum.elim (J · s') (Q · s') r) s) {x : σ}
    (hx : J x s) : M.wp (Dialog.iterate body x) Q s := by
  have key (n : Nat) (x : σ) (s : τ) (h : J x s) :
      M.wp (Dialog.iterateFuel body n x) Q s := by
    induction n generalizing x s with
    | zero => exact fun _ => ⟨trivial, trivial⟩
    | succ n ih =>
      refine wp_bind (wp_mono (hbody x s h) ?_)
      rintro (x' | b) s' hr
      · exact ih x' s' hr
      · exact wp_pure hr
  exact fun l => key _ x s hx l

/-! ## Programs that keep an assertion -/

/-- From every state with `P` the program is accepted and ends with `P`. -/
def Keeps (M : Monitor ε τ) (P : τ → Prop) (m : Dialog ι ε α) : Prop :=
  ∀ s, P s → M.wp m (fun _ => P) s

variable {P : τ → Prop}

theorem keeps_emit {e : ε} (h : ∀ s, P s → M.ok s e ∧ P (M.step s e)) :
    M.Keeps P (Dialog.emit e : Dialog ι ε Unit) := fun s hs => wp_emit (h s hs).1 (h s hs).2

theorem keeps_ask (h : ∀ s, P s → M.idle s) : M.Keeps P (Dialog.ask : Dialog ι ε ι) :=
  fun s hs => wp_ask (h s hs) fun _ => hs

theorem Keeps.bind (hm : M.Keeps P m) (hf : ∀ a, M.Keeps P (f a)) : M.Keeps P (m >>= f) :=
  fun s hs => wp_bind (wp_mono (hm s hs) fun a s' hs' => hf a s' hs')

theorem keeps_iterate {body : σ → Dialog ι ε (σ ⊕ β)} (h : ∀ x, M.Keeps P (body x)) (x : σ) :
    M.Keeps P (Dialog.iterate body x) := by
  intro s hs
  refine wp_iterate (fun _ => P) (fun x s hs => wp_mono (h x s hs) ?_) hs
  rintro (x' | b) s' hs' <;> exact hs'

end Monitor

/-! ## Programs that are put together from others -/

namespace Dialog

variable {ι ε : Type}

/-- The program is put together from the programs of `A`, and asks at least `n` times if
`A k m` says that `m` asks at least `k` times. -/
inductive Built (A : Nat → {α : Type} → Dialog ι ε α → Prop) :
    Nat → {α : Type} → Dialog ι ε α → Prop
  | part {α : Type} {n : Nat} {m : Dialog ι ε α} (h : A n m) : Built A n m
  | ret {α : Type} (a : α) : Built A 0 (pure a)
  | seq {α β : Type} {n k : Nat} {m : Dialog ι ε α} {f : α → Dialog ι ε β}
      (h : Built A n m) (h' : ∀ a, Built A k (f a)) : Built A (n + k) (m >>= f)
  | loop {σ β : Type} {body : σ → Dialog ι ε (σ ⊕ β)} (h : ∀ x, Built A 1 (body x)) (x : σ) :
      Built A 1 (iterate body x)
  | weaken {α : Type} {n k : Nat} {m : Dialog ι ε α} (h : Built A n m) (hk : k ≤ n) :
      Built A k m

variable {A B : Nat → {α : Type} → Dialog ι ε α → Prop} {α β : Type} {n k : Nat}
  {m : Dialog ι ε α} {f : α → Dialog ι ε β}

/-- A question, or an event with `T`. -/
inductive Atom (T : ε → Prop) : Nat → {α : Type} → Dialog ι ε α → Prop
  | ask : Atom T 1 ask
  | emit (e : ε) (h : T e) : Atom T 0 (emit e)

/-- `seq`, when only the first program asks. -/
theorem Built.before (h : Built A n m) (h' : ∀ a, Built A 0 (f a)) : Built A n (m >>= f) :=
  h.seq h'

/-- `seq`, when only the second program has to ask. -/
theorem Built.next (h : Built A k m) (h' : ∀ a, Built A n (f a)) : Built A n (m >>= f) :=
  (h.seq h').weaken (Nat.le_add_left n k)

theorem Built.ite {p : Prop} [Decidable p] {m m' : Dialog ι ε α} (h : Built A n m)
    (h' : Built A n m') : Built A n (if p then m else m') := by
  by_cases hp : p
  · rwa [if_pos hp]
  · rwa [if_neg hp]

/-- The parts may be put together themselves. -/
theorem Built.of_parts (hAB : ∀ {α n} {m : Dialog ι ε α}, A n m → Built B n m)
    (h : Built A n m) : Built B n m := by
  induction h with
  | part h => exact hAB h
  | ret a => exact .ret a
  | seq _ _ ih ih' => exact ih.seq ih'
  | loop _ x ih => exact .loop ih x
  | weaken _ hk ih => exact ih.weaken hk

theorem Built.keeps {τ : Type} {M : Monitor ε τ} {P : τ → Prop}
    (hA : ∀ {α n} {m : Dialog ι ε α}, A n m → M.Keeps P m) (h : Built A n m) :
    M.Keeps P m := by
  induction h with
  | part h => exact hA h
  | ret a => exact fun _ hs => Monitor.wp_pure hs
  | seq _ _ ih ih' => exact ih.bind ih'
  | loop _ x ih => exact Monitor.keeps_iterate ih x
  | weaken _ _ ih => exact ih

section Atoms

variable {T T' : ε → Prop}

theorem Built.of_atoms (hT : ∀ e, T e → T' e) (h : Built (Atom T) n m) :
    Built (Atom T') n m := by
  refine h.of_parts fun hm => ?_
  cases hm with
  | ask => exact .part .ask
  | emit e he => exact .part (.emit e (hT e he))

theorem Built.live (h : Built (Atom T) n m) : Live n m := by
  induction h with
  | part h =>
    cases h with
    | ask => exact live_ask
    | emit e _ => exact live_emit e
  | ret a => exact live_pure a
  | seq _ _ ih ih' => exact ih.bind ih'
  | loop _ x ih => exact live_iterate ih x
  | weaken _ hk ih => exact ih.mono hk

theorem Built.steady (h : Built (Atom T) n m) : Steady m := by
  induction h with
  | part h =>
    cases h with
    | ask => exact steady_ask
    | emit e _ => exact steady_emit e
  | ret a => exact steady_pure a
  | seq _ _ ih ih' => exact ih.bind ih'
  | loop hbody x ih => exact steady_iterate (fun x => (hbody x).live) ih x
  | weaken _ _ ih => exact ih

end Atoms

end Dialog

end Talk
