import SnakeMom.Lib.Dialog

/-!
# Where answers can take a program

What the environment answers is not known, but some answers may lead to a goal: an event
with `T`, or the return of the program with a result in `Q`.

* `Reaches T Q m`: some answers lead there from the beginning of `m`.
* `ResumesAt T Q m l`: if `m` is left waiting after the answers `l`, some more lead there.
* `Drives T Q m`: `m` reaches the goal, and it can be taken from wherever it is left waiting
  to an event with `T` or to its end.  A result outside `Q` is no failure there: what comes
  after it has to be taken to its end as well.  There is one rule for each operation.
-/

namespace Talk.Dialog

variable {ι ε α β σ : Type} {T : ε → Prop} {P : α → Prop} {Q : β → Prop}
  {m : Dialog ι ε α} {f : α → Dialog ι ε β} {body : σ → Dialog ι ε (σ ⊕ β)} {l : List ι}

/-- Some answers lead to an event with `T`, or are used up when the program returns. -/
def Reaches (T : ε → Prop) (P : α → Prop) (m : Dialog ι ε α) : Prop :=
  ∃ l, (∃ e ∈ (m l).trace, T e) ∨ ∃ a, (m l).outcome = .returned a [] ∧ P a

/-- If the program is left waiting, the same holds for further answers and events. -/
def ResumesAt (T : ε → Prop) (P : α → Prop) (m : Dialog ι ε α) (l : List ι) : Prop :=
  (m l).outcome = .waiting → ∃ more,
    (∃ tail, (m (l ++ more)).trace = (m l).trace ++ tail ∧ ∃ e ∈ tail, T e) ∨
      ∃ a, (m (l ++ more)).outcome = .returned a [] ∧ P a

/-! ## Sequences -/

/-- A program that has returned is continued with the answers that are left. -/
theorem bind_of_returned (hm : Steady m) {a : α} {rest : List ι}
    (h : (m l).outcome = .returned a rest) (more : List ι) :
    (m >>= f) (l ++ more) =
      ⟨(m l).trace ++ (f a (rest ++ more)).trace, (f a (rest ++ more)).outcome⟩ := by
  have hgrow := hm l more
  rcases hl : m l with ⟨tr, _ | _ | _⟩ <;> rw [hl] at h hgrow <;> cases h
  have hmore : m (l ++ more) = ⟨tr, .returned a (rest ++ more)⟩ := hgrow
  rw [bind_apply, hmore]
  rfl

/-- Returning a result that is wanted reaches the goal. -/
theorem reaches_pure {a : α} (h : P a) : Reaches T P (pure a : Dialog ι ε α) :=
  ⟨[], Or.inr ⟨a, rfl, h⟩⟩

theorem Reaches.bind (hm : Steady m) (h : Reaches T P m)
    (hf : ∀ a, P a → Reaches T Q (f a)) : Reaches T Q (m >>= f) := by
  obtain ⟨l, ⟨e, he, hT⟩ | ⟨a, ha, hP⟩⟩ := h
  · exact ⟨l, Or.inl ⟨e, (prefix_andThen (m l) f).subset he, hT⟩⟩
  · obtain ⟨more, hmore⟩ := hf a hP
    refine ⟨l ++ more, ?_⟩
    rw [bind_of_returned hm ha]
    rcases hmore with ⟨e, he, hT⟩ | hreturned
    · exact Or.inl ⟨e, List.mem_append_right _ he, hT⟩
    · exact Or.inr hreturned

theorem ResumesAt.bind (hm : Steady m) (h : ResumesAt T P m l)
    (hreach : ∀ a, P a → Reaches T Q (f a))
    (hf : ∀ a rest, (m l).outcome = .returned a rest → ResumesAt T Q (f a) rest) :
    ResumesAt T Q (m >>= f) l := by
  intro hwait
  rcases hl : (m l).outcome with a | _ | _
  case returned rest =>
    have hnow := bind_of_returned (f := f) hm hl []
    rw [List.append_nil, List.append_nil] at hnow
    rw [hnow] at hwait ⊢
    obtain ⟨more, hmore⟩ := hf a rest hl hwait
    refine ⟨more, ?_⟩
    rw [bind_of_returned hm hl]
    rcases hmore with ⟨tail, htail, hT⟩ | hreturned
    · exact Or.inl ⟨tail, by rw [htail, List.append_assoc], hT⟩
    · exact Or.inr hreturned
  case waiting =>
    have htrace : ((m >>= f) l).trace = (m l).trace := by
      rw [bind_apply]
      rcases hml : m l with ⟨tr, _ | _ | _⟩ <;> rw [hml] at hl <;> cases hl
      rfl
    rw [htrace]
    obtain ⟨more, ⟨tail, htail, e, he, hT⟩ | ⟨a, ha, hP⟩⟩ := h hl
    · obtain ⟨rest, hrest⟩ := prefix_andThen (m (l ++ more)) f
      refine ⟨more, Or.inl ⟨tail ++ rest, ?_, e, List.mem_append_left _ he, hT⟩⟩
      rw [bind_apply, ← hrest, htail, List.append_assoc]
    · obtain ⟨more', hmore⟩ := hreach a hP
      obtain ⟨tail, htail⟩ : (m l).trace <+: (m (l ++ more)).trace := by
        have hgrow := hm l more
        rcases hml : m l with ⟨tr, _ | _ | _⟩ <;> rw [hml] at hl hgrow <;> cases hl
        exact hgrow
      refine ⟨more ++ more', ?_⟩
      rw [← List.append_assoc, bind_of_returned hm ha, List.nil_append, ← htail]
      rcases hmore with ⟨e, he, hT⟩ | hreturned
      · exact Or.inl ⟨tail ++ (f a more').trace, List.append_assoc _ _ _, e,
          List.mem_append_right _ he, hT⟩
      · exact Or.inr hreturned
  case spent =>
    rw [bind_apply] at hwait
    rcases hml : m l with ⟨tr, _ | _ | _⟩ <;> rw [hml] at hl hwait <;> cases hl
    cases hwait

/-! ## Loops -/

/-- Fuel enough for the answers is as good as any more. -/
theorem iterateFuel_eq (hlive : ∀ x, Live 1 (body x)) {n k : Nat} (x : σ)
    (hn : l.length < n) (hk : l.length < k) : iterateFuel body n x l = iterateFuel body k x l := by
  induction n generalizing k x l with
  | zero => omega
  | succ n ih =>
    obtain ⟨k, rfl⟩ : ∃ j, k = j + 1 := ⟨k - 1, by omega⟩
    rw [iterateFuel_succ, iterateFuel_succ]
    rcases hl : body x l with ⟨tr, _ | _ | _⟩
    case returned r rest =>
      have hrest := (hlive x).asks l r rest (by rw [hl])
      rcases r with x' | b
      · have hn' : rest.length < n := by omega
        have hk' : rest.length < k := by omega
        simp only [Run.andThen, ih x' hn' hk']
      · rfl
    case waiting => rfl
    case spent => rfl

/-- A loop is its first round and the rest of it. -/
theorem iterate_eq (hlive : ∀ x, Live 1 (body x)) (x : σ) :
    iterate body x = body x >>= Sum.elim (iterate body) pure := by
  funext l
  rw [iterate, iterateFuel_succ, bind_apply]
  rcases hl : body x l with ⟨tr, _ | _ | _⟩
  case returned r rest =>
    have hrest := (hlive x).asks l r rest (by rw [hl])
    rcases r with x' | b
    · simp only [Run.andThen, Sum.elim_inl, iterate]
      rw [iterateFuel_eq hlive x' hrest (Nat.lt_succ_self _)]
    · rfl
  case waiting => rfl
  case spent => rfl

theorem Reaches.iterate (hlive : ∀ x, Live 1 (body x)) {x : σ} (hs : Steady (body x))
    (h : Reaches T (Sum.elim (fun _ => False) Q) (body x)) :
    Reaches T Q (Dialog.iterate body x) := by
  rw [iterate_eq hlive]
  refine h.bind hs fun r hr => ?_
  rcases r with x' | b
  · exact hr.elim
  · exact reaches_pure hr

/-- The induction is on the number of answers: every round uses one. -/
theorem ResumesAt.iterate (hlive : ∀ x, Live 1 (body x)) (hs : ∀ x, Steady (body x))
    (hbody : ∀ x l, ResumesAt T (fun _ => True) (body x) l)
    (hreach : ∀ x, Reaches T Q (Dialog.iterate body x)) (hQ : ∀ b, Q b) (x : σ) (l : List ι) :
    ResumesAt T Q (Dialog.iterate body x) l := by
  induction hl : l.length using Nat.strongRecOn generalizing x l with
  | ind n ih =>
    rw [iterate_eq hlive]
    refine (hbody x l).bind (hs x) (fun r _ => ?_) fun r rest hr => ?_
    · rcases r with x' | b
      · exact hreach x'
      · exact reaches_pure (hQ b)
    · have hrest := (hlive x).asks l r rest hr
      rcases r with x' | b
      · exact ih rest.length (by omega) x' rest rfl
      · exact fun hwait => by cases hwait

/-! ## The rules -/

structure Drives (T : ε → Prop) (P : α → Prop) (m : Dialog ι ε α) : Prop where
  steady : Steady m
  reaches : Reaches T P m
  resumes : ∀ l, ResumesAt T (fun _ => True) m l

/-- The program can be taken to its end. -/
abbrev Ends (T : ε → Prop) (m : Dialog ι ε α) : Prop := Drives T (fun _ => True) m

theorem Reaches.mono {P' : α → Prop} (h : Reaches T P m) (hP : ∀ a, P a → P' a) :
    Reaches T P' m := by
  obtain ⟨l, hT | ⟨a, ha, hPa⟩⟩ := h
  · exact ⟨l, Or.inl hT⟩
  · exact ⟨l, Or.inr ⟨a, ha, hP a hPa⟩⟩

theorem Drives.mono {P' : α → Prop} (h : Drives T P m) (hP : ∀ a, P a → P' a) :
    Drives T P' m := ⟨h.steady, h.reaches.mono hP, h.resumes⟩

theorem Drives.ends (h : Drives T P m) : Ends T m := h.mono fun _ _ => trivial

theorem drives_pure {a : α} (h : P a) : Drives T P (pure a : Dialog ι ε α) where
  steady := steady_pure a
  reaches := reaches_pure h
  resumes _ hwait := by cases hwait

theorem ends_emit (e : ε) : Ends T (emit e : Dialog ι ε Unit) where
  steady := steady_emit e
  reaches := ⟨[], Or.inr ⟨(), rfl, trivial⟩⟩
  resumes _ hwait := by cases hwait

/-- The answer may be any one. -/
theorem drives_ask (i : ι) : Drives T (fun j => j = i) (ask : Dialog ι ε ι) where
  steady := steady_ask
  reaches := ⟨[i], Or.inr ⟨i, rfl, rfl⟩⟩
  resumes l hwait := by
    cases l with
    | nil => exact ⟨[i], Or.inr ⟨i, rfl, trivial⟩⟩
    | cons j l => cases hwait

/-- A first part that can be driven to a result from which the goal is reached. -/
theorem Drives.reaches_bind (h : Drives T P m) (hf : ∀ a, P a → Reaches T Q (f a)) :
    Reaches T Q (m >>= f) := h.reaches.bind h.steady hf

theorem Drives.bind (h : Drives T P m) (hall : ∀ a, Ends T (f a))
    (hf : ∀ a, P a → Reaches T Q (f a)) : Drives T Q (m >>= f) where
  steady := h.steady.bind fun a => (hall a).steady
  reaches := h.reaches_bind hf
  resumes l := (h.resumes l).bind h.steady (fun a _ => (hall a).reaches) fun a rest _ =>
    (hall a).resumes rest

/-- The same, when the first result does not matter. -/
theorem Ends.bind (h : Ends T m) (hf : ∀ a, Drives T Q (f a)) : Drives T Q (m >>= f) :=
  Drives.bind h (fun a => (hf a).ends) fun a _ => (hf a).reaches

theorem Ends.ite {p : Prop} [Decidable p] {m m' : Dialog ι ε α} (h : Ends T m)
    (h' : Ends T m') : Ends T (if p then m else m') := by
  by_cases hp : p
  · rwa [if_pos hp]
  · rwa [if_neg hp]

/-- A loop ends if every round can be the last one. -/
theorem ends_iterate (hlive : ∀ x, Live 1 (body x)) (hbody : ∀ x, Ends T (body x))
    (hlast : ∀ x, Reaches T (Sum.elim (fun _ => False) fun _ => True) (body x)) (x : σ) :
    Ends T (Dialog.iterate body x) := by
  have hreach (x : σ) : Reaches T (fun _ => True) (Dialog.iterate body x) :=
    Reaches.iterate hlive (hbody x).steady (hlast x)
  exact ⟨steady_iterate hlive (fun x => (hbody x).steady) x, hreach x,
    ResumesAt.iterate hlive (fun x => (hbody x).steady) (fun x => (hbody x).resumes) hreach
      (fun _ => trivial) x⟩

end Talk.Dialog
