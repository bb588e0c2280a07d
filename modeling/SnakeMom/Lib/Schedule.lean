import SnakeMom.Lib.Machine

/-!
# A program under an arbitrary schedule

A program performs a list of operations on a clocked machine, in order and each at an
edge of its own.  How many edges pass between two operations is not fixed, and each
edge also samples the environment.

* `Slot` is what one edge sees, and `performed` the operations of a list of edges.
* `Assertion` is a property that idle edges keep and that implies a safety property.
* `Outline P ops Q` is a proof outline: assertions around the operations of `ops`, from
  `P` to `Q`.  `Outline.play` says that every schedule that performs `ops` leads from
  `P` to `Q`, and `Outline.safe` that it is safe at every edge on the way.
-/

namespace Sync

/-- What one edge sees: an operation, if one arrives, and a sample of the
environment. -/
structure Slot (α ι : Type*) where
  op : Option α
  env : ι

section Schedule

variable {α ι σ : Type*}

/-- The operations of a list of edges. -/
def performed (l : List (Slot α ι)) : List α := l.filterMap Slot.op

theorem performed_op (a : α) (e : ι) (l : List (Slot α ι)) :
    performed (⟨some a, e⟩ :: l) = a :: performed l := rfl

theorem performed_append (l l' : List (Slot α ι)) :
    performed (l ++ l') = performed l ++ performed l' :=
  List.filterMap_append

/-- The schedule without idle edges, in a constant environment. -/
def eager (ops : List α) (e : ι) : List (Slot α ι) := ops.map fun a => ⟨some a, e⟩

@[simp] theorem performed_eager (ops : List α) (e : ι) : performed (eager ops e) = ops := by
  induction ops with
  | nil => rfl
  | cons a ops ih => rw [eager, List.map_cons, performed_op, ← eager, ih]

variable (M : Machine (Slot α ι) σ) (Safe : σ → Prop)

/-- A property that idle edges keep, and that is safe. -/
structure Assertion where
  holds : σ → Prop
  stable : ∀ s e, holds s → holds (M.step s ⟨none, e⟩)
  safe : ∀ s, holds s → Safe s

variable {M Safe}

/-- The edge of the operation `a` leads from `P` to `Q`. -/
def Assertion.Leads (P : Assertion M Safe) (a : α) (Q : Assertion M Safe) : Prop :=
  ∀ s e, P.holds s → Q.holds (M.step s ⟨some a, e⟩)

/-- Assertions around the operations of a program. -/
inductive Outline : Assertion M Safe → List α → Assertion M Safe → Prop
  | nil (P : Assertion M Safe) : Outline P [] P
  | cons {P P' Q : Assertion M Safe} {a : α} {ops : List α} (next : P.Leads a P')
      (rest : Outline P' ops Q) : Outline P (a :: ops) Q

variable {P Q R : Assertion M Safe} {ops ops' : List α} {l : List (Slot α ι)} {s : σ}

/-- Programs compose. -/
theorem Outline.append (h : Outline P ops Q) (h' : Outline Q ops' R) :
    Outline P (ops ++ ops') R := by
  induction h with
  | nil _ => exact h'
  | cons next _ ih => exact Outline.cons next (ih h')

/-- Every schedule of the program leads from `P` to `Q`. -/
theorem Outline.play (h : Outline P ops Q) (hl : performed l = ops) (hs : P.holds s) :
    Q.holds (M.play l s) := by
  induction l generalizing P ops s with
  | nil =>
    cases h with
    | nil _ => exact hs
    | cons _ _ => cases hl
  | cons slot l ih =>
    obtain ⟨_ | a, e⟩ := slot
    · exact ih h hl (P.stable s e hs)
    · rw [performed_op] at hl
      cases h with
      | nil _ => cases hl
      | cons next rest =>
        rw [List.cons.injEq] at hl
        obtain ⟨rfl, hl⟩ := hl
        exact ih rest hl (next s e hs)

/-- Every schedule of the program is safe at every edge on the way. -/
theorem Outline.safe (h : Outline P ops Q) (hl : performed l <+: ops) (hs : P.holds s) :
    Safe (M.play l s) := by
  induction l generalizing P ops s with
  | nil => exact P.safe s hs
  | cons slot l ih =>
    obtain ⟨_ | a, e⟩ := slot
    · exact ih h hl (P.stable s e hs)
    · rw [performed_op] at hl
      cases h with
      | nil _ => exact absurd (List.prefix_nil.1 hl) (List.cons_ne_nil a _)
      | cons next rest =>
        rw [List.cons_prefix_cons] at hl
        obtain ⟨rfl, hl⟩ := hl
        exact ih rest hl (next s e hs)

end Schedule

end Sync
