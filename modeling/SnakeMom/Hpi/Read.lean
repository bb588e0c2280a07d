import Mathlib.Data.List.Forall2
import SnakeMom.Hpi.Bus

/-!
# Reading from the OTG chip

The word that `IO_read` loads has come through two registers, the input register of the
bridge and that of the port, so it is the level of the bus two edges before the load.  The
pins follow the ports an edge later on their own way out.

* `Asks a` says that the pins ask the chip for address `a`.
* `Free`, `Chosen` and `Asking` are what holds before and during a read, and
  `exists_sample` finds the edge whose level the read returns.
* `hpi_read_answered_iff`: the chip is asked for the address of the read at that edge
  exactly if three edges or more pass between the store that selects the chip and the load.
  With fewer of them, the level is of before the chip was selected.
* `Spaced` calls keep these three edges, and `hpi_reads_answered` is about any sequence of
  them.
-/

namespace SnakeMom

open Sync

namespace Hpi

variable {s : Hpi} {slot : Slot Access (BitVec 16)} {a : BitVec 2}

/-- The pins ask the chip for address `a`. -/
structure Asks (a : BitVec 2) (s : Hpi) : Prop where
  RD_N : s.bridge.OTG_RD_N = false
  CS_N : s.bridge.OTG_CS_N = false
  ADDR : s.bridge.OTG_ADDR = a

/-! ## Two edges -/

theorem write_readdata (p : Pio) (port : Port) (D : BitVec 32) :
    (p.write port D).readdata = p.readdata := by
  cases port <;> rfl

/-- The port takes over what the bridge has sampled. -/
theorem edge_readdata (s : Hpi) (slot : Slot Access (BitVec 16)) :
    (s.edge slot).pio.readdata = s.bridge.from_sw_data_in := by
  show (s.pioNext slot.op).readdata = s.bridge.from_sw_data_in
  unfold pioNext
  split
  · rw [write_readdata]
  · rfl

/-- The word that is ready after two edges is the level of the bus at the first of them. -/
theorem readdata_two_edges (s : Hpi) (x y : Slot Access (BitVec 16)) :
    ((s.edge x).edge y).pio.readdata = s.drive.getD x.env := edge_readdata _ _

/-- A load keeps the word that is ready. -/
theorem edge_load (s : Hpi) (e : BitVec 16) :
    (s.edge ⟨some (.load .otg_hpi_data), e⟩).loaded = s.loaded ++ [s.pio.readdata] := rfl

/-! ## Before and during a read -/

/-- The write bit is up and the chip is not selected. -/
structure Free (s : Hpi) : Prop where
  w : s.pio.otg_hpi_w = true
  cs : s.pio.otg_hpi_cs = true

/-- The read is prepared, up to the selection of the chip. -/
structure Chosen (a : BitVec 2) (s : Hpi) : Prop extends Free s where
  address : s.pio.otg_hpi_address = a
  r : s.pio.otg_hpi_r = false

/-- The ports ask the chip. -/
structure Asking (a : BitVec 2) (s : Hpi) : Prop where
  w : s.pio.otg_hpi_w = true
  cs : s.pio.otg_hpi_cs = false
  address : s.pio.otg_hpi_address = a
  r : s.pio.otg_hpi_r = false

/-- The pins follow an edge later. -/
theorem Asking.asks (h : Asking a s) (slot : Slot Access (BitVec 16)) : Asks a (s.edge slot) :=
  ⟨h.r, h.cs, h.address⟩

theorem Free.not_asks (h : Free s) (slot : Slot Access (BitVec 16)) : ¬ Asks a (s.edge slot) := by
  intro hasks
  have hcs : s.pio.otg_hpi_cs = false := hasks.CS_N
  rw [h.cs] at hcs
  cases hcs

/-- `Free`, as an assertion of the machine. -/
def free : Assertion hpi Free where
  holds := Free
  stable _ _ h := ⟨h.w, h.cs⟩
  safe _ h := h

def freeAt (a : BitVec 2) : Assertion hpi Free where
  holds s := Free s ∧ s.pio.otg_hpi_address = a
  stable _ _ h := ⟨⟨h.1.w, h.1.cs⟩, h.2⟩
  safe _ h := h.1

def chosen (a : BitVec 2) : Assertion hpi Free where
  holds := Chosen a
  stable _ _ h := ⟨⟨h.w, h.cs⟩, h.address, h.r⟩
  safe _ h := h.toFree

def asking (a : BitVec 2) : Assertion hpi (Asking a) where
  holds := Asking a
  stable _ _ h := ⟨h.w, h.cs, h.address, h.r⟩
  safe _ h := h

theorem free_address (A : BitVec 8) :
    free.Leads (.store .otg_hpi_address (A.setWidth 32)) (freeAt (A.setWidth 2)) :=
  fun _ _ h =>
    have hA : (A.setWidth 32).setWidth 2 = A.setWidth 2 :=
      BitVec.setWidth_setWidth_of_le A (by omega)
    ⟨⟨h.w, h.cs⟩, hA⟩

theorem freeAt_r : (freeAt a).Leads (.store .otg_hpi_r 0) (chosen a) :=
  fun _ _ h => ⟨⟨h.1.w, h.1.cs⟩, h.2, rfl⟩

/-- The first two stores of a read prepare it, and the chip is not selected on the way. -/
theorem outline_prepare (Address : BitVec 8) :
    Outline free ((IO_read Address).take 2) (chosen (Address.setWidth 2)) := by
  apply Outline.cons (free_address Address)
  apply Outline.cons freeAt_r
  exact Outline.nil _

/-- The third store selects the chip. -/
theorem Chosen.select (h : Chosen a s) (e : BitVec 16) :
    Asking a (s.edge ⟨some (.store .otg_hpi_cs 0), e⟩) :=
  ⟨h.w, rfl, h.address, h.r⟩

/-- And the ports go on asking while nothing is stored. -/
theorem Asking.idle {l : List (Slot Access (BitVec 16))} (hl : performed l = [])
    (h : Asking a s) : Asking a (hpi.play l s) :=
  (Outline.nil (asking a)).play hl h

/-! ## Between two calls -/

def csUp : Assertion hpi fun _ => True where
  holds s := s.pio.otg_hpi_cs = true
  stable _ _ h := h
  safe _ _ := trivial

/-- After a store that takes the select bit up, it is up. -/
theorem cs_of_performed {l : List (Slot Access (BitVec 16))} {ops : List Access}
    (hl : performed l = ops ++ [.store .otg_hpi_cs 1]) (s : Hpi) :
    (hpi.play l s).pio.otg_hpi_cs = true := by
  have hops : Outline unknown ops unknown := by
    clear hl
    induction ops with
    | nil => exact Outline.nil unknown
    | cons a ops ih => exact Outline.cons (unknown_leads a) ih
  have hlast : Outline unknown [.store .otg_hpi_cs 1] csUp :=
    Outline.cons (fun _ _ _ => rfl) (Outline.nil csUp)
  exact (hops.append hlast).play hl trivial

/-- `IO_init` and every call end with that store. -/
theorem accesses_end (calls : List IoCall) :
    ∃ ops, IO_init ++ accessesOf calls = ops ++ [.store .otg_hpi_cs 1] := by
  rcases List.eq_nil_or_concat' calls with rfl | ⟨front, call, rfl⟩
  · exact ⟨IO_init.take 9, rfl⟩
  · rw [accessesOf, List.flatMap_append, List.flatMap_cons, List.flatMap_nil, List.append_nil]
    cases call with
    | write Address Data =>
      exact ⟨IO_init ++ (accessesOf front ++ (IO_write Address Data).take 5), by
        simp [accessesOf, IoCall.accesses, IO_write]⟩
    | read Address =>
      exact ⟨IO_init ++ (accessesOf front ++ (IO_read Address).take 5), by
        simp [accessesOf, IoCall.accesses, IO_read]⟩

/-- Between two calls nothing is written and the chip is not selected. -/
theorem free_after {init pre : List (Slot Access (BitVec 16))} {calls : List IoCall}
    (hinit : performed init = IO_init) (hpre : performed pre = accessesOf calls) (s : Hpi) :
    Free (hpi.play (init ++ pre) s) := by
  have hperf : performed (init ++ pre) = IO_init ++ accessesOf calls := by
    rw [performed_append, hinit, hpre]
  obtain ⟨ops, hops⟩ := accesses_end calls
  refine ⟨?_, cs_of_performed (hperf.trans hops) s⟩
  have hrest := (outline_accesses calls _).play hpre (rest_after_IO_init hinit s)
  rw [Machine.play_append]
  exact hrest.w

/-! ## The sample of a read -/

/-- A load after the edges of `x` and `y` finds the level of the bus at the edge of `x`, if
nothing is written there. -/
theorem load_sample {before : List (Slot Access (BitVec 16))}
    (hw : (hpi.play before s).pio.otg_hpi_w = true) (x y : Slot Access (BitVec 16))
    (e : BitVec 16) :
    (hpi.play (before ++ [x, y] ++ [⟨some (.load .otg_hpi_data), e⟩]) s).loaded =
      (hpi.play (before ++ [x, y]) s).loaded ++ [x.env] := by
  rw [Machine.play_append, Machine.play_append]
  show (Hpi.edge (((hpi.play before s).edge x).edge y) _).loaded = _
  rw [edge_load, readdata_two_edges, drive_eq_none hw, Option.getD_none]
  rfl

/-- The two stores that prepare a read take at least two edges. -/
theorem prepare_split {front : List (Slot Access (BitVec 16))} {Address : BitVec 8}
    (hfront : performed front = (IO_read Address).take 2) :
    ∃ l x y, front = l ++ [x, y] := by
  have hlen : 2 ≤ front.length := by
    have hle := List.length_filterMap_le Slot.op front
    rw [← performed, hfront] at hle
    exact hle
  rcases List.eq_nil_or_concat' front with rfl | ⟨l, y, rfl⟩
  · exact absurd hlen (by decide)
  rcases List.eq_nil_or_concat' l with rfl | ⟨l, x, rfl⟩
  · exact absurd hlen (by simp)
  · exact ⟨l, x, y, by simp⟩

/-- While a read is prepared, the chip is not selected. -/
theorem free_of_prefix {t : Hpi} {Address : BitVec 8} (ht : Free t)
    {front l : List (Slot Access (BitVec 16))}
    (hfront : performed front = (IO_read Address).take 2) (hl : l <+: front) :
    Free (hpi.play l t) :=
  (outline_prepare Address).safe (hfront ▸ hl.filterMap Slot.op) ht

/-- The edge whose level a read returns, from a state `t` in which the chip is free.  It lies
before the selection, at it, right after it, or later. -/
theorem exists_sample {t : Hpi} {front gap : List (Slot Access (BitVec 16))}
    {Address : BitVec 8} (ht : Free t) (hfront : performed front = (IO_read Address).take 2)
    (hgap : performed gap = []) (e : BitVec 16) :
    ∃ before x y, front ++ ⟨some (.store .otg_hpi_cs 0), e⟩ :: gap = before ++ [x, y] ∧
      (hpi.play before t).pio.otg_hpi_w = true ∧
      (Asks (Address.setWidth 2) (hpi.play before t) ↔ 3 ≤ gap.length) := by
  have hchosen := (outline_prepare Address).play hfront ht
  obtain ⟨l, z, x', hsplit⟩ := prepare_split hfront
  rcases List.eq_nil_or_concat' gap with rfl | ⟨gap, y, rfl⟩
  · have hprev : Free (hpi.play l t) :=
      free_of_prefix ht hfront ⟨[z, x'], by rw [hsplit]⟩
    have hbefore : Free (hpi.play (l ++ [z]) t) :=
      free_of_prefix ht hfront ⟨[x'], by rw [hsplit]; simp⟩
    refine ⟨l ++ [z], x', ⟨some (.store .otg_hpi_cs 0), e⟩, by rw [hsplit]; simp, hbefore.w,
      iff_of_false ?_ (by simp)⟩
    rw [Machine.play_append]
    exact hprev.not_asks z
  rcases List.eq_nil_or_concat' gap with rfl | ⟨gap, x, rfl⟩
  · have hprev : Free (hpi.play (l ++ [z]) t) :=
      free_of_prefix ht hfront ⟨[x'], by rw [hsplit]; simp⟩
    refine ⟨front, _, y, rfl, hchosen.w, iff_of_false ?_ (by simp)⟩
    rw [show front = l ++ [z] ++ [x'] by rw [hsplit]; simp, Machine.play_append]
    exact hprev.not_asks x'
  have hasking : Asking (Address.setWidth 2)
      (hpi.play (front ++ [⟨some (.store .otg_hpi_cs 0), e⟩]) t) := by
    rw [Machine.play_append]
    exact hchosen.select e
  rcases List.eq_nil_or_concat' gap with rfl | ⟨gap, z, rfl⟩
  · refine ⟨front ++ [⟨some (.store .otg_hpi_cs 0), e⟩], x, y, by simp, hasking.w,
      iff_of_false ?_ (by simp)⟩
    rw [Machine.play_append]
    exact hchosen.toFree.not_asks _
  · rw [performed_append, performed_append, List.append_eq_nil_iff, List.append_eq_nil_iff]
      at hgap
    have hidle := (List.append_eq_nil_iff.1 ((performed_append gap [z]).symm.trans hgap.1.1)).1
    have hbefore := hasking.idle hgap.1.1
    rw [← Machine.play_append] at hbefore
    refine ⟨_, x, y, by simp, hbefore.w, iff_of_true ?_ (by simp)⟩
    rw [← List.append_assoc, Machine.play_append, Machine.play_append]
    exact (hasking.idle hidle).asks z

/-! ## Spaced calls -/

/-- Without a load, nothing is loaded. -/
theorem loaded_of_no_load {l : List (Slot Access (BitVec 16))}
    (h : ∀ port, .load port ∉ performed l) (s : Hpi) :
    (hpi.play l s).loaded = s.loaded := by
  induction l generalizing s with
  | nil => rfl
  | cons slot l ih =>
    obtain ⟨_ | op, e⟩ := slot
    · exact ih h _
    · rw [performed_op] at h
      have hop : (s.edge ⟨some op, e⟩).loaded = s.loaded := by
        cases op with
        | store port D => rfl
        | load port => exact absurd List.mem_cons_self (h port)
      rw [Machine.play_cons, ih fun port hmem => h port (List.mem_cons_of_mem _ hmem)]
      exact hop

end Hpi

/-- The edges of one call.  In a read, at least three of them pass between the store that
selects the chip and the load. -/
inductive Spaced : IoCall → List (Slot Access (BitVec 16)) → Prop
  | write {Address : BitVec 8} {Data : BitVec 16} {l : List (Slot Access (BitVec 16))}
      (all : performed l = IO_write Address Data) : Spaced (.write Address Data) l
  | read {Address : BitVec 8} {front gap back : List (Slot Access (BitVec 16))}
      (select load : BitVec 16) (prepare : performed front = (IO_read Address).take 2)
      (idle : performed gap = []) (long : 3 ≤ gap.length)
      (finish : performed back = (IO_read Address).drop 4) :
      Spaced (.read Address)
        (front ++ ⟨some (.store .otg_hpi_cs 0), select⟩ ::
          (gap ++ ⟨some (.load .otg_hpi_data), load⟩ :: back))

/-- The addresses that the reads of a sequence of calls ask for. -/
def asked (calls : List IoCall) : List (BitVec 2) :=
  calls.filterMap fun
    | .read Address => some (Address.setWidth 2)
    | .write _ _ => none

/-- At some edge of `l`, from state `s`, the chip is asked for address `a` and puts `v` on
the bus. -/
def Answered (s : Hpi) (l : List (Slot Access (BitVec 16))) (a : BitVec 2) (v : BitVec 16) :
    Prop :=
  ∃ before sample after, l = before ++ sample :: after ∧ Hpi.Asks a (hpi.play before s) ∧
    sample.env = v

theorem Answered.later {s : Hpi} {l l' : List (Slot Access (BitVec 16))} {a : BitVec 2}
    {v : BitVec 16} (h : Answered (hpi.play l' s) l a v) : Answered s (l' ++ l) a v := by
  obtain ⟨before, sample, after, rfl, hasks, hv⟩ := h
  refine ⟨l' ++ before, sample, after, (List.append_assoc _ _ _).symm, ?_, hv⟩
  rwa [Machine.play_append]

theorem Spaced.performed {call : IoCall} {l : List (Slot Access (BitVec 16))}
    (h : Spaced call l) : performed l = call.accesses := by
  cases h with
  | write all => exact all
  | read select load prepare idle _ finish =>
    rw [performed_append, performed_op, performed_append, performed_op, prepare, idle, finish]
    rfl

open Hpi in
/-- A spaced read loads one word, which the chip has put on the bus for it. -/
theorem Spaced.answered {Address : BitVec 8} {l : List (Slot Access (BitVec 16))}
    (h : Spaced (.read Address) l) {t : Hpi} (ht : Free t) :
    ∃ v, (hpi.play l t).loaded = t.loaded ++ [v] ∧ Answered t l (Address.setWidth 2) v := by
  cases h with
  | @read _ front gap back select load prepare idle long finish =>
    obtain ⟨before, x, y, hsplit, hw, hasks⟩ := exists_sample ht prepare idle select
    have hwhole : front ++ ⟨some (.store .otg_hpi_cs 0), select⟩ ::
        (gap ++ ⟨some (.load .otg_hpi_data), load⟩ :: back) =
          before ++ [x, y] ++ [⟨some (.load .otg_hpi_data), load⟩] ++ back := by
      rw [← hsplit]
      simp
    have hquiet : (hpi.play (before ++ [x, y]) t).loaded = t.loaded := by
      rw [← hsplit]
      refine loaded_of_no_load (fun port hmem => ?_) t
      rw [performed_append, performed_op, prepare, idle] at hmem
      simp [IO_read] at hmem
    have hback : ∀ port, Access.load port ∉ Sync.performed back := fun port hmem => by
      rw [finish] at hmem
      simp [IO_read] at hmem
    refine ⟨x.env, ?_, before, x, y :: ⟨some (.load .otg_hpi_data), load⟩ :: back, ?_,
      hasks.2 long, rfl⟩
    · rw [hwhole, Machine.play_append, loaded_of_no_load hback, load_sample hw, hquiet]
    · rw [hwhole]
      simp

open Hpi in
/-- From between two calls on, spaced calls load one word for each read, in order, and each
is the answer of the chip. -/
theorem calls_answered {init pre : List (Slot Access (BitVec 16))} {done calls : List IoCall}
    {segs : List (List (Slot Access (BitVec 16)))} (hinit : performed init = IO_init)
    (hpre : performed pre = accessesOf done) (hsegs : List.Forall₂ Spaced calls segs)
    (s : Hpi) {t : Hpi} (ht : t = hpi.play (init ++ pre) s) :
    ∃ words, (hpi.play segs.flatten t).loaded = t.loaded ++ words ∧
      List.Forall₂ (Answered t segs.flatten) (asked calls) words := by
  induction hsegs generalizing pre done t with
  | nil => exact ⟨[], (List.append_nil _).symm, List.Forall₂.nil⟩
  | @cons call seg calls segs hseg _ ih =>
    have hfree : Free t := by
      rw [ht]
      exact free_after hinit hpre s
    have hdone : performed (pre ++ seg) = accessesOf (done ++ [call]) := by
      rw [performed_append, hpre, hseg.performed]
      simp [accessesOf]
    obtain ⟨words, hloaded, hall⟩ := ih hdone (t := hpi.play seg t)
      (by rw [ht, ← Machine.play_append, List.append_assoc])
    have hlater := hall.imp fun _ _ h => h.later
    rw [List.flatten_cons, Machine.play_append, hloaded]
    cases call with
    | write Address Data =>
      refine ⟨words, ?_, hlater⟩
      rw [loaded_of_no_load]
      intro port hmem
      rw [hseg.performed] at hmem
      simp [IoCall.accesses, IO_write] at hmem
    | read Address =>
      obtain ⟨v, hv, before, sample, after, hsplit, hasks, henv⟩ := hseg.answered hfree
      refine ⟨v :: words, by rw [hv, List.append_assoc]; rfl, List.Forall₂.cons ?_ hlater⟩
      exact ⟨before, sample, after ++ segs.flatten, by rw [hsplit]; simp, hasks, henv⟩

/-! ## The results -/

open Hpi in
/-- A read returns the level of the bus two edges before its load.  After `IO_init`, any
calls and the first stores of the read, under any spacing, the chip is asked for the address
of this read at that edge exactly if at least three edges pass between the store that
selects the chip and the load. -/
theorem hpi_read_answered_iff {init pre front gap : List (Slot Access (BitVec 16))}
    {calls : List IoCall} {Address : BitVec 8} (s : Hpi) (select load : BitVec 16)
    (hinit : performed init = IO_init) (hpre : performed pre = accessesOf calls)
    (hfront : performed front = (IO_read Address).take 2) (hgap : performed gap = [])
    {l : List (Slot Access (BitVec 16))}
    (hl : l = init ++ pre ++ (front ++ ⟨some (.store .otg_hpi_cs 0), select⟩ :: gap)) :
    ∃ before sample after, l = before ++ [sample, after] ∧
      (hpi.play (l ++ [⟨some (.load .otg_hpi_data), load⟩]) s).loaded =
        (hpi.play l s).loaded ++ [sample.env] ∧
      (Asks (Address.setWidth 2) (hpi.play before s) ↔ 3 ≤ gap.length) := by
  obtain ⟨before, x, y, hsplit, hw, hasks⟩ :=
    exists_sample (free_after hinit hpre s) hfront hgap select
  rw [← Machine.play_append] at hw hasks
  have hwhole : l = init ++ pre ++ before ++ [x, y] := by
    rw [hl, hsplit, ← List.append_assoc]
  refine ⟨init ++ pre ++ before, x, y, hwhole, ?_, hasks⟩
  rw [hwhole]
  exact load_sample hw x y load

/-- A read of the mailbox register after `IO_init`, with three idle edges before the load. -/
theorem hpi_read_answered_iff_mailbox :
    ∃ before sample after,
      eager IO_init 0 ++ [] ++ (eager ((IO_read 1).take 2) 7 ++
        ⟨some (.store .otg_hpi_cs 0), 8⟩ :: [⟨none, 9⟩, ⟨none, 10⟩, ⟨none, 11⟩]) =
          before ++ [sample, after] ∧ Hpi.Asks 1 (hpi.play before hpi.init) := by
  have hpre : performed ([] : List (Slot Access (BitVec 16))) = accessesOf [] := rfl
  have hgap : performed ([⟨none, 9⟩, ⟨none, 10⟩, ⟨none, 11⟩] : List (Slot Access (BitVec 16))) =
      [] := rfl
  obtain ⟨before, sample, after, hl, _, hiff⟩ :=
    hpi_read_answered_iff hpi.init 8 0 (performed_eager IO_init 0) hpre
      (performed_eager ((IO_read 1).take 2) 7) hgap rfl
  exact ⟨before, sample, after, hl, hiff.2 (by decide)⟩

/-- Spaced reads reach the software.  After `IO_init`, any sequence of calls whose reads
leave three edges before the load loads exactly one word for each read, in order, and each
is what the chip put on the bus at an edge at which it was asked for that address. -/
theorem hpi_reads_answered {init : List (Slot Access (BitVec 16))} {calls : List IoCall}
    {segs : List (List (Slot Access (BitVec 16)))} (s : Hpi) (hinit : performed init = IO_init)
    (hsegs : List.Forall₂ Spaced calls segs) :
    ∃ words, (hpi.play (init ++ segs.flatten) s).loaded = (hpi.play init s).loaded ++ words ∧
      List.Forall₂ (Answered (hpi.play init s) segs.flatten) (asked calls) words := by
  have hpre : performed ([] : List (Slot Access (BitVec 16))) = accessesOf [] := rfl
  rw [Machine.play_append]
  exact calls_answered hinit hpre hsegs s (by rw [List.append_nil])

/-- A write to the address register and a read of the data register, with three idle edges
before the load. -/
theorem hpi_reads_answered_data :
    ∃ words, (hpi.play (eager IO_init 0 ++ [eager (IO_write 2 0x051e) 0,
        eager ((IO_read 0).take 2) 0 ++ ⟨some (.store .otg_hpi_cs 0), 0⟩ ::
          ([⟨none, 0⟩, ⟨none, 0x1a⟩, ⟨none, 0⟩] ++ ⟨some (.load .otg_hpi_data), 0⟩ ::
            eager ((IO_read 0).drop 4) 0)].flatten) hpi.init).loaded =
      (hpi.play (eager IO_init 0) hpi.init).loaded ++ words ∧ words.length = 1 := by
  have hgap : performed ([⟨none, 0⟩, ⟨none, 0x1a⟩, ⟨none, 0⟩] : List (Slot Access (BitVec 16))) =
      [] := rfl
  obtain ⟨words, hloaded, hall⟩ := hpi_reads_answered hpi.init (performed_eager _ _)
    (List.Forall₂.cons (Spaced.write (performed_eager (IO_write 2 0x051e) 0))
      (List.Forall₂.cons (Spaced.read 0 0 (performed_eager ((IO_read 0).take 2) 0) hgap
        (by decide) (performed_eager ((IO_read 0).drop 4) 0)) List.Forall₂.nil))
  exact ⟨words, hloaded, hall.length_eq.symm⟩

end SnakeMom
