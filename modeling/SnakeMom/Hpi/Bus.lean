import SnakeMom.Hpi.Model

/-!
# The bus between the bridge and the OTG chip

What a sequence of `IO_write` and `IO_read` calls does on the bus, for every spacing of
the accesses.

* `Hpi.NoContention`: the bridge and the chip do not drive at once, and the two strobes
  are not low at once.
* `Rest`, `Addressed`, `Writing`, `Released` and `Reading` are what holds between two
  accesses, and `outline_IO_write`, `outline_IO_read` chain them into the two calls.
* `hpi_no_contention`: no cycle after `IO_init` has contention.
* `hpi_latched`: every write latches its address once.  The bridge enables its bus by
  `otg_hpi_w` itself and raises `OTG_WR_N` an edge later, so the bus is free again when
  the chip latches, and no write brings its data.
-/

namespace SnakeMom

open Sync

namespace Hpi

variable {s : Hpi} {slot : Slot Access (BitVec 16)} {a : BitVec 2}
  {L : List (BitVec 2 × Option (BitVec 16))}

/-- Not both sides drive the bus, and not both strobes are low. -/
def NoContention (s : Hpi) : Prop :=
  ¬(s.drive.isSome ∧ s.bridge.OTG_RD_N = false) ∧
    ¬(s.bridge.OTG_RD_N = false ∧ s.bridge.OTG_WR_N = false)

theorem drive_eq_none (h : s.pio.otg_hpi_w = true) : s.drive = none := by
  simp [drive, HpiReg.OTG_DATA, h]

/-- No rising edge of `OTG_WR_N`, no latch. -/
theorem edge_latched_of (h : s.bridge.OTG_WR_N = true ∨ s.pio.otg_hpi_w = false) :
    (s.edge slot).latched = s.latched := by
  rcases h with h | h <;> simp [edge, latchNext, hpi_io_intf, bridgeIn, h]

/-- At a rising edge the bridge has left the bus already. -/
theorem edge_latched_rise (hWR : s.bridge.OTG_WR_N = false) (hCS : s.bridge.OTG_CS_N = false)
    (hw : s.pio.otg_hpi_w = true) :
    (s.edge slot).latched = s.latched ++ [(s.bridge.OTG_ADDR, none)] := by
  simp [edge, latchNext, hpi_io_intf, bridgeIn, hWR, hCS, hw, drive_eq_none hw]

/-! ## What holds between two accesses -/

/-- Between two calls: all strobes are up. -/
structure Rest (L : List (BitVec 2 × Option (BitVec 16))) (s : Hpi) : Prop where
  r : s.pio.otg_hpi_r = true
  w : s.pio.otg_hpi_w = true
  RD_N : s.bridge.OTG_RD_N = true
  WR_N : s.bridge.OTG_WR_N = true
  latched : s.latched = L

/-- The address is set. -/
structure Addressed (a : BitVec 2) (L : List (BitVec 2 × Option (BitVec 16))) (s : Hpi) : Prop
    extends Rest L s where
  address : s.pio.otg_hpi_address = a

/-- The write bit is down; the strobe follows an edge later, with select and address. -/
structure Writing (a : BitVec 2) (L : List (BitVec 2 × Option (BitVec 16))) (s : Hpi) :
    Prop where
  r : s.pio.otg_hpi_r = true
  w : s.pio.otg_hpi_w = false
  cs : s.pio.otg_hpi_cs = false
  address : s.pio.otg_hpi_address = a
  RD_N : s.bridge.OTG_RD_N = true
  strobe : s.bridge.OTG_WR_N = false → s.bridge.OTG_CS_N = false ∧ s.bridge.OTG_ADDR = a
  latched : s.latched = L

/-- The write bit is up again; the chip latches when the strobe follows. -/
structure Released (a : BitVec 2) (L : List (BitVec 2 × Option (BitVec 16))) (s : Hpi) :
    Prop where
  r : s.pio.otg_hpi_r = true
  w : s.pio.otg_hpi_w = true
  RD_N : s.bridge.OTG_RD_N = true
  strobe :
    (s.bridge.OTG_WR_N = false ∧ s.bridge.OTG_CS_N = false ∧ s.bridge.OTG_ADDR = a ∧
      s.latched = L) ∨
    (s.bridge.OTG_WR_N = true ∧ s.latched = L ++ [(a, none)])

/-- In a read: nothing is written. -/
structure Reading (L : List (BitVec 2 × Option (BitVec 16))) (s : Hpi) : Prop where
  w : s.pio.otg_hpi_w = true
  WR_N : s.bridge.OTG_WR_N = true
  latched : s.latched = L

/-! ## One edge -/

theorem Rest.edge (h : Rest L s) (hr : (s.edge slot).pio.otg_hpi_r = true)
    (hw : (s.edge slot).pio.otg_hpi_w = true) : Rest L (s.edge slot) :=
  ⟨hr, hw, h.r, h.w, (edge_latched_of (.inl h.WR_N)).trans h.latched⟩

theorem Reading.edge (h : Reading L s) (hw : (s.edge slot).pio.otg_hpi_w = true) :
    Reading L (s.edge slot) :=
  ⟨hw, h.w, (edge_latched_of (.inl h.WR_N)).trans h.latched⟩

/-- Pulling the write bit down. -/
theorem Addressed.edge (h : Addressed a L s) (hcs : s.pio.otg_hpi_cs = false)
    (hr : (s.edge slot).pio.otg_hpi_r = true) (hw : (s.edge slot).pio.otg_hpi_w = false)
    (hcs' : (s.edge slot).pio.otg_hpi_cs = false)
    (ha : (s.edge slot).pio.otg_hpi_address = a) : Writing a L (s.edge slot) :=
  ⟨hr, hw, hcs', ha, h.r, fun _ => ⟨hcs, h.address⟩,
    (edge_latched_of (.inl h.WR_N)).trans h.latched⟩

/-- After one more edge the strobe is down. -/
theorem Writing.edge (h : Writing a L s) (hr : (s.edge slot).pio.otg_hpi_r = true)
    (hw : (s.edge slot).pio.otg_hpi_w = false)
    (hcs : (s.edge slot).pio.otg_hpi_cs = false)
    (ha : (s.edge slot).pio.otg_hpi_address = a) : Writing a L (s.edge slot) :=
  ⟨hr, hw, hcs, ha, h.r, fun _ => ⟨h.cs, h.address⟩,
    (edge_latched_of (.inr h.w)).trans h.latched⟩

/-- Pulling the write bit up while the strobe is down. -/
theorem Writing.release (h : Writing a L s) (hr : (s.edge slot).pio.otg_hpi_r = true)
    (hw : (s.edge slot).pio.otg_hpi_w = true) : Released a L (s.edge slot) :=
  ⟨hr, hw, h.r,
    .inl ⟨h.w, h.cs, h.address, (edge_latched_of (.inr h.w)).trans h.latched⟩⟩

/-- The strobe rises at the next edge, whatever arrives there. -/
theorem Released.edge (h : Released a L s) (hr : (s.edge slot).pio.otg_hpi_r = true)
    (hw : (s.edge slot).pio.otg_hpi_w = true) :
    Rest (L ++ [(a, none)]) (s.edge slot) := by
  refine ⟨hr, hw, h.r, h.w, ?_⟩
  rcases h.strobe with ⟨hWR, hCS, hA, hL⟩ | ⟨hWR, hL⟩
  · rw [edge_latched_rise hWR hCS h.w, hA, hL]
  · rw [edge_latched_of (.inl hWR), hL]

theorem Rest.released (h : Rest (L ++ [(a, none)]) s) : Released a L s :=
  ⟨h.r, h.w, h.RD_N, .inr ⟨h.WR_N, h.latched⟩⟩

/-! ## The two calls -/

/-- `Rest`, as an assertion of the machine. -/
def rest (L : List (BitVec 2 × Option (BitVec 16))) : Assertion hpi NoContention where
  holds := Rest L
  stable _ _ h := h.edge h.r h.w
  safe s h := by simp [NoContention, h.RD_N]

def addressed (a : BitVec 2) (L : List (BitVec 2 × Option (BitVec 16))) :
    Assertion hpi NoContention where
  holds := Addressed a L
  stable _ _ h := ⟨h.toRest.edge h.r h.w, h.address⟩
  safe s h := by simp [NoContention, h.RD_N]

/-- `Addressed`, and the chip is selected. -/
def selected (a : BitVec 2) (L : List (BitVec 2 × Option (BitVec 16))) :
    Assertion hpi NoContention where
  holds s := Addressed a L s ∧ s.pio.otg_hpi_cs = false
  stable _ _ h := ⟨⟨h.1.toRest.edge h.1.r h.1.w, h.1.address⟩, h.2⟩
  safe s h := by simp [NoContention, h.1.RD_N]

def writing (a : BitVec 2) (L : List (BitVec 2 × Option (BitVec 16))) :
    Assertion hpi NoContention where
  holds := Writing a L
  stable _ _ h := h.edge h.r h.w h.cs h.address
  safe s h := by simp [NoContention, h.RD_N]

def released (a : BitVec 2) (L : List (BitVec 2 × Option (BitVec 16))) :
    Assertion hpi NoContention where
  holds := Released a L
  stable s e h := by
    have next : Rest (L ++ [(a, none)]) (s.edge ⟨none, e⟩) := h.edge h.r h.w
    exact next.released
  safe s h := by simp [NoContention, h.RD_N]

def reading (L : List (BitVec 2 × Option (BitVec 16))) : Assertion hpi NoContention where
  holds := Reading L
  stable _ _ h := h.edge h.w
  safe s h := by simp [NoContention, h.WR_N, drive_eq_none h.w]

/-- The read bit is up again. -/
def readDone (L : List (BitVec 2 × Option (BitVec 16))) : Assertion hpi NoContention where
  holds s := Reading L s ∧ s.pio.otg_hpi_r = true
  stable _ _ h := ⟨h.1.edge h.1.w, h.2⟩
  safe s h := by simp [NoContention, h.1.WR_N, drive_eq_none h.1.w]

theorem rest_address (A : BitVec 8) :
    (rest L).Leads (.store .otg_hpi_address (A.setWidth 32)) (addressed (A.setWidth 2) L) :=
  fun _ _ h =>
    have hA : (A.setWidth 32).setWidth 2 = A.setWidth 2 :=
      BitVec.setWidth_setWidth_of_le A (by omega)
    ⟨h.edge h.r h.w, hA⟩

theorem addressed_cs : (addressed a L).Leads (.store .otg_hpi_cs 0) (selected a L) :=
  fun _ _ h => ⟨⟨h.toRest.edge h.r h.w, h.address⟩, rfl⟩

theorem selected_w : (selected a L).Leads (.store .otg_hpi_w 0) (writing a L) :=
  fun _ _ h => h.1.edge h.2 h.1.r rfl h.2 h.1.address

theorem writing_data (D : BitVec 32) :
    (writing a L).Leads (.store .otg_hpi_data D) (writing a L) :=
  fun _ _ h => h.edge h.r h.w h.cs h.address

theorem writing_w : (writing a L).Leads (.store .otg_hpi_w 1) (released a L) :=
  fun _ _ h => h.release h.r rfl

theorem released_cs :
    (released a L).Leads (.store .otg_hpi_cs 1) (rest (L ++ [(a, none)])) :=
  fun _ _ h => h.edge h.r h.w

theorem addressed_r : (addressed a L).Leads (.store .otg_hpi_r 0) (reading L) :=
  fun _ _ h => ⟨h.w, h.w, (edge_latched_of (.inl h.WR_N)).trans h.latched⟩

theorem reading_cs : (reading L).Leads (.store .otg_hpi_cs 0) (reading L) :=
  fun _ _ h => h.edge h.w

theorem reading_load : (reading L).Leads (.load .otg_hpi_data) (reading L) :=
  fun _ _ h => h.edge h.w

theorem reading_r : (reading L).Leads (.store .otg_hpi_r 1) (readDone L) :=
  fun _ _ h => ⟨h.edge h.w, rfl⟩

theorem readDone_cs : (readDone L).Leads (.store .otg_hpi_cs 1) (rest L) :=
  fun _ _ h => ⟨h.2, h.1.w, h.2, h.1.w, (edge_latched_of (.inl h.1.WR_N)).trans h.1.latched⟩

/-- A write latches its address once, without its data. -/
theorem outline_IO_write (Address : BitVec 8) (Data : BitVec 16) :
    Outline (rest L) (IO_write Address Data) (rest (L ++ [(Address.setWidth 2, none)])) := by
  apply Outline.cons (rest_address Address)
  apply Outline.cons addressed_cs
  apply Outline.cons selected_w
  apply Outline.cons (writing_data _)
  apply Outline.cons writing_w
  apply Outline.cons released_cs
  exact Outline.nil _

/-- A read latches nothing. -/
theorem outline_IO_read (Address : BitVec 8) :
    Outline (rest L) (IO_read Address) (rest L) := by
  apply Outline.cons (rest_address Address)
  apply Outline.cons addressed_r
  apply Outline.cons reading_cs
  apply Outline.cons reading_load
  apply Outline.cons reading_r
  apply Outline.cons readDone_cs
  exact Outline.nil _

end Hpi

/-! ## Sequences of calls -/

/-- The address and the word that a call writes, as far as the bus can take it. -/
def IoCall.pair : IoCall → Option (BitVec 2 × BitVec 16)
  | .write Address Data => some (Address.setWidth 2, Data)
  | .read _ => none

/-- The pairs that the writes of a sequence of calls write. -/
def written (calls : List IoCall) : List (BitVec 2 × BitVec 16) :=
  calls.filterMap IoCall.pair

/-- Calls compose; the chip latches the addresses of the writes. -/
theorem Hpi.outline_accesses (calls : List IoCall)
    (L : List (BitVec 2 × Option (BitVec 16))) :
    Outline (rest L) (accessesOf calls)
      (rest (L ++ (written calls).map fun p => (p.1, none))) := by
  induction calls generalizing L with
  | nil => simpa [accessesOf, written] using Outline.nil (rest L)
  | cons call calls ih =>
    cases call with
    | write Address Data =>
      have h := (outline_IO_write Address Data).append (ih (L ++ [(Address.setWidth 2, none)]))
      rw [List.append_assoc] at h
      exact h
    | read Address => exact (outline_IO_read Address).append (ih L)

/-! ## `IO_init` -/

namespace Hpi

/-- Before `IO_init`, no matter in which state. -/
def unknown : Assertion hpi fun _ => True where
  holds _ := True
  stable _ _ _ := trivial
  safe _ _ := trivial

def readUp : Assertion hpi fun _ => True where
  holds s := s.pio.otg_hpi_r = true
  stable _ _ h := h
  safe _ _ := trivial

def bothUp : Assertion hpi fun _ => True where
  holds s := s.pio.otg_hpi_r = true ∧ s.pio.otg_hpi_w = true
  stable _ _ h := h
  safe _ _ := trivial

/-- The strobes are up, whatever has been latched. -/
def quiet : Assertion hpi fun _ => True where
  holds s := Rest s.latched s
  stable _ _ h := ⟨h.r, h.w, h.r, h.w, rfl⟩
  safe _ _ := trivial

theorem unknown_leads (a : Access) : unknown.Leads a unknown := fun _ _ _ => trivial

theorem unknown_r : unknown.Leads (.store .otg_hpi_r 1) readUp := fun _ _ _ => rfl

theorem readUp_w : readUp.Leads (.store .otg_hpi_w 1) bothUp := fun _ _ h => ⟨h, rfl⟩

theorem bothUp_address (A : BitVec 32) : bothUp.Leads (.store .otg_hpi_address A) quiet :=
  fun _ _ h => ⟨h.1, h.2, h.1, h.2, rfl⟩

/-- The other ports do not matter. -/
theorem quiet_leads (port : Port) (hr : port ≠ .otg_hpi_r) (hw : port ≠ .otg_hpi_w)
    (D : BitVec 32) : quiet.Leads (.store port D) quiet := by
  intro s e h
  cases port with
  | otg_hpi_r => exact absurd rfl hr
  | otg_hpi_w => exact absurd rfl hw
  | otg_hpi_address => exact ⟨h.r, h.w, h.r, h.w, rfl⟩
  | otg_hpi_data => exact ⟨h.r, h.w, h.r, h.w, rfl⟩
  | otg_hpi_cs => exact ⟨h.r, h.w, h.r, h.w, rfl⟩
  | otg_hpi_reset => exact ⟨h.r, h.w, h.r, h.w, rfl⟩

/-- From the fifth store on all strobes are up. -/
theorem outline_IO_init : Outline unknown IO_init quiet := by
  apply Outline.cons (unknown_leads _)
  apply Outline.cons (unknown_leads _)
  apply Outline.cons unknown_r
  apply Outline.cons readUp_w
  apply Outline.cons (bothUp_address 0)
  apply Outline.cons (quiet_leads .otg_hpi_data nofun nofun 0)
  apply Outline.cons (quiet_leads .otg_hpi_cs nofun nofun 0)
  apply Outline.cons (quiet_leads .otg_hpi_reset nofun nofun 0)
  apply Outline.cons (quiet_leads .otg_hpi_reset nofun nofun 1)
  apply Outline.cons (quiet_leads .otg_hpi_cs nofun nofun 1)
  exact Outline.nil quiet

/-- Once `IO_init` has been performed, the strobes are up. -/
theorem rest_after_IO_init {init : List (Slot Access (BitVec 16))}
    (hinit : performed init = IO_init) (s : Hpi) :
    (rest (hpi.play init s).latched).holds (hpi.play init s) :=
  outline_IO_init.play hinit trivial

end Hpi

/-! ## The two results -/

section

variable {init body : List (Slot Access (BitVec 16))} {calls : List IoCall}

/-- From `IO_init` on, in every cycle of every sequence of calls under every spacing of
the accesses, the bridge does not drive the bus while `OTG_RD_N` is low, and the two
strobes are not both low. -/
theorem hpi_no_contention (s : Hpi) (calls : List IoCall) (hinit : performed init = IO_init)
    (hbody : performed body <+: accessesOf calls) :
    (hpi.play (init ++ body) s).NoContention := by
  rw [Machine.play_append]
  exact (Hpi.outline_accesses calls _).safe hbody (Hpi.rest_after_IO_init hinit s)

/-- In the middle of a read that follows a write. -/
theorem hpi_no_contention_read :
    performed (eager IO_init 0#16) = IO_init ∧
      (hpi.play (eager IO_init 0 ++ eager (IO_write 2 0x0500 ++ (IO_read 0).take 4) 0)
        hpi.init).NoContention :=
  ⟨performed_eager _ _,
    hpi_no_contention hpi.init [.write 2 0x0500, .read 0] (performed_eager _ _)
      (by rw [performed_eager]; decide)⟩

/-- Before `IO_init` both strobes are low: the ports hold 0. -/
example : ¬(hpi.step hpi.init ⟨none, 0⟩).NoContention := fun h => h.2 ⟨rfl, rfl⟩

/-- The chip latches exactly one pair for each write, with the right address, when the
bus is not driven. -/
theorem hpi_latched (s : Hpi) (hinit : performed init = IO_init)
    (hbody : performed body = accessesOf calls) :
    (hpi.play (init ++ body) s).latched =
      (hpi.play init s).latched ++ (written calls).map fun p => (p.1, none) := by
  rw [Machine.play_append]
  have h := (Hpi.outline_accesses calls _).play hbody (Hpi.rest_after_IO_init hinit s)
  exact h.latched

theorem written_eq_nil_iff :
    written calls = [] ↔ ∀ Address Data, IoCall.write Address Data ∉ calls := by
  rw [written, List.filterMap_eq_nil_iff]
  constructor
  · intro h Address Data hmem
    exact absurd (h _ hmem) (by simp [IoCall.pair])
  · intro h call hmem
    cases call with
    | write Address Data => exact absurd hmem (h Address Data)
    | read Address => rfl

/-- The chip latches the addresses and the data of the writes exactly if there are no
writes. -/
theorem hpi_writes_intact_iff (s : Hpi) (hinit : performed init = IO_init)
    (hbody : performed body = accessesOf calls) :
    (hpi.play (init ++ body) s).latched =
        (hpi.play init s).latched ++ (written calls).map (fun p => (p.1, some p.2)) ↔
      ∀ Address Data, IoCall.write Address Data ∉ calls := by
  rw [hpi_latched s hinit hbody, List.append_cancel_left_eq, ← written_eq_nil_iff]
  cases written calls with
  | nil => simp
  | cons p l => simp

/-- A read alone latches nothing. -/
theorem hpi_writes_intact_iff_read :
    (hpi.play (eager IO_init 0 ++ eager (accessesOf [.read 0]) 0) hpi.init).latched =
        (hpi.play (eager IO_init 0) hpi.init).latched ++
          (written [.read 0]).map (fun p => (p.1, some p.2)) ↔
      ∀ Address Data, IoCall.write Address Data ∉ [IoCall.read 0] :=
  hpi_writes_intact_iff hpi.init (performed_eager _ _) (performed_eager _ _)

/-- The pointer of the chip is to be set to `0x0500`: the chip latches the address of
the pointer and no data. -/
theorem hpi_write_without_data :
    (hpi.play (eager IO_init 0 ++ eager (accessesOf [.write 2 0x0500]) 0) hpi.init).latched =
        (hpi.play (eager IO_init 0) hpi.init).latched ++ [(2, none)] ∧
      (hpi.play (eager IO_init 0 ++ eager (accessesOf [.write 2 0x0500]) 0) hpi.init).latched ≠
        (hpi.play (eager IO_init 0) hpi.init).latched ++
          (written [.write 2 0x0500]).map (fun p => (p.1, some p.2)) := by
  decide

end

end SnakeMom
