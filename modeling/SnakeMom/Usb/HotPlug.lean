import SnakeMom.Usb.Parts

/-!
# When the keyboard counts as removed

After every poll the software looks at the control register of the port, whose two line bits
say whether a device is there.

* `HotPlugRight` is the law: the polling goes on when one of eight reads finds a device, and
  it ends after eight reads without one and then some rounds of three reads, of which only
  the last read counts.
* `Lines` collects what is read from the register since the last mark, and `lines` is the
  monitor.
* `main_hotPlug`: the law holds in every run.
-/

namespace SnakeMom.UsbKb

open Talk

/-! ## What is read from the control register -/

/-- The value says that there is no device. -/
def Absent (usb_ctl_val : BitVec 16) : Prop := usb_ctl_val &&& no_device = 0

instance : DecidablePred Absent := fun _ => inferInstanceAs (Decidable (_ = _))

/-- What the events so far amount to. -/
structure Lines where
  /-- The last event has selected the control register. -/
  selected : Bool
  /-- What has been read from it since the last mark. -/
  reads : List (BitVec 16)
  /-- The last mark was the beginning of a poll. -/
  polling : Bool

namespace Lines

def start : Lines := ⟨false, [], false⟩

def step (s : Lines) : Event → Lines
  | .USB_HOT_PLUG => start
  | .poll => { start with polling := true }
  | .write Address Data => { s with selected := Address == HPI_ADDR && Data == ctl_reg }
  | .read Address temp =>
    { s with
      selected := false
      reads := if Address = HPI_DATA ∧ s.selected = true then s.reads ++ [temp] else s.reads }
  | _ => { s with selected := false }

end Lines

/-- What events read from the control register. -/
def ctlReads (tr : List Event) : List (BitVec 16) := (tr.foldl Lines.step .start).reads

/-- A device is found with one of the first `n` reads, and no read follows. -/
def Found (n : Nat) (reads : List (BitVec 16)) : Prop :=
  ∃ gone usb_ctl_val, reads = gone ++ [usb_ctl_val] ∧ gone.length < n ∧
    (∀ v ∈ gone, Absent v) ∧ ¬ Absent usb_ctl_val

/-- `n` reads without a device. -/
def Lost (n : Nat) (reads : List (BitVec 16)) : Prop :=
  reads.length = n ∧ ∀ v ∈ reads, Absent v

/-- Rounds of three reads, the last of which finds no device. -/
inductive Waiting : List (BitVec 16) → Prop
  | nil : Waiting []
  | round {reads : List (BitVec 16)} (h : Waiting reads) (v v' : BitVec 16)
      {usb_ctl_val : BitVec 16} (habsent : Absent usb_ctl_val) :
      Waiting (reads ++ [v, v', usb_ctl_val])

/-- Eight reads without a device, rounds that find none, and one round that does. -/
def Returned (reads : List (BitVec 16)) : Prop :=
  ∃ lost waiting v v' usb_ctl_val, reads = lost ++ waiting ++ [v, v', usb_ctl_val] ∧
    Lost 8 lost ∧ Waiting waiting ∧ ¬ Absent usb_ctl_val

structure HotPlugRight (tr : List Event) : Prop where
  /-- A poll that is followed by another one. -/
  stays : ∀ pre mid post, tr = pre ++ .poll :: mid ++ .poll :: post →
    (∀ x ∈ mid, x.isMark = false) → Found 8 (ctlReads mid)
  /-- A poll that is followed by a jump to the label. -/
  leaves : ∀ pre mid post, tr = pre ++ .poll :: mid ++ .USB_HOT_PLUG :: post →
    (∀ x ∈ mid, x.isMark = false) → Returned (ctlReads mid)

/-! ## The monitor -/

def lines : Monitor Event Lines where
  step := Lines.step
  ok s e :=
    (e = .poll → s.polling = true → Found 8 s.reads) ∧
      (e = .USB_HOT_PLUG → s.polling = true → Returned s.reads)
  idle _ := True

namespace Lines

/-- In a poll that has read `reads`. -/
def Read (reads : List (BitVec 16)) (s : Lines) : Prop := s.polling = true ∧ s.reads = reads

variable {s : Lines} {reads : List (BitVec 16)}

theorem ok_of_isMark {e : Event} (h : e.isMark = false) : lines.ok s e := by
  constructor
  · rintro rfl
    cases h
  · rintro rfl
    cases h

theorem keeps_write (Address : BitVec 8) (Data : BitVec 16) :
    lines.Keeps (Read reads) (IO_write Address Data) :=
  Monitor.keeps_emit fun _ hs => ⟨ok_of_isMark rfl, hs⟩

theorem keeps_pure {α : Type} (a : α) : lines.Keeps (Read reads) (pure a : Software α) :=
  fun _ hs => Monitor.wp_pure hs

/-- Reading another register, or not the memory, adds nothing. -/
theorem wp_IO_read (hs : Read reads s) {Address : BitVec 8}
    (h : Address ≠ HPI_DATA ∨ s.selected = false) :
    lines.wp (IO_read Address) (fun _ => Read reads) s := by
  refine Monitor.wp_bind (Monitor.wp_ask trivial fun answer => ?_)
  refine Monitor.wp_bind (Monitor.wp_emit (ok_of_isMark rfl) (Monitor.wp_pure ⟨hs.1, ?_⟩))
  refine (if_neg fun hread => ?_).trans hs.2
  rcases h with h | h
  · exact h hread.1
  · rw [h] at hread
    cases hread.2

theorem keeps_UsbRead {Address : BitVec 16} (h : Address ≠ ctl_reg) :
    lines.Keeps (Read reads) (UsbRead Address) := by
  intro s hs
  have hs' : Read reads (s.step (.write HPI_ADDR Address)) := hs
  have hother : (HPI_ADDR == HPI_ADDR && Address == ctl_reg) = false :=
    Bool.and_eq_false_iff.2 (Or.inr (beq_eq_false_iff_ne.2 h))
  have hselected : (s.step (.write HPI_ADDR Address)).selected = false := hother
  exact Monitor.wp_bind (Monitor.wp_emit (ok_of_isMark rfl) (wp_IO_read hs' (Or.inr hselected)))

/-- Reading the control register adds the value. -/
theorem wp_ctl (hs : Read reads s) :
    lines.wp (UsbRead ctl_reg) (fun usb_ctl_val => Read (reads ++ [usb_ctl_val])) s := by
  refine Monitor.wp_bind (Monitor.wp_emit (ok_of_isMark rfl) ?_)
  refine Monitor.wp_bind (Monitor.wp_ask trivial fun answer => ?_)
  have hread : ((s.step (.write HPI_ADDR ctl_reg)).step
      (.read HPI_DATA (answer.setWidth 16))).reads = s.reads ++ [answer.setWidth 16] := rfl
  refine Monitor.wp_bind (Monitor.wp_emit (ok_of_isMark rfl) (Monitor.wp_pure ⟨hs.1, ?_⟩))
  exact hread.trans (congrArg (· ++ [answer.setWidth 16]) hs.2)

/-! ## The parts of a poll -/

theorem keeps_submitPoll (toggle data_size : BitVec 8) :
    lines.Keeps (Read reads) (submitPoll toggle data_size) := by
  have hdata (tds : List (BitVec 16)) : lines.Keeps (Read reads) (writeData tds) := by
    induction tds with
    | nil => exact keeps_pure ()
    | cons Data tds ih => exact (keeps_write _ _).bind fun _ => ih
  exact (keeps_write _ _).bind fun _ => (hdata _).bind fun _ =>
    (keeps_write _ _).bind fun _ => keeps_write _ _

theorem keeps_UsbWaitTDListDone : lines.Keeps (Read reads) UsbWaitTDListDone := by
  refine Monitor.keeps_iterate (fun _ => (keeps_UsbRead (by decide)).bind fun usb_ctl_val => ?_) ()
  refine Monitor.Keeps.bind ((keeps_write _ _).bind fun _ => keeps_write _ _) fun _ => ?_
  by_cases hdone : usb_ctl_val = HUSB_TDListDone
  · rw [if_pos hdone]
    exact keeps_pure _
  · rw [if_neg hdone]
    exact keeps_pure _

/-- A device is found within `n` reads, or lost with `n` reads. -/
def Looked (n : Nat) (usb_ctl_val : BitVec 16) (s : Lines) : Prop :=
  ∃ reads, Read reads s ∧ if Absent usb_ctl_val then Lost n reads else Found n reads

/-- One read after `k` reads without a device. -/
theorem wp_look {k : Nat} (hlost : Lost k reads) (hs : Read reads s)
    {f : BitVec 16 → Software (BitVec 16)} {n : Nat} (hn : k < n)
    (hfound : ∀ v, ¬ Absent v → f v = pure v)
    (hgone : ∀ v s', Absent v → Lost (k + 1) (reads ++ [v]) → Read (reads ++ [v]) s' →
      lines.wp (f v) (Looked n) s') :
    lines.wp (UsbRead ctl_reg >>= f) (Looked n) s := by
  refine Monitor.wp_bind (Monitor.wp_mono (wp_ctl hs) fun v s' hs' => ?_)
  by_cases hv : Absent v
  · refine hgone v s' hv ⟨by rw [List.length_append, hlost.1]; rfl, fun x hx => ?_⟩ hs'
    rcases List.mem_append.1 hx with hx | hx
    · exact hlost.2 x hx
    · rw [List.mem_singleton.1 hx]
      exact hv
  · rw [hfound v hv]
    refine Monitor.wp_pure ⟨_, hs', ?_⟩
    rw [if_neg hv]
    exact ⟨reads, v, rfl, by rw [hlost.1]; exact hn, hlost.2, hv⟩

theorem wp_hotPlugRetry (n : Nat) {k : Nat} {usb_ctl_val : BitVec 16} (hlost : Lost k reads)
    (hv : Absent usb_ctl_val) (hs : Read reads s) :
    lines.wp (hotPlugRetry n usb_ctl_val) (Looked (k + n)) s := by
  induction n generalizing k reads usb_ctl_val s with
  | zero => exact Monitor.wp_pure ⟨reads, hs, by rw [if_pos hv]; exact hlost⟩
  | succ n ih =>
    refine wp_look hlost hs (by omega) (fun v h => if_pos h) fun v s' h hlost' hs' => ?_
    have hnext := ih hlost' h hs'
    rw [Nat.add_right_comm] at hnext
    rw [if_neg (fun hne => hne h)]
    exact hnext

theorem wp_readCtl (n : Nat) (hs : Read [] s) :
    lines.wp (readCtl n) (Looked (n + 1)) s := by
  refine wp_look ⟨rfl, fun _ hv => absurd hv List.not_mem_nil⟩ hs (Nat.succ_pos n)
    (fun v h => if_neg h) fun v s' h hlost hs' => ?_
  rw [if_pos (show v &&& no_device = 0 from h)]
  have hone : Lost 1 ([] ++ [v]) := hlost
  have hretry := wp_hotPlugRetry n hone h hs'
  rwa [Nat.add_comm] at hretry

/-- The wait for a keyboard that has been removed. -/
theorem wp_awaitReturn (hlost : Lost 8 reads) (hs : Read reads s) :
    lines.wp awaitReturn (fun _ s' => ∃ reads, Read reads s' ∧ Returned reads) s := by
  have hstart : ∃ waiting, Waiting waiting ∧ Read (reads ++ waiting) s :=
    ⟨[], .nil, by rwa [List.append_nil]⟩
  refine Monitor.wp_iterate (fun _ s => ∃ waiting, Waiting waiting ∧ Read (reads ++ waiting) s)
    (fun _ s h => ?_) hstart
  obtain ⟨waiting, hwaiting, hs⟩ := h
  refine Monitor.wp_bind (Monitor.wp_mono (wp_ctl hs) fun v s hs => ?_)
  refine Monitor.wp_bind (Monitor.wp_mono (wp_ctl hs) fun v' s hs => ?_)
  refine Monitor.wp_bind (Monitor.wp_mono (wp_ctl hs) fun usb_ctl_val s hs => ?_)
  have hall : Read (reads ++ waiting ++ [v, v', usb_ctl_val]) s := by
    simpa only [List.append_assoc, List.cons_append, List.nil_append] using hs
  by_cases hv : usb_ctl_val &&& no_device ≠ 0
  · rw [if_pos hv]
    exact Monitor.wp_pure
      ⟨_, hall, reads, waiting, v, v', usb_ctl_val, rfl, hlost, hwaiting, hv⟩
  · rw [if_neg hv]
    refine Monitor.wp_pure ⟨_, hwaiting.round v v' (not_not.1 hv), ?_⟩
    rwa [← List.append_assoc]

/-- Another poll may begin. -/
def NextPoll (s : Lines) : Prop := s.polling = true → Found 8 s.reads

/-- The software may jump to the label. -/
def NextPlug (s : Lines) : Prop := s.polling = true → Returned s.reads

theorem wp_finishPoll (hs : Read [] s) :
    lines.wp finishPoll (fun next s' => if next then NextPoll s' else NextPlug s') s := by
  refine Monitor.wp_bind (Monitor.wp_mono (keeps_UsbWaitTDListDone s hs) fun _ s hs => ?_)
  have hreport : (0x051e : BitVec 16) ≠ ctl_reg := by decide
  refine Monitor.wp_bind (Monitor.wp_mono (keeps_UsbRead hreport s hs) fun keycode s hs => ?_)
  refine Monitor.wp_bind (Monitor.wp_emit (ok_of_isMark rfl) ?_)
  refine Monitor.wp_bind (Monitor.wp_mono (wp_readCtl 7 hs) fun usb_ctl_val s h => ?_)
  obtain ⟨reads, hs, hlooked⟩ := h
  by_cases hv : Absent usb_ctl_val
  · rw [if_pos hv] at hlooked
    rw [if_pos (show usb_ctl_val &&& no_device = 0 from hv)]
    refine Monitor.wp_bind (Monitor.wp_mono (wp_awaitReturn hlooked hs) fun _ s h => ?_)
    obtain ⟨reads, ⟨-, rfl⟩, hreturned⟩ := h
    exact Monitor.wp_pure fun _ => hreturned
  · rw [if_neg hv] at hlooked
    rw [if_neg (show ¬ usb_ctl_val &&& no_device = 0 from hv)]
    have hgenerate : lines.Keeps (Read reads) generate := by
      have hask : lines.Keeps (Read reads) (Dialog.ask : Software (BitVec 32)) :=
        Monitor.keeps_ask fun _ _ => trivial
      have hstore (base : BitVec 32) (data : StoreData) :
          lines.Keeps (Read reads) (Dialog.emit (.store base data) : Software Unit) :=
        Monitor.keeps_emit fun _ hs => ⟨ok_of_isMark rfl, hs⟩
      exact hask.bind fun _ => hask.bind fun _ => hask.bind fun _ => hask.bind fun _ =>
        (hstore _ _).bind fun _ => (hstore _ _).bind fun _ => (hstore _ _).bind fun _ =>
          hstore _ _
    refine Monitor.wp_bind (Monitor.wp_mono (hgenerate s hs) fun _ s h => ?_)
    obtain ⟨-, rfl⟩ := h
    exact Monitor.wp_pure fun _ => hlooked

/-- An enumeration is no poll. -/
theorem keeps_enumeration : lines.Keeps (fun s => s.polling = false) enumeration := by
  refine bus_enumeration.keeps fun hm => ?_
  cases hm with
  | ask => exact Monitor.keeps_ask fun _ _ => trivial
  | emit e he =>
    refine Monitor.keeps_emit fun s hs => ?_
    cases e with
    | write Address Data => exact ⟨ok_of_isMark rfl, hs⟩
    | read Address temp => exact ⟨ok_of_isMark rfl, hs⟩
    | _ => cases he

theorem sessions : Sessions lines NextPlug (fun s => s.polling = false) NextPoll where
  label _ h := ⟨⟨nofun, fun _ => h⟩, rfl⟩
  enumeration _ := wp_enumeration_of_keeps keeps_enumeration
    (fun _ hs hpolling => absurd (hs.symm.trans hpolling) Bool.false_ne_true)
    fun _ hs hpolling => absurd (hs.symm.trans hpolling) Bool.false_ne_true
  poll data_size toggle _ h := wp_poll_of_keeps (Read []) ⟨fun _ => h, nofun⟩
    ⟨rfl, rfl⟩ (keeps_submitPoll toggle data_size)
    (fun _ hs => wp_IO_read hs (Or.inl (by decide))) fun _ hs => wp_finishPoll hs

theorem wp_main : lines.wp main (fun _ _ => True) start :=
  sessions.wp_main (ok_of_isMark rfl) nofun

end Lines

/-! ## The trace of `main` -/

/-- Between the marks the monitor reads what the events read. -/
theorem lines_after {s : Lines} {mid : List Event} (hmid : ∀ x ∈ mid, x.isMark = false) :
    (lines.after s mid).polling = s.polling ∧
      ∀ s', s'.selected = s.selected → s'.reads = s.reads →
        (lines.after s' mid).reads = (lines.after s mid).reads := by
  induction mid generalizing s with
  | nil => exact ⟨rfl, fun _ _ h => h⟩
  | cons e mid ih =>
    rw [List.forall_mem_cons] at hmid
    obtain ⟨hpolling, hreads⟩ := ih (s := s.step e) hmid.2
    refine ⟨hpolling.trans ?_, fun s' hselected hs' => hreads (s'.step e) ?_ ?_⟩
    · cases e with
      | USB_HOT_PLUG => cases hmid.1
      | poll => cases hmid.1
      | _ => rfl
    · cases e <;> rfl
    · cases e with
      | read Address temp => rw [Lines.step, Lines.step, hselected, hs']
      | USB_HOT_PLUG => rfl
      | poll => rfl
      | _ => exact hs'

/-- Whatever is answered, a poll is followed by another one if one of eight reads of the
control register finds a device, and then no read follows.  The software leaves the polling
only after eight reads without a device, and after rounds of three reads, until the last read
of a round finds one again. -/
theorem main_hotPlug (answers : List (BitVec 32)) : HotPlugRight (trace answers) := by
  obtain ⟨hchecks, -⟩ := Lines.wp_main answers
  have hafter (pre mid : List Event) (hmid : ∀ x ∈ mid, x.isMark = false) :
      (lines.after .start (pre ++ .poll :: mid)).polling = true ∧
        (lines.after .start (pre ++ .poll :: mid)).reads = ctlReads mid := by
    rw [lines.after_append]
    obtain ⟨hpolling, hreads⟩ := lines_after (s := (lines.after .start pre).step .poll) hmid
    exact ⟨hpolling, (hreads .start rfl rfl).symm⟩
  refine ⟨fun pre mid post htr hmid => ?_, fun pre mid post htr hmid => ?_⟩
  · obtain ⟨hpolling, hreads⟩ := hafter pre mid hmid
    have hfound := (hchecks.ok_of_eq htr).1 rfl hpolling
    rwa [hreads] at hfound
  · obtain ⟨hpolling, hreads⟩ := hafter pre mid hmid
    have hreturned := (hchecks.ok_of_eq htr).2 rfl hpolling
    rwa [hreads] at hreturned

end SnakeMom.UsbKb
