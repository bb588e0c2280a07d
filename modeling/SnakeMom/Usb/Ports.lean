import Mathlib.Data.List.Induction
import SnakeMom.Usb.Parts

/-!
# What the software stores to the ports

The game sees the software through five ports: the key and one random word for each ghost.

* `out_port` is what such a port shows.  It has 16 bits and takes them from a bus on which a
  byte is on all four lanes, so a byte that is stored to it shows up twice.
* `PortsRight` is the law of the stores: the key is stored as a byte, the low one of the
  report that has just been read, and the port shows it twice; a round of polling that is
  followed by another one stores to all five ports in order, one after which the keyboard
  is gone stores the key only, and an enumeration stores nothing.
* `Ports` reads off the events what the law speaks of, and `ports` is the monitor.
* `main_key` and `main_shown` are the stores to the key port and what it shows, in a run, and
  `main_ports` is the whole law.
-/

namespace SnakeMom.UsbKb

open Talk

/-! ## The law of the stores -/

/-- The ports in the order in which a round stores to them. -/
def portOrder : List (BitVec 32) := [keycode_base, redGhost, orangeGhost, blueGhost, pinkGhost]

/-- The ports that events store to. -/
def storedPorts (tr : List Event) : List (BitVec 32) :=
  tr.filterMap fun e =>
    match e with
    | .store base _ => some base
    | _ => none

/-- The key of a report. -/
def keyOfReport (report : BitVec 16) : BitVec 8 := (report &&& 0xff).setWidth 8

/-- A port takes the low bits of the bus over when it is stored to. -/
def portEdge (base : BitVec 32) (data_out : BitVec 16) : Event → BitVec 16
  | .store address data => if address = base then data.E_st_data.setWidth 16 else data_out
  | _ => data_out

/-- What the port at `base` shows after the events; its reset clears it. -/
def out_port (base : BitVec 32) (tr : List Event) : BitVec 16 := tr.foldl (portEdge base) 0

/-- The ports that a stretch between two marks stores to. -/
def roundPorts (e e' : Event) : List (BitVec 32) :=
  if e = .poll then if e' = .poll then portOrder else [keycode_base] else []

theorem out_port_snoc (base : BitVec 32) (tr : List Event) (e : Event) :
    out_port base (tr ++ [e]) = portEdge base (out_port base tr) e := by
  rw [out_port, List.foldl_append]
  rfl

/-- A byte shows up twice. -/
theorem setWidth_stb (b : BitVec 8) : (StoreData.stb b).E_st_data.setWidth 16 = b ++ b := by
  refine BitVec.eq_of_getLsbD_eq fun i hi => ?_
  have hsecond : i - 8 < 8 := by omega
  simp only [StoreData.E_st_data, BitVec.getLsbD_setWidth, BitVec.getLsbD_append, hi, hsecond,
    decide_true, Bool.true_and, if_true]

theorem storedPorts_append (tr mid : List Event) :
    storedPorts (tr ++ mid) = storedPorts tr ++ storedPorts mid := List.filterMap_append

/-- A report is read and its key is stored. -/
def delivery (report : BitVec 16) : List Event :=
  [.write HPI_ADDR reportAddress, .read HPI_DATA report,
    .store keycode_base (.stb (keyOfReport report))]

structure PortsRight (tr : List Event) : Prop where
  /-- The key is stored as a byte, the low one of the report that has just been read. -/
  key : ∀ pre post data, tr = pre ++ .store keycode_base data :: post →
    ∃ pre' report, pre = pre' ++ [.write HPI_ADDR reportAddress, .read HPI_DATA report] ∧
      data = .stb (keyOfReport report)
  /-- The key port shows the last key that has been stored, twice, and 0 before the first. -/
  shown : ∀ pre post, tr = pre ++ post →
    keycode_base ∉ storedPorts pre ∧ out_port keycode_base pre = 0 ∨
      ∃ pre' report mid, pre = pre' ++ delivery report ++ mid ∧ keycode_base ∉ storedPorts mid ∧
        out_port keycode_base pre = keyOfReport report ++ keyOfReport report
  /-- Between two marks. -/
  round : ∀ pre e mid e' post, tr = pre ++ e :: mid ++ e' :: post → e.isMark = true →
    e'.isMark = true → (∀ x ∈ mid, x.isMark = false) → storedPorts mid = roundPorts e e'
  /-- After the last mark. -/
  last : ∀ pre e mid, tr = pre ++ e :: mid → e.isMark = true → (∀ x ∈ mid, x.isMark = false) →
    storedPorts mid = [] ∨
      e = .poll ∧ (storedPorts mid = [keycode_base] ∨ storedPorts mid = portOrder)

/-! ## The monitor -/

/-- What the events so far amount to. -/
structure Ports where
  /-- The last event has selected the report. -/
  selected : Bool
  /-- The last event has read the selected report. -/
  report : Option (BitVec 16)
  /-- A round of polling is under way. -/
  polling : Bool
  /-- The ports stored to since the last mark. -/
  stored : List (BitVec 32)

namespace Ports

def start : Ports := ⟨false, none, false, []⟩

def step (s : Ports) : Event → Ports
  | .USB_HOT_PLUG => start
  | .poll => { start with polling := true }
  | .store base _ => { start with polling := s.polling, stored := s.stored ++ [base] }
  | .write Address Data =>
    { s with selected := Address == HPI_ADDR && Data == reportAddress, report := none }
  | .read Address temp =>
    { s with
      selected := false
      report := if Address = HPI_DATA ∧ s.selected = true then some temp else none }
  | .IO_init => { s with selected := false, report := none }

/-- The ports stored to since the last mark, in the enumeration or in a round. -/
def At (polling : Bool) (stored : List (BitVec 32)) (s : Ports) : Prop :=
  s.polling = polling ∧ s.stored = stored

/-- Between two rounds: another round may begin. -/
def NextPoll (s : Ports) : Prop := At false [] s ∨ At true portOrder s

/-- The software may jump to the label. -/
def NextPlug (s : Ports) : Prop := At false [] s ∨ At true [keycode_base] s

/-- The software may be left waiting. -/
def Idle (s : Ports) : Prop := At false [] s ∨ At true [] s ∨ At true [keycode_base] s ∨
  At true portOrder s

end Ports

/-- The key is that of the report, and marks come at the end of a round. -/
def ports : Monitor Event Ports where
  step := Ports.step
  ok s e :=
    (∀ data, e = .store keycode_base data →
      ∃ report, s.report = some report ∧ data = .stb (keyOfReport report)) ∧
    (e = .poll → s.NextPoll) ∧ (e = .USB_HOT_PLUG → s.NextPlug)
  idle := Ports.Idle

/-! ## The parts of `main` -/

namespace Ports

variable {s : Ports} {b : Bool} {l : List (BitVec 32)}

/-- An access to the controller changes none of the counts, and needs nothing. -/
theorem At.access (h : At b l s) {e : Event} (he : e.isAccess = true) :
    ports.ok s e ∧ At b l (s.step e) := by
  obtain ⟨rfl, rfl⟩ := h
  cases e with
  | write Address Data => exact ⟨⟨nofun, nofun, nofun⟩, rfl, rfl⟩
  | read Address temp => exact ⟨⟨nofun, nofun, nofun⟩, rfl, rfl⟩
  | _ => cases he

/-- The access to the controller keeps what has been stored. -/
theorem keeps_bus (hidle : ∀ s, At b l s → Idle s) {k : Nat} {α : Type} {m : Software α}
    (h : Bus k m) : ports.Keeps (At b l) m := by
  refine h.keeps fun hm => ?_
  cases hm with
  | ask => exact Monitor.keeps_ask hidle
  | emit e he => exact Monitor.keeps_emit fun s hs => hs.access he

theorem idle_enumeration (s : Ports) (h : At false [] s) : Idle s := Or.inl h

theorem idle_round (s : Ports) (h : At true [] s) : Idle s := Or.inr (Or.inl h)

theorem idle_key (s : Ports) (h : At true [keycode_base] s) : Idle s := Or.inr (Or.inr (Or.inl h))

/-- The report is read. -/
theorem wp_report (h : At true [] s) :
    ports.wp (UsbRead reportAddress)
      (fun keycode s' => s'.report = some keycode ∧ At true [] s') s := by
  have haddr := h.access (e := .write HPI_ADDR reportAddress) rfl
  refine Monitor.wp_bind (Monitor.wp_emit haddr.1 ?_)
  refine Monitor.wp_bind (Monitor.wp_ask (idle_round _ haddr.2) fun answer => ?_)
  have hread := haddr.2.access (e := .read HPI_DATA (answer.setWidth 16)) rfl
  exact Monitor.wp_bind (Monitor.wp_emit hread.1 (Monitor.wp_pure ⟨rfl, hread.2⟩))

/-- A store to the port of a ghost. -/
theorem At.store (h : At true l s) {base : BitVec 32} (hbase : base ≠ keycode_base)
    (data : StoreData) :
    ports.ok s (.store base data) ∧ At true (l ++ [base]) (s.step (.store base data)) := by
  obtain ⟨hpolling, hstored⟩ := h
  refine ⟨⟨fun w hw => ?_, nofun, nofun⟩, hpolling, ?_⟩
  · cases hw
    exact absurd rfl hbase
  · rw [Ports.step, hstored]

/-- The four words for the ghosts follow the key. -/
theorem wp_generate (h : At true [keycode_base] s) :
    ports.wp generate (fun _ => At true portOrder) s := by
  refine Monitor.wp_bind (Monitor.wp_ask (idle_key s h) fun red => ?_)
  refine Monitor.wp_bind (Monitor.wp_ask (idle_key s h) fun orange => ?_)
  refine Monitor.wp_bind (Monitor.wp_ask (idle_key s h) fun blue => ?_)
  refine Monitor.wp_bind (Monitor.wp_ask (idle_key s h) fun pink => ?_)
  obtain ⟨hok, h⟩ := h.store (show redGhost ≠ keycode_base by decide) (.stw red)
  refine Monitor.wp_bind (Monitor.wp_emit hok ?_)
  obtain ⟨hok, h⟩ := h.store (show orangeGhost ≠ keycode_base by decide) (.stw orange)
  refine Monitor.wp_bind (Monitor.wp_emit hok ?_)
  obtain ⟨hok, h⟩ := h.store (show blueGhost ≠ keycode_base by decide) (.stw blue)
  refine Monitor.wp_bind (Monitor.wp_emit hok ?_)
  obtain ⟨hok, h⟩ := h.store (show pinkGhost ≠ keycode_base by decide) (.stw pink)
  exact Monitor.wp_emit hok h

/-- The end of a round: all ports if there is another one, the key only if not. -/
theorem wp_finishPoll (h : At true [] s) :
    ports.wp finishPoll (fun next s' => if next then NextPoll s' else NextPlug s') s := by
  refine Monitor.wp_bind (Monitor.wp_mono
    (keeps_bus idle_round (bus_of_tame tame_UsbWaitTDListDone) s h) fun _ s₁ h₁ => ?_)
  refine Monitor.wp_bind (Monitor.wp_mono (wp_report h₁) fun keycode s₂ h₂ => ?_)
  obtain ⟨hreport, hpolling, hstored⟩ := h₂
  refine Monitor.wp_bind (Monitor.wp_emit ⟨?_, nofun, nofun⟩ ?_)
  · intro w hw
    cases hw
    exact ⟨keycode, hreport, rfl⟩
  have hkey : At true [keycode_base]
      (s₂.step (.store keycode_base (.stb (keyOfReport keycode)))) := by
    refine ⟨hpolling, ?_⟩
    rw [Ports.step, hstored]
    rfl
  refine Monitor.wp_bind (Monitor.wp_mono
    (keeps_bus idle_key (bus_of_tame (tame_readCtl 7)) _ hkey) fun usb_ctl_val s₃ h₃ => ?_)
  by_cases hgone : usb_ctl_val &&& no_device = 0
  · rw [if_pos hgone]
    exact Monitor.wp_bind (Monitor.wp_mono (keeps_bus idle_key (bus_of_tame tame_awaitReturn) s₃ h₃)
      fun _ _ h₄ => Monitor.wp_pure (Or.inr h₄))
  · rw [if_neg hgone]
    exact Monitor.wp_bind (Monitor.wp_mono (wp_generate h₃)
      fun _ _ h₄ => Monitor.wp_pure (Or.inr h₄))

theorem sessions : Sessions ports NextPlug (At false []) NextPoll where
  label _ h := ⟨⟨nofun, nofun, fun _ => h⟩, rfl, rfl⟩
  enumeration _ := wp_enumeration_of_keeps (keeps_bus idle_enumeration bus_enumeration)
    (fun _ => Or.inl) fun _ => Or.inl
  poll data_size toggle _ h := wp_poll_of_keeps (At true []) ⟨nofun, fun _ => h, nofun⟩
    ⟨rfl, rfl⟩ (keeps_bus idle_round (bus_submitPoll toggle data_size))
    (keeps_bus idle_round (bus_IO_read _)) fun _ h => wp_finishPoll h

theorem wp_main : ports.wp main (fun _ _ => True) start :=
  sessions.wp_main ⟨nofun, nofun, nofun⟩ (Or.inl ⟨rfl, rfl⟩)

end Ports

/-! ## The trace of `main` -/

section Trace

variable {s : Ports} {mid : List Event}

/-- Between the marks the stores are collected. -/
theorem Ports.after_mid (hmid : ∀ x ∈ mid, x.isMark = false) :
    (ports.after s mid).polling = s.polling ∧
      (ports.after s mid).stored = s.stored ++ storedPorts mid := by
  induction mid generalizing s with
  | nil => exact ⟨rfl, (List.append_nil _).symm⟩
  | cons e mid ih =>
    rw [List.forall_mem_cons] at hmid
    obtain ⟨hpolling, hstored⟩ := ih (s := s.step e) hmid.2
    have hcons : ports.after s (e :: mid) = ports.after (s.step e) mid := rfl
    rw [hcons, hpolling, hstored]
    cases e with
    | USB_HOT_PLUG => cases hmid.1
    | poll => cases hmid.1
    | store base data => exact ⟨rfl, List.append_assoc _ _ _⟩
    | _ => exact ⟨rfl, rfl⟩

/-- What the monitor knows of a report, in the events themselves. -/
theorem Ports.report_after {pre : List Event} {report : BitVec 16}
    (h : (ports.after .start pre).report = some report) :
    ∃ pre', pre = pre' ++ [.write HPI_ADDR reportAddress, .read HPI_DATA report] := by
  have hlast : ∀ (pre : List Event) (e : Event),
      ports.after .start (pre ++ [e]) = (ports.after .start pre).step e := fun pre e =>
    ports.after_append .start pre [e]
  rcases List.eq_nil_or_concat' pre with rfl | ⟨pre, e, rfl⟩
  · cases h
  rw [hlast] at h
  cases e with
  | read Address temp =>
    simp only [Ports.step, Option.ite_none_right_eq_some, Option.some.injEq] at h
    obtain ⟨⟨rfl, hselected⟩, rfl⟩ := h
    rcases List.eq_nil_or_concat' pre with rfl | ⟨pre, e, rfl⟩
    · cases hselected
    rw [hlast] at hselected
    cases e with
    | write Address Data =>
      rw [Ports.step, Bool.and_eq_true, beq_iff_eq, beq_iff_eq] at hselected
      obtain ⟨rfl, rfl⟩ := hselected
      exact ⟨pre, List.append_assoc _ _ _⟩
    | _ => cases hselected
  | _ => cases h

/-- What the key port shows, from the law of the stores to it. -/
theorem shown_of_key {tr pre post : List Event} (htr : tr = pre ++ post)
    (hkey : ∀ pre post data, tr = pre ++ .store keycode_base data :: post →
      ∃ pre' report, pre = pre' ++ [.write HPI_ADDR reportAddress, .read HPI_DATA report] ∧
        data = .stb (keyOfReport report)) :
    keycode_base ∉ storedPorts pre ∧ out_port keycode_base pre = 0 ∨
      ∃ pre' report mid, pre = pre' ++ delivery report ++ mid ∧ keycode_base ∉ storedPorts mid ∧
        out_port keycode_base pre = keyOfReport report ++ keyOfReport report := by
  induction pre using List.reverseRecOn generalizing post with
  | nil => exact Or.inl ⟨List.not_mem_nil, rfl⟩
  | append_singleton pre e ih =>
    have hsplit : tr = pre ++ e :: post := by rw [htr, List.append_assoc]; rfl
    by_cases he : ∃ data, e = .store keycode_base data
    · obtain ⟨data, rfl⟩ := he
      obtain ⟨pre', report, hpre, rfl⟩ := hkey pre post data hsplit
      refine Or.inr ⟨pre', report, [], ?_, List.not_mem_nil, ?_⟩
      · rw [hpre, List.append_nil, List.append_assoc]
        rfl
      · rw [out_port_snoc, portEdge, if_pos rfl, setWidth_stb]
    · -- any other event leaves the port as it is
      have hother : keycode_base ∉ storedPorts [e] ∧
          portEdge keycode_base (out_port keycode_base pre) e = out_port keycode_base pre := by
        cases e with
        | store base data =>
          have hbase : base ≠ keycode_base := fun hb => he ⟨data, by rw [hb]⟩
          exact ⟨fun hmem => hbase (List.mem_singleton.1 hmem).symm, if_neg hbase⟩
        | _ => exact ⟨List.not_mem_nil, rfl⟩
      rw [out_port_snoc, hother.2]
      rcases ih hsplit with ⟨hnone, hzero⟩ | ⟨pre', report, mid, hpre, hmid, hshown⟩
      · refine Or.inl ⟨?_, hzero⟩
        rw [storedPorts_append, List.mem_append, not_or]
        exact ⟨hnone, hother.1⟩
      · refine Or.inr ⟨pre', report, mid ++ [e], ?_, ?_, hshown⟩
        · rw [hpre, List.append_assoc _ mid]
        · rw [storedPorts_append, List.mem_append, not_or]
          exact ⟨hmid, hother.1⟩

end Trace

/-- The stores to the key port in a run. -/
theorem main_key (answers : List (BitVec 32)) (pre post : List Event) (data : StoreData)
    (htr : trace answers = pre ++ .store keycode_base data :: post) :
    ∃ pre' report, pre = pre' ++ [.write HPI_ADDR reportAddress, .read HPI_DATA report] ∧
      data = .stb (keyOfReport report) := by
  have hchecks := (Ports.wp_main answers).1
  obtain ⟨report, hreport, rfl⟩ := (hchecks.ok_of_eq htr).1 data rfl
  obtain ⟨pre', hpre⟩ := Ports.report_after hreport
  exact ⟨pre', report, hpre, rfl⟩

/-- What the key port shows in a run. -/
theorem main_shown (answers : List (BitVec 32)) (pre post : List Event)
    (htr : trace answers = pre ++ post) :
    keycode_base ∉ storedPorts pre ∧ out_port keycode_base pre = 0 ∨
      ∃ pre' report mid, pre = pre' ++ delivery report ++ mid ∧ keycode_base ∉ storedPorts mid ∧
        out_port keycode_base pre = keyOfReport report ++ keyOfReport report :=
  shown_of_key htr (main_key answers)

/-- Whatever the controller and the keyboard answer, the key port always gets the low byte
of the report that has just been read, by a byte store, so that it shows that byte twice; a
round of polling stores to all five ports, or to the key port only if the keyboard is gone,
and an enumeration stores nothing. -/
theorem main_ports (answers : List (BitVec 32)) : PortsRight (trace answers) := by
  obtain ⟨hchecks, hend⟩ := Ports.wp_main answers
  rw [main_waits] at hend
  -- what has been stored after a mark, at the next mark or at the end
  have hafter (pre : List Event) (e : Event) (mid : List Event) (he : e.isMark = true)
      (hmid : ∀ x ∈ mid, x.isMark = false) :
      Ports.At (decide (e = .poll)) (storedPorts mid)
        (ports.after .start (pre ++ e :: mid)) := by
    rw [ports.after_append]
    obtain ⟨hpolling, hstored⟩ := Ports.after_mid (s := (ports.after .start pre).step e) hmid
    have hcons : ports.after (ports.after .start pre) (e :: mid) =
        ports.after ((ports.after .start pre).step e) mid := rfl
    rw [Ports.At, hcons, hpolling, hstored]
    cases e with
    | USB_HOT_PLUG => exact ⟨rfl, rfl⟩
    | poll => exact ⟨rfl, rfl⟩
    | _ => cases he
  refine ⟨main_key answers, main_shown answers,
    fun pre e mid e' post htr he he' hmid => ?_, fun pre e mid htr he hmid => ?_⟩
  · obtain ⟨hpolling, hstored⟩ := hafter pre e mid he hmid
    obtain ⟨-, hpoll, hplug⟩ := hchecks.ok_of_eq htr
    rw [roundPorts, ← hstored]
    cases e' with
    | poll =>
      rcases hpoll rfl with ⟨h, h'⟩ | ⟨h, h'⟩ <;> rw [h] at hpolling <;> rw [h']
      · rw [if_neg (of_decide_eq_false hpolling.symm)]
      · rw [if_pos (of_decide_eq_true hpolling.symm), if_pos rfl]
    | USB_HOT_PLUG =>
      rcases hplug rfl with ⟨h, h'⟩ | ⟨h, h'⟩ <;> rw [h] at hpolling <;> rw [h']
      · rw [if_neg (of_decide_eq_false hpolling.symm)]
      · rw [if_pos (of_decide_eq_true hpolling.symm), if_neg nofun]
    | _ => cases he'
  · obtain ⟨hpolling, hstored⟩ := hafter pre e mid he hmid
    have hidle : Ports.Idle (ports.after .start (trace answers)) := hend
    rw [htr] at hidle
    rw [← hstored]
    rcases hidle with h | h | h | h
    · exact Or.inl h.2
    · exact Or.inl h.2
    · exact Or.inr ⟨of_decide_eq_true (hpolling.symm.trans h.1), Or.inl h.2⟩
    · exact Or.inr ⟨of_decide_eq_true (hpolling.symm.trans h.1), Or.inr h.2⟩

end SnakeMom.UsbKb
