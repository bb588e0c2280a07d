import SnakeMom.Lib.Progress
import SnakeMom.Usb.Ports

/-!
# The software never gets stuck

The loops of the software have no bound, and half of its ways end in a jump to the label.
Whatever has been answered, some further answers end the loop that is running, complete the
enumeration and deliver a key.

* `Ends` for every part: from wherever it is left waiting, it can be taken to its end.
* `drives_enumeration`: an enumeration can be completed.
* `main_delivers`: every key can be delivered, after any answers.
-/

namespace SnakeMom.UsbKb

open Talk Dialog

variable {T : Event → Prop}

/-! ## Input and output -/

/-- A read can return any value. -/
theorem drives_IO_read (Address : BitVec 8) (v : BitVec 16) :
    Drives T (fun temp => temp = v) (IO_read Address) := by
  have hrest (answer : BitVec 32) (P : BitVec 16 → Prop) (h : P (answer.setWidth 16)) :
      Drives T P (do
        Dialog.emit (.read Address (answer.setWidth 16))
        pure (answer.setWidth 16) : Software (BitVec 16)) :=
    (ends_emit _).bind fun _ => drives_pure h
  refine (drives_ask (v.setWidth 32)).bind (fun answer => hrest answer _ trivial) ?_
  rintro _ rfl
  have hv : (v.setWidth 32).setWidth 16 = v := by simp
  exact (hrest _ _ hv).reaches

theorem drives_UsbRead (Address v : BitVec 16) :
    Drives T (fun temp => temp = v) (UsbRead Address) :=
  (ends_emit _).bind fun _ => drives_IO_read _ v

theorem ends_UsbRead (Address : BitVec 16) : Ends T (UsbRead Address) :=
  (drives_UsbRead Address 0).ends

theorem ends_IO_read (Address : BitVec 8) : Ends T (IO_read Address) :=
  (drives_IO_read Address 0).ends

theorem ends_UsbWrite (Address Data : BitVec 16) : Ends T (UsbWrite Address Data) :=
  (ends_emit _).bind fun _ => ends_emit _

theorem ends_UsbWrites (l : List (BitVec 16 × BitVec 16)) : Ends T (UsbWrites l) := by
  induction l with
  | nil => exact drives_pure trivial
  | cons p l ih => exact (ends_UsbWrite p.1 p.2).bind fun _ => ih

theorem ends_writeData (l : List (BitVec 16)) : Ends T (writeData l) := by
  induction l with
  | nil => exact drives_pure trivial
  | cons Data l ih => exact (ends_emit _).bind fun _ => ih

theorem ends_submit (tds : List (BitVec 16)) : Ends T (submit tds) :=
  (ends_emit _).bind fun _ => (ends_writeData tds).bind fun _ => ends_UsbWrite _ _

/-- A value with which a test succeeds is read, and what follows it reaches the goal. -/
theorem reaches_of_value {α : Type} {P : α → Prop} {read : Software (BitVec 16)} {v : BitVec 16}
    {f : BitVec 16 → Software α} (hread : Drives T (fun temp => temp = v) read)
    (h : Reaches T P (f v)) : Reaches T P (read >>= f) := by
  refine hread.reaches_bind ?_
  rintro _ rfl
  exact h

theorem ends_whileNoStatus {flag v : BitVec 16} (hv : v &&& flag ≠ 0) {body : Software Unit}
    (hbus : Bus 0 body) (hbody : Ends T body) : Ends T (whileNoStatus flag body) := by
  refine ends_iterate (fun _ => Built.live ((bus_IO_read _).before fun _ =>
    .ite (.ret _) (hbus.next fun _ => .ret _))) (fun _ => ?_) (fun _ => ?_) ()
  · exact (ends_IO_read _).bind fun _ =>
      Ends.ite (drives_pure trivial) (hbody.bind fun _ => drives_pure trivial)
  · refine reaches_of_value (drives_IO_read _ v) ?_
    rw [if_pos hv]
    exact reaches_pure trivial

theorem ends_whileNoMessage {body : Software Unit} (hbus : Bus 0 body) (hbody : Ends T body) :
    Ends T (whileNoStatus HPI_STATUS_SIE1msg_FLAG body) := by
  have hflag : HPI_STATUS_SIE1msg_FLAG &&& HPI_STATUS_SIE1msg_FLAG ≠ 0 := by decide
  exact ends_whileNoStatus hflag hbus hbody

theorem ends_UsbWaitTDListDone : Ends T UsbWaitTDListDone := by
  refine ends_iterate (fun _ => Built.live ((bus_UsbRead _).before fun _ =>
    (bus_UsbWrite _ _).next fun _ => .ite (.ret _) (.ret _))) (fun _ => ?_) (fun _ => ?_) ()
  · exact (ends_UsbRead _).bind fun _ => (ends_UsbWrite _ _).bind fun _ =>
      Ends.ite (drives_pure trivial) (drives_pure trivial)
  · refine reaches_of_value (drives_UsbRead _ HUSB_TDListDone) ?_
    rw [if_pos rfl]
    exact ((ends_UsbWrite _ _).bind fun _ => drives_pure trivial).reaches

theorem ends_UsbGetRetryCnt : Ends T UsbGetRetryCnt := by
  have hclear (msg : BitVec 16) : Ends T (clearMessage msg) :=
    Ends.ite ((ends_UsbWrite _ _).bind fun _ =>
      ends_whileNoMessage (.ret ()) (drives_pure trivial)) (drives_pure trivial)
  exact (ends_IO_read _).bind fun _ => (ends_UsbRead _).bind fun msg =>
    (hclear msg).bind fun _ => ends_UsbRead _

theorem ends_UsbSoftReset : Ends T UsbSoftReset := by
  refine Ends.bind (ends_emit _) fun _ => ?_
  refine (ends_IO_read _).bind fun _ => ?_
  refine (ends_IO_read _).bind fun _ => ?_
  refine (ends_UsbRead _).bind fun _ => ?_
  refine (ends_UsbWrite _ _).bind fun _ => ?_
  refine (ends_UsbRead _).bind fun _ => ?_
  refine (ends_UsbWrite _ _).bind fun _ => ?_
  refine (ends_UsbWrite _ _).bind fun _ => ?_
  exact ends_UsbWrite _ _

/-! ## Enumeration -/

theorem drives_acknowledged : Drives T (fun done => done = true) acknowledged := by
  refine (drives_IO_read _ COMM_ACK).bind (fun _ => ?_) ?_
  · exact Ends.ite (drives_pure trivial) ((ends_IO_read _).bind fun _ => drives_pure trivial)
  · rintro _ rfl
    rw [if_pos rfl]
    exact reaches_pure rfl

theorem drives_step1 : Drives T (fun done => done = true) step1 := by
  have hflag : (0xFFFF : BitVec 16) &&& 0xFFFF ≠ 0 := by decide
  refine ends_UsbSoftReset.bind fun _ => ?_
  refine (ends_UsbWrite HPI_SIE1_MSG_ADR _).bind fun _ => ?_
  refine (ends_UsbWrite HOST1_STAT_REG _).bind fun _ => ?_
  refine (ends_UsbWrite HUSB_pEOT _).bind fun _ => ?_
  refine (ends_UsbWrite HPI_IRQ_ROUTING_REG _).bind fun _ => ?_
  refine (ends_UsbWrite HOST1_IRQ_EN_REG _).bind fun _ => ?_
  refine (ends_UsbWrite COMM_R0 _).bind fun _ => ?_
  refine (ends_UsbWrites clearRegisters).bind fun _ => ?_
  refine (ends_UsbWrite COMM_INT_NUM _).bind fun _ => ?_
  refine Ends.bind (ends_emit _) fun _ => ?_
  refine (ends_whileNoStatus hflag (.ret ()) (drives_pure trivial)).bind fun _ => ?_
  exact drives_acknowledged

theorem drives_step2 : Drives T (fun done => done = true) step2 := by
  refine (ends_UsbWrite COMM_INT_NUM _).bind fun _ => ?_
  refine (ends_UsbWrite COMM_R0 _).bind fun _ => ?_
  refine (ends_UsbWrites clearRegisters).bind fun _ => ?_
  refine Ends.bind (ends_emit _) fun _ => ?_
  exact drives_acknowledged

/-- A value of the control register with which there is a device. -/
theorem drives_ctl : Drives T (fun v => v &&& no_device ≠ 0) (UsbRead ctl_reg) := by
  refine (drives_UsbRead ctl_reg A_DP_STAT).mono ?_
  rintro _ rfl
  decide

theorem drives_readCtl (n : Nat) : Drives T (fun v => v &&& no_device ≠ 0) (readCtl n) := by
  have hretry (n : Nat) (usb_ctl_val : BitVec 16) : Ends T (hotPlugRetry n usb_ctl_val) := by
    induction n generalizing usb_ctl_val with
    | zero => exact drives_pure trivial
    | succ n ih =>
      exact drives_ctl.ends.bind fun _ => Ends.ite (drives_pure trivial) (ih _)
  refine drives_ctl.bind (fun _ => Ends.ite (hretry n _) (drives_pure trivial)) fun v hv => ?_
  rw [if_neg hv]
  exact reaches_pure hv

theorem ends_awaitDevice : Ends T awaitDevice := by
  refine ends_iterate (fun _ => Built.live ((bus_UsbRead _).before fun _ =>
    .ite (.ret _) (.ret _))) (fun _ => ?_) (fun _ => ?_) ()
  · exact drives_ctl.ends.bind fun _ => Ends.ite (drives_pure trivial) (drives_pure trivial)
  · refine drives_ctl.reaches_bind fun v hv => ?_
    rw [if_pos hv]
    exact reaches_pure trivial

theorem drives_findDevice : Drives T (fun done => done = true) findDevice := by
  refine (drives_readCtl 5).bind
    (fun _ => Ends.ite ends_awaitDevice (drives_pure trivial)) fun v hv => ?_
  rw [if_neg hv]
  exact reaches_pure rfl

theorem drives_transfer (tds : List (BitVec 16)) :
    Drives T (fun done => done = true) (transfer (submit tds)) := by
  refine (ends_submit tds).bind fun _ => ?_
  refine (ends_whileNoMessage (bus_submit tds) (ends_submit tds)).bind fun _ => ?_
  refine ends_UsbWaitTDListDone.bind fun _ => ?_
  refine (ends_UsbRead _).bind fun _ => ?_
  refine (drives_UsbRead 0x0508 0x03).bind (fun _ => Ends.ite (drives_pure trivial)
    (ends_UsbGetRetryCnt.bind fun _ => drives_pure trivial)) ?_
  rintro _ rfl
  rw [if_pos rfl]
  exact reaches_pure rfl

theorem ends_endpoint : Ends T endpoint := by
  refine (ends_UsbRead _).bind fun _ => ?_
  refine Ends.bind (ends_emit _) fun _ => ?_
  refine (ends_writeData _).bind fun _ => ?_
  refine (ends_UsbWrite _ _).bind fun _ => ?_
  exact (ends_UsbRead _).bind fun _ => drives_pure trivial

theorem drives_unlessHotPlug {α : Type} {first : Software Bool} {second : Software (Option α)}
    (h : Drives T (fun done => done = true) first)
    (h' : Drives T (fun r => r.isSome = true) second) :
    Drives T (fun r => r.isSome = true) (unlessHotPlug first second) := by
  refine h.bind (fun _ => Ends.ite h'.ends (drives_pure trivial)) ?_
  rintro _ rfl
  exact h'.reaches

/-- An enumeration can be completed. -/
theorem drives_enumeration : Drives T (fun r => r.isSome = true) enumeration := by
  refine drives_unlessHotPlug drives_step1 ?_
  refine drives_unlessHotPlug drives_step2 ?_
  refine drives_unlessHotPlug drives_findDevice ?_
  refine drives_unlessHotPlug (drives_transfer _) ?_
  refine drives_unlessHotPlug (drives_transfer _) ?_
  refine drives_unlessHotPlug (drives_transfer _) ?_
  refine drives_unlessHotPlug (drives_transfer _) ?_
  refine drives_unlessHotPlug (drives_transfer _) ?_
  refine ends_endpoint.bind fun data_size => ?_
  refine drives_unlessHotPlug (drives_transfer _) ?_
  refine drives_unlessHotPlug (drives_transfer _) ?_
  refine drives_unlessHotPlug (drives_transfer _) ?_
  refine drives_unlessHotPlug (drives_transfer _) ?_
  exact drives_pure rfl

/-! ## Polling -/

theorem ends_awaitReturn : Ends T awaitReturn := by
  refine ends_iterate (fun _ => Built.live ((bus_UsbRead ctl_reg).before fun _ =>
    (bus_UsbRead ctl_reg).next fun _ => (bus_UsbRead ctl_reg).next fun _ =>
      .ite (.ret _) (.ret _))) (fun _ => ?_) (fun _ => ?_) ()
  · exact drives_ctl.ends.bind fun _ => drives_ctl.ends.bind fun _ => drives_ctl.ends.bind
      fun _ => Ends.ite (drives_pure trivial) (drives_pure trivial)
  · refine drives_ctl.reaches_bind fun _ _ => ?_
    refine drives_ctl.reaches_bind fun _ _ => ?_
    refine drives_ctl.reaches_bind fun v hv => ?_
    rw [if_pos hv]
    exact reaches_pure trivial

theorem ends_generate : Ends T generate := by
  have random : Ends T (Dialog.ask : Software (BitVec 32)) := (drives_ask 0).ends
  refine random.bind fun _ => ?_
  refine random.bind fun _ => ?_
  refine random.bind fun _ => ?_
  refine random.bind fun _ => ?_
  exact (ends_emit _).bind fun _ => (ends_emit _).bind fun _ => (ends_emit _).bind fun _ =>
    ends_emit _

/-- What follows the report in a poll. -/
theorem ends_finishPoll : Ends T finishPoll := by
  have hgone : Ends T (do awaitReturn; pure false) :=
    ends_awaitReturn.bind fun _ => drives_pure trivial
  have hagain : Ends T (do generate; pure true) :=
    ends_generate.bind fun _ => drives_pure trivial
  refine ends_UsbWaitTDListDone.bind fun _ => ?_
  refine (ends_UsbRead _).bind fun _ => ?_
  refine Ends.bind (ends_emit _) fun _ => ?_
  exact (drives_readCtl 7).ends.bind fun _ => Ends.ite hgone hagain

theorem ends_submitPoll (toggle data_size : BitVec 8) : Ends T (submitPoll toggle data_size) :=
  ends_submit _

theorem ends_poll (data_size toggle : BitVec 8) : Ends T (poll data_size toggle) := by
  refine Ends.bind (ends_emit _) fun _ => ?_
  refine (ends_submitPoll toggle data_size).bind fun _ => ?_
  refine (ends_whileNoMessage (bus_submitPoll toggle data_size)
    (ends_submitPoll toggle data_size)).bind fun _ => ?_
  exact ends_finishPoll.bind fun _ => Ends.ite (drives_pure trivial) (drives_pure trivial)

/-! ## The key -/

/-- The key of a report is delivered. -/
def Delivers (report : BitVec 16) (e : Event) : Prop :=
  e = .store keycode_base (.stb (keyOfReport report))

variable {report : BitVec 16}

/-- The first event of a program reaches the goal. -/
theorem reaches_emit {α : Type} {P : α → Prop} {e : Event} (h : T e) (f : Unit → Software α) :
    Reaches T P (Dialog.emit e >>= f) :=
  ⟨[], Or.inl ⟨e, (prefix_andThen _ f).subset List.mem_cons_self, h⟩⟩

theorem reaches_poll {P : BitVec 8 ⊕ BitVec 8 → Prop} (data_size toggle : BitVec 8) :
    Reaches (Delivers report) P (poll data_size toggle) := by
  have hwait : Ends (Delivers report) (whileNoStatus HPI_STATUS_SIE1msg_FLAG
      (submitPoll toggle data_size)) :=
    ends_whileNoMessage (bus_submitPoll toggle data_size)
      (ends_submitPoll toggle data_size)
  have hfinish {P : Bool → Prop} : Reaches (Delivers report) P finishPoll := by
    refine ends_UsbWaitTDListDone.reaches_bind fun _ _ => ?_
    exact reaches_of_value (drives_UsbRead 0x051e report)
      (reaches_emit (T := Delivers report) rfl _)
  refine (ends_emit Event.poll).reaches_bind fun _ _ => ?_
  refine (ends_submitPoll toggle data_size).reaches_bind fun _ _ => ?_
  refine hwait.reaches_bind fun _ _ => ?_
  exact hfinish.bind (P := fun _ => False) (ends_finishPoll (T := Delivers report)).steady
    fun _ h => h.elim

theorem reaches_polling {P : BitVec 8 → Prop} (data_size toggle : BitVec 8) :
    Reaches (Delivers report) P
      (Dialog.iterate (fun toggle => poll data_size (toggle + 1)) toggle) :=
  Reaches.iterate (fun toggle => (any_poll data_size (toggle + 1)).live)
    (any_poll data_size (toggle + 1)).steady (reaches_poll data_size (toggle + 1))

theorem ends_polling (data_size toggle : BitVec 8) : Ends (Delivers report)
    (Dialog.iterate (fun toggle => poll data_size (toggle + 1)) toggle) :=
  ends_iterate (fun toggle => (any_poll data_size (toggle + 1)).live)
    (fun toggle => ends_poll data_size (toggle + 1))
    (fun toggle => reaches_poll data_size (toggle + 1)) toggle

theorem drives_session {P : BitVec 8 → Prop} (toggle : BitVec 8) :
    Drives (Delivers report) P (session toggle) := by
  refine (ends_emit _).bind fun _ => drives_enumeration.bind (fun data_size => ?_) ?_
  · cases data_size with
    | none => exact drives_pure trivial
    | some data_size => exact ends_polling data_size toggle
  · rintro (_ | data_size) h
    · cases h
    · exact reaches_polling data_size toggle

theorem ends_main : Ends (Delivers report) main := by
  have hsession (toggle : BitVec 8) : Drives (Delivers report)
      (Sum.elim (fun _ => False) fun _ => True)
      (session toggle >>= fun toggle => pure (.inl toggle) : Software (BitVec 8 ⊕ Empty)) :=
    (drives_session (P := fun _ => False) toggle).bind (fun _ => drives_pure trivial)
      fun _ h => h.elim
  refine (ends_emit _).bind fun _ => ?_
  exact ends_iterate (fun toggle => Built.live ((any_session toggle).before fun _ => .ret _))
    (fun toggle => (hsession toggle).ends) (fun toggle => (hsession toggle).reaches) 0

/-- The software never gets stuck.  Whatever has been answered, and wherever that leaves it,
some further answers bring the low byte of any report to the key port. -/
theorem main_delivers (answers : List (BitVec 32)) (report : BitVec 16) :
    ∃ more tail, trace (answers ++ more) = trace answers ++ tail ∧
      .store keycode_base (.stb (keyOfReport report)) ∈ tail := by
  have hmain : Ends (Delivers report) main := ends_main
  obtain ⟨more, ⟨tail, htail, _, he, rfl⟩ | ⟨a, -⟩⟩ := hmain.resumes answers (main_waits answers)
  · exact ⟨more, tail, htail, he⟩
  · exact a.elim

end SnakeMom.UsbKb
