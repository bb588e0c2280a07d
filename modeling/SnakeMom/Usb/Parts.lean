import SnakeMom.Usb.Main

/-!
# What the software is put together from

Every part of the software is put together from single events and questions, so what
holds of them holds of the part.

* `Any`, put together from any events; `Plain`, none of which is a mark; `Bus`, from
  nothing but reads and writes of the controller.
* `Tame`: registers are read and written, nothing is submitted, and no report is read.
* `Quiet`: no event is a mark, and data is only written by `UsbWrite` to an address that
  is not the one of the control word.
* `submit_apply`: the events of a submission.
* `main_waits`: `main` is always left at a question, so no loop of it runs on without one.
* `Sessions`: what is to be shown of the parts for a monitor to accept `main`.
-/

namespace SnakeMom.UsbKb

open Talk Dialog

/-- The address of the control word of the first transfer descriptor. -/
def controlAddress : BitVec 16 := 0x0506

/-- The two marks. -/
def Event.isMark : Event → Bool
  | .USB_HOT_PLUG => true
  | .poll => true
  | _ => false

/-- A word goes to the memory of the controller. -/
def Event.isData : Event → Bool
  | .write Address _ => Address == HPI_DATA
  | _ => false

/-- The event is an access to the controller. -/
def Event.isAccess : Event → Bool
  | .write _ _ => true
  | .read _ _ => true
  | _ => false

/-- The address of the report of the keyboard. -/
def reportAddress : BitVec 16 := 0x051e

inductive TamePart : Nat → {α : Type} → Software α → Prop
  | IO_read (Address : BitVec 8) : TamePart 1 (IO_read Address)
  | UsbRead (Address : BitVec 16) (h : Address ≠ reportAddress) : TamePart 1 (UsbRead Address)
  | mailbox (Data : BitVec 16) : TamePart 0 (IO_write HPI_MAILBOX Data)
  | UsbWrite (Address Data : BitVec 16) (h : Address ≠ HUSB_SIE1_pCurrentTDPtr)
      (h' : Address ≠ reportAddress) : TamePart 0 (UsbWrite Address Data)

inductive QuietPart : Nat → {α : Type} → Software α → Prop
  | ask : QuietPart 1 Dialog.ask
  | emit (e : Event) (h : e.isMark = false) (h' : e.isData = false) :
      QuietPart 0 (Dialog.emit e)
  | UsbWrite (Address Data : BitVec 16) (h : Address ≠ controlAddress) :
      QuietPart 0 (UsbWrite Address Data)

/-- The program asks at least `n` times and no event is a mark. -/
abbrev Plain (n : Nat) {α : Type} (m : Software α) : Prop :=
  Built (Atom fun e : Event => e.isMark = false) n m

/-- The program asks at least `n` times and does nothing but access the controller. -/
abbrev Bus (n : Nat) {α : Type} (m : Software α) : Prop :=
  Built (Atom fun e : Event => e.isAccess = true) n m

/-- The program asks at least `n` times, and submits nothing. -/
abbrev Tame (n : Nat) {α : Type} (m : Software α) : Prop := Built TamePart n m

/-- The program asks at least `n` times. -/
abbrev Any (n : Nat) {α : Type} (m : Software α) : Prop := Built (Atom fun _ => True) n m

/-- The program asks at least `n` times, no event is a mark, and no control word is
written. -/
abbrev Quiet (n : Nat) {α : Type} (m : Software α) : Prop := Built QuietPart n m

/-! ## Input and output -/

theorem bus_IO_write (Address : BitVec 8) (Data : BitVec 16) :
    Bus 0 (IO_write Address Data) := .part (.emit _ rfl)

theorem bus_UsbWrite (Address Data : BitVec 16) : Bus 0 (UsbWrite Address Data) :=
  (bus_IO_write _ _).next fun _ => bus_IO_write _ _

theorem bus_IO_read (Address : BitVec 8) : Bus 1 (IO_read Address) :=
  Built.before (.part .ask) fun _ => Built.next (.part (.emit _ rfl)) fun _ => .ret _

theorem bus_UsbRead (Address : BitVec 16) : Bus 1 (UsbRead Address) :=
  (bus_IO_write _ _).next fun _ => bus_IO_read _

theorem bus_writeData (l : List (BitVec 16)) : Bus 0 (writeData l) := by
  induction l with
  | nil => exact .ret ()
  | cons Data l ih => exact (bus_IO_write _ Data).next fun _ => ih

theorem bus_submit (tds : List (BitVec 16)) : Bus 0 (submit tds) :=
  (bus_IO_write _ _).next fun _ => (bus_writeData tds).next fun _ => bus_UsbWrite _ _

theorem bus_whileNoStatus (flag : BitVec 16) {body : Software Unit} (h : Bus 0 body) :
    Bus 1 (whileNoStatus flag body) :=
  .loop (fun _ => (bus_IO_read _).before fun _ =>
    .ite (.ret _) (h.next fun _ => .ret _)) ()

theorem bus_of_tame {n : Nat} {α : Type} {m : Software α} (h : Tame n m) : Bus n m := by
  refine h.of_parts fun {α n m} hm => ?_
  cases hm with
  | IO_read Address => exact bus_IO_read Address
  | UsbRead Address _ => exact bus_UsbRead Address
  | mailbox Data => exact bus_IO_write _ Data
  | UsbWrite Address Data _ _ => exact bus_UsbWrite Address Data

/-! ## The events of a submission -/

theorem writeData_apply (tds : List (BitVec 16)) (l : List (BitVec 32)) :
    writeData tds l = ⟨tds.map (.write HPI_DATA), .returned () l⟩ := by
  induction tds with
  | nil => rfl
  | cons Data tds ih =>
    rw [writeData, Dialog.bind_apply]
    show Run.andThen ⟨[.write HPI_DATA Data], .returned () l⟩ (fun _ => writeData tds) = _
    rw [Run.andThen, ih]
    rfl

theorem submit_apply (tds : List (BitVec 16)) (l : List (BitVec 32)) :
    submit tds l =
      ⟨.write HPI_ADDR 0x0500 :: (tds.map (.write HPI_DATA) ++
        [.write HPI_ADDR HUSB_SIE1_pCurrentTDPtr, .write HPI_DATA 0x0500]),
        .returned () l⟩ := by
  rw [submit, Dialog.bind_apply]
  show Run.andThen ⟨[.write HPI_ADDR 0x0500], .returned () l⟩ (fun _ => writeData tds >>=
    fun _ => UsbWrite HUSB_SIE1_pCurrentTDPtr 0x0500) = _
  rw [Run.andThen, Dialog.bind_apply, writeData_apply]
  rfl

/-! ## Commands -/

section Parts

/-! Parts that only read registers and clear the message, whatever they are put together
from. -/

variable {Part : Nat → {α : Type} → Software α → Prop}

theorem built_UsbWaitTDListDone (hread : Built Part 1 (UsbRead HPI_SIE1_MSG_ADR))
    (hclear : Built Part 0 (UsbWrite HPI_SIE1_MSG_ADR 0)) : Built Part 1 UsbWaitTDListDone :=
  .loop (fun _ => hread.before fun _ => hclear.next fun _ => .ite (.ret _) (.ret _)) ()

theorem built_readCtl (hread : Built Part 1 (UsbRead ctl_reg)) (n : Nat) :
    Built Part 1 (readCtl n) := by
  have hretry (n : Nat) (usb_ctl_val : BitVec 16) : Built Part 0 (hotPlugRetry n usb_ctl_val) := by
    induction n generalizing usb_ctl_val with
    | zero => exact .ret _
    | succ n ih => exact hread.next fun _ => .ite (.ret _) (ih _)
  exact hread.before fun _ => .ite (hretry n _) (.ret _)

theorem built_awaitReturn (hread : Built Part 1 (UsbRead ctl_reg)) :
    Built Part 1 awaitReturn := by
  refine .loop (fun _ => ?_) ()
  refine hread.before fun _ => ?_
  refine hread.next fun _ => ?_
  refine hread.next fun _ => ?_
  exact .ite (.ret _) (.ret _)

end Parts

theorem tame_UsbRead (Address : BitVec 16) (h : Address ≠ reportAddress) :
    Tame 1 (UsbRead Address) := .part (.UsbRead _ h)

theorem tame_UsbWrite (Address Data : BitVec 16)
    (h : Address ≠ HUSB_SIE1_pCurrentTDPtr ∧ Address ≠ reportAddress) :
    Tame 0 (UsbWrite Address Data) := .part (.UsbWrite _ _ h.1 h.2)

theorem tame_UsbWrites {l : List (BitVec 16 × BitVec 16)}
    (h : ∀ p ∈ l, p.1 ≠ HUSB_SIE1_pCurrentTDPtr ∧ p.1 ≠ reportAddress) : Tame 0 (UsbWrites l) := by
  induction l with
  | nil => exact .ret ()
  | cons p l ih =>
    rw [List.forall_mem_cons] at h
    exact (tame_UsbWrite p.1 p.2 h.1).next fun _ => ih h.2

theorem tame_clearRegisters : Tame 0 (UsbWrites clearRegisters) := by
  have hall : (clearRegisters.all fun p =>
      decide (p.1 ≠ HUSB_SIE1_pCurrentTDPtr ∧ p.1 ≠ reportAddress)) = true := by decide
  exact tame_UsbWrites fun p hp => of_decide_eq_true (List.all_eq_true.1 hall p hp)

theorem tame_whileNoStatus (flag : BitVec 16) : Tame 1 (whileNoStatus flag (pure ())) :=
  .loop (fun _ => (Built.part (.IO_read _)).before fun _ =>
    .ite (.ret _) ((Built.ret ()).next fun _ => .ret _)) ()

theorem tame_UsbWaitTDListDone : Tame 1 UsbWaitTDListDone :=
  built_UsbWaitTDListDone (tame_UsbRead _ (by decide)) (tame_UsbWrite _ _ (by decide))

theorem tame_UsbGetRetryCnt : Tame 1 UsbGetRetryCnt := by
  have hclear (msg : BitVec 16) : Tame 0 (clearMessage msg) :=
    .ite ((tame_UsbWrite _ _ (by decide)).next fun _ =>
      (tame_whileNoStatus _).weaken (Nat.zero_le 1)) (.ret ())
  refine (Built.part (.IO_read _)).next fun _ => ?_
  refine (tame_UsbRead _ (by decide)).next fun msg => ?_
  exact (hclear msg).next fun _ => tame_UsbRead _ (by decide)

theorem tame_UsbSoftReset : Tame 1 UsbSoftReset := by
  refine Built.next (.part (.mailbox _)) fun _ => ?_
  refine Built.before (.part (.IO_read _)) fun _ => ?_
  refine Built.next (.part (.IO_read _)) fun _ => ?_
  refine (tame_UsbRead _ (by decide)).next fun _ => ?_
  refine (tame_UsbWrite _ _ (by decide)).next fun _ => ?_
  refine (tame_UsbRead _ (by decide)).next fun _ => ?_
  refine (tame_UsbWrite _ _ (by decide)).next fun _ => ?_
  refine (tame_UsbWrite _ _ (by decide)).next fun _ => ?_
  exact tame_UsbWrite _ _ (by decide)

/-! ## Enumeration -/

theorem tame_acknowledged : Tame 1 acknowledged :=
  Built.before (.part (.IO_read _)) fun _ => .ite (.ret _)
    ((Built.before (.part (.IO_read _)) fun _ => .ret _).weaken (Nat.zero_le 1))

theorem tame_step1 : Tame 1 step1 := by
  refine tame_UsbSoftReset.next fun _ => ?_
  refine (tame_UsbWrite HPI_SIE1_MSG_ADR _ (by decide)).next fun _ => ?_
  refine (tame_UsbWrite HOST1_STAT_REG _ (by decide)).next fun _ => ?_
  refine (tame_UsbWrite HUSB_pEOT _ (by decide)).next fun _ => ?_
  refine (tame_UsbWrite HPI_IRQ_ROUTING_REG _ (by decide)).next fun _ => ?_
  refine (tame_UsbWrite HOST1_IRQ_EN_REG _ (by decide)).next fun _ => ?_
  refine (tame_UsbWrite COMM_R0 _ (by decide)).next fun _ => ?_
  refine tame_clearRegisters.next fun _ => ?_
  refine (tame_UsbWrite COMM_INT_NUM _ (by decide)).next fun _ => ?_
  refine Built.next (.part (.mailbox _)) fun _ => ?_
  refine (tame_whileNoStatus _).next fun _ => ?_
  exact tame_acknowledged

theorem tame_step2 : Tame 1 step2 := by
  refine (tame_UsbWrite COMM_INT_NUM _ (by decide)).next fun _ => ?_
  refine (tame_UsbWrite COMM_R0 _ (by decide)).next fun _ => ?_
  refine tame_clearRegisters.next fun _ => ?_
  refine Built.next (.part (.mailbox _)) fun _ => ?_
  exact tame_acknowledged

theorem tame_ctl : Tame 1 (UsbRead ctl_reg) := tame_UsbRead _ (by decide)

theorem tame_readCtl (n : Nat) : Tame 1 (readCtl n) := built_readCtl tame_ctl n

theorem tame_findDevice : Tame 1 findDevice := by
  have hawait : Tame 1 awaitDevice :=
    .loop (fun _ => tame_ctl.before fun _ => .ite (.ret _) (.ret _)) ()
  exact (tame_readCtl 5).before fun _ =>
    .ite (hawait.weaken (Nat.zero_le 1)) (.ret _)

theorem bus_transfer {command : Software Unit} (h : Bus 0 command) :
    Bus 1 (transfer command) := by
  refine h.next fun _ => ?_
  refine (bus_whileNoStatus _ h).next fun _ => ?_
  refine (bus_of_tame tame_UsbWaitTDListDone).next fun _ => ?_
  refine (bus_UsbRead 0x0506).next fun _ => ?_
  refine (bus_UsbRead 0x0508).before fun _ => ?_
  exact .ite (.ret _) ((bus_of_tame tame_UsbGetRetryCnt).next fun _ => .ret _)

theorem bus_unlessHotPlug {α : Type} {first : Software Bool} {second : Software (Option α)}
    (h : Bus 1 first) (h' : Bus 0 second) : Bus 1 (unlessHotPlug first second) :=
  h.before fun _ => .ite h' (.ret _)

theorem bus_endpoint : Bus 1 endpoint := by
  refine (bus_UsbRead 0x056c).next fun _ => ?_
  refine (bus_IO_write _ _).next fun _ => ?_
  refine (bus_writeData _).next fun _ => ?_
  refine (bus_UsbWrite _ _).next fun _ => ?_
  exact (bus_UsbRead 0x057c).before fun _ => .ret _

/-- Every step of the enumeration is a transfer or one of the parts above. -/
theorem bus_enumeration : Bus 1 enumeration := by
  have step {α : Type} {first : Software Bool} {second : Software (Option α)}
      (h : Bus 1 first) (h' : Bus 1 second) : Bus 1 (unlessHotPlug first second) :=
    bus_unlessHotPlug h (h'.weaken (Nat.zero_le 1))
  have command {α : Type} {second : Software (Option α)} (tds : List (BitVec 16))
      (h' : Bus 1 second) : Bus 1 (unlessHotPlug (transfer (submit tds)) second) :=
    step (bus_transfer (bus_submit tds)) h'
  exact step (bus_of_tame tame_step1) <| step (bus_of_tame tame_step2) <|
    step (bus_of_tame tame_findDevice) <|
    command _ <| command _ <| command _ <| command _ <| command _ <|
    bus_endpoint.before fun _ => ((command _ <| command _ <| command _ <|
      bus_unlessHotPlug (bus_transfer (bus_submit _)) (.ret _)).weaken (Nat.zero_le 1))

/-! ## Polling -/

theorem plain_of_bus {n : Nat} {α : Type} {m : Software α} (h : Bus n m) : Plain n m :=
  h.of_atoms fun e he => by cases e <;> first | rfl | cases he

theorem plain_enumeration : Plain 1 enumeration := plain_of_bus bus_enumeration

theorem plain_of_quiet {n : Nat} {α : Type} {m : Software α} (h : Quiet n m) : Plain n m := by
  refine h.of_parts fun {α n m} hm => ?_
  cases hm with
  | ask => exact .part .ask
  | emit e h _ => exact .part (.emit e h)
  | UsbWrite Address Data _ => exact plain_of_bus (bus_UsbWrite Address Data)

theorem bus_submitPoll (toggle data_size : BitVec 8) : Bus 0 (submitPoll toggle data_size) :=
  bus_submit _

theorem tame_awaitReturn : Tame 1 awaitReturn := built_awaitReturn tame_ctl

theorem quiet_IO_read (Address : BitVec 8) : Quiet 1 (IO_read Address) :=
  Built.before (.part .ask) fun _ => Built.next (.part (.emit _ rfl rfl)) fun _ => .ret _

theorem quiet_UsbRead (Address : BitVec 16) : Quiet 1 (UsbRead Address) :=
  Built.next (.part (.emit _ rfl rfl)) fun _ => quiet_IO_read _

theorem quiet_generate : Quiet 0 generate := by
  have random : Quiet 1 (Dialog.ask : Software (BitVec 32)) := .part .ask
  have store (base : BitVec 32) (data : StoreData) :
      Quiet 0 (Dialog.emit (.store base data) : Software Unit) :=
    .part (.emit _ rfl rfl)
  refine random.next fun _ => ?_
  refine random.next fun _ => ?_
  refine random.next fun _ => ?_
  refine random.next fun _ => ?_
  refine (store redGhost _).next fun _ => ?_
  refine (store orangeGhost _).next fun _ => ?_
  refine (store blueGhost _).next fun _ => ?_
  exact store pinkGhost _

theorem quiet_finishPoll : Quiet 1 finishPoll := by
  have hctl : Quiet 1 (UsbRead ctl_reg) := quiet_UsbRead ctl_reg
  have hclear : Quiet 0 (UsbWrite HPI_SIE1_MSG_ADR 0) := .part (.UsbWrite _ _ (by decide))
  have hgone : Quiet 0 (do awaitReturn; pure false) :=
    (built_awaitReturn hctl).next fun _ => .ret _
  have hagain : Quiet 0 (do generate; pure true) := quiet_generate.next fun _ => .ret _
  refine (built_UsbWaitTDListDone (quiet_UsbRead _) hclear).before fun _ => ?_
  refine (quiet_UsbRead 0x051e).next fun _ => ?_
  refine .next (.part (.emit _ rfl rfl)) fun _ => ?_
  refine (built_readCtl hctl 7).next fun _ => ?_
  exact .ite hgone hagain

theorem any_of_plain {n : Nat} {α : Type} {m : Software α} (h : Plain n m) : Any n m :=
  h.of_atoms fun _ _ => trivial

theorem any_poll (data_size toggle : BitVec 8) : Any 1 (poll data_size toggle) := by
  have hsubmit := bus_submitPoll toggle data_size
  refine .next (.part (.emit Event.poll trivial)) fun _ => any_of_plain ?_
  refine (plain_of_bus hsubmit).next fun _ => ?_
  refine (plain_of_bus (bus_whileNoStatus _ hsubmit)).before fun _ => ?_
  refine (plain_of_quiet quiet_finishPoll).next fun _ => ?_
  exact .ite (.ret _) (.ret _)

theorem any_session (toggle : BitVec 8) : Any 1 (session toggle) := by
  refine .next (.part (.emit Event.USB_HOT_PLUG trivial)) fun _ => ?_
  refine (any_of_plain plain_enumeration).before fun data_size => ?_
  cases data_size with
  | none => exact .ret toggle
  | some data_size =>
    exact (Built.loop (fun toggle => any_poll data_size (toggle + 1)) toggle).weaken
      (Nat.zero_le 1)

theorem any_main : Any 1 main := by
  refine .next (.part (.emit Event.IO_init trivial)) fun _ => ?_
  exact .loop (fun toggle => (any_session toggle).before fun _ => .ret _) 0

/-- Whatever is answered, `main` ends up waiting for an answer. -/
theorem main_waits (answers : List (BitVec 32)) : (main answers).outcome = .waiting := by
  rcases h : (main answers).outcome with a | _ | _
  · exact a.elim
  · rfl
  · exact absurd h (any_main.live.not_spent answers)

/-! ## Sessions -/

/-- The assertions of a monitor along `main`: `plug` before a jump to the label, `enum` during
an enumeration, and `again` before a poll. -/
structure Sessions {τ : Type} (M : Monitor Event τ) (plug enum again : τ → Prop) : Prop where
  label : ∀ s, plug s → M.ok s .USB_HOT_PLUG ∧ enum (M.step s .USB_HOT_PLUG)
  enumeration : ∀ s, enum s →
    M.wp enumeration (fun data_size s' => if data_size.isSome then again s' else plug s') s
  poll : ∀ data_size toggle s, again s →
    M.wp (poll data_size toggle)
      (fun r s' => Sum.elim (fun _ => again s') (fun _ => plug s') r) s

section Sessions

variable {τ : Type} {M : Monitor Event τ} {plug enum again : τ → Prop} {s : τ}

/-- An enumeration that keeps an assertion. -/
theorem wp_enumeration_of_keeps (h : M.Keeps enum enumeration) (retry : ∀ s, enum s → plug s)
    (first : ∀ s, enum s → again s) (hs : enum s) :
    M.wp enumeration (fun data_size s' => if data_size.isSome then again s' else plug s') s := by
  refine Monitor.wp_mono (h s hs) fun data_size s' hs' => ?_
  cases data_size with
  | none => exact retry s' hs'
  | some data_size => exact first s' hs'

/-- The wait for a message, in which `sent` holds whenever the transfer has been submitted. -/
theorem wp_wait_of_sent {body : Software Unit} (sent granted : τ → Prop)
    (hstatus : ∀ s, sent s → M.wp (IO_read HPI_STATUS) (fun status s' =>
      if status &&& HPI_STATUS_SIE1msg_FLAG ≠ 0 then granted s'
      else M.wp body (fun _ => sent) s') s) (hs : sent s) :
    M.wp (whileNoStatus HPI_STATUS_SIE1msg_FLAG body) (fun _ => granted) s := by
  refine Monitor.wp_iterate (fun _ => sent) (fun _ s hs => ?_) hs
  refine Monitor.wp_bind (Monitor.wp_mono (hstatus s hs) fun status s hs => ?_)
  by_cases hflag : status &&& HPI_STATUS_SIE1msg_FLAG ≠ 0
  · rw [if_pos hflag] at hs ⊢
    exact Monitor.wp_pure hs
  · rw [if_neg hflag] at hs ⊢
    exact Monitor.wp_bind (Monitor.wp_mono hs fun _ s hs => Monitor.wp_pure hs)

theorem wp_poll_of_sent {data_size toggle : BitVec 8} (sent granted : τ → Prop)
    (hok : M.ok s .poll)
    (hfirst : M.wp (submitPoll toggle data_size) (fun _ => sent) (M.step s .poll))
    (hstatus : ∀ s, sent s → M.wp (IO_read HPI_STATUS) (fun status s' =>
      if status &&& HPI_STATUS_SIE1msg_FLAG ≠ 0 then granted s'
      else M.wp (submitPoll toggle data_size) (fun _ => sent) s') s)
    (hfinish : ∀ s, granted s →
      M.wp finishPoll (fun next s' => if next then again s' else plug s') s) :
    M.wp (poll data_size toggle)
      (fun r s' => Sum.elim (fun _ => again s') (fun _ => plug s') r) s := by
  refine Monitor.wp_bind (Monitor.wp_emit hok ?_)
  refine Monitor.wp_bind (Monitor.wp_mono hfirst fun _ s hs => ?_)
  refine Monitor.wp_bind (Monitor.wp_mono (wp_wait_of_sent sent granted hstatus hs)
    fun _ s hs => ?_)
  refine Monitor.wp_bind (Monitor.wp_mono (hfinish s hs) fun next s hs => ?_)
  cases next with
  | true => exact Monitor.wp_pure hs
  | false => exact Monitor.wp_pure hs

/-- A poll that keeps an assertion until its transfer is done. -/
theorem wp_poll_of_keeps {data_size toggle : BitVec 8} (round : τ → Prop) (hok : M.ok s .poll)
    (hs : round (M.step s .poll)) (hsubmit : M.Keeps round (submitPoll toggle data_size))
    (hstatus : M.Keeps round (IO_read HPI_STATUS))
    (hfinish : ∀ s, round s →
      M.wp finishPoll (fun next s' => if next then again s' else plug s') s) :
    M.wp (poll data_size toggle)
      (fun r s' => Sum.elim (fun _ => again s') (fun _ => plug s') r) s := by
  refine wp_poll_of_sent round round hok (hsubmit _ hs) (fun s hs => ?_) hfinish
  refine Monitor.wp_mono (hstatus s hs) fun status s hs => ?_
  by_cases hflag : status &&& HPI_STATUS_SIE1msg_FLAG ≠ 0
  · rw [if_pos hflag]
    exact hs
  · rw [if_neg hflag]
    exact hsubmit s hs

theorem Sessions.wp_session (h : Sessions M plug enum again) (toggle : BitVec 8) (hs : plug s) :
    M.wp (session toggle) (fun _ => plug) s := by
  obtain ⟨hok, henum⟩ := h.label s hs
  refine Monitor.wp_bind (Monitor.wp_emit hok ?_)
  refine Monitor.wp_bind (Monitor.wp_mono (h.enumeration _ henum) fun data_size s hs => ?_)
  cases data_size with
  | none => exact Monitor.wp_pure hs
  | some data_size =>
    exact Monitor.wp_iterate (fun _ => again)
      (fun toggle s hs => h.poll data_size (toggle + 1) s hs) hs

/-- The monitor accepts all that `main` does. -/
theorem Sessions.wp_main (h : Sessions M plug enum again) (hok : M.ok s .IO_init)
    (hs : plug (M.step s .IO_init)) : M.wp main (fun _ _ => True) s := by
  refine Monitor.wp_bind (Monitor.wp_emit hok ?_)
  refine Monitor.wp_iterate (fun _ => plug) (fun toggle s hs => ?_) hs
  exact Monitor.wp_bind (Monitor.wp_mono (h.wp_session toggle hs) fun _ _ hs => Monitor.wp_pure hs)

end Sessions

end SnakeMom.UsbKb
