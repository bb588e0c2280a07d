import SnakeMom.Usb.Descriptors
import SnakeMom.Usb.Parts

/-!
# One transfer at a time

The software submits a transfer by the address of its first descriptor, waits until the
status tells that there is a message, and then for the message that the list is done.  Once
in an enumeration it submits a list that is not a transfer, at `0x0576`, and does not wait.

* `Link` is what can be told from the events so far: what has been stored where, how far the
  transfer is that has been submitted last, and which transfers of the enumeration have been
  done and have succeeded.
* `TransfersRight`: what is submitted makes up a transfer with the device, at the address it
  has by then.
* `HandshakeRight`: a list is submitted when the one before is done, or it is the same one,
  submitted again, or it is the transfer that follows the list at `0x0576`; the nine
  transfers of an enumeration come in order, and the keyboard is polled after all of them
  have succeeded.
* `main_transfers` and `main_handshake`: the laws hold in every run.
-/

namespace SnakeMom.UsbKb

open Talk Dialog

/-! ## What the events tell -/

/-- How far the list is that has been submitted last. -/
inductive Phase where
  /-- There is none, or it has succeeded. -/
  | free
  | submitted
  /-- The status tells of no message. -/
  | silent
  /-- The status tells of a message. -/
  | message
  | done
deriving DecidableEq, Repr

structure Link where
  /-- The address that is selected, and what has been stored from it on. -/
  burst : Option (BitVec 16 × List (BitVec 16))
  /-- The same, of the address before. -/
  prior : Option (BitVec 16 × List (BitVec 16))
  phase : Phase
  /-- The address of the list submitted last. -/
  pointer : BitVec 16
  /-- The words of the list submitted last. -/
  current : List (BitVec 16)
  /-- The transfers since the label that have succeeded. -/
  accepted : List (List (BitVec 16))
  polling : Bool

/-- The address of the status byte of the first descriptor. -/
def resultAddress : BitVec 16 := 0x0508

namespace Link

def start : Link := ⟨none, none, .free, 0, [], [], false⟩

/-- The register of the first descriptor is selected, and nothing has been stored in it. -/
def Points (s : Link) : Prop := s.burst = some (HUSB_SIE1_pCurrentTDPtr, [])

instance (s : Link) : Decidable s.Points := inferInstanceAs (Decidable (_ = _))

/-- The status is read. -/
def readStatus (s : Link) (status : BitVec 16) : Link :=
  if s.phase = .submitted ∨ s.phase = .silent then
    { s with phase := if status &&& HPI_STATUS_SIE1msg_FLAG ≠ 0 then .message else .silent }
  else s

/-- A value is read from an address of the memory. -/
def readAt (s : Link) (Address temp : BitVec 16) : Link :=
  if Address = HPI_SIE1_MSG_ADR ∧ temp = HUSB_TDListDone ∧ s.phase = .message then
    { s with phase := .done }
  else if Address = resultAddress ∧ temp = 0x03 ∧ s.phase = .done ∧ s.polling = false then
    { s with phase := .free, accepted := s.accepted ++ [s.current] }
  else s

def readWord (s : Link) (temp : BitVec 16) : Link :=
  match s.burst with
  | some (Address, []) => { s.readAt Address temp with burst := none }
  | _ => { s with burst := none }

/-- A word is stored at the address that is selected, and the address moves on.  A word
that goes to the register submits the list at that address. -/
def storeWord (s : Link) (Data : BitVec 16) : Link :=
  let s' := if s.Points then
      { s with phase := .submitted, pointer := Data, current := (s.prior.map Prod.snd).getD [] }
    else s
  { s' with burst := s.burst.map fun b => (b.1, b.2 ++ [Data]) }

def step (s : Link) : Event → Link
  | .USB_HOT_PLUG => { s with phase := .free, accepted := [], polling := false }
  | .poll => { s with polling := true }
  | .write Address Data =>
    if Address = HPI_ADDR then { s with burst := some (Data, []), prior := s.burst }
    else if Address = HPI_DATA then s.storeWord Data
    else s
  | .read Address temp =>
    if Address = HPI_STATUS then s.readStatus temp
    else if Address = HPI_DATA then s.readWord temp
    else s
  | _ => s

/-- What the events tell. -/
def after (tr : List Event) : Link := tr.foldl step start

/-- No transfer is under way. -/
def Idle (s : Link) : Prop := s.phase = .free ∨ s.phase = .done

/-- The list at `0x0576` has been submitted after the fifth transfer, and not looked at
since. -/
def Stray (s : Link) : Prop :=
  s.phase = .submitted ∧ s.pointer = 0x0576 ∧ s.accepted = enumerationOrder.take 5 ∧
    s.polling = false

/-- A transfer has been stored at `0x0500`. -/
def Stored (s : Link) (words : List (BitVec 16)) : Prop := s.prior = some (0x0500, words)

end Link

/-! ## The laws -/

structure TransfersRight (tr : List Event) : Prop where
  /-- In an enumeration. -/
  control : ∀ pre post, tr = pre ++ .write HPI_DATA 0x0500 :: post → (Link.after pre).Points →
    (Link.after pre).polling = false → ∃ words, (Link.after pre).Stored words ∧
      ControlWords (deviceAddress (Link.after pre).accepted) words
  /-- In a poll. -/
  poll : ∀ pre post, tr = pre ++ .write HPI_DATA 0x0500 :: post → (Link.after pre).Points →
    (Link.after pre).polling = true → ∃ words, (Link.after pre).Stored words ∧
      PollTransfer (deviceAddress (Link.after pre).accepted) words
  /-- One other address is written to the register, between the fifth transfer and the
  sixth. -/
  other : ∀ pre Data post, tr = pre ++ .write HPI_DATA Data :: post → (Link.after pre).Points →
    Data = 0x0500 ∨ Data = 0x0576 ∧ (Link.after pre).phase = .free ∧
      (Link.after pre).accepted = enumerationOrder.take 5

structure HandshakeRight (tr : List Event) : Prop where
  /-- When a list is submitted, the one before is done, or it is the same one again while
  there is no message.  The one exception is the sixth transfer, after the list at
  `0x0576`. -/
  single : ∀ pre Data post, tr = pre ++ .write HPI_DATA Data :: post → (Link.after pre).Points →
    (Link.after pre).Idle ∨
      Data = 0x0500 ∧ (Link.after pre).phase = .silent ∧
        (Link.after pre).pointer = 0x0500 ∧ (Link.after pre).Stored (Link.after pre).current ∨
      Data = 0x0500 ∧ (Link.after pre).Stray ∧
        (Link.after pre).Stored (submitted UsbSetConfig)
  /-- The transfers of an enumeration come in order, after the success of those before. -/
  order : ∀ pre post, tr = pre ++ .write HPI_DATA 0x0500 :: post → (Link.after pre).Points →
    (Link.after pre).polling = false → ∃ words, (Link.after pre).Stored words ∧
      (Link.after pre).accepted ++ [words] <+: enumerationOrder
  /-- A poll begins when all of them have succeeded and the poll before is done. -/
  polls : ∀ pre post, tr = pre ++ .poll :: post →
    (Link.after pre).Idle ∧ (Link.after pre).accepted = enumerationOrder
  /-- The report is read when the transfer of a poll is done. -/
  report : ∀ pre post, tr = pre ++ .write HPI_ADDR reportAddress :: post →
    (Link.after pre).phase = .done ∧ (Link.after pre).polling = true
  /-- No transfer is under way when the software jumps to the label. -/
  label : ∀ pre post, tr = pre ++ .USB_HOT_PLUG :: post → (Link.after pre).Idle

/-! ## The monitor -/

namespace Link

/-- The words are those of the next transfer. -/
structure Due (accepted : List (List (BitVec 16))) (polling : Bool)
    (words : List (BitVec 16)) : Prop where
  control : polling = false → accepted ++ [words] <+: enumerationOrder
  poll : polling = true → accepted = enumerationOrder ∧
    ∃ toggle data_size, words = pollWords toggle data_size

/-- A transfer may be submitted: it is the next one, or the same one again. -/
def MaySubmit (s : Link) (words : List (BitVec 16)) : Prop :=
  Due s.accepted s.polling words ∧
    (s.Idle ∨ s.phase = .silent ∧ s.pointer = 0x0500 ∧ words = s.current ∨ s.Stray)

/-- The list that is not a transfer may be submitted. -/
def MayStray (s : Link) : Prop := s.phase = .free ∧ s.accepted = enumerationOrder.take 5

end Link

/-- The transfer after the stray list is the sixth one. -/
theorem Link.Due.eq_of_stray {s : Link} {words : List (BitVec 16)}
    (h : Link.Due s.accepted s.polling words) (hs : s.Stray) : words = submitted UsbSetConfig := by
  obtain ⟨-, -, haccepted, hpolling⟩ := hs
  obtain ⟨rest, hrest⟩ := h.control hpolling
  have hdrop : enumerationOrder.drop 5 = submitted UsbSetConfig ::
      [UsbClassRequest, UsbGetHidDesc, UsbGetReportDesc].map submitted := rfl
  have hsame : enumerationOrder.take 5 ++ (words :: rest) =
      enumerationOrder.take 5 ++ enumerationOrder.drop 5 := by
    rw [List.take_append_drop, ← hrest, haccepted, List.append_assoc]
    rfl
  have hcancel := List.append_cancel_left hsame
  rw [hdrop] at hcancel
  exact (List.cons.inj hcancel).1

def link : Monitor Event Link where
  step := Link.step
  ok s e :=
    (∀ Data, e = .write HPI_DATA Data → s.Points →
      Data = 0x0500 ∧ (∃ words, s.Stored words ∧ s.MaySubmit words) ∨
        Data = 0x0576 ∧ s.MayStray) ∧
    (e = .write HPI_ADDR reportAddress → s.phase = .done ∧ s.polling = true) ∧
    (e = .poll → s.Idle ∧ s.accepted = enumerationOrder) ∧
    (e = .USB_HOT_PLUG → s.Idle)
  idle _ := True

namespace Link

/-- How far the transfer is, and what has succeeded before it. -/
def At (phase : Phase) (accepted : List (List (BitVec 16))) (polling : Bool) (s : Link) : Prop :=
  s.phase = phase ∧ s.accepted = accepted ∧ s.polling = polling

variable {s : Link} {phase : Phase} {accepted : List (List (BitVec 16))} {polling : Bool}

theorem At.idle_of_free (h : At .free accepted polling s) : s.Idle := Or.inl h.1

/-! ## Single accesses -/

theorem ok_select {Address : BitVec 16}
    (h : Address = reportAddress → s.phase = .done ∧ s.polling = true) :
    link.ok s (.write HPI_ADDR Address) :=
  ⟨fun _ he => absurd (Event.write.inj he).1 (by decide),
    fun he => h (Event.write.inj he).2, nofun, nofun⟩

theorem ok_store (h : ¬ s.Points) (Data : BitVec 16) : link.ok s (.write HPI_DATA Data) :=
  ⟨fun _ _ hpoints => absurd hpoints h, fun he => absurd (Event.write.inj he).1 (by decide),
    nofun, nofun⟩

theorem storeWord_of_not (h : ¬ s.Points) (Data : BitVec 16) :
    s.storeWord Data = { s with burst := s.burst.map fun b => (b.1, b.2 ++ [Data]) } := by
  rw [storeWord, if_neg h]

theorem storeWord_of_points {address : BitVec 16} {words : List (BitVec 16)} (h : s.Points)
    (hprior : s.prior = some (address, words)) (Data : BitVec 16) :
    s.storeWord Data = { s with
      burst := some (HUSB_SIE1_pCurrentTDPtr, [Data])
      phase := .submitted
      pointer := Data
      current := words } := by
  have hburst : s.burst = some (HUSB_SIE1_pCurrentTDPtr, []) := h
  rw [storeWord, if_pos h, hburst, hprior]
  rfl

/-- What is selected and stored does not matter to what is read. -/
theorem readAt_burst (burst prior : Option (BitVec 16 × List (BitVec 16)))
    (Address temp : BitVec 16) :
    ({ s with burst := burst, prior := prior } : Link).readAt Address temp =
      { s.readAt Address temp with burst := burst, prior := prior } := by
  unfold readAt
  split_ifs <;> rfl

theorem wp_select {Address : BitVec 16} {Q : Unit → Link → Prop}
    (h : Address = reportAddress → s.phase = .done ∧ s.polling = true)
    (hQ : Q () { s with burst := some (Address, []), prior := s.burst }) :
    link.wp (IO_write HPI_ADDR Address) Q s := Monitor.wp_emit (ok_select h) hQ

theorem wp_UsbWrite {Address : BitVec 16} (Data : BitVec 16) {Q : Unit → Link → Prop}
    (h : Address ≠ HUSB_SIE1_pCurrentTDPtr) (h' : Address ≠ reportAddress)
    (hQ : Q () { s with burst := some (Address, [Data]), prior := s.burst }) :
    link.wp (UsbWrite Address Data) Q s := by
  refine Monitor.wp_bind (wp_select (fun he => absurd he h') ?_)
  have hpoints : ¬ ({ s with burst := some (Address, []), prior := s.burst } : Link).Points :=
    fun hp => h (congrArg Prod.fst (Option.some.inj hp))
  refine Monitor.wp_emit (ok_store hpoints Data) ?_
  show Q () (storeWord _ Data)
  rw [storeWord_of_not hpoints]
  exact hQ

theorem wp_UsbRead {Address : BitVec 16} {Q : BitVec 16 → Link → Prop}
    (h : Address = reportAddress → s.phase = .done ∧ s.polling = true)
    (hQ : ∀ temp, Q temp { s.readAt Address temp with burst := none, prior := s.burst }) :
    link.wp (UsbRead Address) Q s := by
  refine Monitor.wp_bind (wp_select h ?_)
  refine Monitor.wp_bind (Monitor.wp_ask trivial fun answer => ?_)
  refine Monitor.wp_bind (Monitor.wp_emit ⟨nofun, nofun, nofun, nofun⟩ (Monitor.wp_pure ?_))
  have hread := readAt_burst (s := s) (some (Address, [])) s.burst Address (answer.setWidth 16)
  have hnext := hQ (answer.setWidth 16)
  show Q _ { readAt _ Address (answer.setWidth 16) with burst := none }
  rwa [hread]

theorem wp_IO_read {Address : BitVec 8} {Q : BitVec 16 → Link → Prop}
    (hQ : ∀ temp, Q temp (s.step (.read Address temp))) : link.wp (IO_read Address) Q s := by
  refine Monitor.wp_bind (Monitor.wp_ask trivial fun answer => ?_)
  exact Monitor.wp_bind (Monitor.wp_emit ⟨nofun, nofun, nofun, nofun⟩ (Monitor.wp_pure (hQ _)))

/-! ## Parts that submit nothing -/

/-- What holds whatever is selected, stored and read. -/
structure Blind (P : Link → Prop) : Prop where
  burst : ∀ s burst prior, P s → P { s with burst := burst, prior := prior }
  readAt : ∀ s Address temp, P s → P (s.readAt Address temp)
  readStatus : ∀ s status, P s → P (s.readStatus status)

theorem Blind.keeps_tame {P : Link → Prop} (hP : Blind P) {n : Nat} {α : Type} {m : Software α}
    (h : Tame n m) : link.Keeps P m := by
  refine h.keeps fun hm s hs => ?_
  cases hm with
  | IO_read Address =>
    refine wp_IO_read fun temp => ?_
    show P (if Address = HPI_STATUS then s.readStatus temp
      else if Address = HPI_DATA then s.readWord temp else s)
    split_ifs
    · exact hP.readStatus s temp hs
    · unfold readWord
      split
      · exact hP.burst _ none _ (hP.readAt s _ temp hs)
      · exact hP.burst s none s.prior hs
    · exact hs
  | UsbRead Address h =>
    exact wp_UsbRead (fun he => absurd he h) fun temp =>
      hP.burst _ _ _ (hP.readAt s Address temp hs)
  | mailbox Data =>
    exact Monitor.wp_emit ⟨fun _ he => absurd (Event.write.inj he).1 (by decide),
      fun he => absurd (Event.write.inj he).1 (by decide), nofun, nofun⟩ hs
  | UsbWrite Address Data h h' => exact wp_UsbWrite Data h h' (hP.burst s _ _ hs)

theorem blind_idle : Blind Idle where
  burst _ _ _ hs := hs
  readAt s Address temp hs := by
    unfold Link.readAt
    split_ifs
    · exact Or.inr rfl
    · exact Or.inl rfl
    · exact hs
  readStatus s status hs := by
    have hphase : ¬ (s.phase = .submitted ∨ s.phase = .silent) := by
      rcases hs with hs | hs <;> rw [hs] <;> decide
    rwa [Link.readStatus, if_neg hphase]

/-- With no transfer under way, only the result of one in an enumeration is yet to come. -/
theorem blind_at (h : phase = .free ∨ phase = .done ∧ polling = true) :
    Blind (At phase accepted polling) where
  burst _ _ _ hs := hs
  readAt s Address temp hs := by
    have hmessage : s.phase ≠ .message := by
      rw [hs.1]
      rcases h with rfl | ⟨rfl, -⟩ <;> decide
    have hdone : ¬ (s.phase = .done ∧ s.polling = false) := by
      rw [hs.1, hs.2.2]
      rcases h with rfl | ⟨-, rfl⟩
      · exact fun hf => Phase.noConfusion hf.1
      · exact fun hf => Bool.noConfusion hf.2
    rwa [Link.readAt, if_neg fun hf => hmessage hf.2.2, if_neg fun hf => hdone hf.2.2]
  readStatus s status hs := by
    have hphase : ¬ (s.phase = .submitted ∨ s.phase = .silent) := by
      rw [hs.1]
      rcases h with rfl | ⟨rfl, -⟩ <;> decide
    rwa [Link.readStatus, if_neg hphase]

/-! ## Transfers -/

/-- How far the transfer with these words is. -/
def Under (words : List (BitVec 16)) (phase : Phase) (accepted : List (List (BitVec 16)))
    (polling : Bool) (s : Link) : Prop :=
  At phase accepted polling s ∧ s.pointer = 0x0500 ∧ s.current = words

theorem wp_writeData {Address : BitVec 16} {words : List (BitVec 16)}
    (h : Address ≠ HUSB_SIE1_pCurrentTDPtr) (tds : List (BitVec 16))
    (hburst : s.burst = some (Address, words)) :
    link.wp (writeData tds)
      (fun _ s' => s' = { s with burst := some (Address, words ++ tds) }) s := by
  induction tds generalizing s words with
  | nil =>
    refine Monitor.wp_pure ?_
    rw [List.append_nil, ← hburst]
  | cons Data tds ih =>
    have hpoints : ¬ s.Points := fun hp =>
      h (congrArg Prod.fst (Option.some.inj (hburst.symm.trans hp)))
    refine Monitor.wp_bind (Monitor.wp_emit (ok_store hpoints Data) ?_)
    have hnext : link.step s (.write HPI_DATA Data) =
        { s with burst := some (Address, words ++ [Data]) } := by
      show s.storeWord Data = _
      rw [storeWord_of_not hpoints, hburst]
      rfl
    rw [hnext]
    refine Monitor.wp_mono (ih rfl) fun _ s' hs' => ?_
    rw [hs', List.append_assoc]
    rfl

/-- The address of a list that has been stored is written to the register. -/
theorem wp_point {Data : BitVec 16} {words : List (BitVec 16)}
    (hburst : s.burst = some (Data, words))
    (hmay : Data = 0x0500 ∧ s.MaySubmit words ∨ Data = 0x0576 ∧ s.MayStray) :
    link.wp (UsbWrite HUSB_SIE1_pCurrentTDPtr Data)
      (fun _ s' => At .submitted s.accepted s.polling s' ∧ s'.pointer = Data ∧
        s'.current = words) s := by
  have hpoints : ({ s with burst := some (HUSB_SIE1_pCurrentTDPtr, []), prior := s.burst } :
      Link).Points := rfl
  have hprior : ({ s with burst := some (HUSB_SIE1_pCurrentTDPtr, []), prior := s.burst } :
      Link).prior = some (Data, words) := hburst
  refine Monitor.wp_bind (wp_select (fun he => absurd he (by decide)) ?_)
  refine Monitor.wp_emit ⟨fun D he _ => ?_,
    fun he => absurd (Event.write.inj he).1 (by decide), nofun, nofun⟩ ?_
  · cases he
    rcases hmay with ⟨rfl, hmay⟩ | hmay
    · exact Or.inl ⟨rfl, words, hprior, hmay⟩
    · exact Or.inr hmay
  · show At _ _ _ (storeWord _ Data) ∧ (storeWord _ Data).pointer = Data ∧
      (storeWord _ Data).current = words
    rw [storeWord_of_points hpoints hprior]
    exact ⟨⟨rfl, rfl, rfl⟩, rfl, rfl⟩

theorem wp_submit {words : List (BitVec 16)} (hs : At phase accepted polling s)
    (hmay : s.MaySubmit words) :
    link.wp (submit words) (fun _ => Under words .submitted accepted polling) s := by
  obtain ⟨-, rfl, rfl⟩ := hs
  refine Monitor.wp_bind (wp_select (fun he => absurd he (by decide)) ?_)
  refine Monitor.wp_bind (Monitor.wp_mono (wp_writeData (by decide) words rfl) ?_)
  rintro _ _ rfl
  exact wp_point rfl (Or.inl ⟨rfl, hmay⟩)

/-- The status is read after a transfer has been submitted. -/
theorem wp_status {words : List (BitVec 16)} (hdue : Due accepted polling words)
    (hs : Under words .submitted accepted polling s) :
    link.wp (IO_read HPI_STATUS) (fun status s' =>
      if status &&& HPI_STATUS_SIE1msg_FLAG ≠ 0 then Under words .message accepted polling s'
      else link.wp (submit words) (fun _ => Under words .submitted accepted polling) s') s := by
  refine wp_IO_read fun status => ?_
  obtain ⟨⟨hphase, rfl, rfl⟩, hpointer, rfl⟩ := hs
  show if _ then Under _ _ _ _ (s.readStatus status) else link.wp _ _ (s.readStatus status)
  rw [readStatus, if_pos (Or.inl hphase)]
  by_cases hflag : status &&& HPI_STATUS_SIE1msg_FLAG ≠ 0
  · rw [if_pos hflag, if_pos hflag]
    exact ⟨⟨rfl, rfl, rfl⟩, hpointer, rfl⟩
  · rw [if_neg hflag, if_neg hflag]
    have hsilent : At .silent s.accepted s.polling { s with phase := .silent } := ⟨rfl, rfl, rfl⟩
    exact wp_submit hsilent ⟨hdue, Or.inr (Or.inl ⟨rfl, hpointer, rfl⟩)⟩

theorem readAt_of_ne {Address : BitVec 16} (h : Address ≠ HPI_SIE1_MSG_ADR)
    (h' : Address ≠ resultAddress) (temp : BitVec 16) : s.readAt Address temp = s := by
  rw [readAt, if_neg fun hf => h hf.1, if_neg fun hf => h' hf.1]

theorem readAt_message (hs : s.phase = .message) (temp : BitVec 16) :
    s.readAt HPI_SIE1_MSG_ADR temp =
      if temp = HUSB_TDListDone then { s with phase := .done } else s := by
  unfold readAt
  by_cases hdone : temp = HUSB_TDListDone
  · rw [if_pos ⟨rfl, hdone, hs⟩, if_pos hdone]
  · rw [if_neg fun hf => hdone hf.2.1, if_neg fun hf => absurd hf.1 (by decide), if_neg hdone]

theorem wp_UsbWaitTDListDone {words : List (BitVec 16)}
    (hs : Under words .message accepted polling s) :
    link.wp UsbWaitTDListDone (fun _ => Under words .done accepted polling) s := by
  refine Monitor.wp_iterate (fun _ => Under words .message accepted polling)
    (fun _ s hs => ?_) hs
  refine Monitor.wp_bind (wp_UsbRead (fun he => absurd he (by decide)) fun temp => ?_)
  refine Monitor.wp_bind (wp_UsbWrite 0 (by decide) (by decide) ?_)
  rw [readAt_message hs.1.1]
  by_cases hdone : temp = HUSB_TDListDone
  · rw [if_pos hdone, if_pos hdone]
    exact Monitor.wp_pure ⟨⟨rfl, hs.1.2.1, hs.1.2.2⟩, hs.2⟩
  · rw [if_neg hdone, if_neg hdone]
    exact Monitor.wp_pure hs

/-- The status byte of a transfer of the enumeration. -/
theorem wp_result {words : List (BitVec 16)} (hs : Under words .done accepted false s) :
    link.wp (UsbRead resultAddress) (fun usb_ctl_val s' =>
      if usb_ctl_val = 0x03 then At .free (accepted ++ [words]) false s' else s'.Idle) s := by
  refine wp_UsbRead (fun he => absurd he (by decide)) fun temp => ?_
  obtain ⟨⟨hphase, rfl, hpolling⟩, -, rfl⟩ := hs
  by_cases hresult : temp = 0x03
  · rw [if_pos hresult, readAt, if_neg fun hf => absurd hf.1 (by decide),
      if_pos ⟨rfl, hresult, hphase, hpolling⟩]
    exact ⟨rfl, rfl, hpolling⟩
  · rw [if_neg hresult, readAt, if_neg fun hf => absurd hf.1 (by decide),
      if_neg fun hf => hresult hf.2.1]
    exact Or.inr hphase

/-- A transfer of the enumeration, from the submission to the result. -/
theorem wp_transfer {words : List (BitVec 16)} (hdue : Due accepted false words)
    (hs : At phase accepted false s) (hbegin : s.Idle ∨ s.Stray) :
    link.wp (transfer (submit words)) (fun done s' =>
      if done then At .free (accepted ++ [words]) false s' else s'.Idle) s := by
  have hmay : s.MaySubmit words := ⟨by rwa [hs.2.1, hs.2.2], hbegin.imp id Or.inr⟩
  refine Monitor.wp_bind (Monitor.wp_mono (wp_submit hs hmay) fun _ s hs => ?_)
  refine Monitor.wp_bind (Monitor.wp_mono (wp_wait_of_sent _ _ (fun _ => wp_status hdue) hs)
    fun _ s hs => ?_)
  refine Monitor.wp_bind (Monitor.wp_mono (wp_UsbWaitTDListDone hs) fun _ s hs => ?_)
  refine Monitor.wp_bind (wp_UsbRead (fun he => absurd he (by decide)) fun _ => ?_)
  rw [readAt_of_ne (by decide) (by decide)]
  have hkept : Under words .done accepted false
      { s with burst := none, prior := s.burst } := hs
  refine Monitor.wp_bind (Monitor.wp_mono (wp_result hkept) fun usb_ctl_val s hs => ?_)
  by_cases hresult : usb_ctl_val = 0x03
  · rw [if_pos hresult] at hs ⊢
    exact Monitor.wp_pure hs
  · rw [if_neg hresult] at hs ⊢
    exact Monitor.wp_bind (Monitor.wp_mono (blind_idle.keeps_tame tame_UsbGetRetryCnt s hs)
      fun _ s hs => Monitor.wp_pure hs)

/-! ## Enumeration -/

/-- What an enumeration leads to. -/
def Enumerated (data_size : Option (BitVec 8)) (s : Link) : Prop :=
  if data_size.isSome then s.Idle ∧ s.accepted = enumerationOrder else s.Idle

theorem wp_unlessHotPlug {P : Link → Prop} {first : Software Bool}
    {second : Software (Option (BitVec 8))}
    (h : link.wp first (fun done s' => if done then P s' else s'.Idle) s)
    (h' : ∀ s', P s' → link.wp second Enumerated s') :
    link.wp (unlessHotPlug first second) Enumerated s := by
  refine Monitor.wp_bind (Monitor.wp_mono h fun done s hs => ?_)
  cases done with
  | true => exact h' s hs
  | false => exact Monitor.wp_pure hs

/-- The transfer number `k` of the enumeration. -/
theorem wp_command {k : Nat} {words : List (BitVec 16)} {second : Software (Option (BitVec 8))}
    (hk : enumerationOrder[k]? = some words)
    (hs : At phase (enumerationOrder.take k) false s) (hbegin : s.Idle ∨ s.Stray)
    (h' : ∀ s', At .free (enumerationOrder.take (k + 1)) false s' →
      link.wp second Enumerated s') :
    link.wp (unlessHotPlug (transfer (submit words)) second) Enumerated s := by
  have hnext : enumerationOrder.take (k + 1) = enumerationOrder.take k ++ [words] := by
    rw [List.take_add_one, hk]
    rfl
  have hdue : Due (enumerationOrder.take k) false words :=
    ⟨fun _ => hnext ▸ List.take_prefix _ _, nofun⟩
  rw [hnext] at h'
  exact wp_unlessHotPlug (wp_transfer hdue hs hbegin) h'

/-- A part of the enumeration without a transfer. -/
theorem wp_tame {first : Software Bool} {second : Software (Option (BitVec 8))}
    (h : Tame 1 first) (hs : At .free accepted false s)
    (h' : ∀ s', At .free accepted false s' → link.wp second Enumerated s') :
    link.wp (unlessHotPlug first second) Enumerated s := by
  refine wp_unlessHotPlug (P := At .free accepted false) ?_ h'
  refine Monitor.wp_mono ((blind_at (Or.inl rfl)).keeps_tame h s hs) fun done s hs => ?_
  cases done with
  | true => exact hs
  | false => exact hs.idle_of_free

/-- The list that is not a transfer is submitted, and nothing tells how far it is. -/
theorem wp_endpoint (hs : At .free (enumerationOrder.take 5) false s) :
    link.wp endpoint (fun _ s' => At .submitted (enumerationOrder.take 5) false s' ∧ s'.Stray)
      s := by
  refine Monitor.wp_bind (Monitor.wp_mono
    ((blind_at (Or.inl rfl)).keeps_tame (tame_UsbRead 0x056c (by decide)) s hs) fun _ s hs => ?_)
  obtain ⟨hphase, haccepted, hpolling⟩ := hs
  refine Monitor.wp_bind (wp_select (fun he => absurd he (by decide)) ?_)
  refine Monitor.wp_bind (Monitor.wp_mono (wp_writeData (by decide) _ rfl) ?_)
  rintro _ _ rfl
  refine Monitor.wp_bind (Monitor.wp_mono
    (wp_point rfl (Or.inr ⟨rfl, hphase, haccepted⟩)) fun _ s' hs' => ?_)
  obtain ⟨⟨hphase', haccepted', hpolling'⟩, hpointer, -⟩ := hs'
  refine Monitor.wp_bind (wp_UsbRead (fun he => absurd he (by decide)) fun _ => Monitor.wp_pure ?_)
  rw [readAt_of_ne (by decide) (by decide)]
  have hkept := haccepted'.trans haccepted
  have hstill := hpolling'.trans hpolling
  exact ⟨⟨hphase', hkept, hstill⟩, hphase', hpointer, hkept, hstill⟩

theorem wp_enumeration (hs : At .free [] false s) : link.wp enumeration Enumerated s := by
  have ready {accepted : List (List (BitVec 16))} {s : Link} (hs : At .free accepted false s) :
      s.Idle ∨ s.Stray := Or.inl hs.idle_of_free
  refine wp_tame tame_step1 hs fun s hs => ?_
  refine wp_tame tame_step2 hs fun s hs => ?_
  refine wp_tame tame_findDevice hs fun s hs => ?_
  refine wp_command (k := 0) (congrArg some (submitted_submit _)) hs (ready hs) fun s hs => ?_
  refine wp_command (k := 1) (congrArg some (submitted_submit _)) hs (ready hs) fun s hs => ?_
  refine wp_command (k := 2) (congrArg some (submitted_submit _)) hs (ready hs) fun s hs => ?_
  refine wp_command (k := 3) (congrArg some (submitted_submit _)) hs (ready hs) fun s hs => ?_
  refine wp_command (k := 4) (congrArg some (submitted_submit _)) hs (ready hs) fun s hs => ?_
  refine Monitor.wp_bind (Monitor.wp_mono (wp_endpoint hs) fun data_size s hs => ?_)
  refine wp_command (k := 5) (congrArg some (submitted_submit _)) hs.1 (Or.inr hs.2) fun s hs => ?_
  refine wp_command (k := 6) (congrArg some (submitted_submit _)) hs (ready hs) fun s hs => ?_
  refine wp_command (k := 7) (congrArg some (submitted_submit _)) hs (ready hs) fun s hs => ?_
  refine wp_command (k := 8) (congrArg some (submitted_submit _)) hs (ready hs) fun s hs => ?_
  exact Monitor.wp_pure ⟨hs.idle_of_free, hs.2.1⟩

/-! ## Polling -/

/-- Another poll may begin. -/
def Again (s : Link) : Prop := s.Idle ∧ s.accepted = enumerationOrder

theorem wp_finishPoll {words : List (BitVec 16)}
    (hs : Under words .message enumerationOrder true s) :
    link.wp finishPoll (fun next s' => if next then s'.Again else s'.Idle) s := by
  have hdone : Blind (At .done enumerationOrder true) := blind_at (Or.inr ⟨rfl, rfl⟩)
  refine Monitor.wp_bind (Monitor.wp_mono (wp_UsbWaitTDListDone hs) fun _ s hs => ?_)
  refine Monitor.wp_bind (wp_UsbRead (fun _ => ⟨hs.1.1, hs.1.2.2⟩) fun keycode => ?_)
  refine Monitor.wp_bind (Monitor.wp_emit ⟨nofun, nofun, nofun, nofun⟩ ?_)
  have hread : At .done enumerationOrder true
      { s.readAt 0x051e keycode with burst := none, prior := s.burst } :=
    hdone.burst _ _ _ (hdone.readAt s _ _ hs.1)
  refine Monitor.wp_bind (Monitor.wp_mono (hdone.keeps_tame (tame_readCtl 7) _ hread)
    fun usb_ctl_val s hs => ?_)
  by_cases hgone : usb_ctl_val &&& no_device = 0
  · rw [if_pos hgone]
    exact Monitor.wp_bind (Monitor.wp_mono (hdone.keeps_tame tame_awaitReturn s hs)
      fun _ s hs => Monitor.wp_pure (Or.inr hs.1))
  · rw [if_neg hgone]
    have hask : link.Keeps (At .done enumerationOrder true) (Dialog.ask : Software (BitVec 32)) :=
      Monitor.keeps_ask fun _ _ => trivial
    have hstore (base : BitVec 32) (data : StoreData) :
        link.Keeps (At .done enumerationOrder true)
        (Dialog.emit (.store base data) : Software Unit) :=
      Monitor.keeps_emit fun _ hs => ⟨⟨nofun, nofun, nofun, nofun⟩, hs⟩
    have hgenerate : link.Keeps (At .done enumerationOrder true) generate :=
      hask.bind fun _ => hask.bind fun _ => hask.bind fun _ => hask.bind fun _ =>
        (hstore _ _).bind fun _ => (hstore _ _).bind fun _ => (hstore _ _).bind fun _ =>
          hstore _ _
    exact Monitor.wp_bind (Monitor.wp_mono (hgenerate s hs) fun _ s hs =>
      Monitor.wp_pure ⟨Or.inr hs.1, hs.2.1⟩)

theorem ok_poll (h : s.Again) : link.ok s .poll := ⟨nofun, nofun, fun _ => h, nofun⟩

theorem due_poll (toggle data_size : BitVec 8) :
    Due enumerationOrder true (pollWords toggle data_size) :=
  ⟨nofun, fun _ => ⟨rfl, toggle, data_size, rfl⟩⟩

theorem wp_poll (data_size toggle : BitVec 8) (hs : s.Again) :
    link.wp (poll data_size toggle)
      (fun r s' => Sum.elim (fun _ => s'.Again) (fun _ => s'.Idle) r) s := by
  obtain ⟨words, hwords⟩ : ∃ words, submitPoll toggle data_size = submit words := ⟨_, rfl⟩
  have hdue := due_poll toggle data_size
  rw [pollWords, hwords, submitted_submit] at hdue
  have hbegun : At s.phase enumerationOrder true { s with polling := true } := ⟨rfl, hs.2, rfl⟩
  have hmay : ({ s with polling := true } : Link).MaySubmit words :=
    ⟨hs.2.symm ▸ hdue, Or.inl hs.1⟩
  refine wp_poll_of_sent (Under words .submitted enumerationOrder true)
    (Under words .message enumerationOrder true) (ok_poll hs) ?_ ?_ fun s hs => wp_finishPoll hs
  · rw [hwords]
    exact wp_submit hbegun hmay
  · rw [hwords]
    exact fun s hs => wp_status hdue hs

theorem sessions : Sessions link Idle (At .free [] false) Again where
  label _ h := ⟨⟨nofun, nofun, nofun, fun _ => h⟩, rfl, rfl, rfl⟩
  enumeration _ := wp_enumeration
  poll data_size toggle _ := wp_poll data_size toggle

theorem wp_main : link.wp main (fun _ _ => True) start :=
  sessions.wp_main ⟨nofun, nofun, nofun, nofun⟩ (Or.inl rfl)

end Link

/-! ## The trace of `main` -/

/-- What the monitor has accepted when a transfer is submitted. -/
theorem maySubmit_of_trace {answers : List (BitVec 32)} {pre post : List Event}
    (htr : trace answers = pre ++ .write HPI_DATA 0x0500 :: post)
    (hpoints : (Link.after pre).Points) :
    ∃ words, (Link.after pre).Stored words ∧ (Link.after pre).MaySubmit words := by
  obtain ⟨hchecks, -⟩ := Link.wp_main answers
  rcases (hchecks.ok_of_eq htr).1 0x0500 rfl hpoints with h | h
  · exact h.2
  · exact absurd h.1 (by decide)

/-- Whatever is answered, the words that are stored when the software submits a transfer make
up one: a control transfer with the device in an enumeration, and one packet from the
keyboard in a poll, each with the address that the requests before have given to the device. -/
theorem main_transfers (answers : List (BitVec 32)) : TransfersRight (trace answers) := by
  refine ⟨fun pre post htr hpoints henum => ?_, fun pre post htr hpoints hpolling => ?_,
    fun pre Data post htr hpoints => ?_⟩
  · obtain ⟨words, hstored, hmay⟩ := maySubmit_of_trace htr hpoints
    exact ⟨words, hstored, control_enumerationOrder (hmay.1.control henum)⟩
  · obtain ⟨words, hstored, hmay⟩ := maySubmit_of_trace htr hpoints
    obtain ⟨haccepted, toggle, data_size, rfl⟩ := hmay.1.poll hpolling
    rw [haccepted, deviceAddress_enumerationOrder]
    exact ⟨_, hstored, pollTransfer_pollWords toggle data_size⟩
  · obtain ⟨hchecks, -⟩ := Link.wp_main answers
    rcases (hchecks.ok_of_eq htr).1 Data rfl hpoints with h | h
    · exact Or.inl h.1
    · exact Or.inr h

/-- Whatever is answered, there is one list at a time, but for one place: the sixth transfer
of an enumeration is submitted right after the list at `0x0576`, of which nothing has been
read.  The transfers of an enumeration come in order, each after the success of the one
before, and the keyboard is polled after the last one. -/
theorem main_handshake (answers : List (BitVec 32)) : HandshakeRight (trace answers) := by
  obtain ⟨hchecks, -⟩ := Link.wp_main answers
  refine ⟨fun pre Data post htr hpoints => ?_, fun pre post htr hpoints henum => ?_,
    fun pre post htr => (hchecks.ok_of_eq htr).2.2.1 rfl,
    fun pre post htr => (hchecks.ok_of_eq htr).2.1 rfl,
    fun pre post htr => (hchecks.ok_of_eq htr).2.2.2 rfl⟩
  · rcases (hchecks.ok_of_eq htr).1 Data rfl hpoints with
      ⟨rfl, words, hstored, hdue, hmay⟩ | ⟨-, hfree, -⟩
    · rcases hmay with hidle | ⟨hsilent, hpointer, rfl⟩ | hstray
      · exact Or.inl hidle
      · exact Or.inr (Or.inl ⟨rfl, hsilent, hpointer, hstored⟩)
      · have hwords := hdue.eq_of_stray hstray
        subst hwords
        exact Or.inr (Or.inr ⟨rfl, hstray, hstored⟩)
    · exact Or.inl (Or.inl hfree)
  · obtain ⟨words, hstored, hmay⟩ := maySubmit_of_trace htr hpoints
    exact ⟨words, hstored, hmay.1.control henum⟩

end SnakeMom.UsbKb
