import Mathlib.Data.List.Induction
import SnakeMom.Usb.Parts

/-!
# The data toggle of the polls

The control word of a poll says `DATA0` or `DATA1`.  `toggle` decides which, and is not
reset at `USB_HOT_PLUG`, where the device starts from `DATA0` again.

* `Watch` reads off the events which poll of its session is under way and where the next
  word goes in the memory of the controller, whose address moves on by two with every
  word.
* `ToggleRight` is the law of the data toggle, session by session.
* `main_checks`: the words alternate, over all sessions, and every poll writes one.
* `toggle_right_iff`: the law holds exactly if every session that polls begins after an
  even number of polls.
-/

namespace SnakeMom.UsbKb

open Talk

/-! ## Reading the events -/

/-- What the events so far amount to. -/
structure Watch where
  /-- Where the next word of data goes. -/
  pointer : BitVec 16
  /-- The polls since the label; `0` during an enumeration. -/
  poll : Nat
  /-- All polls. -/
  total : Nat
  /-- The poll under way has written its control word. -/
  written : Bool
deriving DecidableEq, Repr

namespace Watch

/-- The control word that an event writes, if it does. -/
def controlWord (s : Watch) : Event → Option (BitVec 16)
  | .write Address Data =>
    if Address = HPI_DATA ∧ s.pointer = controlAddress ∧ s.poll ≠ 0 then some Data else none
  | _ => none

def step (s : Watch) : Event → Watch
  | .USB_HOT_PLUG => { s with poll := 0 }
  | .poll => { s with poll := s.poll + 1, total := s.total + 1, written := false }
  | .write Address Data =>
    if Address = HPI_ADDR then { s with pointer := Data }
    else if Address = HPI_DATA then
      { s with
        pointer := s.pointer + 2
        written := s.written || (s.controlWord (.write Address Data)).isSome }
    else s
  | .read Address _ => if Address = HPI_DATA then { s with pointer := s.pointer + 2 } else s
  | _ => s

def start : Watch := ⟨0, 0, 0, false⟩

end Watch

def watch (tr : List Event) : Watch := tr.foldl Watch.step .start

/-- `DATA0` in the polls 1, 3, 5, ..., and `DATA1` in the others. -/
def dataToggle (k : Nat) : BitVec 16 := if k % 2 = 1 then 0x0001 else 0x0041

/-- Every poll writes a control word, and whenever the `k`-th poll of a session writes
one, it is `dataToggle k`. -/
structure ToggleRight (tr : List Event) : Prop where
  writes : ∀ pre post, tr = pre ++ .poll :: post →
    ∃ mid e post' w, post = mid ++ e :: post' ∧ (∀ e ∈ mid, e.isMark = false) ∧
      (watch (pre ++ .poll :: mid)).controlWord e = some w
  word : ∀ pre e post w, tr = pre ++ e :: post → (watch pre).controlWord e = some w →
    w = dataToggle (watch pre).poll

/-- When the first poll of a session begins, the number of polls before it is even. -/
def EvenRestarts (tr : List Event) : Prop :=
  ∀ pre post, tr = pre ++ .poll :: post → (watch pre).poll = 0 → (watch pre).total % 2 = 0

theorem dataToggle_eq_iff {k n : Nat} : dataToggle k = dataToggle n ↔ k % 2 = n % 2 := by
  rcases Nat.mod_two_eq_zero_or_one k with hk | hk <;>
    rcases Nat.mod_two_eq_zero_or_one n with hn | hn <;> simp [dataToggle, hk, hn]

/-! ## The monitor -/

/-- The poll under way, if there is one, has written its control word. -/
def Watch.Settled (s : Watch) : Prop := s.poll ≠ 0 → s.written = true

/-- Control words alternate over all polls, and no poll ends without one. -/
def toggles : Monitor Event Watch where
  step := Watch.step
  ok s e := (∀ w, s.controlWord e = some w → w = dataToggle s.total) ∧
    (e.isMark = true → s.Settled)
  idle := Watch.Settled

namespace Watch

variable {s : Watch} {e : Event}

/-- Between the marks only the pointer moves, and a control word is remembered. -/
theorem step_of_not_mark (h : e.isMark = false) :
    ∃ p, s.step e =
      { s with pointer := p, written := s.written || (s.controlWord e).isSome } := by
  cases e with
  | USB_HOT_PLUG => cases h
  | poll => cases h
  | write Address Data =>
    by_cases haddr : Address = HPI_ADDR
    · subst haddr
      exact ⟨Data, by simp [step, controlWord, HPI_ADDR, HPI_DATA]⟩
    · by_cases hdata : Address = HPI_DATA
      · subst hdata
        exact ⟨s.pointer + 2, by rw [step, if_neg haddr, if_pos rfl]⟩
      · exact ⟨s.pointer, by simp [step, controlWord, haddr, hdata]⟩
  | read Address temp =>
    by_cases hdata : Address = HPI_DATA
    · exact ⟨s.pointer + 2, by simp [step, controlWord, hdata]⟩
    · exact ⟨s.pointer, by simp [step, controlWord, hdata]⟩
  | IO_init => exact ⟨s.pointer, by simp [step, controlWord]⟩
  | store base data => exact ⟨s.pointer, by simp [step, controlWord]⟩

theorem step_counts (h : e.isMark = false) :
    (s.step e).poll = s.poll ∧ (s.step e).total = s.total := by
  obtain ⟨p, hp⟩ := step_of_not_mark (s := s) h
  rw [hp]
  exact ⟨rfl, rfl⟩

theorem written_step (h : e.isMark = false) :
    (s.step e).written = (s.written || (s.controlWord e).isSome) := by
  obtain ⟨p, hp⟩ := step_of_not_mark (s := s) h
  rw [hp]

/-- An enumeration writes no control word of a poll. -/
theorem controlWord_of_poll (h : s.poll = 0) : s.controlWord e = none := by
  cases e <;> simp [controlWord, h]

theorem controlWord_of_isData (h : e.isData = false) : s.controlWord e = none := by
  cases e with
  | write Address Data =>
    have hne : Address ≠ HPI_DATA := by simpa [Event.isData] using h
    simp [controlWord, hne]
  | _ => rfl

end Watch

/-! ## The parts of `main` -/

/-- During an enumeration, after `n` polls. -/
def Enumerating (n : Nat) (s : Watch) : Prop := s.poll = 0 ∧ s.total = n

/-- In poll `k` of its session, which has written its control word. -/
def Polling (k n : Nat) (s : Watch) : Prop := s.poll = k ∧ s.total = n ∧ s.written = true

/-- Between the marks the monitor has nothing to say to an event without a control word. -/
theorem ok_of_controlWord_none {s : Watch} {e : Event} (he : e.isMark = false)
    (hword : s.controlWord e = none) : toggles.ok s e := by
  constructor
  · intro w hw
    rw [hword] at hw
    cases hw
  · intro hmark
    rw [he] at hmark
    cases hmark

theorem keeps_enumerating {n k : Nat} {α : Type} {m : Software α} (h : Plain k m) :
    toggles.Keeps (Enumerating n) m := by
  refine h.keeps fun hm => ?_
  cases hm with
  | ask => exact Monitor.keeps_ask fun s hs hpoll => absurd hs.1 hpoll
  | emit e he =>
    refine Monitor.keeps_emit fun s hs => ?_
    obtain ⟨hpoll, htotal⟩ := Watch.step_counts (s := s) he
    exact ⟨ok_of_controlWord_none he (Watch.controlWord_of_poll hs.1), hpoll.trans hs.1,
      htotal.trans hs.2⟩

theorem keeps_polling {k n j : Nat} {α : Type} {m : Software α} (h : Quiet j m) :
    toggles.Keeps (Polling k n) m := by
  have emit (s : Watch) (e : Event) (hs : Polling k n s) (he : e.isMark = false)
      (hword : s.controlWord e = none) : toggles.ok s e ∧ Polling k n (s.step e) := by
    obtain ⟨hpoll, htotal⟩ := Watch.step_counts (s := s) he
    refine ⟨ok_of_controlWord_none he hword, hpoll.trans hs.1, htotal.trans hs.2.1, ?_⟩
    rw [Watch.written_step he, hs.2.2]
    rfl
  refine h.keeps fun hm => ?_
  cases hm with
  | ask => exact Monitor.keeps_ask fun s hs _ => hs.2.2
  | emit e he he' =>
    exact Monitor.keeps_emit fun s hs => emit s e hs he (Watch.controlWord_of_isData he')
  | UsbWrite Address Data hne =>
    intro s hs
    obtain ⟨hok, haddr⟩ := emit s (.write HPI_ADDR Address) hs rfl rfl
    have hword : (s.step (.write HPI_ADDR Address)).controlWord (.write HPI_DATA Data) = none := by
      simp [Watch.controlWord, Watch.step, hne]
    obtain ⟨hok', hdata⟩ := emit _ (.write HPI_DATA Data) haddr rfl hword
    exact Monitor.wp_bind (Monitor.wp_emit hok (Monitor.wp_emit hok' hdata))

/-- The word that the software writes, from the parity of `toggle`. -/
theorem word_eq_dataToggle {toggle : BitVec 8} {n : Nat} (h : toggle.toNat % 2 = n % 2) :
    (if toggle % 2 ≠ 0 then 0x0001 else 0x0041 : BitVec 16) = dataToggle n := by
  have hmod : toggle % 2 = 0 ↔ n % 2 = 0 := by
    rw [← h, ← BitVec.toNat_inj, BitVec.toNat_umod]
    rfl
  by_cases hn : n % 2 = 1
  · rw [dataToggle, if_pos hn, if_pos (by rw [Ne, hmod]; omega)]
  · rw [dataToggle, if_neg hn, if_neg (by rw [Ne, hmod]; omega)]

/-- A submission in a poll writes the control word of the poll. -/
theorem wp_submitPoll {s : Watch} {toggle : BitVec 8} (data_size : BitVec 8)
    (hpoll : s.poll ≠ 0) (htoggle : toggle.toNat % 2 = s.total % 2) :
    toggles.wp (submitPoll toggle data_size) (fun _ => Polling s.poll s.total) s := by
  intro l
  rw [submitPoll, submit_apply, word_eq_dataToggle htoggle]
  constructor
  · simp [Monitor.Checks, toggles, Watch.step, Watch.controlWord, Event.isMark, HPI_ADDR,
      HPI_DATA, controlAddress, hpoll, HUSB_SIE1_pCurrentTDPtr]
  · simp [Monitor.after, toggles, Watch.step, Watch.controlWord, HPI_ADDR, HPI_DATA,
      controlAddress, hpoll, HUSB_SIE1_pCurrentTDPtr, Polling]

/-- The parity of `toggle` is the one of the number of polls, between polls. -/
def InStep (toggle : BitVec 8) (s : Watch) : Prop :=
  s.Settled ∧ toggle.toNat % 2 = s.total % 2

/-- A poll resubmits the same word until there is a message. -/
theorem wp_whileNoStatus {s : Watch} {toggle : BitVec 8} {k n : Nat} (data_size : BitVec 8)
    (hk : k ≠ 0) (htoggle : toggle.toNat % 2 = n % 2) (hs : Polling k n s) :
    toggles.wp (whileNoStatus HPI_STATUS_SIE1msg_FLAG (submitPoll toggle data_size))
      (fun _ => Polling k n) s := by
  have hsubmit : toggles.Keeps (Polling k n) (submitPoll toggle data_size) := by
    rintro s ⟨rfl, rfl, -⟩
    exact wp_submitPoll data_size hk htoggle
  have hret {α : Type} (a : α) : toggles.Keeps (Polling k n) (pure a : Software α) :=
    fun _ hs => Monitor.wp_pure hs
  refine Monitor.keeps_iterate (fun _ => (keeps_polling (quiet_IO_read _)).bind fun status => ?_)
    () s hs
  by_cases h : status &&& HPI_STATUS_SIE1msg_FLAG ≠ 0
  · rw [if_pos h]
    exact hret _
  · rw [if_neg h]
    exact hsubmit.bind fun _ => hret _

theorem wp_poll {s : Watch} {toggle : BitVec 8} (data_size : BitVec 8) (hs : InStep toggle s) :
    toggles.wp (poll data_size (toggle + 1))
      (fun r s' => Sum.elim (InStep · s') (InStep · s') r) s := by
  obtain ⟨hsettled, hparity⟩ := hs
  have htoggle : (toggle + 1).toNat % 2 = (s.total + 1) % 2 := by
    have hone : (1 : BitVec 8).toNat = 1 := rfl
    rw [BitVec.toNat_add, hone]
    omega
  refine Monitor.wp_bind (Monitor.wp_emit ⟨nofun, fun _ => hsettled⟩ ?_)
  refine Monitor.wp_bind (Monitor.wp_mono
    (wp_submitPoll data_size (Nat.succ_ne_zero _) htoggle) fun _ s₁ h₁ => ?_)
  refine Monitor.wp_bind (Monitor.wp_mono
    (wp_whileNoStatus data_size (Nat.succ_ne_zero _) htoggle h₁) fun _ s₂ h₂ => ?_)
  refine Monitor.wp_bind (Monitor.wp_mono
    (keeps_polling quiet_finishPoll s₂ h₂) fun again s₃ h₃ => ?_)
  have hend : InStep (toggle + 1) s₃ := ⟨fun _ => h₃.2.2, by rw [htoggle, h₃.2.1]⟩
  cases again with
  | true => exact Monitor.wp_pure hend
  | false => exact Monitor.wp_pure hend

theorem wp_session {s : Watch} {toggle : BitVec 8} (hs : InStep toggle s) :
    toggles.wp (session toggle) InStep s := by
  refine Monitor.wp_bind (Monitor.wp_emit ⟨nofun, fun _ => hs.1⟩ ?_)
  have hlabel : Enumerating s.total (s.step .USB_HOT_PLUG) := ⟨rfl, rfl⟩
  refine Monitor.wp_bind (Monitor.wp_mono
    (keeps_enumerating plain_enumeration _ hlabel) fun data_size s₁ h₁ => ?_)
  have hstart : InStep toggle s₁ := ⟨fun h => absurd h₁.1 h, by rw [hs.2, h₁.2]⟩
  cases data_size with
  | none => exact Monitor.wp_pure hstart
  | some data_size =>
    exact Monitor.wp_iterate InStep (fun toggle s h => wp_poll data_size h) hstart

theorem wp_main : toggles.wp main (fun _ _ => True) .start := by
  refine Monitor.wp_bind (Monitor.wp_emit ⟨nofun, fun _ h => absurd rfl h⟩ ?_)
  have hstart : InStep 0 (Watch.start.step .IO_init) := ⟨fun h => absurd rfl h, rfl⟩
  refine Monitor.wp_iterate InStep (fun toggle s h => ?_) hstart
  exact Monitor.wp_bind (Monitor.wp_mono (wp_session h) fun toggle' s' h' =>
    Monitor.wp_pure h')

/-! ## The trace of `main` -/

theorem watch_append (pre l : List Event) : watch (pre ++ l) = toggles.after (watch pre) l :=
  toggles.after_append .start pre l

theorem watch_snoc (pre : List Event) (e : Event) : watch (pre ++ [e]) = (watch pre).step e :=
  watch_append pre [e]

/-- Between the marks the counters stand. -/
theorem after_counts (s : Watch) {mid : List Event} (h : ∀ e ∈ mid, e.isMark = false) :
    (toggles.after s mid).poll = s.poll ∧ (toggles.after s mid).total = s.total := by
  induction mid generalizing s with
  | nil => exact ⟨rfl, rfl⟩
  | cons e mid ih =>
    rw [List.forall_mem_cons] at h
    obtain ⟨hpoll, htotal⟩ := Watch.step_counts (s := s) h.1
    obtain ⟨hpoll', htotal'⟩ := ih (s.step e) h.2
    exact ⟨hpoll'.trans hpoll, htotal'.trans htotal⟩

/-- An accepted poll writes a control word before the next mark. -/
theorem exists_controlWord {s : Watch} {tr : List Event} (hpoll : s.poll ≠ 0)
    (hwritten : s.written = false) (hchecks : toggles.Checks s tr)
    (hend : (toggles.after s tr).Settled) :
    ∃ mid e post w, tr = mid ++ e :: post ∧ (∀ e ∈ mid, e.isMark = false) ∧
      (toggles.after s mid).controlWord e = some w := by
  induction tr generalizing s with
  | nil =>
    have := hend hpoll
    rw [Monitor.after_nil, hwritten] at this
    cases this
  | cons e tr ih =>
    have hmark : e.isMark = false := by
      rw [← Bool.not_eq_true]
      intro h
      have := hchecks.1.2 h hpoll
      rw [hwritten] at this
      cases this
    cases hword : s.controlWord e with
    | some w => exact ⟨[], e, tr, w, rfl, nofun, hword⟩
    | none =>
      have hpoll' : (s.step e).poll ≠ 0 := by rwa [(Watch.step_counts hmark).1]
      have hwritten' : (s.step e).written = false := by
        rw [Watch.written_step hmark, hwritten, hword]
        rfl
      obtain ⟨mid, e', post, w, htr, hmid, hw⟩ := ih hpoll' hwritten' hchecks.2 hend
      refine ⟨e :: mid, e', post, w, by rw [htr]; rfl, ?_, hw⟩
      rw [List.forall_mem_cons]
      exact ⟨hmark, hmid⟩

section Main

variable {answers : List (BitVec 32)} {pre post : List Event} {e : Event}

/-- Whatever is answered, the monitor accepts what `main` does. -/
theorem main_checks (answers : List (BitVec 32)) :
    toggles.Checks .start (trace answers) ∧ (watch (trace answers)).Settled := by
  obtain ⟨hchecks, hend⟩ := wp_main answers
  rw [main_waits] at hend
  exact ⟨hchecks, hend⟩

/-- Over all sessions the control words alternate. -/
theorem main_word {w : BitVec 16} (htr : trace answers = pre ++ e :: post)
    (hw : (watch pre).controlWord e = some w) : w = dataToggle (watch pre).total :=
  ((main_checks answers).1.ok_of_eq htr).1 w hw

/-- Every poll writes a control word. -/
theorem main_writes (htr : trace answers = pre ++ .poll :: post) :
    ∃ mid e post' w, post = mid ++ e :: post' ∧ (∀ e ∈ mid, e.isMark = false) ∧
      (watch (pre ++ .poll :: mid)).controlWord e = some w := by
  obtain ⟨hchecks, hend⟩ := main_checks answers
  rw [htr, Monitor.checks_append] at hchecks
  rw [htr, watch_append] at hend
  obtain ⟨mid, e, post', w, hpost, hmid, hw⟩ :=
    exists_controlWord (s := (watch pre).step .poll) (Nat.succ_ne_zero _) rfl hchecks.2.2 hend
  refine ⟨mid, e, post', w, hpost, hmid, ?_⟩
  rw [watch_append]
  exact hw

/-- Without an odd restart the two ways of counting polls agree in parity. -/
theorem total_mod_of_evenRestarts {tr : List Event} (h : EvenRestarts tr) (hpre : pre <+: tr)
    (hpoll : (watch pre).poll ≠ 0) : (watch pre).total % 2 = (watch pre).poll % 2 := by
  induction pre using List.reverseRecOn with
  | nil => exact absurd rfl hpoll
  | append_singleton pre e ih =>
    have hprev : pre <+: tr := (List.prefix_append pre [e]).trans hpre
    rw [watch_snoc] at hpoll ⊢
    by_cases hmark : e.isMark = true
    · cases e with
      | USB_HOT_PLUG => exact absurd rfl hpoll
      | poll =>
        change ((watch pre).total + 1) % 2 = ((watch pre).poll + 1) % 2
        by_cases hzero : (watch pre).poll = 0
        · obtain ⟨post, rfl⟩ := hpre
          have := h pre post (by rw [List.append_assoc]; rfl) hzero
          omega
        · have := ih hprev hzero
          omega
      | _ => cases hmark
    · obtain ⟨hsame, htotal⟩ := Watch.step_counts (s := watch pre) (Bool.not_eq_true _ ▸ hmark)
      rw [hsame] at hpoll ⊢
      rw [htotal]
      exact ih hprev hpoll

/-- The law of the data toggle holds in a run exactly if every session that polls begins
after an even number of polls. -/
theorem toggle_right_iff (answers : List (BitVec 32)) :
    ToggleRight (trace answers) ↔ EvenRestarts (trace answers) := by
  constructor
  · intro h pre post htr hpoll
    obtain ⟨mid, e, post', w, hpost, hmid, hw⟩ := h.writes pre post htr
    have htr' : trace answers = (pre ++ .poll :: mid) ++ e :: post' := by
      rw [htr, hpost, List.append_assoc]
      rfl
    have hword := (main_word htr' hw).symm.trans (h.word _ _ _ _ htr' hw)
    obtain ⟨hsame, htotal⟩ := after_counts ((watch pre).step .poll) hmid
    rw [watch_append] at hword
    change dataToggle (toggles.after ((watch pre).step .poll) mid).total =
      dataToggle (toggles.after ((watch pre).step .poll) mid).poll at hword
    rw [hsame, htotal] at hword
    change dataToggle ((watch pre).total + 1) = dataToggle ((watch pre).poll + 1) at hword
    rw [hpoll, dataToggle_eq_iff] at hword
    omega
  · intro h
    refine ⟨fun pre post htr => main_writes htr, fun pre e post w htr hw => ?_⟩
    have hpoll : (watch pre).poll ≠ 0 := by
      intro hzero
      rw [Watch.controlWord_of_poll hzero] at hw
      cases hw
    rw [main_word htr hw, dataToggle_eq_iff]
    exact total_mod_of_evenRestarts h ⟨e :: post, htr.symm⟩ hpoll

end Main

/-! ## A keyboard that is removed after one poll -/

/-- The answers to an enumeration without a retry. -/
def enumerationAnswers : List (BitVec 32) :=
  [0, 0, 0, 0] ++ [1, 0x0FED, 0x0FED, 0x2000] ++
    (List.replicate 5 [0x0010, 0x1000, 0, 0x0003]).flatten ++ [0, 8] ++
    (List.replicate 4 [0x0010, 0x1000, 0, 0x0003]).flatten

/-- The answers to a poll after which the keyboard is removed and inserted again. -/
def replugAnswers : List (BitVec 32) :=
  [0x0010, 0x1000, 0] ++ List.replicate 8 0 ++ [0, 0, 0x2000]

/-- The first poll after the keyboard has been inserted again writes `DATA1`. -/
theorem toggle_wrong_after_replug :
    ¬ToggleRight (trace (enumerationAnswers ++ replugAnswers ++ enumerationAnswers)) := by
  set tr := trace (enumerationAnswers ++ replugAnswers ++ enumerationAnswers) with htr
  intro h
  have hsplit : tr = tr.take 1000 ++ .write HPI_DATA 0x0041 :: tr.drop 1001 := by decide +kernel
  have hword : (watch (tr.take 1000)).controlWord (.write HPI_DATA 0x0041) = some 0x0041 := by
    decide +kernel
  have hpoll : (watch (tr.take 1000)).poll = 1 := by decide +kernel
  have hfirst := h.word _ _ _ _ hsplit hword
  rw [hpoll] at hfirst
  cases hfirst

end SnakeMom.UsbKb
