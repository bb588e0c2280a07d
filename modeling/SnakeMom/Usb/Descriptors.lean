import SnakeMom.Usb.Parts

/-!
# Transfer descriptors

A command leaves its descriptors in the memory of the controller, each with the address of
the next one, and the controller goes along these links.  What it finds there is read back
here from the words alone, with the fields of `cy7c67200.h`.

* `stored` is the memory that words make up, and `chain` goes along the links.
* `Transfer` is a control transfer that has been read back, and `Transfer.Valid` says when it
  is one: a setup packet with the request, a data stage whose packets alternate and fill one
  buffer, and a status stage the other way.
* `deviceAddress` is the address that a device has got from the requests before.
* `enumerationOrder` are the nine transfers of an enumeration: `control_enumerationOrder`.
* `PollTransfer` is the transfer of a poll: `pollTransfer_pollWords`.
-/

namespace SnakeMom.UsbKb

open Talk

/-! ## Fields -/

def HOST_CNT : BitVec 16 := 0x03FF
def PID_SEL : BitVec 16 := 0x00F0
def EP_SEL : BitVec 16 := 0x000F
def SETUP_PID : BitVec 16 := 0x000D
def IN_PID : BitVec 16 := 0x0009
def OUT_PID : BitVec 16 := 0x0001
def SEQ_SEL : BitVec 16 := 0x0040
def DR_SET_ADDRESS : BitVec 16 := 0x0005
def bmRT_DEVICE2HOST : BitVec 16 := 0x0080

/-- The six words of a transfer descriptor. -/
structure TD where
  base : BitVec 16
  length : BitVec 16
  token : BitVec 16
  control : BitVec 16
  status : BitVec 16
  next : BitVec 16
deriving DecidableEq, Repr

namespace TD

variable (td : TD)

def count : BitVec 16 := td.length &&& HOST_CNT
def pid : BitVec 16 := (td.token &&& PID_SEL) >>> 4
def endpoint : BitVec 16 := td.token &&& EP_SEL
def device : BitVec 16 := td.token >>> 8
def data1 : Bool := decide (td.control &&& SEQ_SEL ≠ 0)

end TD

/-! ## Reading the memory -/

/-- The memory that words make up which are stored one after the other from an address on. -/
def stored (address : BitVec 16) (words : List (BitVec 16)) (p : BitVec 16) :
    Option (BitVec 16) :=
  if (p - address) % 2 = 0 then words[(p - address).toNat / 2]? else none

def readTD (mem : BitVec 16 → Option (BitVec 16)) (p : BitVec 16) : Option TD := do
  pure ⟨← mem p, ← mem (p + 2), ← mem (p + 4), ← mem (p + 6), ← mem (p + 8), ← mem (p + 10)⟩

/-- The descriptors along the links from an address on, of which there are at most `n`. -/
def chain (mem : BitVec 16 → Option (BitVec 16)) : Nat → BitVec 16 → Option (List TD)
  | 0, _ => none
  | n + 1, p => do
    let td ← readTD mem p
    if td.next = 0 then pure [td]
    else do
      let tds ← chain mem n td.next
      pure (td :: tds)

/-- The eight bytes of a request. -/
structure Request where
  code : BitVec 16
  value : BitVec 16
  index : BitVec 16
  length : BitVec 16
deriving DecidableEq, Repr

def readRequest (mem : BitVec 16 → Option (BitVec 16)) (p : BitVec 16) : Option Request := do
  pure ⟨← mem p, ← mem (p + 2), ← mem (p + 4), ← mem (p + 6)⟩

/-- The request sets the address of the device. -/
def Request.SetsAddress (r : Request) : Prop := r.code = DR_SET_ADDRESS <<< 8

/-- The data stage goes to the host. -/
def Request.ToHost (r : Request) : Prop := r.code &&& bmRT_DEVICE2HOST ≠ 0

instance (r : Request) : Decidable r.SetsAddress := inferInstanceAs (Decidable (_ = _))

instance (r : Request) : Decidable r.ToHost := inferInstanceAs (Decidable (_ ≠ _))

/-! ## Control transfers -/

/-- A control transfer: a setup packet with a request, packets of data, and a status. -/
structure Transfer where
  setup : TD
  request : Request
  data : List TD
  status : TD
deriving DecidableEq, Repr

/-- Reads a control transfer back from the words that have been stored. -/
def readTransfer (address : BitVec 16) (words : List (BitVec 16)) : Option Transfer := do
  let tds ← chain (stored address words) words.length address
  let setup ← tds.head?
  let request ← readRequest (stored address words) setup.base
  let status ← tds.tail.getLast?
  pure ⟨setup, request, tds.tail.dropLast, status⟩

/-- The packet goes between the host and endpoint `endpoint` of a device. -/
def TD.Goes (td : TD) (device endpoint pid : BitVec 16) : Prop :=
  td.device = device ∧ td.endpoint = endpoint ∧ td.pid = pid

instance (td : TD) (device endpoint pid : BitVec 16) : Decidable (td.Goes device endpoint pid) :=
  inferInstanceAs (Decidable (_ ∧ _))

/-- The packets of a data stage come from the device, with `DATA1` and `DATA0` in turn, and
fill a buffer from `buffer` on without a gap. -/
def DataStage (device : BitVec 16) : Bool → Nat → List TD → Prop
  | _, _, [] => True
  | data1, buffer, td :: tds =>
    td.Goes device 0 IN_PID ∧ td.data1 = data1 ∧ td.base.toNat = buffer ∧ 0 < td.count.toNat ∧
      DataStage device (!data1) (buffer + td.count.toNat) tds

instance decidableDataStage (device : BitVec 16) :
    (data1 : Bool) → (buffer : Nat) → (tds : List TD) →
      Decidable (DataStage device data1 buffer tds)
  | _, _, [] => inferInstanceAs (Decidable True)
  | data1, buffer, td :: tds =>
    have := decidableDataStage device (!data1) (buffer + td.count.toNat) tds
    inferInstanceAs (Decidable (_ ∧ _ ∧ _ ∧ _ ∧ _))

/-- The number of bytes of packets. -/
def total : List TD → Nat
  | [] => 0
  | td :: tds => td.count.toNat + total tds

/-- Where the data stage begins to put its bytes. -/
def Transfer.buffer (t : Transfer) : Nat :=
  match t.data with
  | [] => 0
  | td :: _ => td.base.toNat

/-- A control transfer with a device, whose words end before `last`. -/
structure Transfer.Valid (device : BitVec 16) (last : Nat) (t : Transfer) : Prop where
  /-- The eight bytes of the request go out first. -/
  setup : t.setup.Goes device 0 SETUP_PID ∧ t.setup.data1 = false ∧ t.setup.count = 8
  /-- The data stage starts with `DATA1` and takes no more than the request asks for. -/
  data : DataStage device true t.buffer t.data ∧ total t.data ≤ t.request.length.toNat
  /-- What comes in does not run over the descriptors. -/
  clear : t.data ≠ [] → last ≤ t.buffer ∧ t.buffer + total t.data < 0x10000
  /-- There is a data stage if the request has one. -/
  stage : (t.data ≠ [] ↔ t.request.ToHost) ∧ (t.data = [] → t.request.length = 0)
  /-- The status goes the other way, without data. -/
  status : t.status.Goes device 0 (if t.data = [] then IN_PID else OUT_PID) ∧
    t.status.data1 = true ∧ t.status.count = 0

instance (device : BitVec 16) (last : Nat) (t : Transfer) : Decidable (t.Valid device last) :=
  decidable_of_iff (_ ∧ _ ∧ _ ∧ _ ∧ _)
    ⟨fun h => ⟨h.1, h.2.1, h.2.2.1, h.2.2.2.1, h.2.2.2.2⟩,
      fun h => ⟨h.setup, h.data, h.clear, h.stage, h.status⟩⟩

/-- Words that make up a control transfer with a device, when they are stored at `0x0500`. -/
def ControlWords (device : BitVec 16) (words : List (BitVec 16)) : Prop :=
  ∃ t ∈ readTransfer 0x0500 words, t.Valid device (0x0500 + 2 * words.length)

instance (device : BitVec 16) (words : List (BitVec 16)) : Decidable (ControlWords device words) :=
  inferInstanceAs (Decidable (∃ t ∈ readTransfer 0x0500 words, _))

/-- The address of a device after control transfers. -/
def deviceAddress (transfers : List (List (BitVec 16))) : BitVec 16 :=
  (transfers.filterMap (readTransfer 0x0500)).foldl
    (fun device t => if t.request.SetsAddress then t.request.value else device) 0

/-! ## What the commands submit -/

/-- The words that a command stores before it submits them. -/
def submitted (command : Software Unit) : List (BitVec 16) :=
  ((command []).trace.filterMap fun e =>
    match e with
    | .write Address Data => if Address = HPI_DATA then some Data else none
    | _ => none).dropLast

theorem submitted_submit (tds : List (BitVec 16)) : submitted (submit tds) = tds := by
  rw [submitted, submit_apply, List.filterMap_cons, List.filterMap_append, List.filterMap_map]
  simp [Function.comp_def, HPI_ADDR, HPI_DATA]

/-- The transfers of an enumeration, in order. -/
def enumerationOrder : List (List (BitVec 16)) :=
  [UsbSetAddress, UsbGetDeviceDesc1, UsbGetDeviceDesc2, UsbGetConfigDesc1, UsbGetConfigDesc2,
    UsbSetConfig, UsbClassRequest, UsbGetHidDesc, UsbGetReportDesc].map submitted

/-- The transfer of a poll. -/
def pollWords (toggle data_size : BitVec 8) : List (BitVec 16) :=
  submitted (submitPoll toggle data_size)

/-- Every transfer of an enumeration is a control transfer with the address that the device
has from those before it. -/
theorem control_enumerationOrder {accepted : List (List (BitVec 16))} {words : List (BitVec 16)}
    (h : accepted ++ [words] <+: enumerationOrder) :
    ControlWords (deviceAddress accepted) words := by
  have hall : ∀ k : Fin 9, ControlWords (deviceAddress (enumerationOrder.take k))
      (enumerationOrder.getD k []) := by
    decide +kernel
  obtain ⟨rest, hrest⟩ := h
  have hlength := congrArg List.length hrest
  have hk : accepted.length < 9 := by
    simp only [List.length_append, List.length_cons, List.length_nil] at hlength
    have hnine : enumerationOrder.length = 9 := rfl
    omega
  have hat := hall ⟨accepted.length, hk⟩
  rwa [← hrest, List.append_assoc, List.take_left, List.getD_eq_getElem?_getD,
    List.getElem?_append_right (Nat.le_refl _), Nat.sub_self] at hat

/-- After an enumeration the device has the address 2. -/
theorem deviceAddress_enumerationOrder : deviceAddress enumerationOrder = 2 := by
  decide +kernel

/-- Words that make up the transfer of a poll: one packet from endpoint 1. -/
def PollTransfer (device : BitVec 16) (words : List (BitVec 16)) : Prop :=
  ∃ td, chain (stored 0x0500 words) words.length 0x0500 = some [td] ∧
    td.Goes device 1 IN_PID ∧ td.base = 0x051c ∧ td.count.toNat ≤ 15 ∧
    0x0500 + 2 * words.length ≤ td.base.toNat

theorem pollTransfer_pollWords (toggle data_size : BitVec 8) :
    PollTransfer 2 (pollWords toggle data_size) := by
  rw [pollWords, submitPoll, submitted_submit]
  have hcount : ((0x000f &&& data_size.setWidth 16) &&& HOST_CNT).toNat ≤ 15 := by
    rw [BitVec.toNat_and, BitVec.toNat_and]
    exact Nat.le_trans Nat.and_le_left Nat.and_le_left
  have hclear : 0x0500 + 2 * 6 ≤ (0x051c : BitVec 16).toNat := by decide
  have htoken : (0x0291 : BitVec 16) >>> 8 = 2 ∧ (0x0291 : BitVec 16) &&& EP_SEL = 1 ∧
      ((0x0291 : BitVec 16) &&& PID_SEL) >>> 4 = IN_PID := by decide
  exact ⟨_, rfl, htoken, rfl, hcount, hclear⟩

end SnakeMom.UsbKb
