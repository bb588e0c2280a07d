import SnakeMom.Usb.Commands

/-!
# `main.c`: enumeration and polling

`main` brings the controller up, takes the keyboard through its enumeration and polls it
for ever.  The label `USB_HOT_PLUG` is the head of a loop, `main`; a part of the
enumeration returns `false`, and the whole of it `none`, where the source jumps there.

The counter `toggle` is the one local variable that a jump to the label keeps, so it is
the state of that loop.
-/

namespace SnakeMom.UsbKb

open Talk

/-! ## Registers and messages -/

def HPI_IRQ_ROUTING_REG : BitVec 16 := 0x0142
def SOFEOP1_TO_CPU_EN : BitVec 16 := 0x0400
def RESUME1_TO_HPI_EN : BitVec 16 := 0x0040
def HOST1_IRQ_EN_REG : BitVec 16 := 0xC08C
def SOF_EOP_IRQ_EN : BitVec 16 := 0x0200
def A_CHG_IRQ_EN : BitVec 16 := 0x0010
def USB1_CTL_REG : BitVec 16 := 0xC08A
def A_DP_STAT : BitVec 16 := 0x2000
def A_DM_STAT : BitVec 16 := 0x1000
def HUSB_pEOT : BitVec 16 := 0x01B4
def HUSB_SIE1_INIT_INT : BitVec 16 := 0x0072
def HUSB_RESET_INT : BitVec 16 := 0x0074
def COMM_EXEC_INT : BitVec 16 := 0xCE01
def COMM_ACK : BitVec 16 := 0x0FED
def COMM_INT_NUM : BitVec 16 := 0x01C2

/-- `COMM_R1` to `COMM_R13`, which are cleared. -/
def clearRegisters : List (BitVec 16 × BitVec 16) :=
  [(0x01C6, 0), (0x01C8, 0), (0x01CA, 0), (0x01CC, 0), (0x01CE, 0), (0x01D0, 0), (0x01D2, 0),
    (0x01D4, 0), (0x01D6, 0), (0x01D8, 0), (0x01DA, 0), (0x01DC, 0), (0x01DE, 0)]

def COMM_R0 : BitVec 16 := 0x01C4

/-- What `ctl_reg` and `no_device` are set to. -/
def ctl_reg : BitVec 16 := USB1_CTL_REG

def no_device : BitVec 16 := A_DP_STAT ||| A_DM_STAT

def keycode_base : BitVec 32 := 0x60
def redGhost : BitVec 32 := 0x90
def orangeGhost : BitVec 32 := 0x50
def blueGhost : BitVec 32 := 0x80
def pinkGhost : BitVec 32 := 0x40

/-! ## Enumeration -/

/-- The mailbox is read, and once more for the message if it is no acknowledgement. -/
def acknowledged : Software Bool := do
  let mailbox ← IO_read HPI_MAILBOX
  if mailbox = COMM_ACK then pure true
  else do
    let _ ← IO_read HPI_MAILBOX
    pure false

/-- From the label to the end of step 1. -/
def step1 : Software Bool := do
  UsbSoftReset
  UsbWrite HPI_SIE1_MSG_ADR 0
  UsbWrite HOST1_STAT_REG 0xFFFF
  UsbWrite HUSB_pEOT 600
  UsbWrite HPI_IRQ_ROUTING_REG (SOFEOP1_TO_CPU_EN ||| RESUME1_TO_HPI_EN)
  UsbWrite HOST1_IRQ_EN_REG (A_CHG_IRQ_EN ||| SOF_EOP_IRQ_EN)
  UsbWrite COMM_R0 0x0000
  UsbWrites clearRegisters
  UsbWrite COMM_INT_NUM HUSB_SIE1_INIT_INT
  IO_write HPI_MAILBOX COMM_EXEC_INT
  whileNoStatus 0xFFFF (pure ())
  acknowledged

def step2 : Software Bool := do
  UsbWrite COMM_INT_NUM HUSB_RESET_INT
  UsbWrite COMM_R0 0x003c
  UsbWrites clearRegisters
  IO_write HPI_MAILBOX COMM_EXEC_INT
  acknowledged

/-- `hot_plug_count` counts up to `n`; the loop ends early when a device is there. -/
def hotPlugRetry : Nat → BitVec 16 → Software (BitVec 16)
  | 0, usb_ctl_val => pure usb_ctl_val
  | n + 1, _ => do
    let usb_ctl_val ← UsbRead ctl_reg
    if usb_ctl_val &&& no_device ≠ 0 then pure usb_ctl_val else hotPlugRetry n usb_ctl_val

/-- `ctl_reg` is read, and up to `n` times more while there is no device. -/
def readCtl (n : Nat) : Software (BitVec 16) := do
  let usb_ctl_val ← UsbRead ctl_reg
  if usb_ctl_val &&& no_device = 0 then hotPlugRetry n usb_ctl_val else pure usb_ctl_val

/-- The wait for a keyboard, which ends in a jump to the label. -/
def awaitDevice : Software Bool :=
  Dialog.iterate (fun _ => do
    let usb_ctl_val ← UsbRead ctl_reg
    if usb_ctl_val &&& no_device ≠ 0 then pure (.inr false) else pure (.inl ())) ()

/-- Between steps 2 and 3. -/
def findDevice : Software Bool := do
  let usb_ctl_val ← readCtl 5
  if usb_ctl_val &&& no_device = 0 then awaitDevice else pure true

/-- The steps from 3 on: a command is sent, and sent again until there is a message; then
its status and control bytes are read. -/
def transfer (command : Software Unit) : Software Bool := do
  command
  whileNoStatus HPI_STATUS_SIE1msg_FLAG command
  let _ ← UsbWaitTDListDone
  let _ ← UsbRead 0x0506
  let usb_ctl_val ← UsbRead 0x0508
  if usb_ctl_val = 0x03 then pure true
  else do
    let _ ← UsbGetRetryCnt
    pure false

/-- The first part, and the second one unless the first jumps to the label. -/
def unlessHotPlug {α : Type} (first : Software Bool) (second : Software (Option α)) :
    Software (Option α) := do
  let done ← first
  if done then second else pure none

/-- The end of step 6: the endpoint descriptor is overwritten, and `data_size` is read
back from it. -/
def endpoint : Software (BitVec 8) := do
  let _ ← UsbRead 0x056c
  IO_write HPI_ADDR 0x0576
  writeData [0x073F, 0x8105, 0x0003, 0x0008, 0xAC0A]
  UsbWrite HUSB_SIE1_pCurrentTDPtr 0x0576
  let data ← UsbRead 0x057c
  pure (data.setWidth 8)

/-- From the label to the polling loop; the result is `data_size`. -/
def enumeration : Software (Option (BitVec 8)) :=
  unlessHotPlug step1 <| unlessHotPlug step2 <| unlessHotPlug findDevice <|
  unlessHotPlug (transfer UsbSetAddress) <|
  unlessHotPlug (transfer UsbGetDeviceDesc1) <|
  unlessHotPlug (transfer UsbGetDeviceDesc2) <|
  unlessHotPlug (transfer UsbGetConfigDesc1) <|
  unlessHotPlug (transfer UsbGetConfigDesc2) do
    let data_size ← endpoint
    unlessHotPlug (transfer UsbSetConfig) <|
      unlessHotPlug (transfer UsbClassRequest) <|
      unlessHotPlug (transfer UsbGetHidDesc) <|
      unlessHotPlug (transfer UsbGetReportDesc) <|
        pure (some data_size)

/-! ## Polling -/

/-- The transfer of a poll is written and submitted. -/
def submitPoll (toggle data_size : BitVec 8) : Software Unit :=
  submit [0x051c,
    0x000f &&& data_size.setWidth 16,
    0x0291,
    if toggle % 2 ≠ 0 then 0x0001 else 0x0041,
    0x0013,
    0x0000]

/-- The four random words for the ghosts. -/
def generate : Software Unit := do
  let behaviorGeneration0 ← Dialog.ask
  let behaviorGeneration1 ← Dialog.ask
  let behaviorGeneration2 ← Dialog.ask
  let behaviorGeneration3 ← Dialog.ask
  Dialog.emit (.store redGhost (.stw behaviorGeneration0))
  Dialog.emit (.store orangeGhost (.stw behaviorGeneration1))
  Dialog.emit (.store blueGhost (.stw behaviorGeneration2))
  Dialog.emit (.store pinkGhost (.stw behaviorGeneration3))

/-- The three reads of a round after the keyboard has been removed. -/
def awaitReturn : Software Unit :=
  Dialog.iterate (fun _ => do
    let _ ← UsbRead ctl_reg
    let _ ← UsbRead ctl_reg
    let usb_ctl_val ← UsbRead ctl_reg
    if usb_ctl_val &&& no_device ≠ 0 then pure (.inr ()) else pure (.inl ())) ()

/-- What follows the transfer in a poll; the result is `false` if it jumps to the label. -/
def finishPoll : Software Bool := do
  let _ ← UsbWaitTDListDone
  let keycode ← UsbRead 0x051e
  Dialog.emit (.store keycode_base (.stb ((keycode &&& 0xff).setWidth 8)))
  let usb_ctl_val ← readCtl 7
  if usb_ctl_val &&& no_device = 0 then do
    awaitReturn
    pure false
  else do
    generate
    pure true

/-- One round of `while(1)`: a poll with the new value of `toggle`. -/
def poll (data_size toggle : BitVec 8) : Software (BitVec 8 ⊕ BitVec 8) := do
  Dialog.emit .poll
  submitPoll toggle data_size
  whileNoStatus HPI_STATUS_SIE1msg_FLAG (submitPoll toggle data_size)
  let again ← finishPoll
  if again then pure (.inl toggle) else pure (.inr toggle)

/-- From the label to the next jump to it. -/
def session (toggle : BitVec 8) : Software (BitVec 8) := do
  Dialog.emit .USB_HOT_PLUG
  let data_size ← enumeration
  match data_size with
  | none => pure toggle
  | some data_size => Dialog.iterate (fun toggle => poll data_size (toggle + 1)) toggle

def main : Software Empty := do
  Dialog.emit .IO_init
  Dialog.iterate (fun toggle => do
    let toggle ← session toggle
    pure (.inl toggle)) 0

/-- What `main` does when it is answered by `answers`. -/
def trace (answers : List (BitVec 32)) : List Event := (main answers).trace

end SnakeMom.UsbKb
