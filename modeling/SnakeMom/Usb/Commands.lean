import SnakeMom.Lib.Dialog

/-!
# `usb.c`: commands to the USB controller

The software writes to and reads from the controller by `IO_write` and `IO_read`.  What a
read returns is not known: it is an answer of the environment, and so is what `rand`
returns.  Printing and sleeping are left out; a read that is only printed is kept.

* `Event` is what the software does, with two marks that nothing sees: a mark where the
  label `USB_HOT_PLUG` is passed, and one where a poll of the keyboard begins.
* A command is a list of transfer descriptors that is written to the memory of the
  controller and submitted, `submit`; each command keeps its own list.
-/

namespace SnakeMom.UsbKb

open Talk

/-! ## Registers and messages -/

def HPI_DATA : BitVec 8 := 0
def HPI_MAILBOX : BitVec 8 := 1
def HPI_ADDR : BitVec 8 := 2
def HPI_STATUS : BitVec 8 := 3

def HPI_STATUS_SIE1msg_FLAG : BitVec 16 := 0x0010
def HPI_SIE1_MSG_ADR : BitVec 16 := 0x0144
def HPI_SIE2_MSG_ADR : BitVec 16 := 0x0148
def HOST1_STAT_REG : BitVec 16 := 0xC090
def HOST2_STAT_REG : BitVec 16 := 0xC0B0
def HUSB_SIE1_pCurrentTDPtr : BitVec 16 := 0x01B0

def COMM_RESET : BitVec 16 := 0xFA50
def HUSB_TDListDone : BitVec 16 := 0x1000

/-! ## Input and output -/

/-- What a store instruction of the processor stores, by its width. -/
inductive StoreData where
  | stb (R_stb_data : BitVec 8)
  | stw (R_stw_data : BitVec 32)
deriving DecidableEq, Repr

/-- The word that the processor puts on the bus: a byte goes out on all four lanes. -/
def StoreData.E_st_data : StoreData → BitVec 32
  | .stb R_stb_data => R_stb_data ++ R_stb_data ++ R_stb_data ++ R_stb_data
  | .stw R_stw_data => R_stw_data

inductive Event where
  | IO_init
  | write (Address : BitVec 8) (Data : BitVec 16)
  | read (Address : BitVec 8) (temp : BitVec 16)
  /-- A byte or a word is stored to the port at an address. -/
  | store (base : BitVec 32) (data : StoreData)
  | USB_HOT_PLUG
  | poll
deriving DecidableEq, Repr

/-- A part of the software. -/
abbrev Software (α : Type) : Type := Dialog (BitVec 32) Event α

def IO_write (Address : BitVec 8) (Data : BitVec 16) : Software Unit :=
  Dialog.emit (.write Address Data)

/-- `temp` takes the low half of what the port delivers. -/
def IO_read (Address : BitVec 8) : Software (BitVec 16) := do
  let answer ← Dialog.ask
  Dialog.emit (.read Address (answer.setWidth 16))
  pure (answer.setWidth 16)

def UsbWrite (Address Data : BitVec 16) : Software Unit := do
  IO_write HPI_ADDR Address
  IO_write HPI_DATA Data

def UsbRead (Address : BitVec 16) : Software (BitVec 16) := do
  IO_write HPI_ADDR Address
  IO_read HPI_DATA

/-- `UsbWrite` for every pair of a list. -/
def UsbWrites : List (BitVec 16 × BitVec 16) → Software Unit
  | [] => pure ()
  | (Address, Data) :: l => do
    UsbWrite Address Data
    UsbWrites l

/-- Words that are written one after the other. -/
def writeData : List (BitVec 16) → Software Unit
  | [] => pure ()
  | Data :: l => do
    IO_write HPI_DATA Data
    writeData l

/-- `while (!(IO_read(HPI_STATUS) & flag)) body`. -/
def whileNoStatus (flag : BitVec 16) (body : Software Unit) : Software Unit :=
  Dialog.iterate (fun _ => do
    let status ← IO_read HPI_STATUS
    if status &&& flag ≠ 0 then pure (.inr ())
    else do
      body
      pure (.inl ())) ()

/-! ## Commands -/

def UsbSoftReset : Software Unit := do
  IO_write HPI_MAILBOX COMM_RESET
  let _ ← IO_read HPI_MAILBOX
  let _ ← IO_read HPI_STATUS
  let _ ← UsbRead HPI_SIE1_MSG_ADR
  UsbWrite HPI_SIE1_MSG_ADR 0
  let _ ← UsbRead HPI_SIE2_MSG_ADR
  UsbWrite HPI_SIE2_MSG_ADR 0
  UsbWrite HOST1_STAT_REG 0xFFFF
  UsbWrite HOST2_STAT_REG 0xFFFF

/-- Transfer descriptors are written from address `0x0500` on and submitted. -/
def submit (tds : List (BitVec 16)) : Software Unit := do
  IO_write HPI_ADDR 0x0500
  writeData tds
  UsbWrite HUSB_SIE1_pCurrentTDPtr 0x0500

def UsbSetAddress : Software Unit := submit [
  0x050C, 0x0008, 0x00D0, 0x0001, 0x0013, 0x0514,
  0x0500, 0x0002, 0x0000, 0x0000,
  0x0000, 0x0000, 0x0090, 0x0041, 0x0013, 0x0000]

def UsbGetDeviceDesc1 : Software Unit := submit [
  0x050C, 0x0008, 0x02D0, 0x0001, 0x0013, 0x0514,
  0x0680, 0x0100, 0x0000, 0x0008,
  0x052C, 0x0008, 0x0290, 0x0041, 0x0013, 0x0520,
  0x0000, 0x0000, 0x0210, 0x0041, 0x0013, 0x0000]

def UsbGetDeviceDesc2 : Software Unit := submit [
  0x050C, 0x0008, 0x02D0, 0x0001, 0x0013, 0x0514,
  0x0680, 0x0100, 0x0000, 0x0012,
  0x0544, 0x0008, 0x0290, 0x0041, 0x0013, 0x0520,
  0x054c, 0x0008, 0x0290, 0x0001, 0x0013, 0x052c,
  0x0554, 0x0002, 0x0290, 0x0041, 0x0013, 0x0538,
  0x0000, 0x0000, 0x0210, 0x0041, 0x0013, 0x0000]

def UsbGetConfigDesc1 : Software Unit := submit [
  0x050C, 0x0008, 0x02D0, 0x0001, 0x0013, 0x0514,
  0x0680, 0x0200, 0x0000, 0x0009,
  0x0544, 0x0008, 0x0290, 0x0041, 0x0013, 0x0520,
  0x054c, 0x0001, 0x0290, 0x0001, 0x0013, 0x052c,
  0x0000, 0x0000, 0x0210, 0x0041, 0x0013, 0x0000]

def UsbGetConfigDesc2 : Software Unit := submit [
  0x050C, 0x0008, 0x02D0, 0x0001, 0x0013, 0x0514,
  0x0680, 0x0200, 0x0000, 0x00FF,
  0x055c, 0x0008, 0x0290, 0x0041, 0x0013, 0x0520,
  0x0564, 0x0008, 0x0290, 0x0001, 0x0013, 0x052c,
  0x056c, 0x0008, 0x0290, 0x0041, 0x0013, 0x0538,
  0x0574, 0x0008, 0x0290, 0x0001, 0x0013, 0x0544,
  0x057c, 0x0002, 0x0290, 0x0041, 0x0013, 0x0550,
  0x0000, 0x0000, 0x0210, 0x0041, 0x0013, 0x0000]

def UsbSetConfig : Software Unit := submit [
  0x050C, 0x0008, 0x02D0, 0x0001, 0x0013, 0x0514,
  0x0900, 0x0001, 0x0000, 0x0000,
  0x0000, 0x0000, 0x0290, 0x0041, 0x0013, 0x0000]

def UsbClassRequest : Software Unit := submit [
  0x050C, 0x0008, 0x02D0, 0x0001, 0x0013, 0x0514,
  0x0A21, 0x0000, 0x0000, 0x0000,
  0x0000, 0x0000, 0x0290, 0x0041, 0x0013, 0x0000]

def UsbGetHidDesc : Software Unit := submit [
  0x050C, 0x0008, 0x02D0, 0x0001, 0x0013, 0x0514,
  0x0681, 0x2100, 0x0000, 0x007B,
  0x0544, 0x0008, 0x0290, 0x0041, 0x0013, 0x0520,
  0x0000, 0x0000, 0x0210, 0x0041, 0x0013, 0x0000]

def UsbGetReportDesc : Software Unit := submit [
  0x050C, 0x0008, 0x02D0, 0x0001, 0x0013, 0x0514,
  0x0681, 0x2200, 0x0000, 0x007B,
  0x0580, 0x0008, 0x0290, 0x0041, 0x0013, 0x0520,
  0x0588, 0x0008, 0x0290, 0x0001, 0x0013, 0x052c,
  0x0590, 0x0008, 0x0290, 0x0041, 0x0013, 0x0538,
  0x0598, 0x0008, 0x0290, 0x0001, 0x0013, 0x0544,
  0x05a0, 0x0008, 0x0290, 0x0041, 0x0013, 0x0550,
  0x05a8, 0x0008, 0x0290, 0x0001, 0x0013, 0x055c,
  0x05b0, 0x0008, 0x0290, 0x0041, 0x0013, 0x0568,
  0x05b8, 0x0003, 0x0290, 0x0001, 0x0013, 0x0574,
  0x0000, 0x0000, 0x0210, 0x0041, 0x0013, 0x0000]

/-- The source has the two lines of the loop once more before it. -/
def UsbWaitTDListDone : Software (BitVec 16) :=
  Dialog.iterate (fun _ => do
    let usb_ctl_val ← UsbRead HPI_SIE1_MSG_ADR
    UsbWrite HPI_SIE1_MSG_ADR 0
    if usb_ctl_val = HUSB_TDListDone then pure (.inr usb_ctl_val) else pure (.inl ())) ()

/-- The body of the `if` of `UsbGetRetryCnt`. -/
def clearMessage (msg : BitVec 16) : Software Unit :=
  if msg = HUSB_TDListDone then do
    UsbWrite HPI_SIE1_MSG_ADR 0
    whileNoStatus HPI_STATUS_SIE1msg_FLAG (pure ())
  else pure ()

def UsbGetRetryCnt : Software (BitVec 16) := do
  let _ ← IO_read HPI_STATUS
  let msg ← UsbRead HPI_SIE1_MSG_ADR
  clearMessage msg
  UsbRead 0x0508

end SnakeMom.UsbKb
