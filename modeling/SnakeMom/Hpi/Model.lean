import SnakeMom.Lib.Schedule

/-!
# The path to the OTG chip

The software reaches the chip in three stages.

* `io_handler.c`: `IO_init`, `IO_write` and `IO_read` are lists of accesses to the PIO
  ports of the processor.
* The PIO ports: registers that keep the low bits of the word written to them.
* `hpi_io_intf.sv`: a bridge that takes the ports over at every edge of `Clk`, and
  drives the bus `OTG_DATA` while the port `otg_hpi_w` is low.

`hpi` is the three together with the latch of the chip.  Every access reaches its port
at an edge of its own; how many edges pass between two of them is left open.

The key that resets the bridge resets the processor too, so a program only runs while
the reset of the bridge is down.
-/

namespace SnakeMom

open Sync

/-! ## `hpi_io_intf.sv` -/

structure HpiReg where
  from_sw_data_out_buffer : BitVec 16
  OTG_ADDR : BitVec 2
  OTG_RD_N : Bool
  OTG_WR_N : Bool
  OTG_CS_N : Bool
  OTG_RST_N : Bool
  from_sw_data_in : BitVec 16
deriving DecidableEq, Repr

/-- What one edge of the bridge samples; `OTG_DATA` is the level of the bus. -/
structure HpiIn where
  Reset : Bool
  from_sw_address : BitVec 2
  from_sw_data_out : BitVec 16
  from_sw_r : Bool
  from_sw_w : Bool
  from_sw_cs : Bool
  from_sw_reset : Bool
  OTG_DATA : BitVec 16
deriving DecidableEq, Repr

/-- The values of the reset branch. -/
def HpiReg.reset : HpiReg := ⟨0, 0, true, true, false, false, 0⟩

/-- The registers after an edge of `Clk`; none of them keeps its value. -/
def hpi_io_intf (i : HpiIn) : HpiReg :=
  if i.Reset then .reset
  else
    { from_sw_data_out_buffer := i.from_sw_data_out
      OTG_ADDR := i.from_sw_address
      OTG_RD_N := i.from_sw_r
      OTG_WR_N := i.from_sw_w
      OTG_CS_N := i.from_sw_cs
      OTG_RST_N := true
      from_sw_data_in := i.OTG_DATA }

/-- What the bridge drives on `OTG_DATA`; `none` is high impedance. -/
def HpiReg.OTG_DATA (s : HpiReg) (from_sw_w : Bool) : Option (BitVec 16) :=
  if !from_sw_w then some s.from_sw_data_out_buffer else none

/-! ## The PIO ports -/

inductive Port where
  | otg_hpi_address
  | otg_hpi_data
  | otg_hpi_r
  | otg_hpi_cs
  | otg_hpi_w
  | otg_hpi_reset
deriving DecidableEq, Repr

/-- The output registers of the ports, and the input register of `otg_hpi_data`. -/
structure Pio where
  otg_hpi_address : BitVec 2
  otg_hpi_data : BitVec 16
  otg_hpi_r : Bool
  otg_hpi_cs : Bool
  otg_hpi_w : Bool
  otg_hpi_reset : Bool
  readdata : BitVec 16
deriving DecidableEq, Repr

/-- A word is written to a port, which keeps as many bits as it has. -/
def Pio.write (s : Pio) (port : Port) (writedata : BitVec 32) : Pio :=
  match port with
  | .otg_hpi_address => { s with otg_hpi_address := writedata.setWidth 2 }
  | .otg_hpi_data => { s with otg_hpi_data := writedata.setWidth 16 }
  | .otg_hpi_r => { s with otg_hpi_r := writedata.getLsbD 0 }
  | .otg_hpi_cs => { s with otg_hpi_cs := writedata.getLsbD 0 }
  | .otg_hpi_w => { s with otg_hpi_w := writedata.getLsbD 0 }
  | .otg_hpi_reset => { s with otg_hpi_reset := writedata.getLsbD 0 }

/-! ## `io_handler.c` -/

/-- An access of the software to a port.  The ports of one bit are stored to by bytes, which
go out on all four lanes; such a port takes bit 0, as it does of the word here. -/
inductive Access where
  | store (port : Port) (writedata : BitVec 32)
  | load (port : Port)
deriving DecidableEq, Repr

def IO_init : List Access :=
  [.store .otg_hpi_reset 1,
    .store .otg_hpi_cs 1,
    .store .otg_hpi_r 1,
    .store .otg_hpi_w 1,
    .store .otg_hpi_address 0,
    .store .otg_hpi_data 0,
    -- Reset OTG chip
    .store .otg_hpi_cs 0,
    .store .otg_hpi_reset 0,
    .store .otg_hpi_reset 1,
    .store .otg_hpi_cs 1]

def IO_write (Address : BitVec 8) (Data : BitVec 16) : List Access :=
  [.store .otg_hpi_address (Address.setWidth 32),
    .store .otg_hpi_cs 0,
    .store .otg_hpi_w 0,
    .store .otg_hpi_data (Data.setWidth 32),
    .store .otg_hpi_w 1,
    .store .otg_hpi_cs 1]

/-- The loaded word is the value that the call returns. -/
def IO_read (Address : BitVec 8) : List Access :=
  [.store .otg_hpi_address (Address.setWidth 32),
    .store .otg_hpi_r 0,
    .store .otg_hpi_cs 0,
    .load .otg_hpi_data,
    .store .otg_hpi_r 1,
    .store .otg_hpi_cs 1]

/-- A call of the software. -/
inductive IoCall where
  | write (Address : BitVec 8) (Data : BitVec 16)
  | read (Address : BitVec 8)
deriving DecidableEq, Repr

def IoCall.accesses : IoCall → List Access
  | .write Address Data => IO_write Address Data
  | .read Address => IO_read Address

/-- The accesses of a sequence of calls. -/
def accessesOf (calls : List IoCall) : List Access := calls.flatMap IoCall.accesses

/-! ## The whole path -/

/-- The ports, the bridge, what the chip has latched and what the software has
loaded. -/
structure Hpi where
  pio : Pio
  bridge : HpiReg
  latched : List (BitVec 2 × Option (BitVec 16))
  loaded : List (BitVec 16)
deriving DecidableEq, Repr

namespace Hpi

/-- What the bridge drives on the bus in this cycle. -/
def drive (s : Hpi) : Option (BitVec 16) := s.bridge.OTG_DATA s.pio.otg_hpi_w

/-- What the bridge samples, when the chip puts `chip` on a bus that is free. -/
def bridgeIn (s : Hpi) (chip : BitVec 16) : HpiIn where
  Reset := false
  from_sw_address := s.pio.otg_hpi_address
  from_sw_data_out := s.pio.otg_hpi_data
  from_sw_r := s.pio.otg_hpi_r
  from_sw_w := s.pio.otg_hpi_w
  from_sw_cs := s.pio.otg_hpi_cs
  from_sw_reset := s.pio.otg_hpi_reset
  OTG_DATA := s.drive.getD chip

/-- The ports after an access. -/
def pioNext (s : Hpi) (op : Option Access) : Pio :=
  match op with
  | some (.store port writedata) =>
    { s.pio with readdata := s.bridge.from_sw_data_in }.write port writedata
  | _ => { s.pio with readdata := s.bridge.from_sw_data_in }

/-- The chip latches address and data at a rising edge of `OTG_WR_N` while `OTG_CS_N`
is low. -/
def latchNext (s : Hpi) (bridge : HpiReg) : List (BitVec 2 × Option (BitVec 16)) :=
  if !s.bridge.OTG_WR_N && bridge.OTG_WR_N && !s.bridge.OTG_CS_N then
    s.latched ++ [(s.bridge.OTG_ADDR, s.drive)]
  else s.latched

/-- One edge of `Clk`. -/
def edge (s : Hpi) (slot : Slot Access (BitVec 16)) : Hpi where
  pio := s.pioNext slot.op
  bridge := hpi_io_intf (s.bridgeIn slot.env)
  latched := s.latchNext (hpi_io_intf (s.bridgeIn slot.env))
  loaded :=
    match slot.op with
    | some (.load .otg_hpi_data) => s.loaded ++ [s.pio.readdata]
    | _ => s.loaded

/-- The registers when the processor starts. -/
def powerUp : Hpi := ⟨⟨0, 0, false, false, false, false, 0⟩, .reset, [], []⟩

end Hpi

def hpi : Machine (Slot Access (BitVec 16)) Hpi := ⟨.powerUp, Hpi.edge⟩

end SnakeMom
