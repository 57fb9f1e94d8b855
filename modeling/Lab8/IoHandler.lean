import Lab8.Lib.Clocked
import Lab8.HpiIoIntf
/-!
# The driver: `io_handler.c` and the registers it writes

| here | there |
| --- | --- |
| `ioInit`, `ioWrite`, `ioRead` | the accesses of the three functions, in program order (io_handler.c:14-45) |
| `Pio` | the parallel ports of the Nios system, one register each (nios_system.v:184-240) |
| `State`, `machine` | processor, ports and `hpi_io_intf`, wired as in lab8.sv:90-128 |

The processor carries out at most one access a clock, at clocks of its own choice. A store is in its port
after that clock; a load takes what its port samples at that clock (`readdata` of
nios_system_otg_hpi_data.v). `Reset` stays low.
-/

namespace Lab8.IoHandler

open Clocked

inductive Access
  | address (v : BitVec 8)
  | cs (v : Bool)
  | r (v : Bool)
  | w (v : Bool)
  | data (v : BitVec 16)
  /-- `temp = *otg_hpi_data` -/
  | load
deriving DecidableEq, Repr

def ioInit : List Access := [.cs true, .r true, .w true, .address 0, .data 0]

def ioWrite (address : BitVec 8) (data : BitVec 16) : List Access :=
  [.address address, .cs false, .w false, .data data, .w true, .cs true]

def ioRead (address : BitVec 8) : List Access :=
  [.address address, .cs false, .r false, .load, .r true, .cs true]

structure Pio where
  address : BitVec 2
  cs : Bool
  r : Bool
  w : Bool
  data : BitVec 16
deriving DecidableEq, Repr

/-- The address port is two bits wide. -/
def Pio.store (p : Pio) : Access → Pio
  | .address v => { p with address := v.setWidth 2 }
  | .cs v => { p with cs := v }
  | .r v => { p with r := v }
  | .w v => { p with w := v }
  | .data v => { p with data := v }
  | .load => p

inductive Call
  | write (address : BitVec 8) (data : BitVec 16)
  | read (address : BitVec 8)
deriving DecidableEq, Repr

/-- The function the processor is in, or came out of last. -/
inductive Proc
  | init
  | call (c : Call)
deriving DecidableEq, Repr

def Proc.accesses : Proc → List Access
  | .init => ioInit
  | .call (.write a d) => ioWrite a d
  | .call (.read a) => ioRead a

structure State where
  proc : Proc
  /-- How many accesses of it have been carried out. -/
  done : ℕ
  /-- The local variable of `IO_read`, which it returns. -/
  temp : BitVec 16
  pio : Pio
  hpi : HpiIoIntf.Regs

structure In where
  /-- The processor carries out its next access. -/
  access : Bool
  /-- The call it makes next, for when it is through with the present one. -/
  call : Call
  /-- What the chip presents for each of its registers. -/
  chip : BitVec 2 → BitVec 16
  /-- See `HpiIoIntf.resolve`. -/
  float : BitVec 16

/-- Where the next access is: in the present function or at the start of the next call. -/
def State.next (s : State) (c : Call) : Proc × ℕ :=
  if s.done < s.proc.accesses.length then (s.proc, s.done) else (.call c, 0)

def State.drive (s : State) : Option (BitVec 16) := HpiIoIntf.drive s.pio.w s.hpi

def State.bus (s : State) (i : In) : BitVec 16 :=
  HpiIoIntf.resolve s.drive (HpiIoIntf.chipDrive s.hpi i.chip) i.float

def State.hpiIn (s : State) (i : In) : HpiIoIntf.In where
  reset := false
  fromSwAddress := s.pio.address
  fromSwDataOut := s.pio.data
  fromSwR := s.pio.r
  fromSwW := s.pio.w
  fromSwCs := s.pio.cs
  otgData := s.bus i

/-- One access. -/
def State.perform (s : State) (p : Proc) (k : ℕ) : State :=
  match p.accesses[k]? with
  | none => s
  | some .load => { s with proc := p, done := k + 1, temp := s.hpi.fromSwDataIn }
  | some a => { s with proc := p, done := k + 1, pio := s.pio.store a }

/-- One edge of `Clk`. -/
def machine : Machine In State where
  next s i :=
    let s' := if i.access then s.perform (s.next i.call).1 (s.next i.call).2 else s
    { s' with hpi := HpiIoIntf.ff (s.hpiIn i) }

/-- The processor enters `IO_init`; the registers hold anything. -/
def Start (s : State) : Prop := s.proc = .init ∧ s.done = 0

def Reachable : State → Prop := machine.Reachable Start

/-- `IO_init` has been carried out. -/
def State.Initialised (s : State) : Prop := s.proc = .init → s.done = 5

instance (s : State) : Decidable s.Initialised := inferInstanceAs (Decidable (_ → _))

end Lab8.IoHandler
