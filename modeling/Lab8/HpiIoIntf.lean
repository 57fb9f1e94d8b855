/-!
# The USB bus: module `hpi_io_intf` (hpi_io_intf.sv)

Everything the software writes crosses one register on its way to the CY7C67200, and so does what comes back
(:23-42), with one exception: `OTG_DATA` is released by the write strobe as the software drives it, before
the register (:19). Strobes are active low: `false` selects.
-/

namespace Lab8.HpiIoIntf

structure Regs where
  fromSwDataOutBuffer : BitVec 16
  otgAddr : BitVec 2
  otgRdN : Bool
  otgWrN : Bool
  otgCsN : Bool
  fromSwDataIn : BitVec 16
deriving DecidableEq, Repr

structure In where
  reset : Bool
  fromSwAddress : BitVec 2
  fromSwDataOut : BitVec 16
  fromSwR : Bool
  fromSwW : Bool
  fromSwCs : Bool
  /-- What is on the bus. -/
  otgData : BitVec 16

def init : Regs := ⟨0, 0, true, true, true, 0⟩

/-- The `always_ff` (:23-42): no register keeps its value. -/
def ff (i : In) : Regs :=
  if i.reset then init
  else ⟨i.fromSwDataOut, i.fromSwAddress, i.fromSwR, i.fromSwW, i.fromSwCs, i.otgData⟩

/-- What the module puts on `OTG_DATA` (:19); `none` is high impedance. -/
def drive (fromSwW : Bool) (r : Regs) : Option (BitVec 16) :=
  if fromSwW then none else some r.fromSwDataOutBuffer

/-- The other end of the bus: the chip puts the selected register on it while it is selected and read. -/
def chipDrive (r : Regs) (chip : BitVec 2 → BitVec 16) : Option (BitVec 16) :=
  if r.otgCsN || r.otgRdN then none else some (chip r.otgAddr)

/-- The value on a bus with two drivers; `z` is whatever is sampled when none of them drives, or both. -/
def resolve (own chip : Option (BitVec 16)) (z : BitVec 16) : BitVec 16 :=
  match own, chip with
  | some v, none => v
  | none, some v => v
  | _, _ => z

end Lab8.HpiIoIntf
