import Lab8.Lib.Log
import Lab8.Lib.Framing
import Lab8.Ps2DataIn
import Lab8.Ps2CommandOut
/-!
# The PS/2 controller: module `PS2_Controller` (mouse_interface_IP.sv:91-325)

The instance of `Mouse_interface`, with `INITIALIZE_MOUSE` at 1: after a reset it asks the mouse to report
(command F4), again and again until a command was sent, and from then on the ports `the_command` and
`send_command` are in force. The two lines are open: whoever pulls low wins.

| here | there |
| --- | --- |
| `theCommandW`, `sendCommandW`, .. | the generate block (:155-167) |
| `nextTransceiver` | the state machine (:220-275) |
| `next` | the register banks (:165-167, :212-218, :281-308) and the two submodules |
| `ps2ClkPosedge`, `ps2ClkNegedge` | the edges of the sampled clock (:314-317) |
-/

namespace Lab8.Ps2Controller

open Clocked

inductive Transceiver
  | idle
  | dataIn
  | commandOut
  | endTransfer
  | endDelayed
deriving DecidableEq, Repr

structure Regs where
  transceiver : Transceiver
  idleCounter : BitVec 8
  ps2ClkReg : Bool
  lastPs2Clk : Bool
  ps2DataReg : Bool
  initDone : Bool
  dataIn : DataIn.Regs
  commandOut : CommandOut.Regs
deriving DecidableEq, Repr

structure In where
  reset : Bool
  theCommand : BitVec 8
  sendCommand : Bool
  /-- What the mouse does to the two lines; `false` pulls. -/
  clk : Bool
  dat : Bool
deriving DecidableEq, Repr

/-- A pulled-up line with the controller at one end and the mouse at the other. -/
def line (host : Option Bool) (mouse : Bool) : Bool := host.getD true && mouse

namespace Regs

variable (r : Regs)

def ps2ClkPosedge : Bool := r.ps2ClkReg && !r.lastPs2Clk
def ps2ClkNegedge : Bool := !r.ps2ClkReg && r.lastPs2Clk
def startReceivingData : Bool := r.transceiver = .dataIn
def waitForIncomingData : Bool := r.transceiver = .endTransfer

def theCommandW (i : In) : BitVec 8 := if r.initDone then i.theCommand else 0xf4
def sendCommandW (i : In) : Bool :=
  if r.initDone then i.sendCommand else !r.commandOut.commandWasSent && !r.commandOut.errorCommunicationTimedOut
def commandWasSent : Bool := if r.initDone then r.commandOut.commandWasSent else false
def errorCommunicationTimedOut : Bool := if r.initDone then r.commandOut.errorCommunicationTimedOut else true

/-- The lines as they are sampled. -/
def ps2Clk (i : In) : Bool := line (CommandOut.clkDrive r.commandOut) i.clk
def ps2Dat (i : In) : Bool := line (CommandOut.datDrive r.commandOut) i.dat

def nextTransceiver (i : In) : Transceiver :=
  match r.transceiver with
  | .idle =>
    if r.idleCounter = 0xff ∧ i.sendCommand = true then .commandOut
    else if r.ps2DataReg = false ∧ r.ps2ClkPosedge = true then .dataIn
    else .idle
  | .dataIn => if r.dataIn.receivedDataEn then .idle else .dataIn
  | .commandOut =>
    if r.commandWasSent = true ∨ r.errorCommunicationTimedOut = true then .endTransfer else .commandOut
  | .endTransfer =>
    if i.sendCommand = false then .idle
    else if r.ps2DataReg = false ∧ r.ps2ClkPosedge = true then .endDelayed
    else .endTransfer
  | .endDelayed =>
    if r.dataIn.receivedDataEn then if i.sendCommand = false then .idle else .endTransfer
    else .endDelayed

end Regs

def init : Regs := ⟨.idle, 0, true, true, true, false, DataIn.init, CommandOut.init⟩

def next (r : Regs) (i : In) : Regs :=
  if i.reset then init
  else
    { transceiver := r.nextTransceiver i
      idleCounter :=
        if r.transceiver = .idle ∧ r.idleCounter ≠ 0xff then r.idleCounter + 1
        else if r.transceiver ≠ .idle then 0
        else r.idleCounter
      ps2ClkReg := r.ps2Clk i
      lastPs2Clk := r.ps2ClkReg
      ps2DataReg := r.ps2Dat i
      initDone := if r.commandOut.commandWasSent then true else r.initDone
      dataIn := DataIn.next r.dataIn
        ⟨i.reset, r.waitForIncomingData, r.startReceivingData, r.ps2ClkPosedge, r.ps2DataReg⟩
      commandOut := CommandOut.next r.commandOut
        ⟨i.reset, r.theCommandW i, r.sendCommandW i, r.ps2ClkPosedge, r.ps2ClkNegedge⟩ }

def machine : Machine In Regs := ⟨next⟩

/-- No reset, and nothing at the port `send_command`: how `Mouse_interface` runs it. -/
def Alone (i : In) : Prop := i.reset = false ∧ i.sendCommand = false

instance (i : In) : Decidable (Alone i) := inferInstanceAs (Decidable (_ ∧ _))

/-- A sample of the two lines as the mouse drives them. -/
def lines (clk dat : Bool) : In := ⟨false, 0, false, clk, dat⟩

theorem alone_lines (clk dat : Bool) : Alone (lines clk dat) := ⟨rfl, rfl⟩

/-- The bit on the data line at a rising edge of the clock. -/
def sampled (r : Regs) (_ : In) : List Bool := if r.ps2ClkPosedge then [r.ps2DataReg] else []

/-- A byte that is about to be handed over. -/
def received (r : Regs) (i : In) : List (BitVec 8) :=
  if (next r i).dataIn.receivedDataEn then [(next r i).dataIn.receivedData] else []

end Lab8.Ps2Controller
