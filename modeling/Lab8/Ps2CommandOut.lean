import Mathlib.Tactic.Ring
/-!
# The PS/2 transmitter: module `Altera_UP_PS2_Command_Out` (mouse_interface_IP.sv:337-598)

A request to send holds the clock low for 101 µs, the last part of it with the data line low as well, and
lets the clock go; then the mouse clocks the byte out, parity after it, and acknowledges.

| here | there |
| --- | --- |
| `clockCyclesFor101us` .. | the parameters (:360-374), at 50 MHz |
| `nextTransmitter` | the state machine (:420-495) |
| `next` | the eight register banks (:412-418, :501-579) |
| `clkDrive`, `datDrive` | the two tri-state lines (:585-594), `none` where the source has `z` |
-/

namespace Lab8.CommandOut

inductive State
  | idle
  | initiateCommunication
  | waitForClock
  | transmitData
  | transmitStopBit
  | receiveAckBit
  | commandWasSent
  | transmissionError
deriving DecidableEq, Repr

structure Regs where
  transmitter : State
  curBit : BitVec 4
  ps2Command : BitVec 9
  commandInitiateCounter : BitVec 13
  waitingCounter : BitVec 20
  transferCounter : BitVec 17
  commandWasSent : Bool
  errorCommunicationTimedOut : Bool
deriving DecidableEq, Repr

structure In where
  reset : Bool
  theCommand : BitVec 8
  sendCommand : Bool
  ps2ClkPosedge : Bool
  ps2ClkNegedge : Bool
deriving DecidableEq, Repr

abbrev clockCyclesFor101us : ℕ := 5050
abbrev clockCyclesFor15ms : ℕ := 750000
abbrev clockCyclesFor2ms : ℕ := 100000

def init : Regs := ⟨.idle, 0, 0, 0, 0, 0, false, false⟩

def nextTransmitter (r : Regs) (i : In) : State :=
  match r.transmitter with
  | .idle => if i.sendCommand then .initiateCommunication else .idle
  | .initiateCommunication =>
    if r.commandInitiateCounter.toNat = clockCyclesFor101us then .waitForClock else .initiateCommunication
  | .waitForClock =>
    if i.ps2ClkNegedge then .transmitData
    else if r.waitingCounter.toNat = clockCyclesFor15ms then .transmissionError
    else .waitForClock
  | .transmitData =>
    if r.curBit = 8 ∧ i.ps2ClkNegedge = true then .transmitStopBit
    else if r.transferCounter.toNat = clockCyclesFor2ms then .transmissionError
    else .transmitData
  | .transmitStopBit =>
    if i.ps2ClkNegedge then .receiveAckBit
    else if r.transferCounter.toNat = clockCyclesFor2ms then .transmissionError
    else .transmitStopBit
  | .receiveAckBit =>
    if i.ps2ClkPosedge then .commandWasSent
    else if r.transferCounter.toNat = clockCyclesFor2ms then .transmissionError
    else .receiveAckBit
  | .commandWasSent => if i.sendCommand then .commandWasSent else .idle
  | .transmissionError => if i.sendCommand then .transmissionError else .idle

/-- The mouse is clocking the byte. -/
def State.transferring : State → Bool
  | .transmitData | .transmitStopBit | .receiveAckBit => true
  | _ => false

/-- `^the_command`. -/
def reductionXor (b : BitVec 8) : Bool := ((List.range 8).map b.getLsbD).foldl xor false

def next (r : Regs) (i : In) : Regs :=
  if i.reset then init
  else
    { transmitter := nextTransmitter r i
      ps2Command :=
        if r.transmitter = .idle then BitVec.cons (reductionXor i.theCommand ^^ true) i.theCommand else r.ps2Command
      commandInitiateCounter :=
        if r.transmitter = .initiateCommunication ∧ r.commandInitiateCounter.toNat ≠ clockCyclesFor101us then
          r.commandInitiateCounter + 1
        else if r.transmitter ≠ .initiateCommunication then 0
        else r.commandInitiateCounter
      waitingCounter :=
        if r.transmitter = .waitForClock ∧ r.waitingCounter.toNat ≠ clockCyclesFor15ms then r.waitingCounter + 1
        else if r.transmitter ≠ .waitForClock then 0
        else r.waitingCounter
      transferCounter :=
        if r.transmitter.transferring then
          if r.transferCounter.toNat ≠ clockCyclesFor2ms then r.transferCounter + 1 else r.transferCounter
        else 0
      curBit :=
        if r.transmitter = .transmitData ∧ i.ps2ClkNegedge = true then r.curBit + 1
        else if r.transmitter ≠ .transmitData then 0
        else r.curBit
      commandWasSent :=
        if r.transmitter = .commandWasSent then true
        else if i.sendCommand = false then false
        else r.commandWasSent
      errorCommunicationTimedOut :=
        if r.transmitter = .transmissionError then true
        else if i.sendCommand = false then false
        else r.errorCommunicationTimedOut }

def clkDrive (r : Regs) : Option Bool := if r.transmitter = .initiateCommunication then some false else none

/-- `command_initiate_counter[NUMBER_OF_BITS_FOR_101US]` is the top bit of `[13:1]`. -/
def datDrive (r : Regs) : Option Bool :=
  if r.transmitter = .transmitData then some (r.ps2Command.getLsbD r.curBit.toNat)
  else if r.transmitter = .waitForClock then some false
  else if r.transmitter = .initiateCommunication ∧ r.commandInitiateCounter.getLsbD 12 = true then some false
  else none

/-! ## The counters -/

/-- No counter runs past the limit it is compared with. -/
structure InRange (r : Regs) : Prop where
  initiate : r.commandInitiateCounter.toNat ≤ clockCyclesFor101us
  waiting : r.waitingCounter.toNat ≤ clockCyclesFor15ms
  transfer : r.transferCounter.toNat ≤ clockCyclesFor2ms

/-- A counter below its limit does not wrap. -/
theorem counter_succ {w m : ℕ} {c : BitVec w} (hm : m < 2 ^ w) (hw : 1 < 2 ^ w) (h : c.toNat < m) :
    (c + 1).toNat = c.toNat + 1 := by
  have h1 : (1#w).toNat = 1 := Nat.mod_eq_of_lt hw
  have := BitVec.toNat_add_of_lt (x := c) (y := 1#w) (by omega)
  rwa [h1] at this

theorem counter_le {w m : ℕ} {c : BitVec w} (hm : m < 2 ^ w) (hw : 1 < 2 ^ w) (h : c.toNat ≤ m) (p q : Prop)
    [Decidable p] [Decidable q] :
    (if p ∧ c.toNat ≠ m then c + 1 else if q then 0 else c).toNat ≤ m := by
  split
  · rename_i hp
    have hlt : c.toNat < m := Nat.lt_of_le_of_ne h hp.2
    rw [counter_succ hm hw hlt]
    exact hlt
  · split
    · simp
    · exact h

theorem inRange_init : InRange init := ⟨by decide, by decide, by decide⟩

theorem inRange_next {r : Regs} (h : InRange r) (i : In) : InRange (next r i) := by
  by_cases hi : i.reset = true
  · simpa [next, hi] using inRange_init
  have hi : i.reset = false := by simpa using hi
  constructor
  · simpa only [next, hi, Bool.false_eq_true, if_false] using counter_le (by decide) (by decide) h.initiate _ _
  · simpa only [next, hi, Bool.false_eq_true, if_false] using counter_le (by decide) (by decide) h.waiting _ _
  · simp only [next, hi, Bool.false_eq_true, if_false]
    split
    · split
      · rename_i hne
        have hlt := Nat.lt_of_le_of_ne h.transfer hne
        rw [counter_succ (by decide) (by decide) hlt]
        exact hlt
      · exact h.transfer
    · simp

end Lab8.CommandOut
