import Mathlib.Data.Nat.Notation
/-!
# The PS/2 receiver: module `Altera_UP_PS2_Data_In` (mouse_interface_IP.sv:611-755)

| here | there |
| --- | --- |
| `nextReceiver` | the state machine (:657-709) |
| `shiftIn` | `{ps2_data, data_shift_reg[7:1]}` (:733) |
| `next` | the five register banks (:649-655, :716-753) |

`ps2_clk_negedge` is a port that nothing reads. The parity bit is clocked in and not looked at.
-/

namespace Lab8.DataIn

inductive State
  | idle
  | waitForData
  | dataIn
  | parityIn
  | stopIn
deriving DecidableEq, Repr

structure Regs where
  receiver : State
  dataCount : BitVec 4
  dataShiftReg : BitVec 8
  receivedData : BitVec 8
  receivedDataEn : Bool
deriving DecidableEq, Repr

structure In where
  reset : Bool
  waitForIncomingData : Bool
  startReceivingData : Bool
  ps2ClkPosedge : Bool
  ps2Data : Bool
deriving DecidableEq, Repr

def init : Regs := ⟨.idle, 0, 0, 0, false⟩

def nextReceiver (r : Regs) (i : In) : State :=
  match r.receiver with
  | .idle =>
    if i.waitForIncomingData = true ∧ r.receivedDataEn = false then .waitForData
    else if i.startReceivingData = true ∧ r.receivedDataEn = false then .dataIn
    else .idle
  | .waitForData =>
    if i.ps2Data = false ∧ i.ps2ClkPosedge = true then .dataIn
    else if i.waitForIncomingData = false then .idle
    else .waitForData
  | .dataIn => if r.dataCount = 7 ∧ i.ps2ClkPosedge = true then .parityIn else .dataIn
  | .parityIn => if i.ps2ClkPosedge then .stopIn else .parityIn
  | .stopIn => if i.ps2ClkPosedge then .idle else .stopIn

def shiftIn (r : BitVec 8) (b : Bool) : BitVec 8 := BitVec.cons b (r.extractLsb' 1 7)

def next (r : Regs) (i : In) : Regs :=
  if i.reset then init
  else
    { receiver := nextReceiver r i
      dataCount :=
        if r.receiver = .dataIn ∧ i.ps2ClkPosedge = true then r.dataCount + 1
        else if r.receiver ≠ .dataIn then 0
        else r.dataCount
      dataShiftReg :=
        if r.receiver = .dataIn ∧ i.ps2ClkPosedge = true then shiftIn r.dataShiftReg i.ps2Data
        else r.dataShiftReg
      receivedData := if r.receiver = .stopIn then r.dataShiftReg else r.receivedData
      receivedDataEn := r.receiver = .stopIn && i.ps2ClkPosedge }

/-! ## Bytes -/

/-- A byte in the order of the line, least significant bit first. -/
def bits (b : BitVec 8) : List Bool := (List.range 8).map b.getLsbD

/-- What is in the shift register once it has taken the bits of a byte. -/
def byte (bs : List Bool) : BitVec 8 := bs.foldl shiftIn 0

@[simp] theorem length_bits (b : BitVec 8) : (bits b).length = 8 := by simp [bits]

theorem shiftIn_getLsbD (r : BitVec 8) (b : Bool) {i : ℕ} (hi : i < 8) :
    (shiftIn r b).getLsbD i = if i = 7 then b else r.getLsbD (i + 1) := by
  unfold shiftIn
  rw [BitVec.getLsbD_cons]
  split
  · rfl
  · simp [show i < 7 by omega, Nat.add_comm 1 i]

/-- Bits come in at the top; what was there moves down. -/
theorem foldl_shiftIn_getLsbD : ∀ (bs : List Bool) (r : BitVec 8) {i : ℕ}, i < 8 → bs.length ≤ 8 →
    (bs.foldl shiftIn r).getLsbD i =
      if i + bs.length < 8 then r.getLsbD (i + bs.length) else bs.getD (i + bs.length - 8) false
  | [], r, i, hi, _ => by simp [hi]
  | b :: bs, r, i, hi, hl => by
    have hl : bs.length + 1 ≤ 8 := hl
    rw [List.foldl_cons, foldl_shiftIn_getLsbD bs _ hi (by omega), List.length_cons]
    by_cases h : i + bs.length < 8
    · rw [if_pos h, shiftIn_getLsbD r b h]
      by_cases h7 : i + bs.length = 7
      · rw [if_pos h7, if_neg (by omega), show i + (bs.length + 1) - 8 = 0 by omega, List.getD_cons_zero]
      · rw [if_neg h7, if_pos (by omega), Nat.add_assoc]
    · rw [if_neg h, if_neg (by omega), show i + (bs.length + 1) - 8 = i + bs.length - 8 + 1 by omega,
        List.getD_cons_succ]

/-- Eight bits leave nothing of what the register held. -/
theorem foldl_shiftIn {bs : List Bool} (h : bs.length = 8) (r : BitVec 8) : bs.foldl shiftIn r = byte bs := by
  refine BitVec.eq_of_getLsbD_eq fun i hi => ?_
  rw [byte, foldl_shiftIn_getLsbD bs r hi (by omega), foldl_shiftIn_getLsbD bs 0 hi (by omega), if_neg (by omega),
    if_neg (by omega)]

@[simp] theorem byte_bits (b : BitVec 8) : byte (bits b) = b := by
  refine BitVec.eq_of_getLsbD_eq fun i hi => ?_
  rw [byte, foldl_shiftIn_getLsbD (bits b) 0 hi (by simp), length_bits, if_neg (by omega), Nat.add_sub_cancel]
  simp [bits, hi]

end Lab8.DataIn
