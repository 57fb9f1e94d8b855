import Lab8.Ps2Controller
/-!
# What the PS/2 controller receives

The transceiver state machine and the receiver behind it lag one or two clocks behind the line, but two rising
edges are two clocks apart, so no edge is lost: bit by bit the pair follows the start-stop receiver of
`Framing` for eight data bits and two trailing ones (`follows_next`), whatever the line does.
-/

namespace Lab8.Ps2Controller

open Clocked DataIn

abbrev framing : Machine Bool Framing.Rx := Framing.receiver 8 2

/-- The registers while the start-stop receiver is where it is. After a rising edge there is none at the next
clock, which is when the two state machines disagree. -/
inductive Follows (s : Regs) : Framing.Rx → Prop
  | idle (ht : s.transceiver = .idle) (hr : s.dataIn.receiver = .idle) : Follows s none
  | done (ht : s.transceiver = .dataIn) (hr : s.dataIn.receiver = .idle) (he : s.dataIn.receivedDataEn = true)
    (hl : s.lastPs2Clk = true) : Follows s none
  | started (ht : s.transceiver = .dataIn) (hr : s.dataIn.receiver = .idle)
    (he : s.dataIn.receivedDataEn = false) (hl : s.lastPs2Clk = true) : Follows s (some [])
  | data (bs : List Bool) (ht : s.transceiver = .dataIn) (hr : s.dataIn.receiver = .dataIn)
    (he : s.dataIn.receivedDataEn = false) (hc : s.dataIn.dataCount.toNat = bs.length) (hb : bs.length < 8)
    (hs : ∃ r₀, s.dataIn.dataShiftReg = bs.foldl shiftIn r₀) : Follows s (some bs)
  | parity (bs : List Bool) (ht : s.transceiver = .dataIn) (hr : s.dataIn.receiver = .parityIn)
    (he : s.dataIn.receivedDataEn = false) (hb : bs.length = 8) (hs : s.dataIn.dataShiftReg = byte bs) :
    Follows s (some bs)
  | stop (bs : List Bool) (b : Bool) (ht : s.transceiver = .dataIn) (hr : s.dataIn.receiver = .stopIn)
    (he : s.dataIn.receivedDataEn = false) (hb : bs.length = 8) (hs : s.dataIn.dataShiftReg = byte bs) :
    Follows s (some (bs ++ [b]))

section
variable {s : Regs} {i : In} (hi : Alone i)
include hi

theorem next_transceiver : (next s i).transceiver = s.nextTransceiver i := by
  simp [next, hi.1]

theorem next_lastPs2Clk : (next s i).lastPs2Clk = s.ps2ClkReg := by
  simp [next, hi.1]

theorem next_dataIn : (next s i).dataIn =
    DataIn.next s.dataIn ⟨false, s.waitForIncomingData, s.startReceivingData, s.ps2ClkPosedge, s.ps2DataReg⟩ := by
  simp [next, hi.1]

end

theorem posedge_of_last {s : Regs} (hl : s.lastPs2Clk = true) : s.ps2ClkPosedge = false := by
  simp [Regs.ps2ClkPosedge, hl]

theorem clkReg_of_posedge {s : Regs} (hp : s.ps2ClkPosedge = true) : s.ps2ClkReg = true := by
  simp only [Regs.ps2ClkPosedge, Bool.and_eq_true] at hp
  exact hp.1

/-- What an edge does to the abstract receiver, and what it hands over. -/
def Agrees (s : Regs) (t : Framing.Rx) (i : In) : Prop :=
  Follows (next s i) (framing.run t (sampled s i)) ∧
    received s i = (framing.log (Framing.emit 8 2) t (sampled s i)).map byte

section
variable {s : Regs} {i : In} (hi : Alone i)
include hi

theorem agrees_idle (ht : s.transceiver = .idle) (hr : s.dataIn.receiver = .idle) : Agrees s none i := by
  have hr' : (next s i).dataIn.receiver = .idle := by
    simp [next_dataIn hi, DataIn.next, DataIn.nextReceiver, hr, Regs.waitForIncomingData, Regs.startReceivingData, ht]
  have he' : (next s i).dataIn.receivedDataEn = false := by simp [next_dataIn hi, DataIn.next, hr]
  have ht' : (next s i).transceiver =
      if s.ps2DataReg = false ∧ s.ps2ClkPosedge = true then .dataIn else .idle := by
    simp [next_transceiver hi, Regs.nextTransceiver, ht, hi.2]
  by_cases hp : s.ps2ClkPosedge = true
  · have hl : (next s i).lastPs2Clk = true := (next_lastPs2Clk hi).trans (clkReg_of_posedge hp)
    cases hd : s.ps2DataReg
    · refine ⟨?_, by simp [received, he', sampled, hp, Framing.emit]⟩
      simpa [sampled, hp, hd, framing, Framing.receiver, Framing.step] using
        Follows.started (by simpa [hd, hp] using ht') hr' he' hl
    · refine ⟨?_, by simp [received, he', sampled, hp, Framing.emit]⟩
      simpa [sampled, hp, hd, framing, Framing.receiver, Framing.step] using
        Follows.idle (by simpa [hd] using ht') hr'
  · refine ⟨?_, by simp [received, he', sampled, hp]⟩
    simpa [sampled, hp] using Follows.idle (by simpa [hp] using ht') hr'

theorem agrees_done (ht : s.transceiver = .dataIn) (hr : s.dataIn.receiver = .idle)
    (he : s.dataIn.receivedDataEn = true) (hl : s.lastPs2Clk = true) : Agrees s none i := by
  have hp := posedge_of_last hl
  have hr' : (next s i).dataIn.receiver = .idle := by
    simp [next_dataIn hi, DataIn.next, DataIn.nextReceiver, hr, he]
  have he' : (next s i).dataIn.receivedDataEn = false := by simp [next_dataIn hi, DataIn.next, hr]
  have ht' : (next s i).transceiver = .idle := by simp [next_transceiver hi, Regs.nextTransceiver, ht, he]
  exact ⟨by simpa [sampled, hp] using Follows.idle ht' hr', by simp [received, he', sampled, hp]⟩

theorem agrees_started (ht : s.transceiver = .dataIn) (hr : s.dataIn.receiver = .idle)
    (he : s.dataIn.receivedDataEn = false) (hl : s.lastPs2Clk = true) : Agrees s (some []) i := by
  have hp := posedge_of_last hl
  have ht' : (next s i).transceiver = .dataIn := by simp [next_transceiver hi, Regs.nextTransceiver, ht, he]
  have hr' : (next s i).dataIn.receiver = .dataIn := by
    simp [next_dataIn hi, DataIn.next, DataIn.nextReceiver, hr, he, Regs.waitForIncomingData, Regs.startReceivingData, ht]
  have he' : (next s i).dataIn.receivedDataEn = false := by simp [next_dataIn hi, DataIn.next, hr]
  have hc' : (next s i).dataIn.dataCount.toNat = ([] : List Bool).length := by
    simp [next_dataIn hi, DataIn.next, hr]
  exact ⟨by simpa [sampled, hp] using Follows.data [] ht' hr' he' hc' (by decide) ⟨_, rfl⟩,
    by simp [received, he', sampled, hp]⟩

theorem agrees_data (bs : List Bool) (ht : s.transceiver = .dataIn) (hr : s.dataIn.receiver = .dataIn)
    (he : s.dataIn.receivedDataEn = false) (hc : s.dataIn.dataCount.toNat = bs.length) (hb : bs.length < 8)
    (hs : ∃ r₀, s.dataIn.dataShiftReg = bs.foldl shiftIn r₀) : Agrees s (some bs) i := by
  obtain ⟨r₀, hs⟩ := hs
  have ht' : (next s i).transceiver = .dataIn := by simp [next_transceiver hi, Regs.nextTransceiver, ht, he]
  have he' : (next s i).dataIn.receivedDataEn = false := by simp [next_dataIn hi, DataIn.next, hr]
  by_cases hp : s.ps2ClkPosedge = true
  · have hs' : (next s i).dataIn.dataShiftReg = (bs ++ [s.ps2DataReg]).foldl shiftIn r₀ := by
      simp [next_dataIn hi, DataIn.next, hr, hp, hs]
    have hstep : framing.run (some bs) (sampled s i) = some (bs ++ [s.ps2DataReg]) := by
      simp [sampled, hp, framing, Framing.receiver, Framing.step]
      omega
    have hemit : received s i = (framing.log (Framing.emit 8 2) (some bs) (sampled s i)).map byte := by
      simp [received, he', sampled, hp, Framing.emit]
      omega
    refine ⟨?_, hemit⟩
    rw [hstep]
    by_cases h7 : s.dataIn.dataCount = 7
    · -- the eighth bit: nothing of `r₀` is left
      have hl : (bs ++ [s.ps2DataReg]).length = 8 := by
        rw [List.length_append, ← hc, h7]
        rfl
      refine .parity _ ht' ?_ he' hl (hs'.trans (foldl_shiftIn hl r₀))
      simp [next_dataIn hi, DataIn.next, DataIn.nextReceiver, hr, hp, h7]
    · have hlt : bs.length < 7 := by
        have : s.dataIn.dataCount.toNat ≠ 7 := fun h => h7 (BitVec.eq_of_toNat_eq h)
        omega
      refine .data _ ht' ?_ he' ?_ (by simp; omega) ⟨r₀, hs'⟩
      · simp only [next_dataIn hi, DataIn.next, DataIn.nextReceiver, hr, h7, false_and, if_false, Bool.false_eq_true]
      · simp [next_dataIn hi, DataIn.next, hr, hp, hc]
        omega
  · have hr' : (next s i).dataIn.receiver = .dataIn := by
      simp [next_dataIn hi, DataIn.next, DataIn.nextReceiver, hr, hp]
    have hc' : (next s i).dataIn.dataCount.toNat = bs.length := by simp [next_dataIn hi, DataIn.next, hr, hp, hc]
    have hs' : (next s i).dataIn.dataShiftReg = bs.foldl shiftIn r₀ := by
      simp [next_dataIn hi, DataIn.next, hp, hs]
    exact ⟨by simpa [sampled, hp] using Follows.data bs ht' hr' he' hc' hb ⟨r₀, hs'⟩,
      by simp [received, he', sampled, hp]⟩

theorem agrees_parity (bs : List Bool) (ht : s.transceiver = .dataIn) (hr : s.dataIn.receiver = .parityIn)
    (he : s.dataIn.receivedDataEn = false) (hb : bs.length = 8) (hs : s.dataIn.dataShiftReg = byte bs) :
    Agrees s (some bs) i := by
  have ht' : (next s i).transceiver = .dataIn := by simp [next_transceiver hi, Regs.nextTransceiver, ht, he]
  have he' : (next s i).dataIn.receivedDataEn = false := by simp [next_dataIn hi, DataIn.next, hr]
  have hs' : (next s i).dataIn.dataShiftReg = byte bs := by simp [next_dataIn hi, DataIn.next, hr, hs]
  by_cases hp : s.ps2ClkPosedge = true
  · have hr' : (next s i).dataIn.receiver = .stopIn := by
      simp [next_dataIn hi, DataIn.next, DataIn.nextReceiver, hr, hp]
    refine ⟨?_, by simp [received, he', sampled, hp, Framing.emit, hb]⟩
    simpa [sampled, hp, framing, Framing.receiver, Framing.step, hb] using
      Follows.stop bs s.ps2DataReg ht' hr' he' hb hs'
  · have hr' : (next s i).dataIn.receiver = .parityIn := by
      simp [next_dataIn hi, DataIn.next, DataIn.nextReceiver, hr, hp]
    exact ⟨by simpa [sampled, hp] using Follows.parity bs ht' hr' he' hb hs', by simp [received, he', sampled, hp]⟩

/-- The stop bit is the tenth after the start bit, whatever it is, and the byte goes out with it. -/
theorem agrees_stop (bs : List Bool) (b : Bool) (ht : s.transceiver = .dataIn) (hr : s.dataIn.receiver = .stopIn)
    (he : s.dataIn.receivedDataEn = false) (hb : bs.length = 8) (hs : s.dataIn.dataShiftReg = byte bs) :
    Agrees s (some (bs ++ [b])) i := by
  have ht' : (next s i).transceiver = .dataIn := by simp [next_transceiver hi, Regs.nextTransceiver, ht, he]
  by_cases hp : s.ps2ClkPosedge = true
  · have hr' : (next s i).dataIn.receiver = .idle := by
      simp [next_dataIn hi, DataIn.next, DataIn.nextReceiver, hr, hp]
    have he' : (next s i).dataIn.receivedDataEn = true := by simp [next_dataIn hi, DataIn.next, hr, hp]
    have hd' : (next s i).dataIn.receivedData = byte bs := by simp [next_dataIn hi, DataIn.next, hr, hs]
    have hl : (next s i).lastPs2Clk = true := (next_lastPs2Clk hi).trans (clkReg_of_posedge hp)
    refine ⟨?_, by simp [received, he', hd', sampled, hp, Framing.emit, hb]⟩
    simpa [sampled, hp, framing, Framing.receiver, Framing.step, hb] using Follows.done ht' hr' he' hl
  · have hr' : (next s i).dataIn.receiver = .stopIn := by
      simp [next_dataIn hi, DataIn.next, DataIn.nextReceiver, hr, hp]
    have he' : (next s i).dataIn.receivedDataEn = false := by simp [next_dataIn hi, DataIn.next, hp]
    have hs' : (next s i).dataIn.dataShiftReg = byte bs := by simp [next_dataIn hi, DataIn.next, hr, hs]
    exact ⟨by simpa [sampled, hp] using Follows.stop bs b ht' hr' he' hb hs', by simp [received, he', sampled, hp]⟩

theorem follows_next {t : Framing.Rx} (h : Follows s t) : Agrees s t i := by
  cases h with
  | idle ht hr => exact agrees_idle hi ht hr
  | done ht hr he hl => exact agrees_done hi ht hr he hl
  | started ht hr he hl => exact agrees_started hi ht hr he hl
  | data bs ht hr he hc hb hs => exact agrees_data hi bs ht hr he hc hb hs
  | parity bs ht hr he hb hs => exact agrees_parity hi bs ht hr he hb hs
  | stop bs b ht hr he hb hs => exact agrees_stop hi bs b ht hr he hb hs

end

theorem follows_init : Follows init none := .idle rfl rfl

theorem log_received (is : List In) (h : ∀ i ∈ is, Alone i) :
    machine.log received init is = (Framing.decode 8 2 (machine.log sampled init is)).map byte := by
  have hlog := Machine.log_simulates (M := machine) (N := framing) (f := received) (e := sampled) (Q := Alone)
    (g := fun t b => (Framing.emit 8 2 t b).map byte) (fun _ _ _ hi hf => (follows_next hi hf).1)
    (fun _ _ _ hi hf => (follows_next hi hf).2.trans (framing.log_map _ _ _ _).symm) follows_init is h
  rw [hlog, Machine.log_map]
  rfl

/-- **The receiver.** Whatever the two lines do, the bytes handed over are those of the start-stop frames in the
bits sampled at the rising edges of the clock. -/
theorem received_frames (levels : List (Bool × Bool)) :
    machine.log received init (levels.map fun l => lines l.1 l.2) =
      (Framing.decode 8 2 (machine.log sampled init (levels.map fun l => lines l.1 l.2))).map byte :=
  log_received _ (List.forall_mem_map.2 fun l _ => alone_lines l.1 l.2)

end Lab8.Ps2Controller
