import Lab8.Ps2Wire
/-!
# The opening conversation on the PS/2 lines

After a reset the controller requests to send F4. If the mouse clocks it out within the two time-outs and
acknowledges, the controller is done for good and leaves the lines alone. Its own receiver listens to the whole
conversation: the request itself is a rising clock with the data low, a start bit, so the ten bits the mouse
clocks out of the transmitter come back as a byte F4, and the acknowledge is the start bit of a second one.

| stage | `Phase` |
| --- | --- |
| the clock is let go, data low | `Waiting` |
| bit `k` is on the data line | `Bit k` |
| the stop bit, the acknowledge | `Stop`, `Ack` |
| sent | `Silent` |
-/

namespace Lab8.Ps2Controller

open Clocked CommandOut

/-- F4 below its parity bit. -/
def request : BitVec 9 := BitVec.cons (reductionXor 0xf4 ^^ true) 0xf4

/-- A command is on its way and neither sent nor lost. -/
structure Asking (s : Regs) : Prop where
  initDone : s.initDone = false
  sent : s.commandOut.commandWasSent = false
  timedOut : s.commandOut.errorCommunicationTimedOut = false
  command : s.commandOut.ps2Command = request

def Waiting (n : ℕ) (s : Regs) : Prop :=
  Asking s ∧ s.commandOut.transmitter = .waitForClock ∧ s.commandOut.waitingCounter.toNat + n ≤ clockCyclesFor15ms ∧
    s.commandOut.transferCounter = 0 ∧ s.commandOut.curBit = 0

def Transferring (st : CommandOut.State) (n : ℕ) (s : Regs) : Prop :=
  Asking s ∧ s.commandOut.transmitter = st ∧ s.commandOut.transferCounter.toNat + n ≤ clockCyclesFor2ms

def Bit (k n : ℕ) (s : Regs) : Prop := Transferring .transmitData n s ∧ s.commandOut.curBit.toNat = k

abbrev Stop := Transferring .transmitStopBit
abbrev Ack := Transferring .receiveAckBit

/-- The command was sent. -/
def Silent (_ : ℕ) (s : Regs) : Prop :=
  (s.commandOut.transmitter = .commandWasSent ∧ s.commandOut.errorCommunicationTimedOut = false ∧ s.initDone = false) ∨
    (s.commandOut.transmitter = .idle ∧ s.initDone = true)

section
variable {s : Regs} {i : In} (hi : Alone i)
include hi

theorem next_commandOut : (next s i).commandOut = CommandOut.next s.commandOut
    ⟨false, s.theCommandW i, s.sendCommandW i, s.ps2ClkPosedge, s.ps2ClkNegedge⟩ := by
  simp [next, hi.1]

theorem next_initDone : (next s i).initDone = if s.commandOut.commandWasSent then true else s.initDone := by
  simp [next, hi.1]

theorem Asking.next (h : Asking s) (h0 : s.commandOut.transmitter ≠ .idle)
    (h6 : s.commandOut.transmitter ≠ .commandWasSent) (h7 : s.commandOut.transmitter ≠ .transmissionError) :
    Asking (next s i) where
  initDone := by simp [next_initDone hi, h.sent, h.initDone]
  sent := by simp [next_commandOut hi, CommandOut.next, h6, h.sent]
  timedOut := by simp [next_commandOut hi, CommandOut.next, h7, h.timedOut]
  command := by simp [next_commandOut hi, CommandOut.next, h0, h.command]

/-! ## The stages -/

omit hi in
theorem waiting_mono {m n : ℕ} (h : Waiting n s) (hm : m ≤ n) : Waiting m s :=
  ⟨h.1, h.2.1, Nat.le_trans (Nat.add_le_add_left hm _) h.2.2.1, h.2.2.2⟩

theorem waiting_quiet {n : ℕ} (h : Waiting (n + 1) s) (hn : s.ps2ClkNegedge = false) : Waiting n (next s i) := by
  obtain ⟨ha, ht, hw, -, -⟩ := h
  have hlt : s.commandOut.waitingCounter.toNat < clockCyclesFor15ms := by omega
  refine ⟨ha.next hi (by simp [ht]) (by simp [ht]) (by simp [ht]), ?_, ?_, ?_, ?_⟩
  · simp [next_commandOut hi, CommandOut.next, nextTransmitter, ht, hn, Nat.ne_of_lt hlt]
  · have : (next s i).commandOut.waitingCounter = s.commandOut.waitingCounter + 1 := by
      simp [next_commandOut hi, CommandOut.next, ht, Nat.ne_of_lt hlt]
    rw [this, BitVec.toNat_add_of_lt (Nat.lt_of_le_of_lt (Nat.succ_le_of_lt hlt) (by decide))]
    exact Nat.le_trans (Nat.le_of_eq (Nat.add_right_comm _ 1 n)) hw
  · simp [next_commandOut hi, CommandOut.next, ht, State.transferring]
  · simp [next_commandOut hi, CommandOut.next, ht]

/-- The first falling edge puts bit 0 on the line. -/
theorem waiting_negedge {m n : ℕ} (h : Waiting m s) (hn : s.ps2ClkNegedge = true) (hm : n ≤ clockCyclesFor2ms) :
    Bit 0 n (next s i) := by
  obtain ⟨ha, ht, -, h0, hc⟩ := h
  refine ⟨⟨ha.next hi (by simp [ht]) (by simp [ht]) (by simp [ht]), ?_, ?_⟩, ?_⟩
  · simp [next_commandOut hi, CommandOut.next, nextTransmitter, ht, hn]
  · simpa [next_commandOut hi, CommandOut.next, ht, State.transferring] using hm
  · simp [next_commandOut hi, CommandOut.next, ht]

theorem transferCounter_next {st : CommandOut.State} {n : ℕ} (h : Transferring st (n + 1) s) (hst : st.transferring = true) :
    (next s i).commandOut.transferCounter.toNat + n ≤ clockCyclesFor2ms := by
  obtain ⟨-, ht, hc⟩ := h
  have hlt : s.commandOut.transferCounter.toNat < clockCyclesFor2ms := by omega
  have : (next s i).commandOut.transferCounter = s.commandOut.transferCounter + 1 := by
    simp [next_commandOut hi, CommandOut.next, ht, hst, Nat.ne_of_lt hlt]
  rw [this, BitVec.toNat_add_of_lt (Nat.lt_of_le_of_lt (Nat.succ_le_of_lt hlt) (by decide))]
  exact Nat.le_trans (Nat.le_of_eq (Nat.add_right_comm _ 1 n)) hc

theorem asking_transferring {st : CommandOut.State} {n : ℕ} (h : Transferring st n s) (hst : st.transferring = true) :
    Asking (next s i) :=
  h.1.next hi (by rintro h0; simp [← h.2.1, h0, State.transferring] at hst)
    (by rintro h0; simp [← h.2.1, h0, State.transferring] at hst)
    (by rintro h0; simp [← h.2.1, h0, State.transferring] at hst)

/-- Where the time-out is far, only the edges move the state machine. -/
theorem transferring_next {st st' : CommandOut.State} {n : ℕ} (h : Transferring st (n + 1) s) (hst : st.transferring = true)
    (hn : (next s i).commandOut.transmitter = st') : Transferring st' n (next s i) :=
  ⟨asking_transferring hi h hst, hn, transferCounter_next hi h hst⟩

theorem bit_quiet {k n : ℕ} (h : Bit k (n + 1) s) (hn : s.ps2ClkNegedge = false) : Bit k n (next s i) := by
  obtain ⟨h, hk⟩ := h
  have ht := h.2.1
  have hlt : s.commandOut.transferCounter.toNat ≠ clockCyclesFor2ms := by have := h.2.2; omega
  refine ⟨transferring_next hi h rfl ?_, ?_⟩
  · simp [next_commandOut hi, CommandOut.next, nextTransmitter, ht, hn, hlt]
  · simpa [next_commandOut hi, CommandOut.next, ht, hn] using hk

theorem bit_negedge {k n : ℕ} (h : Bit k (n + 1) s) (hk8 : k < 8) (hn : s.ps2ClkNegedge = true) :
    Bit (k + 1) n (next s i) := by
  obtain ⟨h, hk⟩ := h
  have ht := h.2.1
  have hlt : s.commandOut.transferCounter.toNat ≠ clockCyclesFor2ms := by have := h.2.2; omega
  have h8 : s.commandOut.curBit ≠ 8 := by
    intro h8
    rw [h8] at hk
    simp at hk
    omega
  refine ⟨transferring_next hi h rfl ?_, ?_⟩
  · simp only [next_commandOut hi, CommandOut.next, nextTransmitter, ht, h8, hlt, false_and, if_false, Bool.false_eq_true]
  · have : (next s i).commandOut.curBit = s.commandOut.curBit + 1 := by
      simp [next_commandOut hi, CommandOut.next, ht, hn]
    rw [this, BitVec.toNat_add, hk, Nat.mod_eq_of_lt (by simp; omega)]
    rfl

theorem bit_stop {n : ℕ} (h : Bit 8 (n + 1) s) (hn : s.ps2ClkNegedge = true) : Stop n (next s i) := by
  obtain ⟨h, hk⟩ := h
  have h8 : s.commandOut.curBit = 8 := BitVec.eq_of_toNat_eq hk
  exact transferring_next hi h rfl (by simp [next_commandOut hi, CommandOut.next, nextTransmitter, h.2.1, hn, h8])

theorem stop_quiet {n : ℕ} (h : Stop (n + 1) s) (hn : s.ps2ClkNegedge = false) : Stop n (next s i) := by
  have hlt : s.commandOut.transferCounter.toNat ≠ clockCyclesFor2ms := by have := h.2.2; omega
  exact transferring_next hi h rfl (by simp [next_commandOut hi, CommandOut.next, nextTransmitter, h.2.1, hn, hlt])

theorem stop_negedge {n : ℕ} (h : Stop (n + 1) s) (hn : s.ps2ClkNegedge = true) : Ack n (next s i) :=
  transferring_next hi h rfl (by simp [next_commandOut hi, CommandOut.next, nextTransmitter, h.2.1, hn])

theorem ack_quiet {n : ℕ} (h : Ack (n + 1) s) (hp : s.ps2ClkPosedge = false) : Ack n (next s i) := by
  have hlt : s.commandOut.transferCounter.toNat ≠ clockCyclesFor2ms := by have := h.2.2; omega
  exact transferring_next hi h rfl (by simp [next_commandOut hi, CommandOut.next, nextTransmitter, h.2.1, hp, hlt])

theorem ack_posedge {m n : ℕ} (h : Ack m s) (hp : s.ps2ClkPosedge = true) : Silent n (next s i) := by
  have ha := asking_transferring hi h rfl
  exact .inl ⟨by simp [next_commandOut hi, CommandOut.next, nextTransmitter, h.2.1, hp], ha.timedOut, ha.initDone⟩

/-- Sent, the flag that says so, done: three clocks in which the lines are already free. -/
theorem silent_next {m n : ℕ} (h : Silent m s) : Silent n (next s i) := by
  obtain ⟨ht, he, hd⟩ | ⟨ht, hd⟩ := h
  · cases hs : s.commandOut.commandWasSent
    · refine .inl ⟨?_, ?_, ?_⟩
      · simp [next_commandOut hi, CommandOut.next, nextTransmitter, ht, Regs.sendCommandW, hd, hs, he]
      · simp [next_commandOut hi, CommandOut.next, ht, he]
      · simp [next_initDone hi, hs, hd]
    · refine .inr ⟨?_, by simp [next_initDone hi, hs]⟩
      simp [next_commandOut hi, CommandOut.next, nextTransmitter, ht, Regs.sendCommandW, hd, hs]
  · refine .inr ⟨?_, by simp [next_initDone hi, hd]⟩
    simp [next_commandOut hi, CommandOut.next, nextTransmitter, ht, Regs.sendCommandW, hd, hi.2]

end

theorem negedge_of_posedge {s : Regs} (hp : s.ps2ClkPosedge = true) : s.ps2ClkNegedge = false := by
  simp [Regs.ps2ClkNegedge, clkReg_of_posedge hp]

theorem free_of_ne {s : Regs} (h : s.commandOut.transmitter ≠ .initiateCommunication) : Free s := by
  simp [Free, clkDrive, h]

theorem Silent.free {n : ℕ} {s : Regs} (h : Silent n s) : Free s := by
  obtain ⟨ht, -⟩ | ⟨ht, -⟩ := h <;> exact free_of_ne (by simp [ht])

theorem Silent.datDrive {n : ℕ} {s : Regs} (h : Silent n s) : CommandOut.datDrive s.commandOut = none := by
  obtain ⟨ht, -⟩ | ⟨ht, -⟩ := h <;> simp [CommandOut.datDrive, ht]

theorem phase_waiting : Phase Waiting :=
  ⟨fun h => free_of_ne (by simp [h.2.1]), fun h hi _ hn => waiting_quiet hi h hn⟩

theorem phase_bit (k : ℕ) : Phase (Bit k) :=
  ⟨fun h => free_of_ne (by simp [h.1.2.1]), fun h hi _ hn => bit_quiet hi h hn⟩

theorem phase_stop : Phase Stop := ⟨fun h => free_of_ne (by simp [h.2.1]), fun h hi _ hn => stop_quiet hi h hn⟩

theorem phase_ack : Phase Ack := ⟨fun h => free_of_ne (by simp [h.2.1]), fun h hi hp _ => ack_quiet hi h hp⟩

theorem phase_silent : Phase Silent := ⟨Silent.free, fun h hi _ _ => silent_next hi h⟩

theorem Bit.datDrive {k n : ℕ} {s : Regs} (h : Bit k n s) :
    CommandOut.datDrive s.commandOut = some (request.getLsbD k) := by
  simp [CommandOut.datDrive, h.1.2.1, h.1.1.command, h.2]

theorem transferring_datDrive {st : CommandOut.State} {n : ℕ} {s : Regs} (h : Transferring st n s)
    (hst : st = .transmitStopBit ∨ st = .receiveAckBit) : CommandOut.datDrive s.commandOut = none := by
  rcases hst with rfl | rfl <;> simp [CommandOut.datDrive, h.2.1]

/-! ## One clock period of each stage -/

section
variable (c : Cell) {n : ℕ} {s : Regs} (hs : Steady true s)
include hs

theorem run_first (h : Waiting 1 s) (hn : n + c.wave.length ≤ clockCyclesFor2ms) :
    Bit 0 n (machine.run s c.wave) ∧ Steady true (machine.run s c.wave) ∧
      machine.log sampled s c.wave = [line (some (request.getLsbD 0)) c.bit] :=
  run_cell (A := fun n s => Waiting 1 s ∧ n ≤ clockCyclesFor2ms) (B := fun n s => Waiting 0 s ∧ n ≤ clockCyclesFor2ms)
    (fun h hi _ hn => ⟨waiting_quiet hi h.1 hn, Nat.le_of_succ_le h.2⟩) (fun h => phase_waiting.free h.1)
    (fun h => phase_waiting.free h.1) (fun h hi hn => waiting_negedge hi h.1 hn (Nat.le_of_succ_le h.2)) (phase_bit 0)
    (fun h hi hp => bit_quiet hi h (negedge_of_posedge hp)) (phase_bit 0) Bit.datDrive c
    ⟨h, hn⟩ hs

theorem run_bit {k : ℕ} (hk : k < 8) (h : Bit k (n + c.wave.length) s) :
    Bit (k + 1) n (machine.run s c.wave) ∧ Steady true (machine.run s c.wave) ∧
      machine.log sampled s c.wave = [line (some (request.getLsbD (k + 1))) c.bit] :=
  run_cell (fun h hi _ hn => bit_quiet hi h hn) (phase_bit k).free (phase_bit k).free (fun h hi hn => bit_negedge hi h hk hn)
    (phase_bit (k + 1)) (fun h hi hp => bit_quiet hi h (negedge_of_posedge hp))
    (phase_bit (k + 1)) Bit.datDrive c h hs

theorem run_stop (h : Bit 8 (n + c.wave.length) s) :
    Stop n (machine.run s c.wave) ∧ Steady true (machine.run s c.wave) ∧
      machine.log sampled s c.wave = [line none c.bit] :=
  run_cell (fun h hi _ hn => bit_quiet hi h hn) (phase_bit 8).free (phase_bit 8).free (fun h hi hn => bit_stop hi h hn)
    phase_stop (fun h hi hp => stop_quiet hi h (negedge_of_posedge hp)) phase_stop
    (fun h => transferring_datDrive h (.inl rfl)) c h hs

theorem run_ack (h : Stop (n + c.wave.length) s) :
    Silent n (machine.run s c.wave) ∧ Steady true (machine.run s c.wave) ∧
      machine.log sampled s c.wave = [line none c.bit] :=
  run_cell (fun h hi _ hn => stop_quiet hi h hn) phase_stop.free phase_stop.free (fun h hi hn => stop_negedge hi h hn)
    phase_ack (fun h hi hp => ack_posedge hi h hp) phase_silent (fun h => transferring_datDrive h (.inr rfl)) c h hs

/-- Once the command is sent, what is sampled is what the mouse sends. -/
theorem run_silent (h : Silent n s) :
    Silent n (machine.run s c.wave) ∧ Steady true (machine.run s c.wave) ∧ machine.log sampled s c.wave = [c.bit] := by
  have hq {m : ℕ} {s : Regs} {i : In} (h : Silent (m + 1) s) (hi : Alone i) : Silent m (next s i) := silent_next hi h
  exact run_cell (A := Silent) (B := Silent) (fun h hi _ _ => hq h hi) Silent.free Silent.free (fun h hi _ => hq h hi)
    phase_silent (fun h hi _ => hq h hi) phase_silent Silent.datDrive c h hs

end

/-! ## The whole conversation -/

/-- The clock is held by the controller, for `k` clocks so far. -/
structure Holding (k : ℕ) (s : Regs) : Prop where
  asking : Asking s
  transmitter : s.commandOut.transmitter = .initiateCommunication
  counter : s.commandOut.commandInitiateCounter.toNat = k
  waitingCounter : s.commandOut.waitingCounter = 0
  transferCounter : s.commandOut.transferCounter = 0
  curBit : s.commandOut.curBit = 0
  posedge : s.ps2ClkPosedge = false
  clkReg : 0 < k → s.ps2ClkReg = false

theorem holding_init {i : In} (hi : Alone i) : Holding 0 (next init i) where
  asking :=
    { initDone := by simp [next, hi.1, init, CommandOut.init]
      sent := by simp [next, hi.1, init, CommandOut.init, CommandOut.next, Regs.sendCommandW]
      timedOut := by simp [next, hi.1, init, CommandOut.init, CommandOut.next, Regs.sendCommandW]
      command := by simp [next, hi.1, init, CommandOut.init, CommandOut.next, Regs.theCommandW, request] }
  transmitter := by
    simp [next, hi.1, init, CommandOut.init, CommandOut.next, nextTransmitter, Regs.sendCommandW]
  counter := by simp [next, hi.1, init, CommandOut.init, CommandOut.next]
  waitingCounter := by simp [next, hi.1, init, CommandOut.init, CommandOut.next]
  transferCounter := by simp [next, hi.1, init, CommandOut.init, CommandOut.next, State.transferring]
  curBit := by simp [next, hi.1, init, CommandOut.init, CommandOut.next]
  posedge := posedge_of_last (next_lastPs2Clk hi)
  clkReg := fun h => absurd h (Nat.lt_irrefl 0)

namespace Holding

variable {k : ℕ} {s : Regs} {i : In} (h : Holding k s) (hi : Alone i)
include h

theorem sampled : sampled s i = [] := by simp [Ps2Controller.sampled, h.posedge]

include hi

theorem clkReg_next : (Ps2Controller.next s i).ps2ClkReg = false := by
  simp [Ps2Controller.next, hi.1, Regs.ps2Clk, clkDrive, h.transmitter, line]

theorem asking_next : Asking (Ps2Controller.next s i) :=
  h.asking.next hi (by simp [h.transmitter]) (by simp [h.transmitter]) (by simp [h.transmitter])

theorem next (hk : k < clockCyclesFor101us) : Holding (k + 1) (Ps2Controller.next s i) where
  asking := h.asking_next hi
  transmitter := by
    simp [next_commandOut hi, CommandOut.next, nextTransmitter, h.transmitter, h.counter, Nat.ne_of_lt hk]
  counter := by
    have : (Ps2Controller.next s i).commandOut.commandInitiateCounter = s.commandOut.commandInitiateCounter + 1 := by
      simp [next_commandOut hi, CommandOut.next, h.transmitter, h.counter, Nat.ne_of_lt hk]
    rw [this, BitVec.toNat_add_of_lt (by rw [h.counter]; exact Nat.lt_of_le_of_lt (Nat.succ_le_of_lt hk) (by decide)),
      h.counter]
    rfl
  waitingCounter := by simp [next_commandOut hi, CommandOut.next, h.transmitter]
  transferCounter := by simp [next_commandOut hi, CommandOut.next, h.transmitter, State.transferring]
  curBit := by simp [next_commandOut hi, CommandOut.next, h.transmitter]
  posedge := by simp [Regs.ps2ClkPosedge, h.clkReg_next hi]
  clkReg := fun _ => h.clkReg_next hi

/-- The last clock of the 5051. -/
theorem release (hk : k = clockCyclesFor101us) : Waiting clockCyclesFor15ms (Ps2Controller.next s i) ∧
    Steady false (Ps2Controller.next s i) := by
  refine ⟨⟨h.asking_next hi, ?_, ?_, ?_, ?_⟩, h.clkReg_next hi, (next_lastPs2Clk hi).trans (h.clkReg (by rw [hk]; decide))⟩
  · simp [next_commandOut hi, CommandOut.next, nextTransmitter, h.transmitter, h.counter, hk]
  · simp [next_commandOut hi, CommandOut.next, h.transmitter]
  · simp [next_commandOut hi, CommandOut.next, h.transmitter, State.transferring]
  · simp [next_commandOut hi, CommandOut.next, h.transmitter]

end Holding

theorem holding_run : ∀ (is : List In) {k : ℕ} {s : Regs}, Holding k s → (∀ i ∈ is, Alone i) →
    k + is.length ≤ clockCyclesFor101us →
      Holding (k + is.length) (machine.run s is) ∧ machine.log sampled s is = []
  | [], _, _, h, _, _ => ⟨h, rfl⟩
  | i :: is, k, s, h, hq, hl => by
    obtain ⟨hi, hq⟩ := List.forall_mem_cons.1 hq
    rw [List.length_cons] at hl ⊢
    obtain ⟨r, l⟩ := holding_run is (h.next hi (by omega)) hq (by omega)
    rw [Machine.run_cons, Machine.log_cons, h.sampled]
    exact ⟨by rwa [Nat.add_assoc, Nat.add_comm 1] at r, l⟩

/-- How a mouse answers the request: it lets the clock rise, clocks the byte, its parity and the stop bit out
of the controller and pulls the data line for the acknowledge. -/
structure Answer where
  /-- The controller takes the decision, holds the clock, and lets it go; the mouse may do what it likes. -/
  asked : Bool × Bool
  held : List (Bool × Bool)
  last : Bool × Bool
  rise : Bool
  risen : Bool
  wait : List Bool
  first : Cell
  rest : List Cell
  stop : Cell
  ack : Cell
  length_held : held.length = clockCyclesFor101us
  length_rest : rest.length = 8
  listens : first.bit = true ∧ (∀ c ∈ rest, c.bit = true) ∧ stop.bit = true
  acknowledges : ack.bit = false
  before15ms : wait.length + 2 < clockCyclesFor15ms
  within2ms : first.wave.length + ((rest.map fun c => c.wave.length).sum + (stop.wave.length + ack.wave.length)) ≤
    clockCyclesFor2ms

/-- Eight more bits. -/
theorem run_rest : ∀ (cs : List Cell) {k n : ℕ} {s : Regs}, k + cs.length ≤ 8 → (∀ c ∈ cs, c.bit = true) →
    Bit k (n + (cs.map fun c => c.wave.length).sum) s → Steady true s →
      Bit (k + cs.length) n (machine.run s (cs.flatMap Cell.wave)) ∧ Steady true (machine.run s (cs.flatMap Cell.wave)) ∧
      machine.log sampled s (cs.flatMap Cell.wave) = (List.range' (k + 1) cs.length).map request.getLsbD
  | [], _, _, _, _, _, h, hs => ⟨h, hs, rfl⟩
  | c :: cs, k, n, s, hk, hb, h, hs => by
    obtain ⟨hc, hb⟩ := List.forall_mem_cons.1 hb
    rw [List.length_cons] at hk
    rw [List.map_cons, List.sum_cons, Nat.add_comm c.wave.length, ← Nat.add_assoc] at h
    obtain ⟨h1, hs1, e1⟩ := run_bit c hs (by omega) h
    obtain ⟨h2, hs2, e2⟩ := run_rest cs (by omega) hb h1 hs1
    rw [List.flatMap_cons, Machine.run_append, Machine.log_append, e1, e2, hc]
    rw [Nat.add_assoc, Nat.add_comm 1] at h2
    exact ⟨h2, hs2, by simp [line, List.range'_succ]⟩

namespace Answer

variable (a : Answer)

def opening : List In :=
  lines a.asked.1 a.asked.2 :: (a.held.map (fun l => lines l.1 l.2) ++
    lines a.last.1 a.last.2 :: lines true a.rise :: lines true a.risen :: a.wait.map (lines true))

def transfer : List In := a.first.wave ++ (a.rest.flatMap Cell.wave ++ (a.stop.wave ++ a.ack.wave))

def wave : List In := a.opening ++ a.transfer

/-- The request ends with a rising clock while the data line is low. -/
theorem run_opening : Waiting 1 (machine.run init a.opening) ∧ Steady true (machine.run init a.opening) ∧
    machine.log sampled init a.opening = [false] := by
  have hl : (a.held.map fun l => lines l.1 l.2).length = clockCyclesFor101us := by rw [List.length_map, a.length_held]
  obtain ⟨h1, e1⟩ := holding_run (a.held.map fun l => lines l.1 l.2) (holding_init (alone_lines a.asked.1 a.asked.2))
    (List.forall_mem_map.2 fun l _ => alone_lines l.1 l.2) (Nat.le_of_eq (by rw [hl, Nat.zero_add]))
  rw [hl, Nat.zero_add] at h1
  have run1 (r : Regs) (i : In) (is : List In) : machine.run r (i :: is) = machine.run (next r i) is := rfl
  have log1 (r : Regs) (i : In) (is : List In) :
      machine.log sampled r (i :: is) = sampled r i ++ machine.log sampled (next r i) is := rfl
  have e0 : sampled init (lines a.asked.1 a.asked.2) = [] := rfl
  unfold opening
  rw [run1, log1, e0, Machine.run_append, Machine.log_append, e1, run1, log1, h1.sampled, run1, run1, log1, log1]
  obtain ⟨h2, hs2⟩ := h1.release (alone_lines a.last.1 a.last.2) rfl
  generalize next (machine.run _ _) (lines a.last.1 a.last.2) = s2 at h2 hs2
  -- the pulled-up clock rises, and the data line is still held
  have hf2 : Free s2 := phase_waiting.free h2
  have h3 := waiting_quiet (alone_lines true a.rise) h2 hs2.negedge
  obtain ⟨k3, l3⟩ := next_lines_clk hf2 true a.rise
  rw [hs2.1] at l3
  have d3 : (next s2 (lines true a.rise)).ps2DataReg = false := by
    simp [next, lines, Regs.ps2Dat, CommandOut.datDrive, h2.2.1, line]
  rw [hs2.sampled]
  generalize next s2 (lines true a.rise) = s3 at h3 k3 l3 d3
  have hp3 : s3.ps2ClkPosedge = true := by simp [Regs.ps2ClkPosedge, k3, l3]
  have h4 := waiting_quiet (alone_lines true a.risen) h3 (negedge_of_posedge hp3)
  have hs4 := steady_lines (phase_waiting.free h3) true a.risen k3
  have e3 : sampled s3 (lines true a.risen) = [false] := by simp [sampled, hp3, d3]
  rw [e3]
  generalize next s3 (lines true a.risen) = s4 at h4 hs4
  have hw : a.wait.length + 2 < 750000 := a.before15ms
  obtain ⟨h5, hs5, e5⟩ := phase_waiting.hold true a.wait (waiting_mono h4 (m := 1 + a.wait.length) (by omega)) hs4
  exact ⟨h5, hs5, by rw [e5]; rfl⟩

theorem mem_wave {i : In} (h : i ∈ a.wave) : ∃ clk dat, i = lines clk dat := by
  have hw (cs : List Cell) : ∀ i ∈ cs.flatMap Cell.wave, ∃ clk dat, i = lines clk dat := by
    intro i h
    obtain ⟨c, -, hc⟩ := List.mem_flatMap.1 h
    exact c.mem_wave hc
  revert i
  simp only [wave, opening, transfer, List.forall_mem_append, List.forall_mem_cons, List.forall_mem_map]
  exact ⟨⟨⟨_, _, rfl⟩, fun _ _ => ⟨_, _, rfl⟩, ⟨_, _, rfl⟩, ⟨_, _, rfl⟩, ⟨_, _, rfl⟩, fun _ _ => ⟨_, _, rfl⟩⟩,
    fun _ => a.first.mem_wave, hw _, fun _ => a.stop.mem_wave, fun _ => a.ack.mem_wave⟩

/-- The bits of the request are the start bit, F4 with its parity, and what the mouse puts after it. -/
theorem run_wave : Silent 0 (machine.run init a.wave) ∧ Steady true (machine.run init a.wave) ∧
    machine.log sampled init a.wave = false :: ((List.range 9).map request.getLsbD ++ [true, false]) := by
  obtain ⟨h1, hs1, e1⟩ := a.run_opening
  unfold wave
  rw [Machine.run_append, Machine.log_append, e1]
  generalize machine.run init a.opening = s1 at h1 hs1
  obtain ⟨hf, hr, hst⟩ := a.listens
  have ht := a.within2ms
  obtain ⟨h2, hs2, e2⟩ := run_first a.first hs1 (n := 0 + a.ack.wave.length + a.stop.wave.length +
    (a.rest.map fun c => c.wave.length).sum) h1 (by omega)
  unfold transfer
  rw [Machine.run_append, Machine.log_append, e2]
  generalize machine.run s1 a.first.wave = s2 at h2 hs2
  obtain ⟨h3, hs3, e3⟩ := run_rest a.rest (Nat.le_of_eq (by rw [a.length_rest])) hr h2 hs2
  rw [a.length_rest, Nat.zero_add] at h3
  rw [Machine.run_append, Machine.log_append, e3]
  generalize machine.run s2 (a.rest.flatMap Cell.wave) = s3 at h3 hs3
  obtain ⟨h4, hs4, e4⟩ := run_stop a.stop hs3 h3
  rw [Machine.run_append, Machine.log_append, e4]
  generalize machine.run s3 a.stop.wave = s4 at h4 hs4
  obtain ⟨h5, hs5, e5⟩ := run_ack a.ack hs4 h4
  rw [e5, hf, hst, a.acknowledges, a.length_rest]
  exact ⟨h5, hs5, by decide⟩

/-- A mouse in a hurry. -/
def least : Answer where
  asked := (true, true)
  held := List.replicate clockCyclesFor101us (true, true)
  last := (true, true)
  rise := true
  risen := true
  wait := []
  first := .least true
  rest := List.replicate 8 (.least true)
  stop := .least true
  ack := .least false
  length_held := List.length_replicate
  length_rest := rfl
  listens := ⟨rfl, fun _ h => (List.eq_of_mem_replicate h).symm ▸ rfl, rfl⟩
  acknowledges := rfl
  before15ms := by decide
  within2ms := by decide

end Answer

theorem run_silents : ∀ (cs : List Cell) {n : ℕ} {s : Regs}, Silent n s → Steady true s →
    machine.log sampled s (cs.flatMap Cell.wave) = cs.map Cell.bit
  | [], _, _, _, _ => rfl
  | c :: cs, n, s, h, hs => by
    obtain ⟨h1, hs1, e1⟩ := run_silent c hs h
    rw [List.flatMap_cons, Machine.log_append, e1, run_silents cs h1 hs1]
    rfl

/-- A byte on the line, as a mouse sends it. -/
def frame (b : BitVec 8) (parity stop : Bool) : List Bool := false :: (DataIn.bits b ++ [parity, stop])

/-- The acknowledge taken for a start bit, a byte comes in one bit late. -/
theorem byte_late (b : BitVec 8) : DataIn.byte (false :: (DataIn.bits b).take 7) = b <<< 1 := by
  refine BitVec.eq_of_getLsbD_eq fun i hi => ?_
  rw [DataIn.byte, DataIn.foldl_shiftIn_getLsbD _ _ hi (by simp), if_neg (by simp), List.length_cons, List.length_take,
    DataIn.length_bits, BitVec.getLsbD_shiftLeft]
  cases i with
  | zero => simp
  | succ i => simp [DataIn.bits, hi]

/-- What is sampled in a conversation, in frames: the request, the reply one bit late, then what follows it. -/
theorem decode_conversation (reply : BitVec 8) (parity : Bool) (bits : List Bool) :
    (Framing.decode 8 2 (false :: ((List.range 9).map request.getLsbD ++ [true, false]) ++
      (frame reply parity true ++ bits))).map DataIn.byte =
      0xf4#8 :: (reply <<< 1) :: (Framing.decode 8 2 bits).map DataIn.byte := by
  let echo : Framing.Frame 8 2 := ⟨0, DataIn.bits 0xf4, [false, true], rfl, rfl⟩
  let late : Framing.Frame 8 2 := ⟨0, false :: (DataIn.bits reply).take 7, [reply.getLsbD 7, parity], by simp, rfl⟩
  have he : false :: ((List.range 9).map request.getLsbD ++ [true, false]) ++ (frame reply parity true ++ bits) =
      [echo, late].flatMap Framing.Frame.bits ++ (List.replicate 1 true ++ bits) := by
    have h9 : (List.range 9).map request.getLsbD = DataIn.bits 0xf4 ++ [false] := by decide
    rw [h9]
    simp [echo, late, Framing.Frame.bits, frame, DataIn.bits, List.range_succ]
  rw [he, Framing.decode_frames (by decide), Framing.decode_gap]
  simp only [List.map_cons, List.map_nil, List.cons_append, List.nil_append]
  rw [DataIn.byte_bits, byte_late]
  rfl

end Lab8.Ps2Controller
