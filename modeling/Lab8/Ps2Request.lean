import Lab8.Lib.Log
import Lab8.Ps2DataIn
import Lab8.Ps2CommandOut
/-!
# What the PS/2 transmitter puts on the lines

Two logs of a run, for any inputs at any clocks, resets and stray edges included: the levels on the data line
at the falling edges the transmitter acts on, and both lines clock by clock. In every state the logs end with a
definite piece of a transmission (`Heard`) and of a request to send (`Shown`).
-/

namespace Lab8.CommandOut

open Clocked

def machine : Machine In Regs := ⟨next⟩

/-- The byte that will be sent, at the clock it is latched for the last time. -/
def accepted (r : Regs) (i : In) : List (BitVec 8) :=
  if i.reset = false ∧ r.transmitter = .idle ∧ i.sendCommand = true then [i.theCommand] else []

/-- The falling edges of a transmission, up to the one after the stop bit. -/
def State.clocked : State → Bool
  | .waitForClock | .transmitData | .transmitStopBit => true
  | _ => false

/-- What the mouse finds on the data line at a falling edge that the transmitter acts on. A stray edge in another state
is not logged: one before the acknowledge, say, which the transmitter takes at a rising edge. -/
def heard (r : Regs) (i : In) : List (Option Bool) :=
  if i.reset = false ∧ i.ps2ClkNegedge = true ∧ r.transmitter.clocked = true then [datDrive r] else []

/-- The two lines. -/
def shown (r : Regs) (_ : In) : List (Option Bool × Option Bool) := [(clkDrive r, datDrive r)]

/-! ## The byte and its parity -/

def withParity (b : BitVec 8) : BitVec 9 := BitVec.cons (reductionXor b ^^ true) b

/-- Start bit, data bits from the lowest on, parity bit, stop bit; the stop bit is nobody's. -/
def transmission (b : BitVec 8) : List (Option Bool) :=
  some false :: ((List.range 9).map fun k => some ((withParity b).getLsbD k)) ++ [none]

@[simp] theorem length_transmission (b : BitVec 8) : (transmission b).length = 11 := by simp [transmission]

theorem foldl_xor (c : Bool) (l : List Bool) : l.foldl xor c = (c ^^ decide (l.count true % 2 = 1)) := by
  induction l generalizing c with
  | nil => simp
  | cons b l ih =>
    have h : decide ((l.count true + 1) % 2 = 1) = !decide (l.count true % 2 = 1) := by
      rw [← decide_not]
      exact decide_eq_decide.2 (by omega)
    rw [List.foldl_cons, ih]
    cases b
    · simp
    · simp [h]

theorem bits_withParity (b : BitVec 8) :
    (List.range 9).map (withParity b).getLsbD = DataIn.bits b ++ [reductionXor b ^^ true] := by
  have h (k : ℕ) (hk : k < 8) : (withParity b).getLsbD k = b.getLsbD k := by
    rw [withParity, BitVec.getLsbD_cons, if_neg (by omega)]
  have h8 : (withParity b).getLsbD 8 = (reductionXor b ^^ true) := by rw [withParity, BitVec.getLsbD_cons, if_pos rfl]
  rw [List.range_succ, List.map_append, DataIn.bits]
  rw [List.map_congr_left fun k hk => h k (List.mem_range.1 hk), List.map_singleton, h8]

/-- Parity is odd: of the nine bits an odd number is set. -/
theorem withParity_odd (b : BitVec 8) : ((List.range 9).map (withParity b).getLsbD).count true % 2 = 1 := by
  rw [bits_withParity, List.count_append, reductionXor, foldl_xor, Bool.false_xor]
  by_cases h : ((List.range 8).map b.getLsbD).count true % 2 = 1
  · simp [DataIn.bits, h]
  · simp [DataIn.bits, h]
    omega

/-! ## A run that sends -/

/-- A clock with F4 to be sent, and an edge or none. -/
def tick (posedge negedge : Bool) : In := ⟨false, 0xf4, true, posedge, negedge⟩

def held (n : ℕ) : Regs := ⟨.initiateCommunication, 0, withParity 0xf4, BitVec.ofNat 13 n, 0, 0, false, false⟩

theorem next_held {n : ℕ} (hn : n < clockCyclesFor101us) : next (held n) (tick false false) = held (n + 1) := by
  have h : n % 2 ^ 13 = n := Nat.mod_eq_of_lt (Nat.lt_trans hn (by decide))
  have hk : (BitVec.ofNat 13 n).toNat ≠ clockCyclesFor101us := by
    rw [BitVec.toNat_ofNat, h]
    exact Nat.ne_of_lt hn
  have hs : BitVec.ofNat 13 n + 1 = BitVec.ofNat 13 (n + 1) := (BitVec.ofNat_add n 1).symm
  simp only [next, tick, held, nextTransmitter, State.transferring, hk, hs, Bool.false_eq_true, if_false, if_true,
    ne_eq, not_true_eq_false, not_false_eq_true, and_self, reduceCtorEq, false_and]

theorem run_held : ∀ (k n : ℕ), n + k ≤ clockCyclesFor101us →
    machine.run (held n) (List.replicate k (tick false false)) = held (n + k)
  | 0, _, _ => rfl
  | k + 1, n, h => by
    rw [List.replicate_succ, Machine.run_cons]
    change machine.run (next (held n) (tick false false)) _ = _
    rw [next_held (by omega), run_held k (n + 1) (by omega), Nat.add_assoc, Nat.add_comm 1]

/-- A request: 5052 clocks without an edge. -/
def requestRun : List In := tick false false :: (List.replicate clockCyclesFor101us (tick false false) ++ [tick false false])

theorem run_requestRun : machine.run init requestRun =
    ⟨.waitForClock, 0, withParity 0xf4, 5050, 0, 0, false, false⟩ := by
  have h1 : next init (tick false false) = held 0 := by decide
  have h2 : next (held clockCyclesFor101us) (tick false false) =
      ⟨.waitForClock, 0, withParity 0xf4, 5050, 0, 0, false, false⟩ := by decide
  rw [requestRun, Machine.run_cons]
  change machine.run (next init (tick false false)) _ = _
  rw [h1, Machine.run_append, run_held _ _ (Nat.le_of_eq (Nat.zero_add _)), Nat.zero_add]
  exact h2

/-- And the mouse clocks the byte out and acknowledges. -/
def sendRun : List In := requestRun ++ (List.replicate 11 (tick false true) ++ [tick true false])

theorem run_sendRun : (machine.run init sendRun).transmitter = .commandWasSent := by
  rw [sendRun, Machine.run_append, run_requestRun]
  decide

/-! ## The transmission -/

/-- How many levels of a transmission have been clocked. -/
def Regs.progress (r : Regs) : ℕ :=
  match r.transmitter with
  | .transmitData => r.curBit.toNat + 1
  | .transmitStopBit => 10
  | .receiveAckBit | .commandWasSent => 11
  | _ => 0

/-- The last byte accepted is the one on its way, and as much of it as the state says was heard last. -/
structure Heard (r : Regs) (bytes : List (BitVec 8)) (levels : List (Option Bool)) : Prop where
  curBit : r.transmitter = .transmitData → r.curBit.toNat ≤ 8
  curBit_zero : r.transmitter = .waitForClock → r.curBit = 0
  sent : r.transmitter ≠ .idle → ∃ b, bytes.getLast? = some b ∧ r.ps2Command = withParity b ∧
    (transmission b).take r.progress <:+ levels

theorem heard_init (bytes : List (BitVec 8)) (levels : List (Option Bool)) : Heard init bytes levels :=
  ⟨fun h => absurd h (by decide), fun h => absurd h (by decide), fun h => absurd rfl h⟩

/-- A level that continues the transmission. -/
theorem suffix_succ {α : Type*} {l m : List α} {k : ℕ} {x : α} (h : l.take k <:+ m) (hk : l[k]? = some x) :
    l.take (k + 1) <:+ m ++ [x] := by
  obtain ⟨t, rfl⟩ := h
  exact ⟨t, by rw [List.take_add_one, hk, List.append_assoc]; rfl⟩

theorem transmission_start (b : BitVec 8) : (transmission b)[0]? = some (some false) := rfl

theorem transmission_bit (b : BitVec 8) {k : ℕ} (hk : k ≤ 8) :
    (transmission b)[k + 1]? = some (some ((withParity b).getLsbD k)) := by
  simp [transmission, List.getElem?_append, show k < 9 by omega]

theorem transmission_stop (b : BitVec 8) : (transmission b)[10]? = some none := by
  simp [transmission]

section
variable {r : Regs} {i : In} {bytes : List (BitVec 8)} {levels : List (Option Bool)} (h : Heard r bytes levels)
  (hi : i.reset = false)
include h hi

/-- Away from `idle` the byte stays what it is. -/
theorem heard_going (ht : r.transmitter ≠ .idle)
    (hc : (next r i).transmitter = .transmitData → (next r i).curBit.toNat ≤ 8)
    (hc₀ : (next r i).transmitter = .waitForClock → (next r i).curBit = 0)
    (hl : ∀ b, r.ps2Command = withParity b → (transmission b).take r.progress <:+ levels →
      (transmission b).take (next r i).progress <:+ levels ++ heard r i) :
    Heard (next r i) (bytes ++ accepted r i) (levels ++ heard r i) := by
  obtain ⟨b, hb, hp, hs⟩ := h.sent ht
  refine ⟨hc, hc₀, fun _ => ⟨b, ?_, ?_, hl b hp hs⟩⟩
  · simpa [accepted, ht] using hb
  · simpa [next, hi, ht] using hp

/-- A clock after which nothing has been clocked yet, or nothing any more. -/
theorem heard_none (ht : r.transmitter ≠ .idle) (hd : r.transmitter ≠ .transmitData) (hp : (next r i).progress = 0) :
    Heard (next r i) (bytes ++ accepted r i) (levels ++ heard r i) := by
  refine heard_going h hi ht (fun hn => ?_) (fun _ => ?_) fun b _ _ => ?_
  · simp [Regs.progress, hn] at hp
  · simp [next, hi, hd]
  · rw [hp, List.take_zero]
    exact List.nil_suffix

theorem heard_waitForClock (ht : r.transmitter = .waitForClock) :
    Heard (next r i) (bytes ++ accepted r i) (levels ++ heard r i) := by
  have h0 : (next r i).curBit = 0 := by simp [next, hi, ht]
  cases hn : i.ps2ClkNegedge
  · refine heard_none h hi (by simp [ht]) (by simp [ht]) ?_
    have : (next r i).transmitter = .transmissionError ∨ (next r i).transmitter = .waitForClock := by
      simp only [next, nextTransmitter, hi, ht, hn, Bool.false_eq_true, if_false]
      split <;> simp
    rcases this with e | e <;> simp [Regs.progress, e]
  · have hs : (next r i).transmitter = .transmitData := by simp [next, nextTransmitter, hi, ht, hn]
    refine heard_going h hi (by simp [ht]) (fun _ => by rw [h0]; decide) (fun _ => h0) fun b _ hl => ?_
    have hp : r.progress = 0 := by simp [Regs.progress, ht]
    have hp' : (next r i).progress = 0 + 1 := by simp [Regs.progress, hs, h0]
    have hh : heard r i = [some false] := by simp [heard, hi, hn, ht, State.clocked, datDrive]
    rw [hp] at hl
    rw [hp', hh]
    exact suffix_succ hl (transmission_start b)

theorem heard_transmitData (ht : r.transmitter = .transmitData) :
    Heard (next r i) (bytes ++ accepted r i) (levels ++ heard r i) := by
  have h8 := h.curBit ht
  have hp : r.progress = r.curBit.toNat + 1 := by simp [Regs.progress, ht]
  by_cases hlast : r.curBit = 8 ∧ i.ps2ClkNegedge = true
  · -- the parity bit
    have hs : (next r i).transmitter = .transmitStopBit := by simp [next, nextTransmitter, hi, ht, hlast]
    refine heard_going h hi (by simp [ht]) (by simp [hs]) (by simp [hs]) fun b hb hl => ?_
    have hh : heard r i = [some ((withParity b).getLsbD r.curBit.toNat)] := by
      simp [heard, hi, hlast.2, ht, State.clocked, datDrive, hb]
    have hp' : (next r i).progress = r.curBit.toNat + 1 + 1 := by simp [Regs.progress, hs, hlast.1]
    rw [hp] at hl
    rw [hp', hh]
    exact suffix_succ hl (transmission_bit b h8)
  · by_cases htime : r.transferCounter.toNat = clockCyclesFor2ms
    · have hs : (next r i).transmitter = .transmissionError := by
        simp only [next, nextTransmitter, hi, ht, hlast, htime, if_true, if_false, Bool.false_eq_true]
      refine heard_going h hi (by simp [ht]) (by simp [hs]) (by simp [hs]) fun b _ _ => ?_
      simp [Regs.progress, hs]
    · have hs : (next r i).transmitter = .transmitData := by
        simp only [next, nextTransmitter, hi, ht, hlast, htime, if_false, Bool.false_eq_true]
      cases hn : i.ps2ClkNegedge
      · have hc : (next r i).curBit = r.curBit := by simp [next, hi, ht, hn]
        refine heard_going h hi (by simp [ht]) (fun _ => by rw [hc]; exact h8) (by simp [hs]) fun b _ hl => ?_
        have hp' : (next r i).progress = r.progress := by simp [Regs.progress, hs, ht, hc]
        have hh : heard r i = [] := by simp [heard, hn]
        rwa [hp', hh, List.append_nil]
      · have hlt : r.curBit.toNat < 8 := by
          refine Nat.lt_of_le_of_ne h8 fun e => hlast ⟨BitVec.eq_of_toNat_eq e, hn⟩
        have hc : (next r i).curBit.toNat = r.curBit.toNat + 1 := by
          have : (next r i).curBit = r.curBit + 1 := by simp [next, hi, ht, hn]
          rw [this]
          exact BitVec.toNat_add_of_lt (Nat.lt_trans (Nat.succ_lt_succ hlt) (by decide))
        refine heard_going h hi (by simp [ht]) (fun _ => by omega) (by simp [hs]) fun b hb hl => ?_
        have hh : heard r i = [some ((withParity b).getLsbD r.curBit.toNat)] := by
          simp [heard, hi, hn, ht, State.clocked, datDrive, hb]
        have hp' : (next r i).progress = r.curBit.toNat + 1 + 1 := by simp [Regs.progress, hs, hc]
        rw [hp] at hl
        rw [hp', hh]
        exact suffix_succ hl (transmission_bit b h8)

theorem heard_transmitStopBit (ht : r.transmitter = .transmitStopBit) :
    Heard (next r i) (bytes ++ accepted r i) (levels ++ heard r i) := by
  have hp : r.progress = 10 := by simp [Regs.progress, ht]
  cases hn : i.ps2ClkNegedge
  · by_cases htime : r.transferCounter.toNat = clockCyclesFor2ms
    · have hs : (next r i).transmitter = .transmissionError := by simp [next, nextTransmitter, hi, ht, hn, htime]
      exact heard_none h hi (by simp [ht]) (by simp [ht]) (by simp [Regs.progress, hs])
    · have hs : (next r i).transmitter = .transmitStopBit := by simp [next, nextTransmitter, hi, ht, hn, htime]
      refine heard_going h hi (by simp [ht]) (by simp [hs]) (by simp [hs]) fun b _ hl => ?_
      have hp' : (next r i).progress = r.progress := by simp [Regs.progress, hs, ht]
      have hh : heard r i = [] := by simp [heard, hn]
      rwa [hp', hh, List.append_nil]
  · have hs : (next r i).transmitter = .receiveAckBit := by simp [next, nextTransmitter, hi, ht, hn]
    refine heard_going h hi (by simp [ht]) (by simp [hs]) (by simp [hs]) fun b _ hl => ?_
    have hh : heard r i = [none] := by simp [heard, hi, hn, ht, State.clocked, datDrive]
    have hp' : (next r i).progress = 10 + 1 := by simp [Regs.progress, hs]
    rw [hp] at hl
    rw [hp', hh]
    exact suffix_succ hl (transmission_stop b)

/-- The stop bit was the last level; the acknowledge adds nothing. -/
theorem heard_after (ht : r.transmitter = .receiveAckBit ∨ r.transmitter = .commandWasSent) :
    Heard (next r i) (bytes ++ accepted r i) (levels ++ heard r i) := by
  have ht₀ : r.transmitter ≠ .idle := by rcases ht with e | e <;> simp [e]
  have hd : r.transmitter ≠ .transmitData := by rcases ht with e | e <;> simp [e]
  have hp : r.progress = 11 := by rcases ht with e | e <;> simp [Regs.progress, e]
  have hh : heard r i = [] := by rcases ht with e | e <;> simp [heard, e, State.clocked]
  have hs : (next r i).transmitter = .receiveAckBit ∨ (next r i).transmitter = .commandWasSent ∨
      (next r i).progress = 0 := by
    rcases ht with e | e
    · by_cases hp : i.ps2ClkPosedge = true
      · simp [next, nextTransmitter, hi, e, hp]
      · by_cases htime : r.transferCounter.toNat = clockCyclesFor2ms
        · simp [next, nextTransmitter, hi, e, hp, htime, Regs.progress]
        · simp [next, nextTransmitter, hi, e, hp, htime]
    · cases hs : i.sendCommand <;> simp [next, nextTransmitter, hi, e, hs, Regs.progress]
  rcases hs with hs | hs | hs
  · refine heard_going h hi ht₀ (by simp [hs]) (by simp [hs]) fun b _ hl => ?_
    have hp' : (next r i).progress = r.progress := by rw [hp]; simp [Regs.progress, hs]
    rwa [hp', hh, List.append_nil]
  · refine heard_going h hi ht₀ (by simp [hs]) (by simp [hs]) fun b _ hl => ?_
    have hp' : (next r i).progress = r.progress := by rw [hp]; simp [Regs.progress, hs]
    rwa [hp', hh, List.append_nil]
  · exact heard_none h hi ht₀ hd hs

end

theorem heard_next {r : Regs} {i : In} {bytes : List (BitVec 8)} {levels : List (Option Bool)}
    (h : Heard r bytes levels) : Heard (next r i) (bytes ++ accepted r i) (levels ++ heard r i) := by
  by_cases hi : i.reset = true
  · have : next r i = init := by simp [next, hi]
    rw [this]
    exact heard_init _ _
  have hi : i.reset = false := by simpa using hi
  cases ht : r.transmitter with
  | idle =>
    have hc : (next r i).ps2Command = withParity i.theCommand := by simp [next, hi, ht, withParity]
    cases hs : i.sendCommand
    · have : (next r i).transmitter = .idle := by simp [next, hi, nextTransmitter, ht, hs]
      exact ⟨by simp [this], by simp [this], fun h => absurd this h⟩
    · have : (next r i).transmitter = .initiateCommunication := by simp [next, hi, nextTransmitter, ht, hs]
      refine ⟨by simp [this], by simp [this], fun _ => ⟨i.theCommand, ?_, hc, ?_⟩⟩
      · simp [accepted, hi, ht, hs]
      · simp [Regs.progress, this]
  | initiateCommunication =>
    refine heard_none h hi (by simp [ht]) (by simp [ht]) ?_
    by_cases hc : r.commandInitiateCounter.toNat = clockCyclesFor101us
    · simp [Regs.progress, next, hi, nextTransmitter, ht, hc]
    · simp [Regs.progress, next, hi, nextTransmitter, ht, hc]
  | waitForClock => exact heard_waitForClock h hi ht
  | transmitData => exact heard_transmitData h hi ht
  | transmitStopBit => exact heard_transmitStopBit h hi ht
  | receiveAckBit => exact heard_after h hi (.inl ht)
  | commandWasSent => exact heard_after h hi (.inr ht)
  | transmissionError =>
    refine heard_none h hi (by simp [ht]) (by simp [ht]) ?_
    cases hs : i.sendCommand <;> simp [Regs.progress, next, hi, nextTransmitter, ht, hs]

theorem heard_run : ∀ (is : List In) {r : Regs} {bytes : List (BitVec 8)} {levels : List (Option Bool)},
    Heard r bytes levels →
      Heard (machine.run r is) (bytes ++ machine.log accepted r is) (levels ++ machine.log heard r is)
  | [], _, _, _, h => by simpa using h
  | i :: is, _, _, _, h => by
    rw [Machine.run_cons, Machine.log_cons, Machine.log_cons, ← List.append_assoc, ← List.append_assoc]
    exact heard_run is (heard_next h)

/-- **The transmission.** Whatever the inputs were, when a command counts as sent, the levels at the last eleven
falling edges that the transmitter acted on are those of the last byte accepted: start bit, the byte from its lowest bit
on, odd parity, and a stop bit that is left to the pull-up. -/
theorem sent_transmission (is : List In) (h : (machine.run init is).transmitter = .commandWasSent) :
    ∃ b, (machine.log accepted init is).getLast? = some b ∧ transmission b <:+ machine.log heard init is ∧
      ((List.range 9).map (withParity b).getLsbD).count true % 2 = 1 := by
  obtain ⟨b, hb, -, hl⟩ := (heard_run is (heard_init [] [])).sent (by simp [h])
  have hp : (machine.run init is).progress = 11 := by simp [Regs.progress, h]
  rw [hp, List.take_of_length_le (by simp)] at hl
  exact ⟨b, hb, hl, withParity_odd b⟩

theorem sent_transmission_f4 : ∃ b, (machine.log accepted init sendRun).getLast? = some b ∧
    transmission b <:+ machine.log heard init sendRun ∧ ((List.range 9).map (withParity b).getLsbD).count true % 2 = 1 :=
  sent_transmission sendRun run_sendRun

/-! ## The request to send -/

/-- The lines during the first `k` clocks of a request, and the free lines before it: the clock is held, and
from the 4096th clock on the data line with it. -/
def pulse (k : ℕ) : List (Option Bool × Option Bool) :=
  (none, none) :: (List.replicate (min k 4096) (some false, none) ++ List.replicate (k - 4096) (some false, some false))

/-- The whole request, and `w` clocks of waiting for the mouse: 101 µs with the clock low, 19 of them with the
data low as well, then the clock free and the data still low. -/
def requestWave (w : ℕ) : List (Option Bool × Option Bool) :=
  pulse (clockCyclesFor101us + 1) ++ List.replicate w (none, some false)

theorem pulse_succ (k : ℕ) :
    pulse (k + 1) = pulse k ++ [(some false, if 4096 ≤ k then some false else none)] := by
  unfold pulse
  by_cases h : 4096 ≤ k
  · rw [if_pos h, Nat.min_eq_right h, Nat.min_eq_right (by omega), Nat.sub_add_comm h,
      List.replicate_succ' (n := k - 4096)]
    simp only [List.cons_append, List.append_assoc]
  · rw [if_neg h, Nat.min_eq_left (by omega), Nat.min_eq_left (by omega), Nat.sub_eq_zero_of_le (by omega),
      Nat.sub_eq_zero_of_le (by omega), List.replicate_succ' (n := k)]
    simp only [List.replicate_zero, List.append_nil, List.cons_append]

theorem requestWave_succ (w : ℕ) : requestWave (w + 1) = requestWave w ++ [(none, some false)] := by
  unfold requestWave
  rw [List.replicate_succ', List.append_assoc]

/-- The lines so far end with as much of a request as the counters say. -/
structure Shown (r : Regs) (lines : List (Option Bool × Option Bool)) : Prop extends InRange r where
  holding : r.transmitter = .initiateCommunication → pulse r.commandInitiateCounter.toNat <:+ lines
  waits : r.transmitter = .waitForClock → requestWave r.waitingCounter.toNat <:+ lines

theorem suffix_append {α : Type*} {l m : List α} (h : l <:+ m) (n : List α) : l ++ n <:+ m ++ n := by
  obtain ⟨t, rfl⟩ := h
  exact ⟨t, (List.append_assoc ..).symm⟩

/-- How the two states of a request are entered and kept. -/
theorem into_request {r : Regs} {i : In} (hi : i.reset = false) :
    ((next r i).transmitter = .initiateCommunication → r.transmitter = .idle ∨
      r.transmitter = .initiateCommunication ∧ r.commandInitiateCounter.toNat ≠ clockCyclesFor101us) ∧
    ((next r i).transmitter = .waitForClock →
      r.transmitter = .initiateCommunication ∧ r.commandInitiateCounter.toNat = clockCyclesFor101us ∨
      r.transmitter = .waitForClock ∧ r.waitingCounter.toNat ≠ clockCyclesFor15ms) := by
  have hn : (next r i).transmitter = nextTransmitter r i := by simp [next, hi]
  rw [hn]
  cases ht : r.transmitter <;> simp only [nextTransmitter, ht] <;> grind

theorem datDrive_holding {r : Regs} (ht : r.transmitter = .initiateCommunication) :
    datDrive r = if 4096 ≤ r.commandInitiateCounter.toNat then some false else none := by
  have hm : r.commandInitiateCounter.getLsbD 12 = decide (4096 ≤ r.commandInitiateCounter.toNat) :=
    BitVec.msb_eq_decide r.commandInitiateCounter
  unfold datDrive
  rw [hm, if_neg (by simp [ht]), if_neg (by simp [ht])]
  simp only [ht, true_and, decide_eq_true_eq]

theorem shown_next {r : Regs} {i : In} {lines : List (Option Bool × Option Bool)} (h : Shown r lines) :
    Shown (next r i) (lines ++ shown r i) := by
  by_cases hi : i.reset = true
  · have hn : next r i = init := by simp [next, hi]
    exact ⟨inRange_next h.toInRange i, by simp [hn, init], by simp [hn, init]⟩
  have hi : i.reset = false := by simpa using hi
  refine ⟨inRange_next h.toInRange i, fun hn => ?_, fun hn => ?_⟩
  · rcases (into_request hi).1 hn with ht | ⟨ht, hk⟩
    · -- the free clock before a request
      have h0 : (next r i).commandInitiateCounter.toNat = 0 := by simp [next, hi, ht]
      have hs : shown r i = [(none, none)] := by simp [shown, clkDrive, datDrive, ht]
      rw [h0, hs]
      exact List.suffix_append _ _
    · have hlt : r.commandInitiateCounter.toNat < clockCyclesFor101us := Nat.lt_of_le_of_ne h.initiate hk
      have hk' : (next r i).commandInitiateCounter.toNat = r.commandInitiateCounter.toNat + 1 := by
        have : (next r i).commandInitiateCounter = r.commandInitiateCounter + 1 := by simp [next, hi, ht, hk]
        rw [this, counter_succ (by decide) (by decide) hlt]
      have hs : shown r i = [(some false, if 4096 ≤ r.commandInitiateCounter.toNat then some false else none)] := by
        simp [shown, clkDrive, datDrive_holding ht, ht]
      rw [hk', pulse_succ, hs]
      exact suffix_append (h.holding ht) _
  · rcases (into_request hi).2 hn with ⟨ht, hk⟩ | ⟨ht, hk⟩
    · -- the last of the 5051 clocks
      have h0 : (next r i).waitingCounter.toNat = 0 := by simp [next, hi, ht]
      have hs : shown r i = [(some false, some false)] := by
        simp [shown, clkDrive, datDrive_holding ht, ht, hk, clockCyclesFor101us]
      have hl := h.holding ht
      rw [hk] at hl
      rw [h0, hs, requestWave, pulse_succ, if_pos (by decide), List.replicate_zero, List.append_nil]
      exact suffix_append hl _
    · have hlt : r.waitingCounter.toNat < clockCyclesFor15ms := Nat.lt_of_le_of_ne h.waiting hk
      have hk' : (next r i).waitingCounter.toNat = r.waitingCounter.toNat + 1 := by
        have : (next r i).waitingCounter = r.waitingCounter + 1 := by simp [next, hi, ht, hk]
        rw [this, counter_succ (by decide) (by decide) hlt]
      have hs : shown r i = [(none, some false)] := by simp [shown, clkDrive, datDrive, ht]
      rw [hk', requestWave_succ, hs]
      exact suffix_append (h.waits ht) _

theorem shown_run : ∀ (is : List In) {r : Regs} {lines : List (Option Bool × Option Bool)}, Shown r lines →
    Shown (machine.run r is) (lines ++ machine.log shown r is)
  | [], _, _, h => by simpa using h
  | i :: is, _, _, h => by
    rw [Machine.run_cons, Machine.log_cons, ← List.append_assoc]
    exact shown_run is (shown_next h)

theorem shown_init : Shown init [] :=
  ⟨inRange_init, fun h => absurd h (by decide), fun h => absurd h (by decide)⟩

/-- **The request to send.** Whenever the transmitter waits for the mouse to clock, the lines have just gone
through a whole request: held for 5051 clocks, the data line with it for the last 955, and released in order. -/
theorem request_shown (is : List In) (h : (machine.run init is).transmitter = .waitForClock) :
    requestWave (machine.run init is).waitingCounter.toNat <:+ machine.log shown init is :=
  (shown_run is shown_init).waits h

theorem request_shown_f4 : requestWave 0 <:+ machine.log shown init requestRun := by
  have h := request_shown requestRun (by rw [run_requestRun])
  rw [run_requestRun] at h
  exact h

end Lab8.CommandOut
