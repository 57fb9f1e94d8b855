import Lab8.Ps2Start
/-!
# The PS/2 controller asks until it is answered

Every state of the transmitter has a way out that needs no mouse: three counters and four clocks of flags. So a
request that is not answered, in time or at all, ends in an error, the error clears itself, and a new request
begins (`attempts`). After a request that is answered the controller never drives a line again.
-/

namespace Lab8.Ps2Controller

open Clocked CommandOut

/-- The flags fit the state, and no counter has run past its limit. -/
structure Orderly (s : Regs) : Prop extends InRange s.commandOut where
  done : s.initDone = true → s.commandOut.transmitter = .idle
  sent : s.initDone = false → s.commandOut.commandWasSent = true → s.commandOut.transmitter = .commandWasSent
  timedOut : s.initDone = false → s.commandOut.errorCommunicationTimedOut = true →
    s.commandOut.transmitter = .transmissionError ∨ s.commandOut.transmitter = .idle

theorem orderly_init : Orderly init := ⟨inRange_init, by decide, by decide, by decide⟩

section
variable {s : Regs} {i : In} (hi : Alone i)
include hi

theorem next_transmitter : (next s i).commandOut.transmitter = nextTransmitter s.commandOut
    ⟨false, s.theCommandW i, s.sendCommandW i, s.ps2ClkPosedge, s.ps2ClkNegedge⟩ := by
  simp [next_commandOut hi, CommandOut.next]

theorem next_commandWasSent : (next s i).commandOut.commandWasSent =
    if s.commandOut.transmitter = .commandWasSent then true
    else if s.sendCommandW i = false then false else s.commandOut.commandWasSent := by
  simp [next_commandOut hi, CommandOut.next]

theorem next_timedOut : (next s i).commandOut.errorCommunicationTimedOut =
    if s.commandOut.transmitter = .transmissionError then true
    else if s.sendCommandW i = false then false else s.commandOut.errorCommunicationTimedOut := by
  simp [next_commandOut hi, CommandOut.next]

/-- Once the command is sent the transmitter rests. -/
theorem done_next (h : Orderly s) (hd : s.initDone = true) :
    (next s i).initDone = true ∧ (next s i).commandOut.transmitter = .idle := by
  refine ⟨by simp [next_initDone hi, hd], ?_⟩
  simp [next_transmitter hi, nextTransmitter, h.done hd, Regs.sendCommandW, hd, hi.2]

theorem orderly_next (h : Orderly s) : Orderly (next s i) := by
  have hr : InRange (next s i).commandOut := by
    rw [next_commandOut hi]
    exact inRange_next h.toInRange _
  by_cases hd : s.initDone = true
  · obtain ⟨hd', ht'⟩ := done_next hi h hd
    exact ⟨hr, fun _ => ht', fun hn => absurd hd' (by simp [hn]), fun hn => absurd hd' (by simp [hn])⟩
  have hd : s.initDone = false := by simpa using hd
  have hs := h.sent hd
  have he := h.timedOut hd
  have hd' := next_initDone (s := s) hi
  have ht' := next_transmitter (s := s) hi
  have hs' := next_commandWasSent (s := s) hi
  have he' := next_timedOut (s := s) hi
  have hw : s.sendCommandW i = (!s.commandOut.commandWasSent && !s.commandOut.errorCommunicationTimedOut) := by
    simp [Regs.sendCommandW, hd]
  rw [hd] at hd'
  refine ⟨hr, fun hn => ?_, fun hn hsn => ?_, fun hn hen => ?_⟩
  · -- done: the flag was up, so the state was `commandWasSent`
    have hsent : s.commandOut.commandWasSent = true := by grind
    simp [ht', nextTransmitter, hs hsent, hw, hsent]
  · have hsent : s.commandOut.commandWasSent = false := by grind
    grind [nextTransmitter]
  · grind [nextTransmitter]

end

/-! ## Progress -/

/-- A new request, or none needed any more. -/
def Fresh (s : Regs) : Prop :=
  s.initDone = true ∨
    (s.commandOut.transmitter = .initiateCommunication ∧ s.commandOut.commandInitiateCounter.toNat = 0)

/-- The clocks a state can last, and all states after it, until there is a new request. -/
def remaining (r : CommandOut.Regs) : ℕ :=
  match r.transmitter with
  | .initiateCommunication => clockCyclesFor101us - r.commandInitiateCounter.toNat + 850009
  | .waitForClock => clockCyclesFor15ms - r.waitingCounter.toNat + 100008
  | .transmitData => clockCyclesFor2ms - r.transferCounter.toNat + 7
  | .transmitStopBit => clockCyclesFor2ms - r.transferCounter.toNat + 6
  | .receiveAckBit => clockCyclesFor2ms - r.transferCounter.toNat + 5
  | .transmissionError => if r.errorCommunicationTimedOut then 3 else 4
  | .commandWasSent => if r.commandWasSent then 1 else 2
  | .idle => if r.errorCommunicationTimedOut then 2 else 1

theorem remaining_le (r : CommandOut.Regs) : remaining r ≤ 855059 := by
  have h1 : clockCyclesFor101us = 5050 := rfl
  have h2 : clockCyclesFor15ms = 750000 := rfl
  have h3 : clockCyclesFor2ms = 100000 := rfl
  unfold remaining
  split <;> (try split) <;> omega

section
variable {s : Regs} {i : In} (hi : Alone i) (h : Orderly s)
include hi h

theorem initiateCounter_next (ht : s.commandOut.transmitter = .initiateCommunication)
    (hk : s.commandOut.commandInitiateCounter.toNat ≠ clockCyclesFor101us) :
    (next s i).commandOut.commandInitiateCounter.toNat = s.commandOut.commandInitiateCounter.toNat + 1 := by
  have : (next s i).commandOut.commandInitiateCounter = s.commandOut.commandInitiateCounter + 1 := by
    simp [next_commandOut hi, CommandOut.next, ht, hk]
  rw [this, counter_succ (by decide) (by decide) (Nat.lt_of_le_of_ne h.initiate hk)]

theorem waitingCounter_next (ht : s.commandOut.transmitter = .waitForClock)
    (hk : s.commandOut.waitingCounter.toNat ≠ clockCyclesFor15ms) :
    (next s i).commandOut.waitingCounter.toNat = s.commandOut.waitingCounter.toNat + 1 := by
  have : (next s i).commandOut.waitingCounter = s.commandOut.waitingCounter + 1 := by
    simp [next_commandOut hi, CommandOut.next, ht, hk]
  rw [this, counter_succ (by decide) (by decide) (Nat.lt_of_le_of_ne h.waiting hk)]

theorem transferCounter_step (ht : s.commandOut.transmitter.transferring = true) :
    (s.commandOut.transferCounter.toNat = clockCyclesFor2ms ∧
      (next s i).commandOut.transferCounter.toNat = clockCyclesFor2ms) ∨
    (s.commandOut.transferCounter.toNat < clockCyclesFor2ms ∧
      (next s i).commandOut.transferCounter.toNat = s.commandOut.transferCounter.toNat + 1) := by
  by_cases hk : s.commandOut.transferCounter.toNat = clockCyclesFor2ms
  · refine .inl ⟨hk, ?_⟩
    have : (next s i).commandOut.transferCounter = s.commandOut.transferCounter := by
      simp [next_commandOut hi, CommandOut.next, ht, hk]
    rw [this, hk]
  · have hlt := Nat.lt_of_le_of_ne h.transfer hk
    refine .inr ⟨hlt, ?_⟩
    have : (next s i).commandOut.transferCounter = s.commandOut.transferCounter + 1 := by
      simp [next_commandOut hi, CommandOut.next, ht, hk]
    rw [this, counter_succ (by decide) (by decide) hlt]

end

section
variable {r : CommandOut.Regs}

theorem remaining_initiate (h : r.transmitter = .initiateCommunication) :
    remaining r = clockCyclesFor101us - r.commandInitiateCounter.toNat + 850009 := by simp [remaining, h]

theorem remaining_wait (h : r.transmitter = .waitForClock) :
    remaining r = clockCyclesFor15ms - r.waitingCounter.toNat + 100008 := by simp [remaining, h]

theorem remaining_data (h : r.transmitter = .transmitData) :
    remaining r = clockCyclesFor2ms - r.transferCounter.toNat + 7 := by simp [remaining, h]

theorem remaining_stop (h : r.transmitter = .transmitStopBit) :
    remaining r = clockCyclesFor2ms - r.transferCounter.toNat + 6 := by simp [remaining, h]

theorem remaining_ack (h : r.transmitter = .receiveAckBit) :
    remaining r = clockCyclesFor2ms - r.transferCounter.toNat + 5 := by simp [remaining, h]

theorem remaining_error (h : r.transmitter = .transmissionError) : remaining r ≤ 4 := by
  unfold remaining
  rw [h]
  dsimp only
  split <;> omega

theorem remaining_sent (h : r.transmitter = .commandWasSent) : remaining r ≤ 2 := by
  unfold remaining
  rw [h]
  dsimp only
  split <;> omega

end

section
variable {s : Regs} {i : In} (hi : Alone i) (h : Orderly s)
include hi h

/-- A transfer is ended by an edge or by the time-out, or it comes a clock nearer to that. -/
theorem remaining_transfer (ht : s.commandOut.transmitter.transferring = true) :
    remaining (next s i).commandOut < remaining s.commandOut := by
  have hK := transferCounter_step hi h ht
  have hn := next_transmitter (s := s) hi
  cases e : s.commandOut.transmitter with
  | transmitData =>
    have hr := remaining_data e
    by_cases hb : s.commandOut.curBit = 8 ∧ s.ps2ClkNegedge = true
    · have hs : (next s i).commandOut.transmitter = .transmitStopBit := by simp [hn, nextTransmitter, e, hb]
      have hr' := remaining_stop hs
      omega
    · by_cases hk : s.commandOut.transferCounter.toNat = clockCyclesFor2ms
      · have hs : (next s i).commandOut.transmitter = .transmissionError := by
          simp only [hn, nextTransmitter, e, hb, hk, if_true, if_false]
        have := remaining_error hs
        omega
      · have hs : (next s i).commandOut.transmitter = .transmitData := by
          simp only [hn, nextTransmitter, e, hb, hk, if_false]
        have hr' := remaining_data hs
        omega
  | transmitStopBit =>
    have hr := remaining_stop e
    by_cases hb : s.ps2ClkNegedge = true
    · have hs : (next s i).commandOut.transmitter = .receiveAckBit := by simp [hn, nextTransmitter, e, hb]
      have hr' := remaining_ack hs
      omega
    · by_cases hk : s.commandOut.transferCounter.toNat = clockCyclesFor2ms
      · have hs : (next s i).commandOut.transmitter = .transmissionError := by simp [hn, nextTransmitter, e, hb, hk]
        have := remaining_error hs
        omega
      · have hs : (next s i).commandOut.transmitter = .transmitStopBit := by simp [hn, nextTransmitter, e, hb, hk]
        have hr' := remaining_stop hs
        omega
  | receiveAckBit =>
    have hr := remaining_ack e
    by_cases hb : s.ps2ClkPosedge = true
    · have hs : (next s i).commandOut.transmitter = .commandWasSent := by simp [hn, nextTransmitter, e, hb]
      have := remaining_sent hs
      omega
    · by_cases hk : s.commandOut.transferCounter.toNat = clockCyclesFor2ms
      · have hs : (next s i).commandOut.transmitter = .transmissionError := by simp [hn, nextTransmitter, e, hb, hk]
        have := remaining_error hs
        omega
      · have hs : (next s i).commandOut.transmitter = .receiveAckBit := by simp [hn, nextTransmitter, e, hb, hk]
        have hr' := remaining_ack hs
        omega
  | _ => simp [e, State.transferring] at ht

/-- From any state that is not itself a new request, the next one is a clock nearer. -/
theorem remaining_next (hf : ¬ Fresh s) : Fresh (next s i) ∨ remaining (next s i).commandOut < remaining s.commandOut := by
  have hd : s.initDone = false := Bool.eq_false_iff.2 fun hd => hf (.inl hd)
  have hn := next_transmitter (s := s) hi
  have hw : s.sendCommandW i = (!s.commandOut.commandWasSent && !s.commandOut.errorCommunicationTimedOut) := by
    simp [Regs.sendCommandW, hd]
  cases e : s.commandOut.transmitter with
  | idle =>
    have hsent : s.commandOut.commandWasSent = false := Bool.eq_false_iff.2 fun hs => by simp [h.sent hd hs] at e
    cases he : s.commandOut.errorCommunicationTimedOut
    · refine .inl (.inr ⟨by simp [hn, nextTransmitter, e, hw, hsent, he], ?_⟩)
      simp [next_commandOut hi, CommandOut.next, e]
    · refine .inr ?_
      have hs : (next s i).commandOut.transmitter = .idle := by simp [hn, nextTransmitter, e, hw, hsent, he]
      have he' : (next s i).commandOut.errorCommunicationTimedOut = false := by
        simp [next_timedOut hi, e, hw, hsent, he]
      simp [remaining, hs, he', e, he]
  | initiateCommunication =>
    refine .inr ?_
    have hr := remaining_initiate e
    by_cases hk : s.commandOut.commandInitiateCounter.toNat = clockCyclesFor101us
    · have hs : (next s i).commandOut.transmitter = .waitForClock := by simp [hn, nextTransmitter, e, hk]
      have hr' := remaining_wait hs
      have h15 : clockCyclesFor15ms = 750000 := rfl
      omega
    · have hs : (next s i).commandOut.transmitter = .initiateCommunication := by simp [hn, nextTransmitter, e, hk]
      have hr' := remaining_initiate hs
      have := Nat.lt_of_le_of_ne h.initiate hk
      rw [initiateCounter_next hi h e hk] at hr'
      omega
  | waitForClock =>
    refine .inr ?_
    have hr := remaining_wait e
    by_cases hb : s.ps2ClkNegedge = true
    · have hs : (next s i).commandOut.transmitter = .transmitData := by simp [hn, nextTransmitter, e, hb]
      have hr' := remaining_data hs
      have h2 : clockCyclesFor2ms = 100000 := rfl
      omega
    · by_cases hk : s.commandOut.waitingCounter.toNat = clockCyclesFor15ms
      · have hs : (next s i).commandOut.transmitter = .transmissionError := by simp [hn, nextTransmitter, e, hb, hk]
        have := remaining_error hs
        omega
      · have hs : (next s i).commandOut.transmitter = .waitForClock := by simp [hn, nextTransmitter, e, hb, hk]
        have hr' := remaining_wait hs
        have := Nat.lt_of_le_of_ne h.waiting hk
        rw [waitingCounter_next hi h e hk] at hr'
        omega
  | transmitData | transmitStopBit | receiveAckBit => exact .inr (remaining_transfer hi h (by rw [e]; rfl))
  | commandWasSent =>
    have he : s.commandOut.errorCommunicationTimedOut = false :=
      Bool.eq_false_iff.2 fun he => by rcases h.timedOut hd he with e' | e' <;> simp [e'] at e
    cases hsent : s.commandOut.commandWasSent
    · refine .inr ?_
      have hs : (next s i).commandOut.transmitter = .commandWasSent := by simp [hn, nextTransmitter, e, hw, hsent, he]
      have hf : (next s i).commandOut.commandWasSent = true := by simp [next_commandWasSent hi, e]
      simp [remaining, hs, hf, e, hsent]
    · exact .inl (.inl (by simp [next_initDone hi, hsent]))
  | transmissionError =>
    refine .inr ?_
    have hsent : s.commandOut.commandWasSent = false := Bool.eq_false_iff.2 fun hs => by simp [h.sent hd hs] at e
    have he' : (next s i).commandOut.errorCommunicationTimedOut = true := by simp [next_timedOut hi, e]
    cases he : s.commandOut.errorCommunicationTimedOut
    · have hs : (next s i).commandOut.transmitter = .transmissionError := by
        simp [hn, nextTransmitter, e, hw, hsent, he]
      simp [remaining, hs, he', e, he]
    · have hs : (next s i).commandOut.transmitter = .idle := by simp [hn, nextTransmitter, e, hw, he]
      simp [remaining, hs, he', e, he]

end

/-! ## Runs -/

/-- The wait for a new request. -/
def wait (s : Regs) : ℕ :=
  if s.initDone = true ∨
      (s.commandOut.transmitter = .initiateCommunication ∧ s.commandOut.commandInitiateCounter.toNat = 0) then 0
  else remaining s.commandOut

theorem wait_of_fresh {s : Regs} (h : Fresh s) : wait s = 0 := if_pos h

theorem wait_of_not_fresh {s : Regs} (h : ¬ Fresh s) : wait s = remaining s.commandOut := if_neg h

theorem remaining_pos (r : CommandOut.Regs) : 0 < remaining r := by
  unfold remaining
  split <;> (try split) <;> omega

theorem wait_next {s : Regs} {i : In} (h : Orderly s) (hi : Alone i) (hf : ¬ Fresh s) : wait (next s i) < wait s := by
  rw [wait_of_not_fresh hf]
  by_cases hf' : Fresh (next s i)
  · rw [wait_of_fresh hf']
    exact remaining_pos _
  · rw [wait_of_not_fresh hf']
    exact (remaining_next hi h hf).resolve_left hf'

section
variable {inp : ℕ → In} (ha : ∀ n, Alone (inp n))
include ha

theorem orderly_trace (n : ℕ) : Orderly (machine.trace init inp n) :=
  Machine.trace_invariant (M := machine) (P := Orderly) (Q := Alone) (fun _ _ h hi => orderly_next hi h) orderly_init ha n

theorem fresh_within (n : ℕ) : ∃ m, n < m ∧ m ≤ n + 855060 ∧ Fresh (machine.trace init inp m) := by
  obtain ⟨m, hm, hf⟩ := Machine.trace_reaches (M := machine) (P := Orderly) (G := Fresh) (Q := Alone)
    (fun _ _ h hi => orderly_next hi h) (orderly_trace ha (n + 1)) (fun k => ha (n + 1 + k)) wait (fun _ _ h hi hf => wait_next h hi hf)
  have hle : wait (machine.trace init inp (n + 1)) ≤ 855059 := by
    unfold wait
    split
    · omega
    · exact remaining_le _
  refine ⟨n + 1 + m, by omega, by omega, ?_⟩
  rwa [Machine.trace_add]

theorem done_trace {n : ℕ} (hd : (machine.trace init inp n).initDone = true) {m : ℕ} (hm : n ≤ m) :
    (machine.trace init inp m).initDone = true := by
  induction hm with
  | refl => exact hd
  | step _ ih => exact (done_next (ha _) (orderly_trace ha _) ih).1

end

/-- **Attempts.** Whatever the mouse does to the lines, within every 855 060 clocks, 17.1 ms, there is a new
request, unless a command was sent; and once one was sent, the controller leaves both lines alone for good. -/
theorem attempts (levels : ℕ → Bool × Bool) (n : ℕ) :
    let s := machine.trace init fun k => lines (levels k).1 (levels k).2
    (∃ m, n < m ∧ m ≤ n + 855060 ∧ Fresh (s m)) ∧
    ((s n).initDone = true → ∀ m, n ≤ m →
      (s m).initDone = true ∧ clkDrive (s m).commandOut = none ∧ datDrive (s m).commandOut = none) := by
  have ha (k : ℕ) : Alone (lines (levels k).1 (levels k).2) := alone_lines _ _
  refine ⟨fresh_within ha n, fun hd m hm => ?_⟩
  have hd' := done_trace ha hd hm
  have ht := (orderly_trace ha m).done hd'
  exact ⟨hd', by simp [clkDrive, ht], by simp [datDrive, ht]⟩

end Lab8.Ps2Controller
