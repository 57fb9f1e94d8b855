import Lab8.HpiBus
/-!
# The driver, as the chip sees it

A call of the driver is six accesses, each at a clock of its own, and the chip sees their strobes a clock later. A
transaction ends when the chip is no longer both selected and strobed, and a write takes what is on the bus then. By that
time `hpi_io_intf` has let go of the bus (`write_undriven`), and nothing in the source holds it. So the data depends on
lines that keep their word while nobody drives them, and this is assumed by name (`BusHold`).

With two clocks from access to access the transactions that have ended and the one in flight are then the calls begun,
in their order (`bus_carries`): no call is lost, repeated, or made up between two others.

| here | there |
| --- | --- |
| `BusHold` | **hardware boundary**: the released lines of `OTG_DATA` (hpi_io_intf.sv:19) |
| `transaction` | the pins of the chip (lab8.sv:90-105), compared with those one clock later |
| `Lags` | the pins, for a call of which so many accesses were carried out a clock ago |
-/

namespace Lab8.IoHandler

open Clocked

inductive Transaction
  | write (address : BitVec 2) (data : BitVec 16)
  | read (address : BitVec 2)
deriving DecidableEq, Repr

def Call.address : Call → BitVec 8
  | .write a _ => a
  | .read a => a

/-- What a call asks of the chip. -/
def Call.bus : Call → Transaction
  | .write a d => .write (a.setWidth 2) d
  | .read a => .read (a.setWidth 2)

def writing (r : HpiIoIntf.Regs) : Bool := !r.otgCsN && !r.otgWrN
def reading (r : HpiIoIntf.Regs) : Bool := !r.otgCsN && !r.otgRdN

def Call.active : Call → HpiIoIntf.Regs → Bool
  | .write .. => writing
  | .read _ => reading

/-- A transaction that ends with this clock. -/
def transaction (s : State) (i : In) : List Transaction :=
  (if writing s.hpi && !writing (machine.next s i).hpi then [.write s.hpi.otgAddr (s.bus i)] else []) ++
    if reading s.hpi && !reading (machine.next s i).hpi then [.read s.hpi.otgAddr] else []

/-- Neither end drives the bus. -/
def Released (s : State) (i : In) : Prop := s.drive = none ∧ HpiIoIntf.chipDrive s.hpi i.chip = none

section
variable (s : State) (inp : ℕ → In)

/-- The lines keep their word while they are released. -/
def BusHold : Prop := ∀ n, Released (machine.trace s inp (n + 1)) (inp (n + 1)) →
  (machine.trace s inp (n + 1)).bus (inp (n + 1)) = (machine.trace s inp n).bus (inp n)

/-- The transactions that have ended. -/
def ended : ℕ → List Transaction
  | 0 => []
  | n + 1 => ended n ++ transaction (machine.trace s inp n) (inp n)

/-- The call that a clock begins. -/
def begins (s : State) (i : In) : List Call :=
  if i.access = true ∧ ¬ s.done < s.proc.accesses.length then [i.call] else []

def begun : ℕ → List Call
  | 0 => []
  | n + 1 => begun n ++ begins (machine.trace s inp n) (inp n)

end

/-- The call that has begun and has not ended on the bus. -/
def State.pending (s : State) : List Call :=
  match s.proc with
  | .init => []
  | .call c => if s.done ≤ 4 ∨ c.active s.hpi = true then [c] else []

/-! ## The pins -/

/-- The pins when `k` accesses of the call had been carried out a clock ago. -/
structure Lags (r : HpiIoIntf.Regs) (c : Call) (k : ℕ) : Prop where
  active : c.active r = true ↔ 3 ≤ k ∧ k ≤ 4
  /-- The other strobe is up. -/
  single : (writing r = true → ∃ a d, c = .write a d) ∧ (reading r = true → ∃ a, c = .read a)
  address : c.active r = true → r.otgAddr = c.address.setWidth 2
  data : ∀ a d, c = .write a d → 4 ≤ k → r.fromSwDataOutBuffer = d

theorem lags_next {s : State} (h : Tracks s) {c : Call} (hp : s.proc = .call c) (i : In) :
    Lags (machine.next s i).hpi c s.done := by
  unfold Tracks at h
  rw [hp] at h
  rw [next_hpi]
  cases c with
  | write a d =>
    obtain ⟨-, ha, hr, hc, hw, hd⟩ := h
    refine ⟨?_, ⟨fun _ => ⟨a, d, rfl⟩, fun hrd => ?_⟩, fun _ => ha, ?_⟩
    · simp only [Call.active, writing, Bool.and_eq_true, Bool.not_eq_true', hc, hw]
      omega
    · simp [reading, hr] at hrd
    · rintro a' d' ⟨⟩ hk
      exact hd hk
  | read a =>
    obtain ⟨-, ha, hw, hc, hr⟩ := h
    refine ⟨?_, ⟨fun hwr => ?_, fun _ => ⟨a, rfl⟩⟩, fun _ => ha, fun a' d' hcall => nomatch hcall⟩
    · simp only [Call.active, reading, Bool.and_eq_true, Bool.not_eq_true', hc, hr]
      omega
    · simp [writing, hw] at hwr

/-- Neither strobe. -/
def Silent (r : HpiIoIntf.Regs) : Prop := writing r = false ∧ reading r = false

theorem Silent.lags {r : HpiIoIntf.Regs} (h : Silent r) (c : Call) : Lags r c 0 := by
  obtain ⟨hw, hr⟩ := h
  have ha : c.active r = false := by cases c <;> assumption
  refine ⟨?_, ⟨fun h => ?_, fun h => ?_⟩, fun h => ?_, fun _ _ _ h => ?_⟩
  · simp [ha]
  · exact absurd (h.symm.trans hw) (by decide)
  · exact absurd (h.symm.trans hr) (by decide)
  · exact absurd (h.symm.trans ha) (by decide)
  · exact absurd h (by decide)

theorem Lags.silent {r : HpiIoIntf.Regs} {c : Call} {k : ℕ} (h : Lags r c k) (hk : ¬ (3 ≤ k ∧ k ≤ 4)) : Silent r := by
  have ha := h.active.not.2 hk
  refine ⟨Bool.eq_false_of_not_eq_true fun hw => ?_, Bool.eq_false_of_not_eq_true fun hr => ?_⟩
  · obtain ⟨a, d, rfl⟩ := h.single.1 hw
    exact ha hw
  · obtain ⟨a, rfl⟩ := h.single.2 hr
    exact ha hr

theorem Lags.not_reading {r : HpiIoIntf.Regs} {a : BitVec 8} {d : BitVec 16} {k : ℕ} (h : Lags r (.write a d) k) :
    reading r = false :=
  Bool.eq_false_of_not_eq_true fun hr => by
    obtain ⟨_, hc⟩ := h.single.2 hr
    exact nomatch hc

theorem Lags.not_writing {r : HpiIoIntf.Regs} {a : BitVec 8} {k : ℕ} (h : Lags r (.read a) k) : writing r = false :=
  Bool.eq_false_of_not_eq_true fun hw => by
    obtain ⟨_, _, hc⟩ := h.single.1 hw
    exact nomatch hc

theorem silent_of_idle {s : State} (h : Idle s.pio) (i : In) : Silent (machine.next s i).hpi := by
  obtain ⟨hc, -, -⟩ := h
  rw [next_hpi]
  simp [Silent, writing, reading, hc]

theorem transaction_silent {s : State} (h : Silent s.hpi) (i : In) : transaction s i = [] := by
  simp [transaction, h.1, h.2]

/-- A call ends when its strobe goes up. -/
theorem transaction_lags {s : State} {c : Call} {j k : ℕ} (i : In) (h : Lags s.hpi c j)
    (h' : Lags (machine.next s i).hpi c k) (hv : ∀ a d, c = .write a d → j = 4 → k = 5 → s.bus i = d)
    (hk : j ≤ k ∧ k ≤ j + 1) : transaction s i = if j = 4 ∧ k = 5 then [c.bus] else [] := by
  by_cases hj : 3 ≤ j ∧ j ≤ 4
  · have ha := h.active.2 hj
    have hadr := h.address ha
    cases c with
    | write a d =>
      have hr := h.not_reading
      have hw : writing s.hpi = true := ha
      by_cases he : j = 4 ∧ k = 5
      · have hn : writing (machine.next s i).hpi = false :=
          Bool.eq_false_of_not_eq_true (h'.active.not.2 (by omega))
        simp [transaction, hr, hw, hn, he, hadr, Call.bus, Call.address, hv a d rfl he.1 he.2]
      · have hn : writing (machine.next s i).hpi = true := h'.active.2 (by omega)
        simp [transaction, hr, hn, he]
    | read a =>
      have hw := h.not_writing
      have hr : reading s.hpi = true := ha
      by_cases he : j = 4 ∧ k = 5
      · have hn : reading (machine.next s i).hpi = false :=
          Bool.eq_false_of_not_eq_true (h'.active.not.2 (by omega))
        simp [transaction, hr, hw, hn, he, hadr, Call.bus, Call.address]
      · have hn : reading (machine.next s i).hpi = true := h'.active.2 (by omega)
        simp [transaction, hw, hn, he]
  · rw [transaction_silent (h.silent hj), if_neg (by omega)]

/-! ## The word on the bus -/

theorem chipDrive_none {r : HpiIoIntf.Regs} (h : reading r = false) (chip : BitVec 2 → BitVec 16) :
    HpiIoIntf.chipDrive r chip = none := by
  have hc : (r.otgCsN || r.otgRdN) = true := by
    rw [reading, ← Bool.not_or, Bool.not_eq_false'] at h
    exact h
  rw [HpiIoIntf.chipDrive, if_pos hc]

theorem released_of_idle {s : State} (hw : s.pio.w = true) (hr : reading s.hpi = false) (i : In) : Released s i :=
  ⟨by simp [State.drive, HpiIoIntf.drive, hw], chipDrive_none hr i.chip⟩

theorem bus_driven {s : State} (hw : s.pio.w = false) (hr : reading s.hpi = false) (i : In) :
    s.bus i = s.hpi.fromSwDataOutBuffer := by
  simp [State.bus, State.drive, HpiIoIntf.drive, HpiIoIntf.resolve, chipDrive_none hr, hw]

/-! ## One clock -/

/-- The pins are those of the access before or, if it was just now carried out, of the one before that; `v` is the word
of the clock before. -/
structure Linked (accessed : Bool) (s : State) (v : BitVec 16) : Prop where
  tracks : Tracks s
  start : s.proc = .init → s.done = 5 ∧ Silent s.hpi
  lags : ∀ c, s.proc = .call c → ∃ j, Lags s.hpi c j ∧ (j = s.done ∨ (accessed = true ∧ j + 1 = s.done))
  word : ∀ a d, s.proc = .call (.write a d) → s.done = 5 → writing s.hpi = true → v = d

theorem pending_call {s : State} {c : Call} {j : ℕ} (hp : s.proc = .call c) (h : Lags s.hpi c j) :
    s.pending = if s.done ≤ 4 ∨ (3 ≤ j ∧ j ≤ 4) then [c] else [] := by
  unfold State.pending
  rw [hp]
  exact if_congr (or_congr_right h.active) rfl rfl

section
variable {b : Bool} {s : State} {v : BitVec 16} (h : Linked b s v) (i : In)

include h in
/-- Between two calls, or before the first. -/
theorem Linked.rests (hd : ¬ s.done < s.proc.accesses.length) : s.pending = [] ∧ transaction s i = [] := by
  have ht := h.tracks
  cases hp : s.proc with
  | init =>
    refine ⟨by rw [State.pending, hp], transaction_silent (h.start hp).2 i⟩
  | call c =>
    obtain ⟨j, hl, hj⟩ := h.lags c hp
    have h6 : 6 ≤ s.done := by
      rw [hp] at hd
      cases c <;> exact Nat.not_lt.1 hd
    refine ⟨?_, transaction_silent (hl.silent (by omega)) i⟩
    rw [pending_call hp hl, if_neg (by omega)]

variable (hold : Released s i → s.bus i = v)
include h hold

/-- In the middle of a call: `k` accesses, and one more if this clock carries one out. -/
theorem Linked.goes_on {c : Call} (hp : s.proc = .call c) (hp' : (machine.next s i).proc = .call c)
    (hd : (machine.next s i).done = s.done ∧ i.access = false ∨ (machine.next s i).done = s.done + 1 ∧
      i.access = true ∧ b = false) :
    Linked i.access (machine.next s i) (s.bus i) ∧
      s.pending.map Call.bus = transaction s i ++ (machine.next s i).pending.map Call.bus := by
  have ht := h.tracks
  obtain ⟨j, hl, hj⟩ := h.lags c hp
  have hl' := lags_next ht hp i
  refine ⟨⟨tracks_next ht i, fun h0 => absurd (h0.symm.trans hp') (by simp), fun c' hc => ?_, fun a d hc h5 hw => ?_⟩, ?_⟩
  · obtain rfl : c = c' := Proc.call.inj (hp'.symm.trans hc)
    refine ⟨s.done, hl', ?_⟩
    rcases hd with ⟨e, -⟩ | ⟨e, ha, -⟩
    · exact Or.inl e.symm
    · exact Or.inr ⟨ha, e.symm⟩
  · obtain rfl : c = .write a d := Proc.call.inj (hp'.symm.trans hc)
    have h4 := hl'.active.1 hw
    -- it has just stored the rising strobe, and the data more than a clock before
    rcases hd with ⟨e, -⟩ | ⟨e, -, hb⟩
    · omega
    · have hj4 : j = s.done := hj.resolve_right fun h' => by rw [hb] at h'; exact Bool.false_ne_true h'.1
      have hpw : s.pio.w = false := by
        unfold Tracks at ht
        rw [hp] at ht
        exact ht.2.2.2.2.1.2 h4
      rw [bus_driven hpw hl.not_reading]
      exact hl.data a d rfl (by omega)
  · have hv : ∀ a d, c = .write a d → j = 4 → s.done = 5 → s.bus i = d := by
      rintro a d rfl h4 h5
      have hpw : s.pio.w = true := by
        unfold Tracks at ht
        rw [hp] at ht
        rw [← Bool.not_eq_false, ht.2.2.2.2.1]
        omega
      rw [hold (released_of_idle hpw hl.not_reading i)]
      exact h.word a d hp h5 (hl.active.2 (by omega))
    rw [transaction_lags i hl hl' hv (by omega), pending_call hp hl, pending_call hp' hl']
    by_cases he : j = 4 ∧ s.done = 5
    · rw [if_pos he, if_pos (Or.inr (by omega)), if_neg (by omega)]
      rfl
    · rw [if_neg he]
      by_cases hk : s.done ≤ 4 ∨ (3 ≤ j ∧ j ≤ 4)
      · rw [if_pos hk, if_pos (by omega)]
        rfl
      · rw [if_neg hk, if_neg (by omega)]
        rfl

/-- **One clock.** -/
theorem Linked.next (hb : i.access = true → b = false) : Linked i.access (machine.next s i) (s.bus i) ∧
    s.pending.map Call.bus ++ (begins s i).map Call.bus =
      transaction s i ++ (machine.next s i).pending.map Call.bus := by
  have ht := h.tracks
  obtain ⟨ha, e1, e2, -⟩ | ⟨ha, hlt, e1, e2⟩ | ⟨ha, hlt, e1, e2⟩ := next_cases s i
  · have hbg : begins s i = [] := if_neg fun h' => by rw [ha] at h'; exact Bool.false_ne_true h'.1
    rw [hbg, List.map_nil, List.append_nil]
    cases hp : s.proc with
    | call c => exact h.goes_on i hold hp (e1.trans hp) (Or.inl ⟨e2, ha⟩)
    | init =>
      obtain ⟨h5, hs⟩ := h.start hp
      have hlt : ¬ s.done < s.proc.accesses.length := by
        rw [hp, h5]
        exact Nat.lt_irrefl 5
      obtain ⟨hpe, htr⟩ := h.rests i hlt
      have hs' : Silent (machine.next s i).hpi := silent_of_idle (ht.idle hlt) i
      have hp' := e1.trans hp
      refine ⟨⟨tracks_next ht i, fun _ => ⟨e2.trans h5, hs'⟩, fun c hc => absurd (hp'.symm.trans hc) (by simp),
        fun a d hc => absurd (hp'.symm.trans hc) (by simp)⟩, ?_⟩
      rw [hpe, htr, State.pending, hp']
      rfl
  · have hbg : begins s i = [] := if_neg fun h' => h'.2 hlt
    rw [hbg, List.map_nil, List.append_nil]
    cases hp : s.proc with
    | call c => exact h.goes_on i hold hp (e1.trans hp) (Or.inr ⟨e2, ha, hb ha⟩)
    | init =>
      rw [hp, (h.start hp).1] at hlt
      exact absurd hlt (Nat.lt_irrefl 5)
  · have hbg : begins s i = [i.call] := if_pos ⟨ha, hlt⟩
    obtain ⟨hpe, htr⟩ := h.rests i hlt
    have hl : Lags (machine.next s i).hpi i.call 0 := (silent_of_idle (ht.idle hlt) i).lags i.call
    refine ⟨⟨tracks_next ht i, fun h0 => absurd (h0.symm.trans e1) (by simp), fun c hc => ?_, fun a d _ h5 => ?_⟩, ?_⟩
    · obtain rfl : i.call = c := Proc.call.inj (e1.symm.trans hc)
      exact ⟨0, hl, Or.inr ⟨ha, e2.symm⟩⟩
    · exact absurd (e2.symm.trans h5) (by decide)
    · rw [hbg, hpe, htr, pending_call e1 hl, if_pos (Or.inl (e2.trans_le (by decide)))]
      rfl

end

/-! ## Runs -/

theorem Spaced.shift {inp : ℕ → In} (h : Spaced 3 inp) (k : ℕ) : Spaced 2 fun j => inp (k + j) := fun t u hlt ht hu => by
  have := h (k + t) (k + u) (by omega) ht hu
  omega

/-- When `IO_init` is through, the chip sees no strobe. -/
theorem linked_init {s : State} (h : Reachable s) (hp : s.proc = .init) (hd : s.done = 5) (v : BitVec 16) :
    Linked false s v := by
  refine ⟨h.tracks, fun _ => ⟨hd, ?_⟩, fun c hc => absurd (hp.symm.trans hc) (by simp),
    fun a d hc => absurd (hp.symm.trans hc) (by simp)⟩
  cases h with
  | init hs => exact absurd (hs.2.symm.trans hd) (by decide)
  | @step s i h =>
    obtain ⟨hr, hw⟩ := (strobes_before (Reachable.tracks h) i fun _ => hd).2.2 hp
    rw [next_hpi]
    simp [Silent, writing, reading, hr, hw]

section
variable {s : State} (h : Reachable s) (hp : s.proc = .init) (hd : s.done = 5) {inp : ℕ → In} (hsp : Spaced 2 inp)
  (hold : BusHold s inp) (n : ℕ)
include h hp hd hsp hold

theorem linked_trace : ∃ b v, Linked b (machine.trace s inp n) v ∧ ((inp n).access = true → b = false) ∧
    (Released (machine.trace s inp n) (inp n) → (machine.trace s inp n).bus (inp n) = v) ∧
    ended s inp n ++ (machine.trace s inp n).pending.map Call.bus = (begun s inp n).map Call.bus := by
  induction n with
  | zero =>
    refine ⟨false, s.bus (inp 0), linked_init h hp hd _, fun _ => rfl, fun _ => rfl, ?_⟩
    rw [Machine.trace_zero, State.pending, hp]
    rfl
  | succ n ih =>
    obtain ⟨b, v, hl, hb, hv, he⟩ := ih
    obtain ⟨hl', hstep⟩ := hl.next (inp n) hv hb
    refine ⟨(inp n).access, _, hl', fun ha => Bool.eq_false_of_not_eq_true fun hn => ?_, hold n, ?_⟩
    · have := hsp n (n + 1) (Nat.lt_succ_self n) hn ha
      omega
    · rw [begun, List.map_append, ← he, List.append_assoc, hstep, ended, List.append_assoc]
      rfl

/-- Between two calls nothing is in flight. -/
theorem ended_of_done (hlt : ¬ (machine.trace s inp n).done < (machine.trace s inp n).proc.accesses.length) :
    ended s inp n = (begun s inp n).map Call.bus := by
  obtain ⟨_, _, hl, _, _, he⟩ := linked_trace h hp hd hsp hold n
  rw [(hl.rests (inp n) hlt).1, List.map_nil, List.append_nil] at he
  exact he

/-- **The driver on the bus.** Once `IO_init` is through, whatever is called and however the accesses are spaced, two
clocks apart at least, on lines that keep their word: the transactions that have ended, and the call whose transaction
has not, are the calls begun, each once and in their order, with the address and the data of the call. -/
theorem bus_carries :
    ended s inp n ++ (machine.trace s inp n).pending.map Call.bus = (begun s inp n).map Call.bus := by
  obtain ⟨_, _, _, _, _, he⟩ := linked_trace h hp hd hsp hold n
  exact he

end

/-! ## Lines with a keeper -/

/-- The driver, and a keeper that remembers the word of the clock before. -/
def keeper : Machine In (State × BitVec 16) where
  next p i := (machine.next p.1 { i with float := p.2 }, p.1.bus { i with float := p.2 })

section
variable (s : State) (v : BitVec 16) (inp : ℕ → In)

/-- The inputs when the released lines float at the word of the keeper. -/
def kept (n : ℕ) : In := { inp n with float := (keeper.trace (s, v) inp n).2 }

theorem trace_kept : ∀ n, machine.trace s (kept s v inp) n = (keeper.trace (s, v) inp n).1
  | 0 => rfl
  | n + 1 => by
    rw [Machine.trace_succ, trace_kept n]
    rfl

theorem busHold_kept : BusHold s (kept s v inp) := by
  intro n h
  obtain ⟨hd, hc⟩ := h
  rw [State.bus, hd, hc, trace_kept s v inp n]
  rfl

theorem Spaced.kept {k : ℕ} {inp : ℕ → In} (h : Spaced k inp) : Spaced k (kept s v inp) := h

end

/-- An access every second clock, writing to register 2. -/
def filling (t : ℕ) : In := ⟨decide (t % 2 = 0), .write 2 (BitVec.ofNat 16 t), fun _ => 0, 0⟩

theorem filling_spaced : Spaced 2 filling := by
  intro t u htu ht hu
  simp only [filling, decide_eq_true_eq] at ht hu
  omega

/-- `IO_init` is through. -/
def ready : State := machine.trace powerUp filling 10

theorem ready_reachable : Reachable ready := (Machine.Reachable.init powerUp_start).trace filling 10

/-- Two writes have ended. -/
theorem bus_carries_filling : ended ready (kept ready 0 filling) 26 = [.write 2 0, .write 2 12] := by
  have h := bus_carries ready_reachable (by decide +kernel) (by decide +kernel) (filling_spaced.kept ready 0)
    (busHold_kept ready 0 filling) 26
  have hb : begun ready (kept ready 0 filling) 26 = [.write 2 0, .write 2 12, .write 2 24] := by decide +kernel
  have hp : (machine.trace ready (kept ready 0 filling) 26).pending = [.write 2 24] := by decide +kernel
  rw [hb, hp] at h
  exact List.append_inj_left' h rfl

end Lab8.IoHandler
