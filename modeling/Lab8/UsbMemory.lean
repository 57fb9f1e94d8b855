import Lab8.Lib.Log
import Lab8.UsbBus
/-!
# `UsbRead` and `UsbWrite`, from the processor to the memory and back

Two calls each: the address goes into the chip's pointer, and the data goes through it. Between the program and the
memory there are a dozen accesses, the registers of `hpi_io_intf`, lines that have to keep their word (`BusHold`) and a
chip that stores what it likes meanwhile. With three clocks from access to access `UsbRead` returns what the memory
holds at its address at a clock of its second call (`usbRead_returns`), and what `UsbWrite` has written is there until
the chip stores something else (`usbWrite_stores`).

| here | there |
| --- | --- |
| `Serves` | the chip: it carries out what it sees on its pins, and presents the word at its pointer |
-/

namespace Lab8.Usb

open Clocked IoHandler

/-- The memory at every clock of a run: what the chip does in a clock is the transaction that ends with it, and stores
of its own, in any order. -/
structure Serves (s : IoHandler.State) (inp : ℕ → In) (chip : ℕ → PortState) (ops : ℕ → List Op) : Prop where
  host : ∀ n, Port.host (ops n) = (transaction (IoHandler.machine.trace s inp n) (inp n)).filterMap busOp
  next : ∀ n, chip (n + 1) = Port.run (· + 2) (chip n) (ops n)
  data : ∀ n, (inp n).chip 0 = (chip n).mem (chip n).ptr

/-- What has been done in `n` clocks from `u` on. -/
def history (ops : ℕ → List Op) (u : ℕ) : ℕ → List Op
  | 0 => []
  | n + 1 => history ops u n ++ ops (u + n)

theorem mem_history {ops : ℕ → List Op} {u : ℕ} {o : Op} : ∀ {n : ℕ}, o ∈ history ops u n →
    ∃ m, u ≤ m ∧ m < u + n ∧ o ∈ ops m
  | 0, h => nomatch h
  | n + 1, h => by
    rcases List.mem_append.1 h with h | h
    · obtain ⟨m, h1, h2, ho⟩ := mem_history h
      exact ⟨m, h1, by omega, ho⟩
    · exact ⟨u + n, by omega, by omega, h⟩

section
variable {s : IoHandler.State} {inp : ℕ → In} {chip : ℕ → PortState} {ops : ℕ → List Op} (hc : Serves s inp chip ops)
include hc

theorem Serves.chip_eq (u : ℕ) : ∀ n, chip (u + n) = Port.run (· + 2) (chip u) (history ops u n)
  | 0 => rfl
  | n + 1 => by rw [← Nat.add_assoc, hc.next, history, Port.run_append, ← Serves.chip_eq u n]

theorem Serves.host_history (u : ℕ) : ∀ n, (ended s inp (u + n)).filterMap busOp =
    (ended s inp u).filterMap busOp ++ Port.host (history ops u n)
  | 0 => (List.append_nil _).symm
  | n + 1 => by
    have e : Port.host (history ops u (n + 1)) = Port.host (history ops u n) ++ Port.host (ops (u + n)) :=
      List.filter_append _ _
    rw [← Nat.add_assoc, ended, List.filterMap_append, Serves.host_history u n, e, hc.host, List.append_assoc]

/-- The pointer, when the transaction before last has set it. -/
theorem Serves.ptr {n : ℕ} {a : BitVec 16} {ts : List Transaction} (h : ended s inp n = ts ++ [.write 2 a]) :
    (chip n).ptr = a := by
  have e := hc.chip_eq 0 n
  rw [Nat.zero_add] at e
  rw [e]
  have hh := hc.host_history 0 n
  rw [Nat.zero_add, h, List.filterMap_append] at hh
  have hl : Port.host (history ops 0 n) = ts.filterMap busOp ++ [.point a] := hh.symm
  exact Port.run_ptr_point _ hl _

end

/-! ## What has begun -/

section
variable {s : IoHandler.State} {inp : ℕ → In}

theorem begins_cases (s : IoHandler.State) (i : In) : (begins s i = [] ∧
      ((IoHandler.machine.next s i).proc = s.proc)) ∨
    (begins s i = [i.call] ∧ (IoHandler.machine.next s i).proc = .call i.call ∧
      (IoHandler.machine.next s i).done = 1) := by
  obtain ⟨ha, e1, -⟩ | ⟨ha, hlt, e1, -⟩ | ⟨ha, hlt, e1, e2⟩ := next_cases s i
  · exact Or.inl ⟨if_neg fun h => by rw [ha] at h; exact Bool.false_ne_true h.1, e1⟩
  · exact Or.inl ⟨if_neg fun h => h.2 hlt, e1⟩
  · exact Or.inr ⟨if_pos ⟨ha, hlt⟩, e1, e2⟩

/-- The processor is in the call begun last. -/
theorem proc_of_begun : ∀ {n : ℕ} {cs : List Call} {c : Call}, IoHandler.begun s inp n = cs ++ [c] →
    (IoHandler.machine.trace s inp n).proc = .call c
  | 0, _, _, h => absurd h (by simp [IoHandler.begun])
  | n + 1, cs, c, h => by
    rw [IoHandler.begun] at h
    obtain ⟨hb, hp⟩ | ⟨hb, hp, -⟩ := begins_cases (IoHandler.machine.trace s inp n) (inp n)
    · rw [hb, List.append_nil] at h
      exact hp.trans (proc_of_begun h)
    · rw [hb] at h
      obtain ⟨-, e⟩ := List.append_inj' h rfl
      rw [← List.singleton_inj.1 e]
      exact hp

/-- Where the call begun last has begun. -/
theorem exists_begins : ∀ {n : ℕ} {cs : List Call} {c : Call}, IoHandler.begun s inp n = cs ++ [c] →
    ∃ u < n, IoHandler.begun s inp u = cs ∧ (IoHandler.machine.trace s inp (u + 1)).done = 1 ∧
      ∀ j, u < j → j ≤ n → IoHandler.begun s inp j = cs ++ [c]
  | 0, _, _, h => absurd h (by simp [IoHandler.begun])
  | n + 1, cs, c, h => by
    have h0 := h
    rw [IoHandler.begun] at h
    obtain ⟨hb, -⟩ | ⟨hb, -, hd⟩ := begins_cases (IoHandler.machine.trace s inp n) (inp n)
    · rw [hb, List.append_nil] at h
      obtain ⟨u, hu, hcs, hdone, hall⟩ := exists_begins h
      refine ⟨u, Nat.lt_succ_of_lt hu, hcs, hdone, fun j h1 h2 => ?_⟩
      rcases Nat.le_succ_iff.1 h2 with h2 | rfl
      · exact hall j h1 h2
      · exact h0
    · rw [hb] at h
      obtain ⟨e, -⟩ := List.append_inj' h rfl
      refine ⟨n, Nat.lt_succ_self n, e, hd, fun j h1 h2 => ?_⟩
      obtain rfl : j = n + 1 := Nat.le_antisymm h2 h1
      exact h0

/-- In the middle of a call nothing begins. -/
theorem begun_of_busy {u n : ℕ} (hun : u ≤ n) (h : ∀ j, u ≤ j → j ≤ n → 3 ≤ (IoHandler.machine.trace s inp j).done) :
    IoHandler.begun s inp n = IoHandler.begun s inp u := by
  induction n, hun using Nat.le_induction with
  | base => rfl
  | succ n hn ih =>
    rw [IoHandler.begun, ih fun j h1 h2 => h j h1 (Nat.le_succ_of_le h2)]
    obtain ⟨hb, -⟩ | ⟨-, -, hd⟩ := begins_cases (IoHandler.machine.trace s inp n) (inp n)
    · rw [hb, List.append_nil]
    · have := h (n + 1) (Nat.le_succ_of_le hn) le_rfl
      rw [Machine.trace_succ, hd] at this
      exact absurd this (by decide)

end

/-! ## Runs after `IO_init` -/

theorem busHold_shift {s : IoHandler.State} {inp : ℕ → In} (h : BusHold s inp) (k : ℕ) :
    BusHold (IoHandler.machine.trace s inp k) fun j => inp (k + j) := fun n => by
  rw [← Machine.trace_add, ← Machine.trace_add]
  exact h (k + n)

section
variable {s : IoHandler.State} (hs : IoHandler.Start s) {inp : ℕ → In} (hsp : Spaced 3 inp) (hold : BusHold s inp)
  {k : ℕ} (hp : (IoHandler.machine.trace s inp k).proc = .init) (hd : (IoHandler.machine.trace s inp k).done = 5)
include hs hsp hold hp hd

/-- A call that has not let go of its strobe, and those before it. -/
theorem ended_before {n : ℕ} {cs : List Call} {c : Call}
    (hb : IoHandler.begun (IoHandler.machine.trace s inp k) (fun j => inp (k + j)) n = cs ++ [c])
    (hc : (IoHandler.machine.trace s inp (k + n)).done ≤ 4 ∨
      c.active (IoHandler.machine.trace s inp (k + n)).hpi = true) :
    ended (IoHandler.machine.trace s inp k) (fun j => inp (k + j)) n = cs.map Call.bus := by
  obtain ⟨_, _, _, _, _, h⟩ := linked_trace ((Machine.Reachable.init hs).trace inp k) hp hd (hsp.shift k)
    (busHold_shift hold k) n
  have hproc := proc_of_begun hb
  rw [Machine.trace_add] at hc
  have hpend : (IoHandler.machine.trace (IoHandler.machine.trace s inp k) (fun j => inp (k + j)) n).pending = [c] := by
    unfold State.pending
    rw [hproc]
    exact if_pos hc
  rw [hpend, hb, List.map_append] at h
  exact List.append_inj_left' h rfl

variable {chip : ℕ → PortState} {ops : ℕ → List Op}
  (hc : Serves (IoHandler.machine.trace s inp k) (fun j => inp (k + j)) chip ops)
include hc

/-- **`UsbRead`.** It returns what the memory holds at its address at some clock of its second call. -/
theorem usbRead_returns {n : ℕ} {cs : List Call} {a : BitVec 16}
    (hb : IoHandler.begun (IoHandler.machine.trace s inp k) (fun j => inp (k + j)) n = cs ++ usbRead a)
    (h6 : (IoHandler.machine.trace s inp (k + n)).done = 6) :
    ∃ u < n, (∀ j, u ≤ j → j ≤ n → (IoHandler.machine.trace s inp (k + j)).proc = .call (.read hpiData)) ∧
      (IoHandler.machine.trace s inp (k + n)).temp = (chip u).mem a := by
  have hb' : IoHandler.begun (IoHandler.machine.trace s inp k) (fun j => inp (k + j)) n =
      (cs ++ [.write hpiAddr a]) ++ [.read hpiData] := by rw [hb, List.append_assoc]; rfl
  have hproc : (IoHandler.machine.trace s inp (k + n)).proc = .call (.read hpiData) := by
    rw [Machine.trace_add]
    exact proc_of_begun hb'
  obtain ⟨w, hwn, hbusy, hpres, htemp⟩ := read_holds hs hsp (k + n) hpiData hproc (by omega)
  have hkw : k ≤ w := Nat.le_of_not_lt fun hlt =>
    absurd (hp.symm.trans (hbusy k hlt.le (Nat.le_add_right k n)).1) (by simp)
  obtain ⟨u, rfl⟩ := Nat.exists_eq_add_of_le hkw
  have hun : u < n := by omega
  refine ⟨u, hun, fun j h1 h2 => (hbusy (k + j) (by omega) (by omega)).1, ?_⟩
  have hbu : IoHandler.begun (IoHandler.machine.trace s inp k) (fun j => inp (k + j)) n =
      IoHandler.begun (IoHandler.machine.trace s inp k) (fun j => inp (k + j)) u := by
    refine begun_of_busy hun.le fun j h1 h2 => ?_
    rw [← Machine.trace_add]
    exact (hbusy (k + j) (by omega) (by omega)).2
  have hact : (Call.read hpiData).active (IoHandler.machine.trace s inp (k + u)).hpi = true := by
    simp [Call.active, reading, hpres.csN, hpres.rdN]
  have hend := ended_before hs hsp hold hp hd (hbu.symm.trans hb') (Or.inr hact)
  rw [List.map_append] at hend
  rw [htemp, ← hc.ptr hend]
  exact hc.data u

/-- **`UsbWrite`.** When it has returned, its data is at its address, or what the chip has stored there since its second
call began. -/
theorem usbWrite_stores {n : ℕ} {cs : List Call} {a d : BitVec 16}
    (hb : IoHandler.begun (IoHandler.machine.trace s inp k) (fun j => inp (k + j)) n = cs ++ usbWrite a d)
    (h6 : (IoHandler.machine.trace s inp (k + n)).done = 6) :
    (chip n).mem a = d ∨
      ∃ m < n, (IoHandler.machine.trace s inp (k + m)).proc = .call (.write hpiData d) ∧
        .store a ((chip n).mem a) ∈ ops m := by
  have hb' : IoHandler.begun (IoHandler.machine.trace s inp k) (fun j => inp (k + j)) n =
      (cs ++ [.write hpiAddr a]) ++ [.write hpiData d] := by rw [hb, List.append_assoc]; rfl
  obtain ⟨u, hun, hbu, hdu, hall⟩ := exists_begins hb'
  have hproc : ∀ j, u < j → j ≤ n → (IoHandler.machine.trace s inp (k + j)).proc = .call (.write hpiData d) := by
    intro j h1 h2
    rw [Machine.trace_add]
    exact proc_of_begun (hall j h1 h2)
  rw [← Machine.trace_add] at hdu
  have hstart := ended_before hs hsp hold hp hd (hall (u + 1) (Nat.lt_succ_self u) hun) (Or.inl (by omega))
  have hlast := ended_of_done ((Machine.Reachable.init hs).trace inp k) hp hd (hsp.shift k) (busHold_shift hold k) n (by
    rw [← Machine.trace_add, hproc n hun le_rfl, h6]
    exact Nat.lt_irrefl 6)
  obtain ⟨e, he⟩ := Nat.exists_eq_add_of_le (show u + 1 ≤ n from hun)
  have hhost : Port.host (history ops (u + 1) e) = [d].map .put := by
    have hh := hc.host_history (u + 1) e
    rw [← he, hstart, hlast, hb', List.map_append, List.filterMap_append] at hh
    exact (List.append_cancel_left hh).symm
  have hptr : (chip (u + 1)).ptr = a := by
    rw [List.map_append] at hstart
    exact hc.ptr hstart
  let R (x w : BitVec 16) : Prop := x = a → w = d ∨ .store a w ∈ history ops (u + 1) e
  have hown : Port.Stores R (history ops (u + 1) e) := fun x w hw hx => Or.inr (hx ▸ hw)
  have hval : ∀ (i : ℕ) (hi : i < [d].length), R ((· + 2)^[i] (chip (u + 1)).ptr) [d][i] := by
    intro i hi _
    obtain rfl : i = 0 := Nat.lt_one_iff.1 hi
    exact Or.inl rfl
  have hput : R (chip (u + 1)).ptr ((Port.run (· + 2) (chip (u + 1)) (history ops (u + 1) e)).mem (chip (u + 1)).ptr) :=
    Port.run_puts hhost hval hown 0 Nat.one_pos
  rw [← hc.chip_eq (u + 1) e, ← he, hptr] at hput
  rcases hput rfl with h | h
  · exact Or.inl h
  · obtain ⟨m, h1, h2, hm⟩ := mem_history h
    exact Or.inr ⟨m, by omega, hproc m h1 (by omega), hm⟩

end

/-! ## A chip that stores nothing of its own -/

/-- Processor, lines that keep their word and chip, closed: what is on the bus goes into the memory, and what is in the
memory on the bus. -/
structure Together where
  host : IoHandler.State
  word : BitVec 16
  chip : PortState

/-- What the processor decides at a clock. -/
structure Tick where
  access : Bool
  call : Call

def Together.input (t : Together) (i : Tick) : In := ⟨i.access, i.call, fun _ => t.chip.mem t.chip.ptr, t.word⟩

def Together.ops (t : Together) (i : Tick) : List Op := (transaction t.host (t.input i)).filterMap busOp

def together : Machine Tick Together where
  next t i := ⟨IoHandler.machine.next t.host (t.input i), t.host.bus (t.input i),
    Port.run (· + 2) t.chip (t.ops i)⟩

theorem host_busOps (ts : List Transaction) : Port.host (ts.filterMap busOp) = ts.filterMap busOp := by
  refine List.filter_eq_self.2 fun o ho => ?_
  obtain ⟨c, -, hc⟩ := List.mem_filterMap.1 ho
  cases c with
  | write a d =>
    rw [busOp] at hc
    by_cases h2 : a = 2
    · rw [if_pos h2] at hc
      exact Option.some.inj hc ▸ rfl
    · by_cases h0 : a = 0
      · rw [if_neg h2, if_pos h0] at hc
        exact Option.some.inj hc ▸ rfl
      · rw [if_neg h2, if_neg h0] at hc
        exact absurd hc (Option.some_ne_none o).symm
  | read a =>
    rw [busOp] at hc
    by_cases h0 : a = 0
    · rw [if_pos h0] at hc
      exact Option.some.inj hc ▸ rfl
    · rw [if_neg h0] at hc
      exact absurd hc (Option.some_ne_none o).symm

section
variable (t : Together) (raw : ℕ → Tick)

/-- What the processor samples. -/
def inputs (n : ℕ) : In := (together.trace t raw n).input (raw n)

theorem trace_inputs : ∀ n, IoHandler.machine.trace t.host (inputs t raw) n = (together.trace t raw n).host
  | 0 => rfl
  | n + 1 => by
    rw [Machine.trace_succ, trace_inputs n]
    rfl

theorem busHold_inputs : BusHold t.host (inputs t raw) := by
  intro n h
  obtain ⟨hd, hc⟩ := h
  rw [State.bus, hd, hc, trace_inputs]
  rfl

theorem serves_together : Serves t.host (inputs t raw) (fun n => (together.trace t raw n).chip)
    (fun n => (together.trace t raw n).ops (raw n)) := by
  refine ⟨fun n => ?_, fun _ => rfl, fun _ => rfl⟩
  rw [trace_inputs]
  exact host_busOps _

/-- From any clock on. -/
theorem serves_from (k : ℕ) : Serves (IoHandler.machine.trace t.host (inputs t raw) k)
    (fun j => inputs t raw (k + j)) (fun n => (together.trace t raw (k + n)).chip)
    (fun n => (together.trace t raw (k + n)).ops (raw (k + n))) := by
  have h := serves_together (together.trace t raw k) fun j => raw (k + j)
  have e : inputs (together.trace t raw k) (fun j => raw (k + j)) = fun j => inputs t raw (k + j) := by
    funext j
    rw [inputs, inputs, Machine.trace_add]
  simp only [e, ← Machine.trace_add] at h
  rw [trace_inputs]
  exact h

end

/-- `UsbWrite(0x0144, 0x1234)` and `UsbRead(0x0144)` in turn, an access every third clock. -/
def inTurn (n : ℕ) : Tick :=
  ⟨decide (n % 3 = 0), (usbWrite 0x0144 0x1234 ++ usbRead 0x0144).getD ((n - 15) / 18 % 4) (.read 0)⟩

def atStart : Together := ⟨IoHandler.powerUp, 0, ⟨0, fun _ => 0⟩⟩

theorem inTurn_spaced : Spaced 3 (inputs atStart inTurn) := by
  intro t u htu ht hu
  simp only [inputs, Together.input, inTurn, decide_eq_true_eq] at ht hu
  omega

theorem inTurn_init : (IoHandler.machine.trace IoHandler.powerUp (inputs atStart inTurn) 13).proc = .init ∧
    (IoHandler.machine.trace IoHandler.powerUp (inputs atStart inTurn) 13).done = 5 := by
  have e := trace_inputs atStart inTurn 13
  change IoHandler.machine.trace IoHandler.powerUp _ _ = _ at e
  rw [e]
  decide +kernel

/-- What has been written is there, nobody else storing. -/
theorem usbWrite_stores_once : (together.trace atStart inTurn (13 + 36)).chip.mem 0x0144 = 0x1234 := by
  have hb : IoHandler.begun (IoHandler.machine.trace IoHandler.powerUp (inputs atStart inTurn) 13)
      (fun j => inputs atStart inTurn (13 + j)) 36 = [] ++ usbWrite 0x0144 0x1234 := by decide +kernel
  have h := usbWrite_stores powerUp_start inTurn_spaced (busHold_inputs atStart inTurn) inTurn_init.1 inTurn_init.2
    (serves_from atStart inTurn 13) hb (by decide +kernel)
  rcases h with h | ⟨m, -, -, hm⟩
  · exact h
  · rw [Together.ops, ← host_busOps] at hm
    exact Bool.noConfusion (List.mem_filter.1 hm).2

/-- And read back. -/
theorem usbRead_returns_once : ∃ u < 72,
    (∀ j, u ≤ j → j ≤ 72 →
      (IoHandler.machine.trace IoHandler.powerUp (inputs atStart inTurn) (13 + j)).proc = .call (.read hpiData)) ∧
    (IoHandler.machine.trace IoHandler.powerUp (inputs atStart inTurn) (13 + 72)).temp =
      (together.trace atStart inTurn (13 + u)).chip.mem 0x0144 := by
  have hb : IoHandler.begun (IoHandler.machine.trace IoHandler.powerUp (inputs atStart inTurn) 13)
      (fun j => inputs atStart inTurn (13 + j)) 72 = usbWrite 0x0144 0x1234 ++ usbRead 0x0144 := by decide +kernel
  exact usbRead_returns powerUp_start inTurn_spaced (busHold_inputs atStart inTurn) inTurn_init.1 inTurn_init.2
    (serves_from atStart inTurn 13) hb (by decide +kernel)

end Lab8.Usb
