import Mathlib.Logic.Function.Basic
import Lab8.IoHandler
/-!
# Waiting for the USB controller: `UsbWaitTDListDone` (usb.c:529-549)

The processor polls a message register of the controller: read it, clear it, look at what was read, again. Each
of the two takes two calls of the driver, an address and an access to the data at it. The controller stores
its messages in between, whenever it likes.

| here | there |
| --- | --- |
| `usbRead`, `usbWrite` | `UsbRead`, `UsbWrite` (usb.c:41-66) |
| `round` | one pass of the loop: `UsbRead` and the clearing `UsbWrite` (:533-534, :545-546) |
| `State.perform` | the chip's side of a call: `HPI_ADDR` sets the pointer, `HPI_DATA` goes through it and moves it on |

A message that comes between the read and the clear is gone (`message_lost`), and only that one
(`message_kept_iff`). `UsbGetRetryCnt` (:557-560) clears the register only if it has read the message.
-/

namespace Lab8.Usb

open Clocked IoHandler

def hpiData : BitVec 8 := 0
def hpiAddr : BitVec 8 := 2
def hpiSie1MsgAdr : BitVec 16 := 0x0144
def husbTDListDone : BitVec 16 := 0x1000

def usbWrite (address data : BitVec 16) : List Call := [.write hpiAddr address, .write hpiData data]
def usbRead (address : BitVec 16) : List Call := [.write hpiAddr address, .read hpiData]

def round : List Call := usbRead hpiSie1MsgAdr ++ usbWrite hpiSie1MsgAdr 0

structure State where
  /-- The chip's address pointer. -/
  ptr : BitVec 16
  /-- The chip's memory, message registers included. -/
  mem : BitVec 16 → BitVec 16
  /-- How many calls of the round have been carried out. -/
  pc : ℕ
  usbCtlVal : BitVec 16
  returned : Bool

def State.msg (s : State) : BitVec 16 := s.mem hpiSie1MsgAdr

/-- The controller's side: a message in the register. -/
def State.deposit (s : State) (v : BitVec 16) : State := { s with mem := Function.update s.mem hpiSie1MsgAdr v }

/-- One call. The round uses neither the mailbox nor the status register. -/
def State.perform (s : State) : Call → State
  | .write a d =>
    if a = hpiAddr then { s with ptr := d }
    else if a = hpiData then { s with mem := Function.update s.mem s.ptr d, ptr := s.ptr + 2 }
    else s
  | .read a => if a = hpiData then { s with usbCtlVal := s.mem s.ptr, ptr := s.ptr + 2 } else s

/-- The processor's next call; after the last one of a round it leaves the loop or starts over. -/
def State.host (s : State) : State :=
  if s.returned then s
  else
    match round[s.pc]? with
    | none => s
    | some c =>
      if s.pc + 1 < round.length then { s.perform c with pc := s.pc + 1 }
      else { s.perform c with pc := 0, returned := decide ((s.perform c).usbCtlVal = husbTDListDone) }

inductive Step
  | host
  /-- The controller stores a message. -/
  | store (v : BitVec 16)
deriving DecidableEq, Repr

def machine : Machine Step State where
  next s
    | .host => s.host
    | .store v => s.deposit v

/-- The call begins. -/
def Start (s : State) : Prop := s.pc = 0 ∧ s.returned = false

/-- The pointer stands at the message register when the data is accessed. -/
structure Polling (s : State) : Prop where
  pc_lt : s.pc < 4
  ptr : s.pc = 1 ∨ s.pc = 3 → s.ptr = hpiSie1MsgAdr

/-! ## The calls of a round -/

theorem host_addr {s : State} (hr : s.returned = false) (h : s.pc = 0 ∨ s.pc = 2) :
    s.host = { s with ptr := hpiSie1MsgAdr, pc := s.pc + 1 } := by
  rcases s with ⟨ptr, mem, pc, v, ret⟩
  simp only at hr h
  rcases h with rfl | rfl <;> simp [State.host, hr, round, usbRead, usbWrite, State.perform]

theorem host_read {s : State} (hr : s.returned = false) (h : s.pc = 1) (hp : Polling s) :
    s.host = { s with usbCtlVal := s.msg, ptr := hpiSie1MsgAdr + 2, pc := 2 } := by
  have e := hp.ptr (Or.inl h)
  rcases s with ⟨ptr, mem, pc, v, ret⟩
  simp only at hr h e
  subst h e
  simp [State.host, hr, round, usbRead, usbWrite, State.perform, State.msg, hpiData]

/-- The clear, and the test at the end of the round. -/
theorem host_clear {s : State} (hr : s.returned = false) (h : s.pc = 3) (hp : Polling s) :
    s.host = { s with
      mem := Function.update s.mem hpiSie1MsgAdr 0
      ptr := hpiSie1MsgAdr + 2
      pc := 0
      returned := decide (s.usbCtlVal = husbTDListDone) } := by
  have e := hp.ptr (Or.inr h)
  rcases s with ⟨ptr, mem, pc, v, ret⟩
  simp only at hr h e
  subst h e
  simp [State.host, hr, round, usbRead, usbWrite, State.perform, hpiData, hpiAddr]

theorem host_returned {s : State} (hr : s.returned = true) : s.host = s := by
  unfold State.host
  rw [if_pos hr]

theorem polling_next {s : State} (h : Polling s) (i : Step) : Polling (machine.next s i) := by
  cases i with
  | store v => exact ⟨h.pc_lt, h.ptr⟩
  | host =>
    change Polling s.host
    cases hr : s.returned with
    | true => rw [host_returned hr]; exact h
    | false =>
      have hlt := h.pc_lt
      obtain h0 | h1 | h2 | h3 : s.pc = 0 ∨ s.pc = 1 ∨ s.pc = 2 ∨ s.pc = 3 := by omega
      · rw [host_addr hr (Or.inl h0)]
        exact ⟨by simp [h0], fun _ => rfl⟩
      · rw [host_read hr h1 h]
        exact ⟨by simp, by simp⟩
      · rw [host_addr hr (Or.inr h2)]
        exact ⟨by simp [h2], fun _ => rfl⟩
      · rw [host_clear hr h3 h]
        exact ⟨by simp, by simp⟩

theorem Start.polling {s : State} (h : Start s) : Polling s := ⟨by rw [h.1]; decide, by simp [h.1]⟩

theorem polling_trace {s : State} (hs : Start s) (inp : ℕ → Step) : ∀ n, Polling (machine.trace s inp n)
  | 0 => hs.polling
  | n + 1 => polling_next (polling_trace hs inp n) (inp n)

/-! ## Lost messages -/

section
variable (s : State) (inp : ℕ → Step)

/-- The controller stores nothing from step `m + 1` to step `n`. -/
def Undisturbed (m n : ℕ) : Prop := ∀ k, m < k → k < n → inp k = .host

/-- Step `k` is a read of the message register that returns `HUSB_TDListDone`. -/
def ReadDone (k : ℕ) : Prop :=
  inp k = .host ∧ (machine.trace s inp k).returned = false ∧ (machine.trace s inp k).pc = 1 ∧
    (machine.trace s inp (k + 1)).usbCtlVal = husbTDListDone

/-- A message stored at step `m` is still there before step `n` or has been read since. -/
def Kept (m n : ℕ) : Prop :=
  (machine.trace s inp n).msg = husbTDListDone ∨ ∃ k, m < k ∧ k < n ∧ ReadDone s inp k

/-- At step `m` the processor is between a read and its clear, and gets to the clear before the controller
stores again. -/
def Clears (m : ℕ) : Prop :=
  (machine.trace s inp m).returned = false ∧
    (((machine.trace s inp m).pc = 2 ∧ inp (m + 1) = .host ∧ inp (m + 2) = .host) ∨
      ((machine.trace s inp m).pc = 3 ∧ inp (m + 1) = .host))

end

theorem trace_host {s : State} {inp : ℕ → Step} {k : ℕ} (h : inp k = .host) :
    machine.trace s inp (k + 1) = (machine.trace s inp k).host := by
  rw [Machine.trace_succ, h]; rfl

section
variable {s : State} (hs : Start s) {inp : ℕ → Step} {m : ℕ} (hm : inp m = .store husbTDListDone)

section
include hm

theorem trace_stored (s : State) :
    machine.trace s inp (m + 1) = (machine.trace s inp m).deposit husbTDListDone := by
  rw [Machine.trace_succ, hm]; rfl

theorem pc_stored (s : State) : (machine.trace s inp (m + 1)).pc = (machine.trace s inp m).pc := by
  rw [trace_stored hm]; rfl

theorem returned_stored (s : State) :
    (machine.trace s inp (m + 1)).returned = (machine.trace s inp m).returned := by
  rw [trace_stored hm]; rfl

theorem msg_stored (s : State) : (machine.trace s inp (m + 1)).msg = husbTDListDone := by
  rw [trace_stored hm]
  simp [State.msg, State.deposit]

end

include hs

/-- A read that finds the message returns it. -/
theorem readDone_of_msg {k : ℕ} (hk : inp k = .host) (hr : (machine.trace s inp k).returned = false)
    (h1 : (machine.trace s inp k).pc = 1) (hmsg : (machine.trace s inp k).msg = husbTDListDone) :
    ReadDone s inp k := by
  refine ⟨hk, hr, h1, ?_⟩
  rw [trace_host hk, host_read hr h1 (polling_trace hs inp k)]
  exact hmsg

omit hs in
/-- After the processor has left the loop it touches nothing. -/
theorem msg_of_returned {a : ℕ} (hr : (machine.trace s inp a).returned = true) {n : ℕ} (han : a ≤ n)
    (hu : ∀ k, a ≤ k → k < n → inp k = .host) : machine.trace s inp n = machine.trace s inp a := by
  induction han with
  | refl => rfl
  | @step n han ih =>
    rw [trace_host (hu n han n.lt_succ_self), ih fun k h1 h2 => hu k h1 (by omega), host_returned hr]

include hm

omit hs in
/-- A host step that only writes an address leaves the message. -/
theorem msg_after_addr (hr : (machine.trace s inp m).returned = false) (h1 : inp (m + 1) = .host)
    (h0 : (machine.trace s inp m).pc = 0 ∨ (machine.trace s inp m).pc = 2) :
    (machine.trace s inp (m + 2)).msg = husbTDListDone ∧ (machine.trace s inp (m + 2)).returned = false ∧
      (machine.trace s inp (m + 2)).pc = (machine.trace s inp m).pc + 1 := by
  have hpc := pc_stored hm s
  have hret := (returned_stored hm s).trans hr
  have hnext : machine.trace s inp (m + 2) = (machine.trace s inp (m + 1)).host := trace_host h1
  rw [host_addr hret (by rwa [hpc])] at hnext
  refine ⟨?_, ?_, ?_⟩
  · rw [hnext]; exact msg_stored hm s
  · rw [hnext]; exact hret
  · rw [hnext]; exact congrArg (· + 1) hpc

/-- Stored before the address of the read, the message is what the read finds. -/
theorem kept_of_addr (hr : (machine.trace s inp m).returned = false) (h0 : (machine.trace s inp m).pc = 0) {n : ℕ}
    (hn : m + 1 < n) (hu : Undisturbed inp m n) : Kept s inp m n := by
  obtain ⟨hmsg, hret, hpc⟩ := msg_after_addr hm hr (hu _ m.lt_succ_self hn) (Or.inl h0)
  obtain rfl | hn2 := Nat.eq_or_lt_of_le (Nat.succ_le_of_lt hn)
  · exact Or.inl hmsg
  · rw [h0] at hpc
    exact Or.inr ⟨m + 2, by omega, hn2, readDone_of_msg hs (hu _ (by omega) hn2) hret hpc hmsg⟩

/-- Stored anywhere else in the round, the message is found by the next read. -/
theorem kept_of_not_clears (hc : ¬ Clears s inp m) {n : ℕ} (hmn : m < n) (hu : Undisturbed inp m n) :
    Kept s inp m n := by
  have hmsg := msg_stored hm s
  have hpc := pc_stored hm s
  have hret := returned_stored hm s
  obtain rfl | hn := Nat.eq_or_lt_of_le (Nat.succ_le_of_lt hmn)
  · exact Or.inl hmsg
  have h1 : inp (m + 1) = .host := hu (m + 1) m.lt_succ_self hn
  cases hr : (machine.trace s inp m).returned with
  | true =>
    rw [hr] at hret
    left
    rw [msg_of_returned hret (Nat.le_of_lt hn) fun k hk => hu k hk]
    exact hmsg
  | false =>
    rw [hr] at hret
    have hlt := (polling_trace hs inp m).pc_lt
    obtain h0 | h0 | h0 | h0 : (machine.trace s inp m).pc = 0 ∨ (machine.trace s inp m).pc = 1 ∨
        (machine.trace s inp m).pc = 2 ∨ (machine.trace s inp m).pc = 3 := by omega
    · exact kept_of_addr hs hm hr h0 hn hu
    · rw [h0] at hpc
      exact Or.inr ⟨m + 1, by omega, hn, readDone_of_msg hs h1 hret hpc hmsg⟩
    · -- only the address of the clear is written: the clear itself would be against `hc`
      obtain rfl | hn2 := Nat.eq_or_lt_of_le (Nat.succ_le_of_lt hn)
      · exact Or.inl (msg_after_addr hm hr h1 (Or.inr h0)).1
      · exact absurd ⟨hr, Or.inl ⟨h0, h1, hu _ (by omega) hn2⟩⟩ hc
    · exact absurd ⟨hr, Or.inr ⟨h0, h1⟩⟩ hc

/-- Stored between a read and its clear, it is cleared without having been read. -/
theorem lost_of_clears (hc : Clears s inp m) : ∃ n, m < n ∧ Undisturbed inp m n ∧ ¬ Kept s inp m n := by
  have hpol := polling_trace hs inp
  have hpc := pc_stored hm s
  have hret := returned_stored hm s
  have hclear : ∀ k, (machine.trace s inp k).returned = false → (machine.trace s inp k).pc = 3 → inp k = .host →
      (machine.trace s inp (k + 1)).msg ≠ husbTDListDone := fun k h1 h2 h3 => by
    rw [trace_host h3, host_clear h1 h2 (hpol k)]
    simp only [State.msg, Function.update_self]
    decide
  obtain ⟨hr, ⟨h2, hh1, hh2⟩ | ⟨h3, hh1⟩⟩ := hc
  · obtain ⟨-, hret2, hpc2⟩ := msg_after_addr hm hr hh1 (Or.inr h2)
    rw [h2] at hpc2
    refine ⟨m + 3, by omega, fun k h1 h2 => ?_, ?_⟩
    · rcases (by omega : k = m + 1 ∨ k = m + 2) with rfl | rfl
      · exact hh1
      · exact hh2
    · rintro (h | ⟨k, h1, h2, -, -, hk, -⟩)
      · exact hclear (m + 2) hret2 hpc2 hh2 h
      · rcases (by omega : k = m + 1 ∨ k = m + 2) with rfl | rfl
        · omega
        · omega
  · rw [hr] at hret
    rw [h3] at hpc
    refine ⟨m + 2, by omega, fun k h1 h2 => ?_, ?_⟩
    · obtain rfl : k = m + 1 := by omega
      exact hh1
    · rintro (h | ⟨k, h1, h2, -, -, hk, -⟩)
      · exact hclear (m + 1) hret hpc hh1 h
      · obtain rfl : k = m + 1 := by omega
        omega

/-- **Messages.** A completion message that the controller does not overwrite stays in the register or is
returned by a read, unless it is stored between a read and its clear and the clear comes before the
controller's next message. -/
theorem message_kept_iff : (∀ n, m < n → Undisturbed inp m n → Kept s inp m n) ↔ ¬ Clears s inp m := by
  constructor
  · intro h hc
    obtain ⟨n, hmn, hu, hk⟩ := lost_of_clears hs hm hc
    exact hk (h n hmn hu)
  · exact fun hc n hmn hu => kept_of_not_clears hs hm hc hmn hu

end

/-- The call begins with nothing in memory. -/
def begun : State := ⟨0, fun _ => 0, 0, 0, false⟩

theorem begun_start : Start begun := ⟨rfl, rfl⟩

/-- The controller stores its message at step `m`, all other steps are the processor's. -/
def arriving (m n : ℕ) : Step := if n = m then .store husbTDListDone else .host

/-- The message comes right after the first read, which found nothing. -/
theorem message_lost : ¬ ∀ s : State, Start s → ∀ (inp : ℕ → Step) (m : ℕ), inp m = .store husbTDListDone →
    ∀ n, m < n → Undisturbed inp m n → Kept s inp m n := by
  intro h
  have hc : Clears begun (arriving 2) 2 := ⟨rfl, Or.inl ⟨rfl, rfl, rfl⟩⟩
  obtain ⟨n, hmn, hu, hk⟩ := lost_of_clears begun_start (m := 2) rfl hc
  exact hk (h begun begun_start (arriving 2) 2 rfl n hmn hu)

/-- The message comes right before the first read. -/
theorem message_kept_iff_first :
    (∀ n, 1 < n → Undisturbed (arriving 1) 1 n → Kept begun (arriving 1) 1 n) ↔ ¬ Clears begun (arriving 1) 1 :=
  message_kept_iff begun_start (m := 1) rfl

end Lab8.Usb
