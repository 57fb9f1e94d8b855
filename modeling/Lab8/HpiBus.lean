import Mathlib.Tactic.IntervalCases
import Lab8.IoHandler
/-!
# The bus under the driver

The strobes of `hpi_io_intf` are the ports' of one clock ago, its bus driver follows the present one. So what
holds between a call and the bus is said in two steps: what the ports hold at each point of a call (`Tracks`,
kept by every clock), and what one clock later the registers make of it.
-/

namespace Lab8.IoHandler

open Clocked

/-! ## The ports at each point of a call -/

/-- What the accesses carried out so far have left in the ports. -/
def Tracks (s : State) : Prop :=
  match s.proc with
  | .init => s.done ≤ 5 ∧ (1 ≤ s.done → s.pio.cs = true) ∧ (2 ≤ s.done → s.pio.r = true) ∧
      (3 ≤ s.done → s.pio.w = true)
  | .call (.write a d) => (1 ≤ s.done ∧ s.done ≤ 6) ∧ s.pio.address = a.setWidth 2 ∧ s.pio.r = true ∧
      (s.pio.cs = false ↔ 2 ≤ s.done ∧ s.done ≤ 5) ∧ (s.pio.w = false ↔ 3 ≤ s.done ∧ s.done ≤ 4) ∧
      (4 ≤ s.done → s.pio.data = d)
  | .call (.read a) => (1 ≤ s.done ∧ s.done ≤ 6) ∧ s.pio.address = a.setWidth 2 ∧ s.pio.w = true ∧
      (s.pio.cs = false ↔ 2 ≤ s.done ∧ s.done ≤ 5) ∧ (s.pio.r = false ↔ 3 ≤ s.done ∧ s.done ≤ 4)

/-- Between calls, and after `IO_init`, the strobes are up. -/
def Idle (p : Pio) : Prop := p.cs = true ∧ p.r = true ∧ p.w = true

theorem Tracks.idle {s : State} (h : Tracks s) (hd : ¬ s.done < s.proc.accesses.length) : Idle s.pio := by
  unfold Tracks at h
  unfold Idle
  rcases s with ⟨_ | ⟨a, d⟩ | a, done, temp, pio, hpi⟩
  · simp only [Proc.accesses, ioInit, List.length_cons, List.length_nil] at h hd
    exact ⟨h.2.1 (by omega), h.2.2.1 (by omega), h.2.2.2 (by omega)⟩
  · simp only [Proc.accesses, ioWrite, List.length_cons, List.length_nil] at h hd
    obtain ⟨-, -, hr, hc, hw, -⟩ := h
    refine ⟨?_, hr, ?_⟩
    · rw [← Bool.not_eq_false, hc]; omega
    · rw [← Bool.not_eq_false, hw]; omega
  · simp only [Proc.accesses, ioRead, List.length_cons, List.length_nil] at h hd
    obtain ⟨-, -, hw, hc, hr⟩ := h
    refine ⟨?_, ?_, hw⟩
    · rw [← Bool.not_eq_false, hc]; omega
    · rw [← Bool.not_eq_false, hr]; omega

/-- The first access of a call finds the strobes up and sets the address. -/
theorem tracks_begin {s : State} (h : Idle s.pio) (c : Call) : Tracks (s.perform (.call c) 0) := by
  obtain ⟨hc, hr, hw⟩ := h
  cases c with
  | write a d => simp [Tracks, State.perform, Proc.accesses, ioWrite, Pio.store, hc, hr, hw]
  | read a => simp [Tracks, State.perform, Proc.accesses, ioRead, Pio.store, hc, hr, hw]

/-- A further access of the same function. -/
theorem tracks_perform {s : State} (h : Tracks s) (hd : s.done < s.proc.accesses.length) :
    Tracks (s.perform s.proc s.done) := by
  rcases s with ⟨_ | ⟨a, d⟩ | a, done, temp, pio, hpi⟩
  · simp only [Proc.accesses, ioInit, List.length_cons, List.length_nil] at hd
    simp only [Tracks] at h
    interval_cases done <;> simp [Tracks, State.perform, Proc.accesses, ioInit, Pio.store, h]
  · simp only [Proc.accesses, ioWrite, List.length_cons, List.length_nil] at hd
    simp only [Tracks] at h
    interval_cases done <;> simp [Tracks, State.perform, Proc.accesses, ioWrite, Pio.store] <;> simp_all
  · simp only [Proc.accesses, ioRead, List.length_cons, List.length_nil] at hd
    simp only [Tracks] at h
    interval_cases done <;> simp [Tracks, State.perform, Proc.accesses, ioRead, Pio.store] <;> simp_all

/-- What one clock does to the processor. -/
theorem next_cases (s : State) (i : In) :
    (i.access = false ∧ (machine.next s i).proc = s.proc ∧ (machine.next s i).done = s.done ∧
        (machine.next s i).pio = s.pio ∧ (machine.next s i).temp = s.temp) ∨
      (i.access = true ∧ s.done < s.proc.accesses.length ∧ (machine.next s i).proc = s.proc ∧
        (machine.next s i).done = s.done + 1) ∨
      (i.access = true ∧ ¬ s.done < s.proc.accesses.length ∧ (machine.next s i).proc = .call i.call ∧
        (machine.next s i).done = 1) := by
  cases ha : i.access with
  | false => left; simp [machine, ha]
  | true =>
    right
    by_cases hd : s.done < s.proc.accesses.length
    · left
      simp only [machine, ha, if_true, State.next, hd, State.perform, List.getElem?_eq_getElem hd]
      cases s.proc.accesses[s.done] <;> simp
    · right
      simp only [machine, ha, if_true, State.next, hd, if_false, State.perform]
      cases i.call <;> simp [Proc.accesses, ioWrite, ioRead]

/-- A clock without access leaves the processor and its ports alone. -/
theorem next_quiet {s : State} {i : In} (ha : i.access = false) : (machine.next s i).proc = s.proc ∧
    (machine.next s i).done = s.done ∧ (machine.next s i).pio = s.pio := by
  obtain ⟨-, e1, e2, e3, -⟩ | ⟨h1, -⟩ | ⟨h1, -⟩ := next_cases s i
  · exact ⟨e1, e2, e3⟩
  · exact absurd (ha.symm.trans h1) (by decide)
  · exact absurd (ha.symm.trans h1) (by decide)

theorem tracks_next {s : State} (h : Tracks s) (i : In) : Tracks (machine.next s i) := by
  change Tracks (if i.access then s.perform (s.next i.call).1 (s.next i.call).2 else s)
  split
  · unfold State.next
    by_cases hd : s.done < s.proc.accesses.length
    · rw [if_pos hd]
      exact tracks_perform h hd
    · rw [if_neg hd]
      exact tracks_begin (h.idle hd) i.call
  · exact h

theorem Start.tracks {s : State} (h : Start s) : Tracks s := by
  obtain ⟨hp, hd⟩ := h
  simp [Tracks, hp, hd]

theorem Reachable.tracks {s : State} (h : Reachable s) : Tracks s :=
  h.invariant (fun _ => Start.tracks) fun _ i hs => tracks_next hs i

/-- The registers of `hpi_io_intf` are the ports of the clock before. -/
theorem next_hpi (s : State) (i : In) : (machine.next s i).hpi =
    ⟨s.pio.data, s.pio.address, s.pio.r, s.pio.w, s.pio.cs, s.bus i⟩ := rfl

theorem drive_isSome {s : State} : s.drive.isSome = true ↔ s.pio.w = false := by
  unfold State.drive HpiIoIntf.drive
  cases s.pio.w <;> simp

/-! ## No contention -/

/-- One clock before a write the read strobe is up, one clock before a read the write strobe, and both are
when `IO_init` is through. -/
theorem strobes_before {s : State} (h : Tracks s) (i : In) (hi : (machine.next s i).Initialised) :
    (∀ a d, (machine.next s i).proc = .call (.write a d) → s.pio.r = true) ∧
      (∀ a, (machine.next s i).proc = .call (.read a) → s.pio.w = true) ∧
      ((machine.next s i).proc = .init → s.pio.r = true ∧ s.pio.w = true) := by
  unfold State.Initialised at hi
  have hsame : (machine.next s i).proc = s.proc ∧ (s.proc = .init → 4 ≤ s.done) ∨ Idle s.pio := by
    rcases next_cases s i with ⟨-, hp, hd, -⟩ | ⟨-, -, hp, hd⟩ | ⟨-, hd, -⟩
    · rw [hp, hd] at hi
      exact Or.inl ⟨hp, fun h0 => by have := hi h0; omega⟩
    · rw [hp, hd] at hi
      exact Or.inl ⟨hp, fun h0 => by have := hi h0; omega⟩
    · exact Or.inr (h.idle hd)
  rcases hsame with ⟨hp, h0⟩ | ⟨-, hr, hw⟩
  · rw [hp]
    unfold Tracks at h
    refine ⟨fun a d he => ?_, fun a he => ?_, fun he => ?_⟩
    · rw [he] at h; exact h.2.2.1
    · rw [he] at h; exact h.2.2.1
    · have := h0 he
      rw [he] at h
      exact ⟨h.2.2.1 (by omega), h.2.2.2 (by omega)⟩
  · exact ⟨fun _ _ _ => hr, fun _ _ => hw, fun _ => ⟨hr, hw⟩⟩

/-- **No contention.** Once `IO_init` is through, whatever is called and however the accesses are spaced, the
module never drives the bus while the chip is selected and read, and the two strobes are never low together. -/
theorem no_contention {s : State} (h : Reachable s) (hi : s.Initialised) :
    ¬ (s.drive.isSome = true ∧ s.hpi.otgCsN = false ∧ s.hpi.otgRdN = false) ∧
      ¬ (s.hpi.otgRdN = false ∧ s.hpi.otgWrN = false) := by
  cases h with
  | init hs => exact absurd ((hi hs.1).symm.trans hs.2) (by decide)
  | @step s i h =>
    have h0 := Reachable.tracks h
    obtain ⟨hwr, hrd, hin⟩ := strobes_before h0 i hi
    have ht := tracks_next h0 i
    unfold Tracks at ht
    rw [drive_isSome, next_hpi]
    simp only
    cases hp : (machine.next s i).proc with
    | init =>
      obtain ⟨hr, hw⟩ := hin hp
      simp [hr, hw]
    | call c =>
      rw [hp] at ht
      cases c with
      | write a d => simp [hwr a d hp]
      | read a => simp [hrd a hp, ht.2.2.1]

/-- A processor that starts with all registers at zero. -/
def powerUp : State := ⟨.init, 0, 0, ⟨0, false, false, false, 0⟩, ⟨0, 0, false, false, false, 0⟩⟩

theorem powerUp_start : Start powerUp := ⟨rfl, rfl⟩

/-- One access a clock, the same call over and over, from a chip that holds `v` everywhere. -/
def busy (c : Call) (v : BitVec 16) : In := ⟨true, c, fun _ => v, 0⟩

theorem no_contention_read : (machine.run powerUp (List.replicate 9 (busy (.read 2) 7))).hpi.otgRdN = false ∧
    ¬ ((machine.run powerUp (List.replicate 9 (busy (.read 2) 7))).drive.isSome = true ∧
      (machine.run powerUp (List.replicate 9 (busy (.read 2) 7))).hpi.otgCsN = false ∧
      (machine.run powerUp (List.replicate 9 (busy (.read 2) 7))).hpi.otgRdN = false) :=
  ⟨by decide, (no_contention (Machine.Reachable.run (.init powerUp_start) _) (by decide)).1⟩

/-! ## Writes -/

/-- A clock of a write at which the chip sees itself selected and written. -/
def WriteCycle (s : State) (a : BitVec 8) (d : BitVec 16) : Prop :=
  s.proc = .call (.write a d) ∧ s.hpi.otgWrN = false ∧ s.hpi.otgCsN = false

/-- In such a clock the bus is driven, and in the last one, before `OTG_WR_N` rises, with the data of the call
beside its address. -/
def WriteOk (s : State) (i : In) : Prop :=
  ∀ a d, WriteCycle s a d → s.drive.isSome = true ∧
    ((machine.next s i).hpi.otgWrN = true → s.drive = some d ∧ s.hpi.otgAddr = a.setWidth 2)

/-- The clock carries out the `*otg_hpi_w = 1` of a write. -/
def Raises (s : State) (i : In) : Prop :=
  (∃ a d, s.proc = .call (.write a d)) ∧ s.done = 4 ∧ i.access = true

/-- The store that raises the strobe releases the bus at once; the chip sees the strobe rise a clock later. -/
theorem Raises.not_writeOk {s : State} (h : Tracks s) {i : In} (hr : Raises s i) (j : In) :
    ¬ WriteOk (machine.next s i) j := by
  obtain ⟨⟨a, d, hp⟩, hd, ha⟩ := hr
  have ht := tracks_next h i
  have h1 : (machine.next s i).proc = .call (.write a d) ∧ (machine.next s i).done = 5 := by
    rcases next_cases s i with ⟨h0, -⟩ | ⟨-, -, e1, e2⟩ | ⟨-, hlt, -⟩
    · rw [ha] at h0; exact absurd h0 (by decide)
    · rw [e1, e2, hp, hd]; exact ⟨rfl, rfl⟩
    · rw [hp, hd] at hlt; exact absurd (show 4 < 6 by decide) hlt
  unfold Tracks at h ht
  rw [hp] at h
  rw [h1.1] at ht
  obtain ⟨-, -, -, hc, hw, -⟩ := h
  intro hok
  have hcyc : WriteCycle (machine.next s i) a d := ⟨h1.1, hw.2 (by omega), hc.2 (by omega)⟩
  have hdr := ht.2.2.2.2.1.1 (drive_isSome.1 (hok a d hcyc).1)
  omega

/-- Without such a store the strobe stays down, and while it is down the bus is driven. -/
theorem writeOk_next {s : State} (h : Tracks s) {i : In} (hr : ¬ Raises s i) (j : In) :
    WriteOk (machine.next s i) j := by
  rintro a d ⟨hp, hwr, -⟩
  have ht := tracks_next h i
  have hw : s.pio.w = false := hwr
  have hw' : (machine.next s i).pio.w = false := by
    rcases next_cases s i with ⟨-, -, -, e, -⟩ | ⟨ha, -, e1, e2⟩ | ⟨-, hlt, -⟩
    · rw [e]; exact hw
    · rw [hp] at e1
      unfold Tracks at h ht
      rw [← e1] at h
      rw [hp] at ht
      have hk := h.2.2.2.2.1.1 hw
      have hne : s.done ≠ 4 := fun h4 => hr ⟨⟨a, d, e1.symm⟩, h4, ha⟩
      exact ht.2.2.2.2.1.2 (by omega)
    · exact absurd (h.idle hlt).2.2 (by simp [hw])
  refine ⟨drive_isSome.2 hw', fun hup => ?_⟩
  rw [next_hpi] at hup
  exact absurd hup (by simp [hw'])

theorem trace_tracks {s : State} (hs : Start s) (inp : ℕ → In) (n : ℕ) : Tracks (machine.trace s inp n) :=
  Reachable.tracks ((Machine.Reachable.init hs).trace inp n)

/-- **Writes.** The writes of a run reach the chip as they should if and only if none of them gets to raise its
strobe. -/
theorem writes_reach_iff {s : State} (hs : Start s) (inp : ℕ → In) :
    (∀ n, WriteOk (machine.trace s inp n) (inp n)) ↔ ∀ n, ¬ Raises (machine.trace s inp n) (inp n) := by
  constructor
  · intro h n hr
    exact hr.not_writeOk (trace_tracks hs inp n) _ (h (n + 1))
  · intro h n
    cases n with
    | zero =>
      rintro a d ⟨hp, -⟩
      exact absurd (hs.1.symm.trans hp) (by simp)
    | succ n => exact writeOk_next (trace_tracks hs inp n) (h n) _

/-- One write, an access at every clock. -/
theorem write_undriven : ¬ ∀ s : State, Start s → ∀ (inp : ℕ → In) (n : ℕ),
    WriteOk (machine.trace s inp n) (inp n) := by
  intro h
  have hr : Raises (machine.trace powerUp (fun _ => busy (.write 0 0x1234) 0) 9) (busy (.write 0 0x1234) 0) :=
    ⟨⟨0, 0x1234, rfl⟩, rfl, rfl⟩
  exact hr.not_writeOk (trace_tracks powerUp_start _ 9) _ (h powerUp powerUp_start _ 10)

/-- `IO_init` and the accesses of a write up to its data. -/
def halfAWrite : List In := List.replicate 9 (busy (.write 2 0x1234) 0)

def waiting : In := { busy (.write 2 0x1234) 0 with access := false }

/-- A write the processor does not come back to. -/
theorem writes_reach_iff_halfAWrite :
    WriteCycle (machine.trace powerUp (fun n => halfAWrite.getD n waiting) 12) 2 0x1234 ∧
      ∀ n, WriteOk (machine.trace powerUp (fun n => halfAWrite.getD n waiting) n) (halfAWrite.getD n waiting) := by
  refine ⟨⟨rfl, rfl, rfl⟩, (writes_reach_iff powerUp_start _).2 ?_⟩
  rintro n ⟨⟨a, d, hp⟩, hd, ha⟩
  rcases Nat.lt_or_ge n 9 with hn | hn
  · have hno : ¬ ((machine.trace powerUp (fun n => halfAWrite.getD n waiting) n).proc ≠ .init ∧
        (machine.trace powerUp (fun n => halfAWrite.getD n waiting) n).done = 4) := by
      interval_cases n <;> decide
    exact hno ⟨hp ▸ nofun, hd⟩
  · rw [List.getD_eq_getElem?_getD, List.getElem?_eq_none hn] at ha
    exact absurd ha (by decide)

/-! ## Reads -/

/-- At least `k` clocks from one access to the next. -/
def Spaced (k : ℕ) (inp : ℕ → In) : Prop :=
  ∀ t u, t < u → (inp t).access = true → (inp u).access = true → t + k ≤ u

/-- The chip sees itself selected and read at the address of the read in progress, and has the bus to itself. -/
structure Presents (s : State) (a : BitVec 8) : Prop where
  csN : s.hpi.otgCsN = false
  rdN : s.hpi.otgRdN = false
  addr : s.hpi.otgAddr = a.setWidth 2
  alone : s.drive = none

theorem Presents.bus {s : State} {a : BitVec 8} (h : Presents s a) (i : In) :
    s.bus i = i.chip (a.setWidth 2) := by
  obtain ⟨hc, hr, ha, hd⟩ := h
  simp [State.bus, HpiIoIntf.chipDrive, HpiIoIntf.resolve, hc, hr, ha, hd]

/-- A clock without access that finds a read at its load puts the addressed register on the bus. -/
theorem presents_next {s : State} (h : Tracks s) {i : In} (ha : i.access = false) {a : BitVec 8}
    (hp : (machine.next s i).proc = .call (.read a)) (hd : (machine.next s i).done = 3) :
    Presents (machine.next s i) a := by
  have ht := tracks_next h i
  obtain ⟨e1, e2, e3⟩ := next_quiet (s := s) ha
  unfold Tracks at h ht
  rw [e1] at hp
  rw [e2] at hd
  rw [hp] at h
  obtain ⟨-, hadr, hw, hc, hr⟩ := h
  refine ⟨hc.2 (by omega), hr.2 (by omega), hadr, ?_⟩
  rw [← Option.not_isSome_iff_eq_none, drive_isSome, e3, hw]
  decide

/-- What an access of a read does to `temp`. -/
theorem next_temp {s : State} {i : In} {a : BitVec 8} (hp : s.proc = .call (.read a)) (hd : s.done < 6)
    (ha : i.access = true) :
    (machine.next s i).temp = if s.done = 3 then s.hpi.fromSwDataIn else s.temp := by
  rcases s with ⟨p, done, temp, pio, hpi⟩
  simp only at hp hd
  subst hp
  interval_cases done <;> simp [machine, ha, State.next, State.perform, Proc.accesses, ioRead]

section
variable {s : State} (hs : Start s) {inp : ℕ → In} (hsp : Spaced 3 inp)
include hs hsp

/-- The load is at least three clocks after the strobe: two clocks ago the ports were what they are now, so one
clock ago the chip was presenting. -/
theorem presents_before_load {t : ℕ} {a : BitVec 8} (hp : (machine.trace s inp t).proc = .call (.read a))
    (hd : (machine.trace s inp t).done = 3) (ha : (inp t).access = true) : ∃ u, t = u + 1 ∧
      (machine.trace s inp u).proc = .call (.read a) ∧ (machine.trace s inp u).done = 3 ∧
      Presents (machine.trace s inp u) a := by
  have hquiet : ∀ u, u < t → t < u + 3 → (inp u).access = false := fun u h1 h2 =>
    Bool.eq_false_of_not_eq_true fun hu => absurd (hsp u t h1 hu ha) (by omega)
  obtain ⟨u, rfl⟩ : ∃ u, t = u + 1 := by
    cases t with
    | zero => exact absurd (hs.1.symm.trans hp) (by simp)
    | succ u => exact ⟨u, rfl⟩
  rw [Machine.trace_succ] at hp hd
  obtain ⟨e1, e2, -⟩ := next_quiet (s := machine.trace s inp u) (hquiet u (by omega) (by omega))
  rw [e1] at hp
  rw [e2] at hd
  refine ⟨u, rfl, hp, hd, ?_⟩
  obtain ⟨v, rfl⟩ : ∃ v, u = v + 1 := by
    cases u with
    | zero => exact absurd (hs.1.symm.trans hp) (by simp)
    | succ v => exact ⟨v, rfl⟩
  exact presents_next (trace_tracks hs inp v) (hquiet v (by omega) (by omega)) hp hd

/-- After its load a read holds what the chip presented at some clock of it. -/
theorem read_holds : ∀ (t : ℕ) (a : BitVec 8), (machine.trace s inp t).proc = .call (.read a) →
    4 ≤ (machine.trace s inp t).done → ∃ u < t,
      (∀ k, u ≤ k → k ≤ t → (machine.trace s inp k).proc = .call (.read a) ∧ 3 ≤ (machine.trace s inp k).done) ∧
      Presents (machine.trace s inp u) a ∧ (machine.trace s inp t).temp = (inp u).chip (a.setWidth 2)
  | 0, a, hp, _ => absurd (hs.1.symm.trans hp) (by simp)
  | t + 1, a, hp, hd => by
    have hlast : ∀ u, (∀ k, u ≤ k → k ≤ t → (machine.trace s inp k).proc = .call (.read a) ∧
        3 ≤ (machine.trace s inp k).done) → ∀ k, u ≤ k → k ≤ t + 1 →
        (machine.trace s inp k).proc = .call (.read a) ∧ 3 ≤ (machine.trace s inp k).done := by
      intro u hu k h1 h2
      rcases Nat.le_succ_iff.1 h2 with h2 | rfl
      · exact hu k h1 h2
      · exact ⟨hp, Nat.le_trans (by decide) hd⟩
    rcases next_cases (machine.trace s inp t) (inp t) with ⟨-, e1, e2, -, e4⟩ | ⟨ha, hlt, e1, e2⟩ | ⟨-, -, -, e2⟩
    · obtain ⟨u, hut, hu, hpr, htemp⟩ := read_holds t a (e1.symm.trans hp) (by rw [← e2]; exact hd)
      exact ⟨u, by omega, hlast u hu, hpr, e4.trans htemp⟩
    · have hp' := e1.symm.trans hp
      have hd' : 4 ≤ (machine.trace s inp t).done + 1 := by rw [← e2]; exact hd
      rw [hp'] at hlt
      have htemp := next_temp hp' hlt ha
      by_cases h3 : (machine.trace s inp t).done = 3
      · obtain ⟨u, rfl, pu, du, hpr⟩ := presents_before_load hs hsp hp' h3 ha
        rw [if_pos h3] at htemp
        refine ⟨u, by omega, hlast u fun k h1 h2 => ?_, hpr, htemp.trans (hpr.bus (inp u))⟩
        rcases (by omega : k = u ∨ k = u + 1) with rfl | rfl
        · exact ⟨pu, du.ge⟩
        · exact ⟨hp', h3.ge⟩
      · obtain ⟨u, hut, hu, hpr, htemp'⟩ := read_holds t a hp' (by omega)
        rw [if_neg h3] at htemp
        exact ⟨u, by omega, hlast u hu, hpr, htemp.trans htemp'⟩
    · have : (machine.trace s inp (t + 1)).done = 1 := e2
      omega

/-- **Reads.** With three clocks from access to access, a read that has been carried out returns what the chip
presented for its register at a clock between its strobes. -/
theorem read_returns {t : ℕ} {a : BitVec 8} (hp : (machine.trace s inp t).proc = .call (.read a))
    (hd : (machine.trace s inp t).done = 6) : ∃ u < t,
      (∀ k, u ≤ k → k ≤ t → (machine.trace s inp k).proc = .call (.read a) ∧ 3 ≤ (machine.trace s inp k).done) ∧
      Presents (machine.trace s inp u) a ∧ (machine.trace s inp t).temp = (inp u).chip (a.setWidth 2) :=
  read_holds hs hsp t a hp (by omega)

end

/-- An access every third clock, always reading register 2 of a chip that counts clocks. -/
def polling (t : ℕ) : In := ⟨decide (t % 3 = 0), .read 2, fun _ => BitVec.ofNat 16 t, 0⟩

theorem polling_spaced : Spaced 3 polling := by
  intro t u htu ht hu
  simp only [polling, decide_eq_true_eq] at ht hu
  omega

theorem read_returns_polling : ∃ u < 31,
    (∀ k, u ≤ k → k ≤ 31 → (machine.trace powerUp polling k).proc = .call (.read 2) ∧
      3 ≤ (machine.trace powerUp polling k).done) ∧
    Presents (machine.trace powerUp polling u) 2 ∧
    (machine.trace powerUp polling 31).temp = (polling u).chip 2 :=
  read_returns powerUp_start polling_spaced (by decide +kernel) (by decide +kernel)

end Lab8.IoHandler
