import Lab8.HpiTransactions
import Lab8.UsbTd
/-!
# From the program to the chip

The tables of `usb.c` go through `IO_write`, six accesses a word, over `hpi_io_intf` to the pins of the chip. What the
chip does to its memory is decided by the transactions it sees (`busOp`), and these are the calls (`linked_trace`), as
long as the lines keep their word (`BusHold`): so what the calls make of the memory, the bus does (`transfer_on_bus`).
-/

namespace Lab8.Usb

open Clocked IoHandler

/-- The chip's side of a transaction: register 2 is the pointer, register 0 the word at it. -/
def busOp : Transaction → Option Op
  | .write a d => if a = 2 then some (.point d) else if a = 0 then some (.put d) else none
  | .read a => if a = 0 then some .get else none

theorem setWidth_iff {a b : BitVec 8} (ha : a.toNat < 4) (hb : b.toNat < 4) : a.setWidth 2 = b.setWidth 2 ↔ a = b := by
  rw [← BitVec.toNat_inj, ← BitVec.toNat_inj, BitVec.toNat_setWidth, BitVec.toNat_setWidth]
  omega

/-- On the four registers the chip has, a call and its transaction mean the same. -/
theorem busOp_bus {c : Call} (h : c.address.toNat < 4) : busOp c.bus = op c := by
  have h2 {a : BitVec 8} (ha : a.toNat < 4) : a.setWidth 2 = 2 ↔ a = hpiAddr := setWidth_iff ha (b := 2) (by decide)
  have h0 {a : BitVec 8} (ha : a.toNat < 4) : a.setWidth 2 = 0 ↔ a = hpiData := setWidth_iff ha (b := 0) (by decide)
  cases c with
  | write a d =>
    have h : a.toNat < 4 := h
    simp only [busOp, Call.bus, op, h2 h, h0 h]
  | read a =>
    have h : a.toNat < 4 := h
    simp only [busOp, Call.bus, op, h0 h]

theorem filterMap_busOp {cs : List Call} (h : ∀ c ∈ cs, c.address.toNat < 4) :
    (cs.map Call.bus).filterMap busOp = portOps cs := by
  rw [List.filterMap_map]
  exact List.filterMap_congr fun c hc => busOp_bus (h c hc)

namespace Function

variable (f : Function)

/-- The functions use the pointer and the data register only, and write only. -/
theorem op_of_mem {c : Call} (h : c ∈ f.calls) : c.address.toNat < 4 ∧ (op c).isSome = true := by
  have hall : f.calls.all (fun c => Nat.blt c.address.toNat 4 && (op c).isSome) = true := by
    cases f <;> rfl
  have hc := List.all_eq_true.1 hall c h
  rw [Bool.and_eq_true] at hc
  exact ⟨Nat.le_of_ble_eq_true hc.1, hc.2⟩

theorem portOps_replicate (m : ℕ) :
    portOps (List.replicate m f.calls).flatten = (List.replicate m (portOps f.calls)).flatten := by
  induction m with
  | zero => rfl
  | succ m ih =>
    rw [List.replicate_succ, List.flatten_cons, List.replicate_succ, List.flatten_cons, ← ih]
    exact List.filterMap_append

theorem length_portOps {cs : List Call} (h : ∀ c ∈ cs, c ∈ f.calls) : (portOps cs).length = cs.length := by
  induction cs with
  | nil => rfl
  | cons c cs ih =>
    obtain ⟨hc, hcs⟩ := List.forall_mem_cons.1 h
    obtain ⟨o, ho⟩ := Option.isSome_iff_exists.1 (f.op_of_mem hc).2
    have e : portOps (c :: cs) = o :: portOps cs := List.filterMap_cons_some ho
    rw [e, List.length_cons, List.length_cons, ih hcs]

theorem mem_of_mem_replicate {m : ℕ} {c : Call} (h : c ∈ (List.replicate m f.calls).flatten) : c ∈ f.calls := by
  obtain ⟨l, hl, hc⟩ := List.mem_flatten.1 h
  exact (List.eq_of_mem_replicate hl) ▸ hc

section
variable {s : IoHandler.State} (h : IoHandler.Reachable s) (hp : s.proc = .init) (hd : s.done = 5) {inp : ℕ → In}
  (hsp : Spaced 2 inp) (hold : BusHold s inp) {n m : ℕ}
  (hc : IoHandler.begun s inp n <+: (List.replicate m f.calls).flatten)
include h hp hd hsp hold hc

/-- What the chip has seen is the beginning of the program. -/
theorem ended_of_begun : ((ended s inp n).filterMap busOp).length = (ended s inp n).length ∧
    (ended s inp n).filterMap busOp <+: (List.replicate m (portOps f.calls)).flatten := by
  obtain ⟨_, _, _, _, _, hcarried⟩ := linked_trace h hp hd hsp hold n
  obtain ⟨cs, rest, e, he, -⟩ := List.map_eq_append_iff.1 hcarried.symm
  have hpre : cs <+: (List.replicate m f.calls).flatten := (e ▸ List.prefix_append cs rest).trans hc
  have hmem : ∀ c ∈ cs, c ∈ f.calls := fun c hc => f.mem_of_mem_replicate (hpre.subset hc)
  have hops : (ended s inp n).filterMap busOp = portOps cs := by
    rw [← he]
    exact filterMap_busOp fun c hc => (f.op_of_mem (hmem c hc)).1
  rw [hops]
  refine ⟨?_, ?_⟩
  · rw [f.length_portOps hmem, ← he, List.length_map]
  · rw [← portOps_replicate]
    exact hpre.filterMap op

/-- **Transfers on the bus.** The lines keep their word, the processor is somewhere in the first `m` calls of a
function, and the chip carries out the transactions it has seen, between stores of its own: when it has seen one whole
call of the function, and from then on, it finds the transfer; before that, its pointer register is as it was. -/
theorem transfer_on_bus (t : PortState) (us : List Op) (hu : Port.host us = (ended s inp n).filterMap busOp)
    (hs : ∀ x w, .store x w ∈ us → f.Allowed x w) :
    ((ended s inp n).length < f.calls.length ∧
        ((Port.run (· + 2) t us).mem husbSie1PCurrentTDPtr = t.mem husbSie1PCurrentTDPtr ∨
          Own us (Port.run (· + 2) t us).mem husbSie1PCurrentTDPtr)) ∨
      (f.calls.length ≤ (ended s inp n).length ∧ Ready f.request (Port.run (· + 2) t us).mem ∧
        ((Port.run (· + 2) t us).mem husbSie1PCurrentTDPtr = 0x0500 ∨
          Own us (Port.run (· + 2) t us).mem husbSie1PCurrentTDPtr)) := by
  obtain ⟨hl, hpre⟩ := f.ended_of_begun h hp hd hsp hold hc
  have hall : (portOps f.calls).length = f.calls.length := f.length_portOps fun _ hc => hc
  rw [← hu] at hl hpre
  rw [portOps_calls] at hpre hall
  have p := published f.length_fields (s := t) hpre fun x w hw => (hs x w hw).leaves
  rw [← hl, ← hall]
  obtain hlt | hle := Nat.lt_or_ge (Port.host us).length (listOps (f.request.fields.map Field.word)).length
  · exact Or.inl ⟨hlt, p.before hlt⟩
  · exact Or.inr ⟨hle, f.request.ready_of_holds f.length_lengths (p.holds hle), p.current hle⟩

end

/-- An access every second clock: the twelve clocks of a call, then the next one. -/
def programmed (t : ℕ) : In := ⟨decide (t % 2 = 0), usbSetAddress.getD (t / 12 % 19) (.read 0), fun _ => 0, 0⟩

theorem programmed_spaced : Spaced 2 programmed := by
  intro t u htu ht hu
  simp only [programmed, decide_eq_true_eq] at ht hu
  omega

/-- `UsbSetAddress`, once. -/
theorem transfer_on_bus_once :
    Ready setAddress.request (Port.run (· + 2) ⟨0, fun _ => 0⟩ (portOps usbSetAddress)).mem := by
  have he : ended ready (kept ready 0 programmed) 228 = usbSetAddress.map Call.bus := by decide +kernel
  have hb : IoHandler.begun ready (kept ready 0 programmed) 228 = usbSetAddress := by decide +kernel
  have h := setAddress.transfer_on_bus ready_reachable (by decide +kernel) (by decide +kernel)
    (programmed_spaced.kept ready 0) (busHold_kept ready 0 programmed) (n := 228) (m := 1)
    (by rw [hb]; exact List.prefix_rfl) ⟨0, fun _ => 0⟩ (portOps usbSetAddress) (by rw [he]; rfl) fun x w hw => by
      rw [usbSetAddress, portOps_tdList] at hw
      simp [listOps] at hw
  rw [he] at h
  exact (h.resolve_left fun h' => absurd h'.1 (by decide)).2.1

end Function

end Lab8.Usb
