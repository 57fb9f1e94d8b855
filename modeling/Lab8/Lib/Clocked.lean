import Mathlib.Data.Nat.Notation

/-!
# Synchronous machines

A machine is its next-state function: the registers after a clock edge from the registers and
inputs before it. Runs are either finite (`run`, over a list of inputs) or endless (`trace`,
over a stream of inputs, the state *before* edge `n`). `EdgeReg` adds the one-flop detector that
lets a register bank on a fast clock update on the rising edges of a slow signal.
-/

namespace Clocked

structure Machine (I S : Type*) where
  next : S → I → S

namespace Machine

variable {I S : Type*} (M : Machine I S)

def run (s : S) : List I → S
  | [] => s
  | i :: is => run (M.next s i) is

/-- The state before clock edge `n`, when edge `n` samples `inp n`. -/
def trace (s : S) (inp : ℕ → I) : ℕ → S
  | 0 => s
  | n + 1 => M.next (trace s inp n) (inp n)

inductive Reachable (Init : S → Prop) : S → Prop
  | init {s : S} : Init s → Reachable Init s
  | step {s : S} (i : I) : Reachable Init s → Reachable Init (M.next s i)

/-- The states a clock edge that samples the reset can leave, whatever the registers held. -/
def AfterReset (reset : I → Bool) (s : S) : Prop := ∃ s₀ i, reset i = true ∧ s = M.next s₀ i

@[simp] theorem run_nil (s : S) : M.run s [] = s := rfl

@[simp] theorem run_cons (s : S) (i : I) (is : List I) : M.run s (i :: is) = M.run (M.next s i) is := rfl

theorem run_append (s : S) : ∀ (is js : List I), M.run s (is ++ js) = M.run (M.run s is) js
  | [], _ => rfl
  | i :: is, js => by simp only [List.cons_append, run_cons, run_append (M.next s i) is js]

@[simp] theorem trace_zero (s : S) (inp : ℕ → I) : M.trace s inp 0 = s := rfl

theorem trace_succ (s : S) (inp : ℕ → I) (n : ℕ) :
    M.trace s inp (n + 1) = M.next (M.trace s inp n) (inp n) := rfl

/-- Fed from a list, an endless trace is a finite run for as long as the list lasts. -/
theorem trace_getD (s : S) (is : List I) (d : I) : ∀ n, n ≤ is.length →
    M.trace s (fun n => is.getD n d) n = M.run s (is.take n)
  | 0, _ => by rw [List.take_zero]; rfl
  | n + 1, hn => by
    have e : is.getD n d = is[n] := by simp [Nat.lt_of_succ_le hn]
    rw [trace_succ, trace_getD s is d n (Nat.le_of_succ_le hn), List.take_succ_eq_append_getElem hn,
      run_append, e]
    rfl

/-- `P` in every state of a finite run. -/
def Along (P : S → Prop) : S → List I → Prop
  | s, [] => P s
  | s, i :: is => P s ∧ Along P (M.next s i) is

instance decidableAlong (P : S → Prop) [DecidablePred P] : ∀ (s : S) (is : List I), Decidable (M.Along P s is)
  | s, [] => inferInstanceAs (Decidable (P s))
  | s, i :: is => @instDecidableAnd _ _ _ (decidableAlong P (M.next s i) is)

variable {M} {Init : S → Prop}

theorem Along.run_take {P : S → Prop} : ∀ {s : S} {is : List I}, M.Along P s is → ∀ n, P (M.run s (is.take n))
  | _, [], h, n => by rwa [List.take_nil]
  | _, _ :: _, h, 0 => h.1
  | _, _ :: _, h, n + 1 => h.2.run_take n

/-- Fed from a list and then with an input that keeps `P`, an endless trace needs to be looked at along the list only. -/
theorem Along.trace_getD {P : S → Prop} {s : S} {is : List I} {d : I} (h : M.Along P s is)
    (hd : ∀ s, P s → P (M.next s d)) (n : ℕ) : P (M.trace s (fun n => is.getD n d) n) := by
  induction n with
  | zero => exact h.run_take 0
  | succ n ih =>
    rcases Nat.lt_or_ge n is.length with hn | hn
    · rw [Machine.trace_getD M s is d (n + 1) hn]
      exact h.run_take (n + 1)
    · have e : is.getD n d = d := by rw [List.getD_eq_getElem?_getD, List.getElem?_eq_none hn]; rfl
      rw [trace_succ, e]
      exact hd _ ih

theorem Reachable.run {s : S} (h : M.Reachable Init s) : ∀ is : List I, M.Reachable Init (M.run s is)
  | [] => h
  | i :: is => Reachable.run (h.step i) is

theorem Reachable.trace {s : S} (h : M.Reachable Init s) (inp : ℕ → I) :
    ∀ n, M.Reachable Init (M.trace s inp n)
  | 0 => h
  | n + 1 => (h.trace inp n).step (inp n)

/-- What holds initially and is kept by every step holds in every reachable state. -/
theorem Reachable.invariant {P : S → Prop} (h0 : ∀ s, Init s → P s) (hs : ∀ s i, P s → P (M.next s i))
    {s : S} (h : M.Reachable Init s) : P s := by
  induction h with
  | init hi => exact h0 _ hi
  | step i _ ih => exact hs _ i ih

/-- The part of a reachable state is reachable, if a projection commutes with the step and both are reset together. -/
theorem Reachable.part {J T : Type*} {N : Machine J T} {f : S → T} {g : S → I → J} {reset : I → Bool}
    {reset' : J → Bool} (hf : ∀ s i, f (M.next s i) = N.next (f s) (g s i)) (hr : ∀ s i, reset i = reset' (g s i))
    {s : S} (h : M.Reachable (M.AfterReset reset) s) : N.Reachable (N.AfterReset reset') (f s) := by
  induction h with
  | init hi =>
    obtain ⟨s₀, i, hi, rfl⟩ := hi
    exact .init ⟨f s₀, g s₀ i, (hr s₀ i).symm.trans hi, hf s₀ i⟩
  | step i _ ih => rw [hf]; exact ih.step _

section
variable {P A : S → Prop} {C : S → I → Prop} (hA : ∀ s, P s → A s) (hstep : ∀ s i, P s → (A (M.next s i) ↔ C s i))
  (hkeep : ∀ s i, P s → A (M.next s i) → P (M.next s i)) {s : S} (h0 : P s) (inp : ℕ → I)
include hA hstep hkeep h0

/-- A property `A` that a step keeps exactly when the step meets `C` holds along a stretch of a run exactly
when all steps of the stretch meet `C`. `P` is what the induction carries besides `A`. -/
theorem trace_guard_upto_iff (N : ℕ) : (∀ n, n ≤ N → A (M.trace s inp n)) ↔ ∀ n, n < N → C (M.trace s inp n) (inp n) := by
  constructor
  · intro h
    have hP : ∀ n, n ≤ N → P (M.trace s inp n) := by
      intro n hn
      induction n with
      | zero => exact h0
      | succ n ih => exact hkeep _ _ (ih (Nat.le_of_succ_le hn)) (h (n + 1) hn)
    exact fun n hn => (hstep _ _ (hP n (Nat.le_of_lt hn))).1 (h (n + 1) hn)
  · intro h
    have hP : ∀ n, n ≤ N → P (M.trace s inp n) := by
      intro n hn
      induction n with
      | zero => exact h0
      | succ n ih =>
        have hp := ih (Nat.le_of_succ_le hn)
        exact hkeep _ _ hp ((hstep _ _ hp).2 (h n hn))
    exact fun n hn => hA _ (hP n hn)

/-- The same along a whole run. -/
theorem trace_guard_iff : (∀ n, A (M.trace s inp n)) ↔ ∀ n, C (M.trace s inp n) (inp n) := by
  have h (N : ℕ) := trace_guard_upto_iff hA hstep hkeep h0 inp N
  constructor
  · exact fun hn n => (h (n + 1)).1 (fun k _ => hn k) n n.lt_succ_self
  · exact fun hn n => (h n).2 (fun k _ => hn k) n (Nat.le_refl n)

end

end Machine

/-! ## Edge-triggered register banks -/

/-- A register bank beside the flop that remembers the slow signal of the previous clock. -/
structure EdgeReg (R : Type*) where
  regs : R
  delayed : Bool
deriving DecidableEq, Repr

namespace EdgeReg

variable {I R : Type*}

/-- The slow signal is high now and was low one clock ago. -/
def rising (s : EdgeReg R) (slow : Bool) : Bool := slow && !s.delayed

/-- A bank whose update `ff` is told at each clock whether the slow signal has just risen. -/
def machine (slow : I → Bool) (ff : Bool → I → R → R) : Machine I (EdgeReg R) where
  next s i := ⟨ff (s.rising (slow i)) i s.regs, slow i⟩

variable {slow : I → Bool} {ff : Bool → I → R → R}

@[simp] theorem machine_next_regs (s : EdgeReg R) (i : I) :
    ((machine slow ff).next s i).regs = ff (s.rising (slow i)) i s.regs := rfl

@[simp] theorem machine_next_delayed (s : EdgeReg R) (i : I) :
    ((machine slow ff).next s i).delayed = slow i := rfl

/-- The invariant rule on the bank alone: the reset establishes `P` and every update keeps it. -/
theorem invariant (reset : I → Bool) {P : R → Prop} (h0 : ∀ b i r, reset i = true → P (ff b i r))
    (hs : ∀ b i r, P r → P (ff b i r)) {s : EdgeReg R}
    (h : (machine slow ff).Reachable ((machine slow ff).AfterReset reset) s) : P s.regs := by
  refine Machine.Reachable.invariant (P := fun s => P s.regs) ?_ (fun s i hp => hs _ i _ hp) h
  rintro s ⟨s₀, i, hr, rfl⟩
  exact h0 _ i _ hr

/-- Between two rising edges the bank keeps its contents, if the update does nothing when it is told so. -/
theorem trace_regs_hold {s : EdgeReg R} {inp : ℕ → I} {m n : ℕ} (hmn : m ≤ n)
    (he : ∀ k, m ≤ k → k < n → ((machine slow ff).trace s inp k).rising (slow (inp k)) = false)
    (hold : ∀ k, m ≤ k → k < n → ∀ r, ff false (inp k) r = r) :
    ((machine slow ff).trace s inp n).regs = ((machine slow ff).trace s inp m).regs := by
  induction hmn with
  | refl => rfl
  | @step n hmn ih =>
    rw [Machine.trace_succ, machine_next_regs, he n hmn n.lt_succ_self, hold n hmn n.lt_succ_self]
    exact ih (fun k h1 h2 => he k h1 (by omega)) fun k h1 h2 => hold k h1 (by omega)

/-- A low clock that leaves the bank alone, then a high one: a single update on a rising edge. -/
theorem run_pulse {lo hi : I} (hlo : slow lo = false) (hhi : slow hi = true) (s : EdgeReg R)
    (hold : ff false lo s.regs = s.regs) :
    (machine slow ff).run s [lo, hi] = ⟨ff true hi s.regs, true⟩ := by
  simp [machine, rising, hlo, hhi, hold]

end EdgeReg

end Clocked
