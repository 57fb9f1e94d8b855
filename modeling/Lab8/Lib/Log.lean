import Lab8.Lib.Clocked
/-!
# What a run emits

`log` collects, edge by edge, what an observer writes down; it is a list because an edge may say nothing.
A machine that does several edges of work for one event of an abstract machine is compared with it through
two logs: the events it has sampled and the results it has produced (`log_simulates`).
-/

namespace Clocked.Machine

variable {I S O : Type*} (M : Machine I S) (f : S → I → List O)

/-- `f` sees the state before the edge and what the edge samples. -/
def log (s : S) : List I → List O
  | [] => []
  | i :: is => f s i ++ log (M.next s i) is

@[simp] theorem log_nil (s : S) : M.log f s [] = [] := rfl

@[simp] theorem log_cons (s : S) (i : I) (is : List I) :
    M.log f s (i :: is) = f s i ++ M.log f (M.next s i) is := rfl

theorem log_append (s : S) : ∀ is js : List I, M.log f s (is ++ js) = M.log f s is ++ M.log f (M.run s is) js
  | [], _ => rfl
  | i :: is, js => by
    rw [List.cons_append, log_cons, log_append (M.next s i) is js, log_cons, run_cons, List.append_assoc]

theorem log_map {P : Type*} (h : O → P) (s : S) :
    ∀ is : List I, M.log (fun s i => (f s i).map h) s is = (M.log f s is).map h
  | [] => rfl
  | i :: is => by rw [log_cons, log_cons, List.map_append, log_map h (M.next s i) is]

/-- A register read before each edge lags one edge behind what it is about to hold. -/
theorem log_delay (p : S → List O) (s : S) :
    ∀ is : List I, M.log (fun s _ => p s) s is ++ p (M.run s is) = p s ++ M.log (fun s i => p (M.next s i)) s is
  | [] => by simp
  | i :: is => by
    rw [log_cons, log_cons, run_cons, List.append_assoc, log_delay p (M.next s i) is]

/-- Where edges write down one item at most, every beginning of the log is the log of a beginning of the run. -/
theorem exists_log_eq (h : ∀ s i, (f s i).length ≤ 1) {is : List I} {s : S} {os : List O}
    (ho : os <+: M.log f s is) : ∃ js ks, is = js ++ ks ∧ M.log f s js = os := by
  induction is generalizing s os with
  | nil => exact ⟨[], [], rfl, (List.prefix_nil.1 ho).symm⟩
  | cons i is ih =>
    have hstep {os' : List O} (hp : os' <+: M.log f (M.next s i) is) :
        ∃ js ks, i :: is = js ++ ks ∧ M.log f s js = f s i ++ os' := by
      obtain ⟨js, ks, rfl, e⟩ := ih hp
      exact ⟨i :: js, ks, rfl, by rw [log_cons, e]⟩
    cases os with
    | nil => exact ⟨[], i :: is, rfl, rfl⟩
    | cons o os =>
      rw [log_cons] at ho
      match hf : f s i, h s i with
      | [], _ =>
        rw [hf] at ho
        simpa [hf] using hstep ho
      | [a], _ =>
        rw [hf] at ho
        obtain ⟨rfl, hp⟩ := List.cons_prefix_cons.1 ho
        simpa [hf] using hstep hp

section
variable {M f} {J T : Type*} {N : Machine J T} {R : S → T → Prop} {Q : I → Prop} {e : S → I → List J}
  (hR : ∀ s t i, Q i → R s t → R (M.next s i) (N.run t (e s i)))
include hR

/-- Stuttering refinement: if each edge emits what its events make the abstract machine emit, a run emits what
its events make it emit. `Q` is what the inputs of the run are known to meet. -/
theorem log_simulates {g : T → J → List O} (ho : ∀ s t i, Q i → R s t → f s i = N.log g t (e s i)) {s : S} {t : T}
    (h : R s t) : ∀ is : List I, (∀ i ∈ is, Q i) → M.log f s is = N.log g t (M.log e s is) := by
  intro is hq
  induction is generalizing s t with
  | nil => rfl
  | cons i is ih =>
    obtain ⟨hi, hq⟩ := List.forall_mem_cons.1 hq
    rw [log_cons, log_cons, log_append, ho s t i hi h, ih (hR s t i hi h) hq]

end

/-! ## Endless runs whose inputs all meet `Q` -/

theorem trace_add (s : S) (inp : ℕ → I) (n : ℕ) : ∀ m,
    M.trace s inp (n + m) = M.trace (M.trace s inp n) (fun k => inp (n + k)) m
  | 0 => rfl
  | m + 1 => by rw [← Nat.add_assoc, trace_succ, trace_succ, trace_add s inp n m]

section
variable {M} {P G : S → Prop} {Q : I → Prop} {s : S} {inp : ℕ → I} (hP : ∀ s i, P s → Q i → P (M.next s i))
  (hs : P s) (hq : ∀ n, Q (inp n))
include hP hs hq

theorem trace_invariant : ∀ n, P (M.trace s inp n)
  | 0 => hs
  | n + 1 => hP _ _ (trace_invariant n) (hq n)

/-- A measure that drops until the goal is met bounds the wait for it, whatever the inputs do. -/
theorem trace_reaches (μ : S → ℕ) (h : ∀ s i, P s → Q i → ¬ G s → μ (M.next s i) < μ s) :
    ∃ m, m ≤ μ s ∧ G (M.trace s inp m) := by
  refine Classical.byContradiction fun hno => ?_
  have hno (m : ℕ) (hm : m ≤ μ s) : ¬ G (M.trace s inp m) := fun hg => hno ⟨m, hm, hg⟩
  have hdrop : ∀ n, n ≤ μ s + 1 → μ (M.trace s inp n) + n ≤ μ s := by
    intro n
    induction n with
    | zero => exact fun _ => Nat.le_refl _
    | succ n ih =>
      intro hn
      have hlt : μ (M.trace s inp (n + 1)) < μ (M.trace s inp n) :=
        h _ _ (trace_invariant hP hs hq n) (hq n) (hno n (Nat.le_of_succ_le_succ hn))
      have := ih (Nat.le_of_succ_le hn)
      omega
  have := hdrop (μ s + 1) (Nat.le_refl _)
  omega

end

/-- Progress by fairness: the steps that meet `W` bring the goal nearer, the others do no harm, and `W` never fails
for good. -/
theorem trace_reaches_fair {M : Machine I S} {G : S → Prop} {A W : S → I → Prop} {s : S} {inp : ℕ → I} (μ : S → ℕ)
    (hA : ∀ n, A (M.trace s inp n) (inp n)) (hW : ∀ n, ∃ m, n ≤ m ∧ W (M.trace s inp m) (inp m))
    (hle : ∀ s i, A s i → ¬ G s → μ (M.next s i) ≤ μ s)
    (hlt : ∀ s i, A s i → W s i → ¬ G s → μ (M.next s i) < μ s) (n : ℕ) :
    ∃ m, n ≤ m ∧ G (M.trace s inp m) := by
  induction hk : μ (M.trace s inp n) using Nat.strongRecOn generalizing n with
  | ind k ih =>
    refine Classical.byContradiction fun hno => ?_
    have hno (m : ℕ) (hm : n ≤ m) : ¬ G (M.trace s inp m) := fun hg => hno ⟨m, hm, hg⟩
    have hmono (d : ℕ) : μ (M.trace s inp (n + d)) ≤ k := by
      induction d with
      | zero => exact Nat.le_of_eq hk
      | succ d ihd => exact Nat.le_trans (hle _ _ (hA _) (hno _ (Nat.le_add_right n d))) ihd
    obtain ⟨m, hm, hw⟩ := hW n
    obtain ⟨d, rfl⟩ := Nat.exists_eq_add_of_le hm
    have hdrop : μ (M.trace s inp (n + d + 1)) < k := Nat.lt_of_lt_of_le (hlt _ _ (hA _) hw (hno _ hm)) (hmono d)
    obtain ⟨j, hj, hg⟩ := ih _ hdrop (n + d + 1) rfl
    exact hno j (by omega) hg

end Clocked.Machine
