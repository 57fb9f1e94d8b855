import Mathlib.Logic.Function.Iterate
/-!
# A memory behind an auto-incrementing port

Two parties share a memory. The host sees it through a pointer that moves on with every word; the other side
stores where it likes, between any two accesses of the host. `R x v` says that `v` is a proper content of address
`x`. If both sides store proper contents only, then a proper one stays proper (`run_keeps`), and what the host has
written in one go is proper afterwards (`run_write`), whatever was there before.
-/

namespace Port

variable {A V : Type*}

structure State (A V : Type*) where
  ptr : A
  mem : A → V

inductive Op (A V : Type*)
  | point (a : A)
  | put (v : V)
  | get
  /-- The other side. -/
  | store (a : A) (v : V)

def Op.isHost : Op A V → Bool
  | .store .. => false
  | _ => true

/-- The host's program in a run. -/
def host (ops : List (Op A V)) : List (Op A V) := ops.filter Op.isHost

@[simp] theorem host_nil : host ([] : List (Op A V)) = [] := rfl
@[simp] theorem host_point (a : A) (ops : List (Op A V)) : host (.point a :: ops) = .point a :: host ops := rfl
@[simp] theorem host_put (v : V) (ops : List (Op A V)) : host (.put v :: ops) = .put v :: host ops := rfl
@[simp] theorem host_get (ops : List (Op A V)) : host (.get :: ops) = .get :: host ops := rfl
@[simp] theorem host_store (a : A) (v : V) (ops : List (Op A V)) : host (.store a v :: ops) = host ops := rfl

/-- A program in two parts: the run comes apart with it. -/
theorem exists_split {ops xs ys : List (Op A V)} (h : host ops = xs ++ ys) :
    ∃ us vs, ops = us ++ vs ∧ host us = xs ∧ host vs = ys := by
  obtain ⟨us, vs, e, hu, hv⟩ := List.filter_eq_append_iff.1 h
  exact ⟨us, vs, e, hu, hv⟩

section
variable [DecidableEq A] (next : A → A)

def step (s : State A V) : Op A V → State A V
  | .point a => { s with ptr := a }
  | .put v => ⟨next s.ptr, Function.update s.mem s.ptr v⟩
  | .get => { s with ptr := next s.ptr }
  | .store a v => { s with mem := Function.update s.mem a v }

def run (s : State A V) (ops : List (Op A V)) : State A V := ops.foldl (step next) s

@[simp] theorem run_nil (s : State A V) : run next s [] = s := rfl

@[simp] theorem run_cons (s : State A V) (o : Op A V) (ops : List (Op A V)) :
    run next s (o :: ops) = run next (step next s o) ops := rfl

theorem run_append (s : State A V) (ops ops' : List (Op A V)) :
    run next s (ops ++ ops') = run next (run next s ops) ops' := List.foldl_append

/-- The other side does not move the pointer. -/
theorem run_ptr_stores {ops : List (Op A V)} (h : host ops = []) (s : State A V) : (run next s ops).ptr = s.ptr := by
  induction ops generalizing s with
  | nil => rfl
  | cons o ops ih =>
    rw [run_cons]
    cases o with
    | store a v => exact ih h (step next s (.store a v))
    | point a => exact nomatch h
    | put v => exact nomatch h
    | get => exact nomatch h

/-- A host that has set the pointer last finds it there. -/
theorem run_ptr_point {ops xs : List (Op A V)} {a : A} (h : host ops = xs ++ [.point a]) (s : State A V) :
    (run next s ops).ptr = a := by
  obtain ⟨us, vs, rfl, -, hv⟩ := exists_split h
  clear h
  rw [run_append]
  generalize run next s us = s
  induction vs generalizing s with
  | nil => exact nomatch hv
  | cons o vs ih =>
    rw [run_cons]
    cases o with
    | store b v => exact ih hv (step next s (.store b v))
    | point b =>
      obtain ⟨e, ht⟩ := List.cons.inj hv
      rw [run_ptr_stores next ht]
      exact Op.point.inj e
    | put v => exact nomatch (List.cons.inj hv).1
    | get => exact nomatch (List.cons.inj hv).1

end

/-! ## Proper contents -/

variable {next : A → A} {R : A → V → Prop}

/-- The other side stores proper contents. -/
def Stores (R : A → V → Prop) (ops : List (Op A V)) : Prop := ∀ x v, Op.store x v ∈ ops → R x v

theorem Stores.tail {o : Op A V} {ops : List (Op A V)} (h : Stores R (o :: ops)) : Stores R ops :=
  fun x v hv => h x v (List.mem_cons_of_mem o hv)

theorem Stores.append {us vs : List (Op A V)} (h : Stores R (us ++ vs)) : Stores R us ∧ Stores R vs :=
  ⟨fun x v hv => h x v (List.mem_append_left vs hv), fun x v hv => h x v (List.mem_append_right us hv)⟩

/-- With its pointer at `p`, the host puts proper contents. -/
def Respects (next : A → A) (R : A → V → Prop) : A → List (Op A V) → Prop
  | _, [] => True
  | _, .point a :: ops => Respects next R a ops
  | p, .put v :: ops => R p v ∧ Respects next R (next p) ops
  | p, .get :: ops => Respects next R (next p) ops
  | p, .store .. :: ops => Respects next R p ops

theorem Respects.mono {R' : A → V → Prop} {ops : List (Op A V)} {p : A} (h : Respects next R p ops)
    (hr : ∀ x v, R x v → R' x v) : Respects next R' p ops := by
  induction ops generalizing p with
  | nil => trivial
  | cons o ops ih =>
    cases o with
    | put v => exact ⟨hr p v h.1, ih h.2⟩
    | point a => exact ih (p := a) h
    | get => exact ih (p := next p) h
    | store a v => exact ih (p := p) h

theorem Respects.left {us vs : List (Op A V)} {p : A} (h : Respects next R p (us ++ vs)) : Respects next R p us := by
  induction us generalizing p with
  | nil => trivial
  | cons o us ih =>
    cases o with
    | put v => exact ⟨h.1, ih h.2⟩
    | point a => exact ih (p := a) h
    | get => exact ih (p := next p) h
    | store a v => exact ih (p := p) h

/-- A block, and a program that does not care where the pointer is. -/
theorem respects_puts {l : List (Op A V)} (hl : ∀ p, Respects next R p l) {vs : List V} {a : A}
    (h : ∀ (k : ℕ) (hk : k < vs.length), R (next^[k] a) vs[k]) : Respects next R a (vs.map .put ++ l) := by
  induction vs generalizing a with
  | nil => exact hl a
  | cons v vs ih => exact ⟨h 0 (Nat.succ_pos _), ih fun k hk => h (k + 1) (Nat.succ_lt_succ hk)⟩

variable [DecidableEq A]

theorem update_proper {m : A → V} {a x : A} {v : V} (hv : R a v) (h : x ≠ a → R x (m x)) :
    R x (Function.update m a v x) := by
  by_cases e : x = a
  · subst e
    rwa [Function.update_self]
  · rw [Function.update_of_ne e]
    exact h e

/-- **Proper stays proper.** -/
theorem run_keeps {ops : List (Op A V)} {s : State A V} {x : A} (hp : Respects next R s.ptr (host ops))
    (hs : Stores R ops) (h : R x (s.mem x)) : R x ((run next s ops).mem x) := by
  induction ops generalizing s with
  | nil => exact h
  | cons o ops ih =>
    rw [run_cons]
    cases o with
    | point a => exact ih (s := step next s (.point a)) hp hs.tail h
    | get => exact ih (s := step next s .get) hp hs.tail h
    | put v => exact ih (s := step next s (.put v)) hp.2 hs.tail (update_proper hp.1 fun _ => h)
    | store a v =>
      exact ih (s := step next s (.store a v)) hp hs.tail (update_proper (hs a v List.mem_cons_self) fun _ => h)

/-- What the host does not put to, only the other side changes. -/
theorem run_frame {ops : List (Op A V)} {s : State A V} {x : A}
    (hp : Respects next (fun y _ => y ≠ x) s.ptr (host ops)) :
    (run next s ops).mem x = s.mem x ∨ .store x ((run next s ops).mem x) ∈ ops := by
  let R (y : A) (v : V) : Prop := y = x → v = s.mem x ∨ .store x v ∈ ops
  have hs : Stores R ops := fun y v hv e => Or.inr (e ▸ hv)
  exact run_keeps (R := R) (hp.mono fun y v h e => absurd e h) hs (fun _ => Or.inl rfl) rfl

/-- A block is proper once it has been written. -/
theorem run_puts : ∀ {ops : List (Op A V)} {vs : List V} {s : State A V}, host ops = vs.map .put →
    (∀ (k : ℕ) (hk : k < vs.length), R (next^[k] s.ptr) vs[k]) → Stores R ops →
      ∀ k < vs.length, R (next^[k] s.ptr) ((run next s ops).mem (next^[k] s.ptr))
  | _, [], _, _, _, _ => fun _ hk => absurd hk (Nat.not_lt_zero _)
  | [], _ :: _, _, hh, _, _ => nomatch hh
  | .store a v :: _, _ :: _, s, hh, hv, hs => run_puts (s := step next s (.store a v)) hh hv hs.tail
  | .point _ :: _, _ :: _, _, hh, _, _ => nomatch (List.cons.inj hh).1
  | .get :: _, _ :: _, _, hh, _, _ => nomatch (List.cons.inj hh).1
  | .put v :: ops, w :: vs, s, hh, hv, hs => by
    obtain ⟨hw, (hh : host ops = vs.map .put)⟩ := List.cons.inj hh
    have hw : v = w := Op.put.inj hw
    have ht (k : ℕ) (hk : k < vs.length) : R (next^[k] (next s.ptr)) vs[k] := hv (k + 1) (Nat.succ_lt_succ hk)
    intro k hk
    cases k with
    | zero =>
      -- nothing that follows spoils it
      have h0 : R s.ptr v := hw ▸ hv 0 (Nat.succ_pos _)
      have hp : Respects next R (next s.ptr) (host ops) := by
        rw [hh, ← List.append_nil (vs.map Op.put)]
        exact respects_puts (l := []) (fun _ => trivial) ht
      refine run_keeps (s := step next s (.put v)) hp hs.tail ?_
      exact update_proper h0 fun e => absurd rfl e
    | succ k => exact run_puts (s := step next s (.put v)) hh ht hs.tail k (Nat.lt_of_succ_lt_succ hk)

/-- **A block.** The host sets the pointer and writes. -/
theorem run_write : ∀ {ops : List (Op A V)} {a : A} {vs : List V} {s : State A V},
    host ops = .point a :: vs.map .put → (∀ (k : ℕ) (hk : k < vs.length), R (next^[k] a) vs[k]) → Stores R ops →
      ∀ k < vs.length, R (next^[k] a) ((run next s ops).mem (next^[k] a))
  | [], _, _, _, hh, _, _ => nomatch hh
  | .store b v :: _, _, _, s, hh, hv, hs => run_write (s := step next s (.store b v)) hh hv hs.tail
  | .put _ :: _, _, _, _, hh, _, _ => nomatch (List.cons.inj hh).1
  | .get :: _, _, _, _, hh, _, _ => nomatch (List.cons.inj hh).1
  | .point b :: ops, a, vs, s, hh, hv, hs => by
    obtain ⟨e, ht⟩ := List.cons.inj hh
    obtain rfl : b = a := Op.point.inj e
    exact run_puts (s := step next s (.point b)) ht hv hs.tail

end Port
