import Lab8.Lib.Clocked
/-!
# A slow machine inside a fast one

A machine on a fast clock may do something only once in a while, and then what a machine on a slow clock does at every
tick. Seen through `f` its run is then the slow run with every state held until the next tick (`trace_divided`).
-/

namespace Clocked.Machine

variable {I J S T : Type*} {M : Machine I S} {N : Machine J T} {f : S → T} {s : S} {inp : ℕ → I} {slow : ℕ → J}
  {p a e : ℕ}

/-- The ticks are `p` clocks apart, and the first one that counts leads to the state before clock `a`. -/
theorem trace_divided (hp : 0 < p)
    (htick : ∀ k, a + p * (k + 1) ≤ e →
      f (M.trace s inp (a + p * (k + 1))) = N.next (f (M.trace s inp (a + p * (k + 1) - 1))) (slow k))
    (hhold : ∀ d, a + d < e → (d + 1) % p ≠ 0 → f (M.trace s inp (a + d + 1)) = f (M.trace s inp (a + d)))
    {d : ℕ} (hd : a + d ≤ e) :
    f (M.trace s inp (a + d)) = N.trace (f (M.trace s inp a)) slow (d / p) := by
  induction d with
  | zero => simp
  | succ d ih =>
    have ih := ih (Nat.le_of_succ_le hd)
    by_cases h : (d + 1) % p = 0
    · obtain ⟨k, hk⟩ := Nat.dvd_of_mod_eq_zero h
      have hk0 : k ≠ 0 := by
        rintro rfl
        exact Nat.succ_ne_zero d hk
      obtain ⟨k, rfl⟩ := Nat.exists_eq_succ_of_ne_zero hk0
      have hq : (d + 1) / p = k + 1 := by rw [hk, Nat.mul_div_cancel_left _ hp]
      have hq' : d / p = k := by
        rw [Nat.div_eq_iff hp]
        rw [Nat.mul_succ] at hk
        rw [Nat.mul_comm]
        omega
      have ht := htick k (hk ▸ hd)
      rw [← hk, ← Nat.add_assoc, Nat.add_sub_cancel, ih, hq'] at ht
      rw [hq, trace_succ, ← Nat.add_assoc]
      exact ht
    · have hq : (d + 1) / p = d / p := by
        rw [Nat.succ_div, if_neg fun hd => h (Nat.mod_eq_zero_of_dvd hd), Nat.add_zero]
      rw [hq, ← ih, ← Nat.add_assoc]
      exact hhold d hd h

end Clocked.Machine
