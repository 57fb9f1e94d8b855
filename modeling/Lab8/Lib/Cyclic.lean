import Mathlib.Order.Interval.Finset.Nat
import Mathlib.Data.Finset.Card
/-!
# Counting round a cycle

A quantity that goes up by one modulo `N` at every step of an interval of time (`Counts`) comes back to a
value after exactly `N` steps, and a signal that changes at every step is high at half of them.
-/

namespace Cyclic

/-- From `c` to `e`, `φ` counts modulo `N`. -/
def Counts (N : ℕ) (φ : ℕ → ℕ) (c e : ℕ) : Prop := ∀ t, c ≤ t → t < e → φ (t + 1) = (φ t + 1) % N

variable {N c e s t : ℕ} {φ : ℕ → ℕ}

theorem Counts.add (h : Counts N φ c e) (hs : c ≤ s) (hlt : φ s < N) :
    ∀ d, s + d ≤ e → φ (s + d) = (φ s + d) % N
  | 0, _ => by rw [Nat.add_zero, Nat.add_zero, Nat.mod_eq_of_lt hlt]
  | d + 1, hd => by
    rw [← Nat.add_assoc, h (s + d) (by omega) (by omega), h.add hs hlt d (by omega), Nat.mod_add_mod,
      Nat.add_assoc]

/-- One round later the value is back. -/
theorem Counts.round (h : Counts N φ c e) (hs : c ≤ s) (hlt : φ s < N) (he : s + N ≤ e) : φ (s + N) = φ s := by
  rw [h.add hs hlt N he, Nat.add_mod_right, Nat.mod_eq_of_lt hlt]

/-- A value does not come back before the round is over. -/
theorem Counts.round_le (h : Counts N φ c e) (hs : c ≤ s) (hlt : φ s < N) (hst : s < t) (ht : t ≤ e)
    (heq : φ t = φ s) : s + N ≤ t := by
  obtain ⟨d, rfl⟩ := Nat.exists_eq_add_of_le hst.le
  rw [h.add hs hlt d ht] at heq
  by_contra hd
  rcases Nat.lt_or_ge (φ s + d) N with hw | hw
  · rw [Nat.mod_eq_of_lt hw] at heq; omega
  · rw [Nat.mod_eq_sub_mod hw, Nat.mod_eq_of_lt (by omega)] at heq; omega

/-- **Consecutive visits** to a value are one round apart. -/
theorem Counts.apart (h : Counts N φ c e) {k : ℕ} (hk : k < N) (hs : c ≤ s) (hst : s < t) (ht : t ≤ e)
    (h1 : φ s = k) (h2 : φ t = k) (hn : ∀ u, s < u → u < t → φ u ≠ k) : t = s + N := by
  have hle := h.round_le hs (h1 ▸ hk) hst ht (h2.trans h1.symm)
  rcases Nat.eq_or_lt_of_le hle with e | hlt
  · exact e.symm
  · exact absurd ((h.round hs (h1 ▸ hk) (by omega)).trans h1) (hn (s + N) (by omega) hlt)

/-- The times from `s` to `t` at which `p` is high. -/
def high (p : ℕ → Bool) (s t : ℕ) : Finset ℕ := (Finset.Ico s t).filter fun u => p u = true

theorem high_succ (p : ℕ → Bool) (hst : s ≤ t) :
    (high p s (t + 1)).card = (high p s t).card + if p t = true then 1 else 0 := by
  unfold high
  rw [Nat.Ico_succ_right_eq_insert_Ico hst, Finset.filter_insert]
  split
  · rw [Finset.card_insert_of_notMem (by simp)]
  · rfl

/-- A signal that alternates is high half of the time. -/
theorem card_high_of_alternating {p : ℕ → Bool} (s : ℕ) : ∀ M,
    (∀ u, s ≤ u → u < s + 2 * M → p (u + 1) = !p u) → (high p s (s + 2 * M)).card = M
  | 0, _ => by simp [high]
  | M + 1, h => by
    have ih := card_high_of_alternating s M fun u h1 h2 => h u h1 (by omega)
    have ha := h (s + 2 * M) (by omega) (by omega)
    rw [show s + 2 * (M + 1) = s + 2 * M + 1 + 1 from rfl, high_succ p (by omega), high_succ p (by omega), ih, ha]
    cases p (s + 2 * M) <;> rfl

end Cyclic
