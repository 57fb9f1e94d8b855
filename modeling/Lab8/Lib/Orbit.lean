import Mathlib.Data.Nat.ChineseRemainder
import Mathlib.Dynamics.PeriodicPts.Lemmas
/-!
# Orbits read at intervals

A map sweeps a finite set if the orbit of one point is the whole set (`Sweeps`). Two such orbits that are read
at intervals of `k` and `l` clocks, each time some strides further, show every pair of their values at one
time, if the total periods are coprime (`Sweeps.meet`).
-/

namespace Orbit

open Function

variable {α β : Type*} {f : α → α} {g : β → β} {x : α} {y : β}

/-! ## One orbit -/

/-- A period that is the product of two primes is minimal unless one of them is a period. -/
theorem minimalPeriod_eq_mul_prime {p q : ℕ} (hp : p.Prime) (hq : q.Prime) (h : IsPeriodicPt f (p * q) x)
    (h1 : ¬ IsPeriodicPt f p x) (h2 : ¬ IsPeriodicPt f q x) : minimalPeriod f x = p * q := by
  obtain ⟨a, b, ha, hb, e⟩ := Nat.dvd_mul.1 h.minimalPeriod_dvd
  rcases (Nat.dvd_prime hp).1 ha with rfl | rfl
  · refine absurd (isPeriodicPt_iff_minimalPeriod_dvd.2 ?_) h2
    rw [← e, Nat.one_mul]
    exact hb
  · rcases (Nat.dvd_prime hq).1 hb with rfl | rfl
    · refine absurd (isPeriodicPt_iff_minimalPeriod_dvd.2 ?_) h1
      rw [← e, Nat.mul_one]
    · exact e.symm

/-- The orbit of `x` stays in `S` and is as long as `S` is large. -/
structure Sweeps (f : α → α) (x : α) (S : Finset α) : Prop where
  mem : x ∈ S
  maps : Set.MapsTo f S S
  card : S.card = minimalPeriod f x

namespace Sweeps

variable {S : Finset α} {T : Finset β}

theorem iterate_mem (h : Sweeps f x S) (n : ℕ) : f^[n] x ∈ S := h.maps.iterate n h.mem

theorem period_pos (h : Sweeps f x S) : 0 < minimalPeriod f x := h.card ▸ Finset.card_pos.2 ⟨x, h.mem⟩

/-- Everything in `S` is visited within one period. -/
theorem exists_iterate (h : Sweeps f x S) {u : α} (hu : u ∈ S) : ∃ n < minimalPeriod f x, f^[n] x = u := by
  classical
  have hsub : (Finset.range (minimalPeriod f x)).image (f^[·] x) ⊆ S := by
    intro v hv
    obtain ⟨n, -, rfl⟩ := Finset.mem_image.1 hv
    exact h.iterate_mem n
  have hinj : Set.InjOn (f^[·] x) (Finset.range (minimalPeriod f x)) := by
    rw [Finset.coe_range]
    exact iterate_injOn_Iio_minimalPeriod
  have heq := Finset.eq_of_subset_of_card_le hsub (by rw [Finset.card_image_of_injOn hinj, Finset.card_range, h.card])
  rw [← heq] at hu
  obtain ⟨n, hn, e⟩ := Finset.mem_image.1 hu
  exact ⟨n, Finset.mem_range.1 hn, e⟩

/-- Strides coprime to the period sweep the same set. -/
theorem stride (h : Sweeps f x S) {s : ℕ} (hs : (minimalPeriod f x).Coprime s) : Sweeps f^[s] x S where
  mem := h.mem
  maps := h.maps.iterate s
  card := by
    rw [minimalPeriod_iterate_eq_div_gcd' (minimalPeriod_pos_iff_mem_periodicPts.1 h.period_pos), hs, Nat.div_one,
      h.card]

end Sweeps

/-! ## Two intervals -/

theorem succ_div_mod_wrap {n k : ℕ} (hk : 0 < k) (h : n % k + 1 = k) :
    (n + 1) / k = n / k + 1 ∧ (n + 1) % k = 0 := by
  have hn := Nat.mod_add_div n k
  rw [Nat.div_mod_unique hk, Nat.mul_succ]
  omega

theorem succ_div_mod_stay {n k : ℕ} (h : n % k + 1 < k) :
    (n + 1) / k = n / k ∧ (n + 1) % k = n % k + 1 := by
  have hn := Nat.mod_add_div n k
  rw [Nat.div_mod_unique (by omega)]
  omega

/-- Counters that advance every `k` and every `l` clocks go through all pairs of phases. -/
theorem exists_phases {k l p q a b : ℕ} (hk : 0 < k) (hl : 0 < l) (h : (k * p).Coprime (l * q)) (ha : a < p) (hb : b < q)
    (N : ℕ) : ∃ n, N ≤ n ∧ n / k % p = a ∧ n / l % q = b := by
  obtain ⟨m, h1, h2⟩ := Nat.chineseRemainder h (k * a) (l * b)
  have hka : k * a < k * p := Nat.mul_lt_mul_of_pos_left ha hk
  have hlb : l * b < l * q := Nat.mul_lt_mul_of_pos_left hb hl
  have hpos : 0 < k * p * (l * q) := Nat.mul_pos (Nat.lt_of_le_of_lt (Nat.zero_le _) hka) (Nat.lt_of_le_of_lt (Nat.zero_le _) hlb)
  refine ⟨m + k * p * (l * q) * N, ?_, ?_, ?_⟩
  · exact Nat.le_trans (Nat.le_mul_of_pos_left N hpos) (Nat.le_add_left _ _)
  · rw [← Nat.mod_mul_right_div_self, Nat.mul_assoc (k * p), Nat.add_mul_mod_self_left, h1, Nat.mod_eq_of_lt hka,
      Nat.mul_div_cancel_left _ hk]
  · rw [← Nat.mod_mul_right_div_self, Nat.mul_comm (k * p), Nat.mul_assoc (l * q), Nat.add_mul_mod_self_left, h2,
      Nat.mod_eq_of_lt hlb, Nat.mul_div_cancel_left _ hl]

/-- **Meeting.** From any clock on, two orbits read at intervals show every pair of their values. -/
theorem Sweeps.meet {S : Finset α} {T : Finset β} (hf : Sweeps f x S) (hg : Sweeps g y T) {s t k l : ℕ}
    (hs : (minimalPeriod f x).Coprime s) (ht : (minimalPeriod g y).Coprime t) (hk : 0 < k) (hl : 0 < l)
    (h : (k * S.card).Coprime (l * T.card)) {u : α} {v : β} (hu : u ∈ S) (hv : v ∈ T) (N : ℕ) :
    ∃ n, N ≤ n ∧ f^[s * (n / k)] x = u ∧ g^[t * (n / l)] y = v := by
  have hf' := hf.stride hs
  have hg' := hg.stride ht
  obtain ⟨a, ha, ea⟩ := hf'.exists_iterate hu
  obtain ⟨b, hb, eb⟩ := hg'.exists_iterate hv
  rw [hf'.card, hg'.card] at h
  obtain ⟨n, hn, e1, e2⟩ := exists_phases hk hl h ha hb N
  refine ⟨n, hn, ?_, ?_⟩
  · rw [iterate_mul, ← iterate_mod_minimalPeriod_eq, e1, ea]
  · rw [iterate_mul, ← iterate_mod_minimalPeriod_eq, e2, eb]

end Orbit
