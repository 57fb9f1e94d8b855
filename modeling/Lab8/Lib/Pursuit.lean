import Mathlib.Logic.Function.Iterate
import Mathlib.Order.Defs.LinearOrder
import Mathlib.Algebra.Order.Ring.Int
import Mathlib.Data.Int.Order.Basic
/-!
# Pursuit on a line

A point moves by a motion in {-1, 0, 1} that is set from the error of one step ago. It cannot stop on its
target: it overshoots and oscillates. What decreases is `2|e - m| + |e|`, for the error `e` and the motion `m`,
as long as the point is not `Settled` within one of the target, and from there it does not get away again.

Near a wall the motion is not set from the error but inward, also a step late. The time until the point is off
the wall is known exactly (`wallTime`).
-/

namespace Pursuit

/-! ## Reaching a goal -/

section
variable {S : Type*} {f : S → S} {G K P : S → Prop} {s : S}

/-- Iterating `f` from `s` comes to a state in `G`. -/
def Reaches (f : S → S) (G : S → Prop) (s : S) : Prop := ∃ n, G (f^[n] s)

theorem Reaches.here (h : G s) : Reaches f G s := ⟨0, h⟩

theorem Reaches.of_next : Reaches f G (f s) → Reaches f G s
  | ⟨n, h⟩ => ⟨n + 1, h⟩

theorem Reaches.trans (h : Reaches f G s) (hK : ∀ t, G t → Reaches f K t) : Reaches f K s := by
  obtain ⟨n, hn⟩ := h
  obtain ⟨m, hm⟩ := hK _ hn
  exact ⟨m + n, by rwa [Function.iterate_add_apply]⟩

/-- An invariant with a measure that drops until the goal is met. -/
theorem reaches_of_measure (μ : S → ℕ) (h : ∀ s, P s → ¬ G s → P (f s) ∧ μ (f s) < μ s) {s : S} (hs : P s) :
    Reaches f G s := by
  induction hn : μ s using Nat.strongRecOn generalizing s with
  | ind n ih =>
    by_cases hg : G s
    · exact .here hg
    · obtain ⟨hp, hlt⟩ := h s hs hg
      exact .of_next (ih (μ (f s)) (hn ▸ hlt) hp rfl)

/-- A run `u` that follows `f` until it ends, and ends in `G`, ends. -/
theorem Reaches.ends {T : Type*} {u : ℕ → T} {v : T → S} {Q E : T → Prop} (h0 : Q (u 0))
    (hstep : ∀ n, Q (u n) → ¬ E (u n) → Q (u (n + 1)) ∧ v (u (n + 1)) = f (v (u n)))
    (hG : ∀ t, Q t → G (v t) → E t) (h : Reaches f G (v (u 0))) : ∃ n, E (u n) := by
  by_contra hno
  have hno : ∀ n, ¬ E (u n) := not_exists.1 hno
  have follows : ∀ n, Q (u n) ∧ v (u n) = f^[n] (v (u 0)) := by
    intro n
    induction n with
    | zero => exact ⟨h0, rfl⟩
    | succ n ih =>
      obtain ⟨hq, hv⟩ := hstep n ih.1 (hno n)
      exact ⟨hq, by rw [hv, ih.2, Function.iterate_succ_apply']⟩
  obtain ⟨n, hn⟩ := h
  exact hno n (hG _ (follows n).1 ((follows n).2 ▸ hn))

end

/-! ## Chasing -/

section
variable {e m : ℤ}

/-- Within one of the target, now and after the step. -/
def Settled (e m : ℤ) : Prop := (-1 ≤ e ∧ e ≤ 1) ∧ (-1 ≤ e - m ∧ e - m ≤ 1)

instance (e m : ℤ) : Decidable (Settled e m) := inferInstanceAs (Decidable (_ ∧ _))

def lag (e m : ℤ) : ℕ := if Settled e m then 0 else 2 * (e - m).natAbs + e.natAbs

theorem sign_cases (e : ℤ) : (0 < e ∧ e.sign = 1) ∨ (e = 0 ∧ e.sign = 0) ∨ (e < 0 ∧ e.sign = -1) := by
  rcases lt_trichotomy e 0 with h | rfl | h
  · exact Or.inr (Or.inr ⟨h, Int.sign_eq_neg_one_of_neg h⟩)
  · exact Or.inr (Or.inl ⟨rfl, rfl⟩)
  · exact Or.inl ⟨h, Int.sign_eq_one_of_pos h⟩

theorem sign_unit (e : ℤ) : -1 ≤ e.sign ∧ e.sign ≤ 1 := by
  rcases sign_cases e with ⟨-, hs⟩ | ⟨-, hs⟩ | ⟨-, hs⟩ <;> rw [hs] <;> decide

theorem lag_le (e m : ℤ) : lag e m ≤ 2 * (e - m).natAbs + e.natAbs := by
  unfold lag
  split <;> omega

variable (hm : -1 ≤ m ∧ m ≤ 1)
include hm

/-- A settled point stays settled. -/
theorem Settled.next (h : Settled e m) : Settled (e - m) e.sign := by
  unfold Settled at h ⊢
  rcases sign_cases e with ⟨he, hs⟩ | ⟨he, hs⟩ | ⟨he, hs⟩ <;> rw [hs] <;> omega

theorem lag_next_lt (h : ¬ Settled e m) : lag (e - m) e.sign < lag e m := by
  have hle := lag_le (e - m) e.sign
  have he : lag e m = 2 * (e - m).natAbs + e.natAbs := if_neg h
  rw [he]
  unfold Settled at h
  rcases sign_cases e with ⟨he, hs⟩ | ⟨he, hs⟩ | ⟨he, hs⟩ <;> rw [hs] at hle ⊢ <;> omega

theorem lag_next_le : lag (e - m) e.sign ≤ lag e m := by
  by_cases h : Settled e m
  · unfold lag
    rw [if_pos h, if_pos (h.next hm)]
  · exact (lag_next_lt hm h).le

end

/-! ## Walls -/

section
variable {ρ R x m : ℤ}

/-- Within `ρ` of one of the walls at `0` and `R`. -/
def AtWall (ρ R x : ℤ) : Prop := R ≤ x + ρ ∨ x ≤ ρ

instance (ρ R x : ℤ) : Decidable (AtWall ρ R x) := inferInstanceAs (Decidable (_ ∨ _))

def inward (ρ R x : ℤ) : ℤ := if R ≤ x + ρ then -1 else 1

/-- How many steps the point stays at its wall. -/
def wallTime (ρ R x m : ℤ) : ℕ := (if R ≤ x + ρ then x + ρ - R + 2 + m else ρ - x + 2 - m).toNat

theorem wallTime_next (hm : -1 ≤ m ∧ m ≤ 1) (hR : 2 * ρ + 4 < R) (h : AtWall ρ R x) :
    wallTime ρ R (x + m) (inward ρ R x) < wallTime ρ R x m := by
  unfold AtWall at h
  unfold wallTime inward
  split <;> split <;> omega

/-- A step off the wall is one that points inward. -/
theorem off_wall (hm : -1 ≤ m ∧ m ≤ 1) (h : AtWall ρ R x) (h' : ¬ AtWall ρ R (x + m)) :
    (x + m = ρ + 1 ∧ inward ρ R x = 1) ∨ (x + m + ρ + 1 = R ∧ inward ρ R x = -1) := by
  unfold AtWall at h h'
  unfold inward
  split <;> omega

end

end Pursuit
