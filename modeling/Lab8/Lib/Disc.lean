import Mathlib.Tactic.Linarith
import Mathlib.Tactic.Positivity
import Mathlib.Tactic.Ring
/-!
# Discs of pixels

A disc covers the integer points no further from its centre than its radius. Two discs meet if their centres are
no further apart than the radii together; that is so whenever they have a point in common, pixel or not
(`Disc.meets_of_covers`).
-/

structure Disc where
  x : ℤ
  y : ℤ
  radius : ℕ
deriving DecidableEq, Repr

namespace Disc

def Covers (d : Disc) (x y : ℤ) : Prop := (x - d.x) ^ 2 + (y - d.y) ^ 2 ≤ (d.radius : ℤ) ^ 2

def Meets (d e : Disc) : Prop := (d.x - e.x) ^ 2 + (d.y - e.y) ^ 2 ≤ ((d.radius + e.radius : ℕ) : ℤ) ^ 2

instance (d : Disc) (x y : ℤ) : Decidable (d.Covers x y) := inferInstanceAs (Decidable (_ ≤ _))
instance (d e : Disc) : Decidable (d.Meets e) := inferInstanceAs (Decidable (_ ≤ _))

/-- The triangle inequality, squared. The inner product is bounded by the radii as the lengths are. -/
theorem sq_sub_le {p q u v : ℤ} {r s : ℕ} (h1 : p ^ 2 + q ^ 2 ≤ (r : ℤ) ^ 2) (h2 : u ^ 2 + v ^ 2 ≤ (s : ℤ) ^ 2) :
    (p - u) ^ 2 + (q - v) ^ 2 ≤ ((r + s : ℕ) : ℤ) ^ 2 := by
  have hcs : (p * u + q * v) ^ 2 ≤ ((r : ℤ) * s) ^ 2 :=
    calc (p * u + q * v) ^ 2 ≤ (p ^ 2 + q ^ 2) * (u ^ 2 + v ^ 2) := by
          have := sq_nonneg (p * v - q * u)
          linarith
      _ ≤ (r : ℤ) ^ 2 * (s : ℤ) ^ 2 := mul_le_mul h1 h2 (by positivity) (by positivity)
      _ = ((r : ℤ) * s) ^ 2 := by ring
  have hdot : -((r : ℤ) * s) ≤ p * u + q * v := (abs_le_of_sq_le_sq' hcs (by positivity)).1
  push_cast
  linarith

/-- Discs with a common point meet. -/
theorem meets_of_covers {d e : Disc} {x y : ℤ} (hd : d.Covers x y) (he : e.Covers x y) : d.Meets e :=
  calc (d.x - e.x) ^ 2 + (d.y - e.y) ^ 2 = ((x - e.x) - (x - d.x)) ^ 2 + ((y - e.y) - (y - d.y)) ^ 2 := by ring
    _ ≤ ((e.radius + d.radius : ℕ) : ℤ) ^ 2 := sq_sub_le he hd
    _ = ((d.radius + e.radius : ℕ) : ℤ) ^ 2 := by rw [Nat.add_comm]

end Disc
