import Mathlib.Tactic.Ring
import Mathlib.Tactic.Linarith
import Mathlib.Tactic.Positivity

/-!
# Fixed-width words

Unsigned registers that also carry signed values, and squared distances computed in 32 bits.
`sqDist32` is what `(x-a)*(x-a) + (y-b)*(y-b)` means when narrow unsigned operands meet a 32-bit
context: each operand is zero-extended, and every operation wraps at `2^32`. For words of at most
15 bits nothing is lost (`toNat_sqDist32`).
-/

namespace Word

variable {w : ℕ}

/-! ## Signed readings -/

/-- Two's-complement negation as it is written in hardware. -/
theorem not_add_one (x : BitVec w) : ~~~x + 1#w = -x := (BitVec.neg_eq_not_add x).symm

/-- Adding a word that holds a signed value moves the position by that value, modulo `2^w`. -/
theorem toNat_add_toInt (x m : BitVec w) : ((x + m).toNat : ℤ) = (x.toNat + m.toInt) % 2 ^ w := by
  rw [BitVec.toNat_add, BitVec.toInt_eq_toNat_cond]
  push_cast
  split
  · rfl
  · rw [← Int.add_sub_assoc, Int.sub_emod_right]

theorem toInt_of_lt {x : BitVec w} (h : 2 * x.toNat < 2 ^ w) : x.toInt = x.toNat := by
  rw [BitVec.toInt_eq_toNat_cond, if_pos h]

theorem toInt_of_le {x : BitVec w} (h : 2 ^ w ≤ 2 * x.toNat) : x.toInt = x.toNat - (2 ^ w : ℕ) := by
  rw [BitVec.toInt_eq_toNat_cond, if_neg (Nat.not_lt.2 h)]

theorem toInt_neg_of_lt {x : BitVec w} (h : 2 * x.toNat < 2 ^ w) : (-x).toInt = -x.toNat := by
  rcases Nat.eq_zero_or_pos x.toNat with h0 | h0
  · have : x = 0#w := BitVec.eq_of_toNat_eq (by simpa using h0)
    simp [this]
  · have hn : (-x).toNat = 2 ^ w - x.toNat := by
      rw [BitVec.toNat_neg, Nat.mod_eq_of_lt (by omega)]
    rw [toInt_of_le (by omega), hn]
    push_cast [Nat.le_of_lt x.isLt]
    omega

/-! ## Squared distances in 32 bits -/

def sqDist32 (x y a b : BitVec w) : BitVec 32 :=
  (x.setWidth 32 - a.setWidth 32) * (x.setWidth 32 - a.setWidth 32) +
    (y.setWidth 32 - b.setWidth 32) * (y.setWidth 32 - b.setWidth 32)

/-- The exact squared distance between two points given by their words. -/
def sqDist (x y a b : BitVec w) : ℤ := ((x.toNat : ℤ) - a.toNat) ^ 2 + ((y.toNat : ℤ) - b.toNat) ^ 2

theorem sqDist_nonneg (x y a b : BitVec w) : 0 ≤ sqDist x y a b := by
  unfold sqDist; positivity

/-- A 32-bit difference of narrow words is the integer difference, wrapped. -/
theorem sub_setWidth_eq_ofInt (hw : w ≤ 15) (x a : BitVec w) :
    x.setWidth 32 - a.setWidth 32 = BitVec.ofInt 32 ((x.toNat : ℤ) - a.toNat) := by
  have hp : 2 ^ w ≤ 2 ^ 15 := Nat.pow_le_pow_right (by omega) hw
  have hx := x.isLt
  have ha := a.isLt
  apply BitVec.eq_of_toNat_eq
  rw [BitVec.toNat_sub, BitVec.toNat_ofInt, BitVec.toNat_setWidth, BitVec.toNat_setWidth,
    Nat.mod_eq_of_lt (a := x.toNat) (by omega), Nat.mod_eq_of_lt (a := a.toNat) (by omega)]
  omega

theorem sq_sub_lt (hw : w ≤ 15) (x a : BitVec w) : ((x.toNat : ℤ) - a.toNat) ^ 2 < 2 ^ 30 := by
  have hp : 2 ^ w ≤ 2 ^ 15 := Nat.pow_le_pow_right (by omega) hw
  have hx := x.isLt
  have ha := a.isLt
  have h : |(x.toNat : ℤ) - a.toNat| < 2 ^ 15 := by rw [abs_lt]; omega
  calc ((x.toNat : ℤ) - a.toNat) ^ 2 = |(x.toNat : ℤ) - a.toNat| ^ 2 := (sq_abs _).symm
    _ < (2 ^ 15) ^ 2 := pow_lt_pow_left₀ h (abs_nonneg _) (by decide)
    _ = 2 ^ 30 := by norm_num

theorem sqDist_lt (hw : w ≤ 15) (x y a b : BitVec w) : sqDist x y a b < 2 ^ 31 := by
  have h1 := sq_sub_lt hw x a
  have h2 := sq_sub_lt hw y b
  unfold sqDist; omega

/-- The 32-bit computation loses nothing. -/
theorem toNat_sqDist32 (hw : w ≤ 15) (x y a b : BitVec w) :
    ((sqDist32 x y a b).toNat : ℤ) = sqDist x y a b := by
  have h0 := sqDist_nonneg x y a b
  have h1 := sqDist_lt hw x y a b
  have h : sqDist32 x y a b = BitVec.ofInt 32 (sqDist x y a b) := by
    rw [sqDist32, sub_setWidth_eq_ofInt hw, sub_setWidth_eq_ofInt hw, ← BitVec.ofInt_mul,
      ← BitVec.ofInt_mul, ← BitVec.ofInt_add, sqDist]
    congr 1; ring
  rw [h, BitVec.toNat_ofInt]
  omega

/-- `k + s` in 32 bits, `k` an unsized literal. -/
theorem toNat_lit_add (k : ℕ) (hk : k < 2 ^ 15) (hw : w ≤ 15) (s : BitVec w) :
    (BitVec.ofNat 32 k + s.setWidth 32).toNat = k + s.toNat := by
  have hp : 2 ^ w ≤ 2 ^ 15 := Nat.pow_le_pow_right (by omega) hw
  have hs := s.isLt
  rw [BitVec.toNat_add, BitVec.toNat_ofNat, BitVec.toNat_setWidth, Nat.mod_eq_of_lt (a := k) (by omega),
    Nat.mod_eq_of_lt (a := s.toNat) (by omega), Nat.mod_eq_of_lt (by omega)]

/-- The unsigned contact test `sqDist32 ≤ r*r` is exact for every radius below `2^16`. -/
theorem sqDist32_le_iff (hw : w ≤ 15) (x y a b : BitVec w) {r : BitVec 32} (hr : r.toNat < 2 ^ 16) :
    sqDist32 x y a b ≤ r * r ↔ sqDist x y a b ≤ (r.toNat : ℤ) ^ 2 := by
  have hrr : r.toNat * r.toNat < 2 ^ 32 := by nlinarith
  rw [BitVec.le_def, BitVec.toNat_mul, Nat.mod_eq_of_lt hrr, ← toNat_sqDist32 hw x y a b]
  constructor
  · intro h; rw [sq]; exact_mod_cast h
  · intro h; rw [sq] at h; exact_mod_cast h

/-- The same for a radius with an unsized literal in it. -/
theorem sqDist32_le_lit_iff (hw : w ≤ 15) {k : ℕ} (hk : k < 2 ^ 15) (x y a b s : BitVec w) :
    sqDist32 x y a b ≤ (BitVec.ofNat 32 k + s.setWidth 32) * (BitVec.ofNat 32 k + s.setWidth 32) ↔
      sqDist x y a b ≤ ((k + s.toNat : ℕ) : ℤ) ^ 2 := by
  have hp : 2 ^ w ≤ 2 ^ 15 := Nat.pow_le_pow_right (by omega) hw
  have hlt := s.isLt
  have hs := toNat_lit_add k hk hw s
  rw [sqDist32_le_iff hw x y a b (by omega), hs]

theorem toNat_setWidth32 (hw : w ≤ 15) (s : BitVec w) : (s.setWidth 32).toNat = s.toNat := by
  have hp : 2 ^ w ≤ 2 ^ 15 := Nat.pow_le_pow_right (by omega) hw
  have hs := s.isLt
  rw [BitVec.toNat_setWidth, Nat.mod_eq_of_lt (by omega)]

/-- And for one that is a narrow word. -/
theorem sqDist32_le_sq_iff (hw : w ≤ 15) (x y a b s : BitVec w) :
    sqDist32 x y a b ≤ s.setWidth 32 * s.setWidth 32 ↔ sqDist x y a b ≤ (s.toNat : ℤ) ^ 2 := by
  have hp : 2 ^ w ≤ 2 ^ 15 := Nat.pow_le_pow_right (by omega) hw
  have hlt := s.isLt
  have hs := toNat_setWidth32 hw s
  rw [sqDist32_le_iff hw x y a b (by omega), hs]

/-- In signed 32-bit arithmetic the test is the same: neither side reaches the sign bit. -/
theorem sqDist32_sle_sq_iff (hw : w ≤ 15) (x y a b s : BitVec w) :
    (sqDist32 x y a b).sle (s.setWidth 32 * s.setWidth 32) = true ↔ sqDist x y a b ≤ (s.toNat : ℤ) ^ 2 := by
  have hp : 2 ^ w ≤ 2 ^ 15 := Nat.pow_le_pow_right (by omega) hw
  have hlt := s.isLt
  have h1 := toNat_sqDist32 hw x y a b
  have h2 := sqDist_lt hw x y a b
  have hss : s.toNat * s.toNat < 2 ^ 30 := by nlinarith
  have hs : (s.setWidth 32 * s.setWidth 32).toNat = s.toNat * s.toNat := by
    rw [BitVec.toNat_mul, toNat_setWidth32 hw, Nat.mod_eq_of_lt (by omega)]
  rw [BitVec.sle, decide_eq_true_eq, toInt_of_lt (by omega), toInt_of_lt (by omega), h1, hs, sq, Nat.cast_mul]

end Word
