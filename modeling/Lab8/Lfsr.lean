import Mathlib.Tactic.NormNum.Prime
import Lab8.Lib.Clocked
import Lab8.Lib.Orbit
/-!
# The random coordinates (randomx.sv, randomy.sv)

Two shift registers give the place of the next food. Each shifts for some clocks, pauses for one and copies
the register to its output. `LFSRX` feeds back taps 8, 3, 2, 0 and its nine low bits go through all 511 nonzero
words. `LFSRY` has the same taps with 7 in the place of 8, and its eight low bits go through 51 words only (`rows`):
four fifths of the rows never get a food (`spawn_iff`).

| here | there |
| --- | --- |
| `feedback`, `last` | `feedback` (randomx.sv:7, randomy.sv:7), the bound on `count` (:19, :19) |
| `ff` | `always_ff` (randomx.sv:12-29, randomy.sv:12-29) |
-/

namespace Lab8

open Clocked Orbit

structure Lfsr where
  feedback : BitVec 10 → Bool
  last : BitVec 4

namespace Lfsr

structure Regs where
  random : BitVec 10
  randomDone : BitVec 10
  count : BitVec 4
deriving DecidableEq, Repr

variable (g : Lfsr)

/-- `{random[8:0], feedback}`. -/
def shift (random : BitVec 10) : BitVec 10 := random.setWidth 9 ++ BitVec.ofBool (g.feedback random)

def ff (r : Regs) (reset : Bool) : Regs :=
  if reset then { r with random := 0xF, count := 0 }
  else if r.count = g.last then { r with count := 0, randomDone := r.random }
  else { r with random := g.shift r.random, count := r.count + 1 }

def machine : Machine Bool Regs := ⟨g.ff⟩

/-- The registers `n` clocks after a clock with `Reset`. -/
def after (r : Regs) (n : ℕ) : Regs := g.machine.trace (g.machine.next r true) (fun _ => false) n

end Lfsr

def lfsrx : Lfsr where
  feedback random := random[8] ^^ random[3] ^^ random[2] ^^ random[0]
  last := 0b1001

def lfsry : Lfsr where
  feedback random := random[7] ^^ random[3] ^^ random[2] ^^ random[0]
  last := 0b1000

namespace Lfsr

/-! ## Blocks -/

section
variable {g : Lfsr}

/-- In block `q`, after `c` of its shifts; `d` is what the output held before the first block. -/
def inBlock (g : Lfsr) (d : BitVec 10) (q c : ℕ) : Regs where
  random := g.shift^[g.last.toNat * q + c] 0xF
  randomDone := if q = 0 then d else g.shift^[g.last.toNat * q] 0xF
  count := BitVec.ofNat 4 c

theorem ff_inBlock {d : BitVec 10} {q c : ℕ} (h : c < g.last.toNat) :
    g.ff (g.inBlock d q c) false = g.inBlock d q (c + 1) := by
  have hc : BitVec.ofNat 4 c ≠ g.last := by
    intro hc
    have hl := g.last.isLt
    rw [← hc, BitVec.toNat_ofNat, Nat.mod_eq_of_lt (by omega)] at h
    exact Nat.lt_irrefl _ h
  unfold ff inBlock
  rw [if_neg Bool.false_ne_true, if_neg hc]
  simp only [← Nat.add_assoc, Function.iterate_succ_apply', BitVec.ofNat_add]
  rfl

theorem ff_inBlock_last {d : BitVec 10} {q : ℕ} :
    g.ff (g.inBlock d q g.last.toNat) false = g.inBlock d (q + 1) 0 := by
  unfold ff inBlock
  rw [if_neg Bool.false_ne_true, if_pos (by rw [BitVec.ofNat_toNat, BitVec.setWidth_eq]), if_neg (Nat.succ_ne_zero q)]
  rfl

/-- A block is `last` shifts and the clock that copies. -/
theorem after_eq (r : Regs) (n : ℕ) :
    g.after r n = g.inBlock r.randomDone (n / (g.last.toNat + 1)) (n % (g.last.toNat + 1)) := by
  induction n with
  | zero => simp [after, machine, ff, inBlock]
  | succ n ih =>
    have hlt : n % (g.last.toNat + 1) < g.last.toNat + 1 := Nat.mod_lt _ (Nat.succ_pos _)
    change g.ff (g.after r n) false = _
    rw [ih]
    by_cases h : n % (g.last.toNat + 1) = g.last.toNat
    · obtain ⟨e1, e2⟩ := succ_div_mod_wrap (Nat.succ_pos g.last.toNat) (by rw [h])
      rw [e1, e2, h, ff_inBlock_last]
    · obtain ⟨e1, e2⟩ := succ_div_mod_stay (n := n) (k := g.last.toNat + 1) (by omega)
      rw [e1, e2, ff_inBlock (by omega)]

end

/-! ## Low bits -/

/-- One shift, seen on the low `w` bits. -/
def lowShift (g : Lfsr) (w : ℕ) (v : BitVec w) : BitVec w := (g.shift (v.setWidth 10)).setWidth w

/-- The low `w` bits do not depend on those above. -/
def Closed (g : Lfsr) (w : ℕ) : Prop := Function.Semiconj (BitVec.setWidth w) g.shift (g.lowShift w)

/-- It is enough that no tap is above them. -/
theorem closed_of_feedback {g : Lfsr} {w : ℕ} (hw : w ≤ 9)
    (h : ∀ r : BitVec 10, g.feedback ((r.setWidth w).setWidth 10) = g.feedback r) : g.Closed w := by
  intro r
  unfold lowShift shift
  rw [h]
  ext j hj
  simp only [BitVec.getElem_setWidth, BitVec.getLsbD_append, BitVec.getLsbD_setWidth]
  by_cases h0 : j < 1
  · simp [h0]
  · have h9 : j - 1 < 9 := by omega
    have h10 : j - 1 < 10 := by omega
    have hlow : j - 1 < w := by omega
    simp [h0, h9, h10, hlow]

theorem lfsrx_closed : lfsrx.Closed 9 := by
  refine closed_of_feedback (by decide) ?_
  intro r
  simp [lfsrx]

theorem lfsry_closed : lfsry.Closed 8 := by
  refine closed_of_feedback (by decide) ?_
  intro r
  simp [lfsry]

/-- Before the first copy the output is what it was, from then on it is a stride of the orbit. -/
theorem randomDone_after {g : Lfsr} {w : ℕ} (hg : g.Closed w) (r : Regs) (n : ℕ) :
    (g.after r n).randomDone.toNat % 2 ^ w =
      if n < g.last.toNat + 1 then r.randomDone.toNat % 2 ^ w
      else ((g.lowShift w)^[g.last.toNat * (n / (g.last.toNat + 1))] (BitVec.setWidth w (0xF : BitVec 10))).toNat := by
  rw [after_eq]
  unfold inBlock
  by_cases hn : n < g.last.toNat + 1
  · simp only [Nat.div_eq_of_lt hn, if_true, if_pos hn]
  · have hq : n / (g.last.toNat + 1) ≠ 0 := Nat.ne_of_gt (Nat.div_pos (Nat.not_lt.1 hn) (Nat.succ_pos _))
    simp only [if_neg hq, if_neg hn, ← BitVec.toNat_setWidth]
    exact congrArg BitVec.toNat (hg.iterate_right _ _)

theorem column_after (r : Regs) (n : ℕ) : (lfsrx.after r n).randomDone.toNat % 512 =
    if n < 10 then r.randomDone.toNat % 512 else ((lfsrx.lowShift 9)^[9 * (n / 10)] 15).toNat :=
  randomDone_after lfsrx_closed r n

theorem row_after (r : Regs) (n : ℕ) : (lfsry.after r n).randomDone.toNat % 256 =
    if n < 9 then r.randomDone.toNat % 256 else ((lfsry.lowShift 8)^[8 * (n / 9)] 15).toNat :=
  randomDone_after lfsry_closed r n

/-! ## Orbits -/

/-- The rows of the spawn field that `LFSRY` gives. -/
def rows : List ℕ :=
  [8, 15, 17, 19, 20, 29, 31, 33, 34, 35, 39, 41, 57, 59, 63, 66, 67, 68, 69, 71, 72, 78, 82, 104, 114, 118, 127,
    132, 135, 137, 138, 142, 144, 145, 156, 161, 162, 164, 180, 200, 208, 209, 218, 228, 232, 237, 244, 250, 253,
    254, 255]

/-- The words that stand for the numbers of `S`. -/
def words (w : ℕ) (S : Finset ℕ) : Finset (BitVec w) := S.image (BitVec.ofNat w)

section
variable {w : ℕ} {S : Finset ℕ} (hS : ∀ n ∈ S, n < 2 ^ w)
include hS

theorem mem_words {v : BitVec w} : v ∈ words w S ↔ v.toNat ∈ S := by
  unfold words
  rw [Finset.mem_image]
  constructor
  · rintro ⟨n, hn, rfl⟩
    rwa [BitVec.toNat_ofNat, Nat.mod_eq_of_lt (hS n hn)]
  · exact fun hv => ⟨v.toNat, hv, by rw [BitVec.ofNat_toNat, BitVec.setWidth_eq]⟩

theorem card_words : (words w S).card = S.card := by
  refine Finset.card_image_of_injOn ?_
  intro m hm n hn e
  have e' := congrArg BitVec.toNat e
  rwa [BitVec.toNat_ofNat, BitVec.toNat_ofNat, Nat.mod_eq_of_lt (hS m hm), Nat.mod_eq_of_lt (hS n hn)] at e'

end

theorem columns_lt : ∀ n ∈ Finset.Icc 1 511, n < 2 ^ 9 := by
  intro n hn
  have := (Finset.mem_Icc.1 hn).2
  omega

theorem rows_lt : ∀ n ∈ rows.toFinset, n < 2 ^ 8 := by
  simp only [List.mem_toFinset]
  decide

theorem lfsrx_sweeps : Sweeps (lfsrx.lowShift 9) 15 (words 9 (Finset.Icc 1 511)) where
  mem := (mem_words columns_lt).2 (by decide)
  maps := by
    have h : ∀ v : BitVec 9, 1 ≤ v.toNat → 1 ≤ (lfsrx.lowShift 9 v).toNat := by decide +kernel
    intro v hv
    have hv := Finset.mem_Icc.1 ((mem_words columns_lt).1 hv)
    exact (mem_words columns_lt).2 (Finset.mem_Icc.2 ⟨h v hv.1, by omega⟩)
  card := by
    have h : Function.minimalPeriod (lfsrx.lowShift 9) 15 = 7 * 73 := by
      refine minimalPeriod_eq_mul_prime (by norm_num) (by norm_num) ?_ ?_ ?_ <;>
        unfold Function.IsPeriodicPt Function.IsFixedPt <;> decide +kernel
    rw [h, card_words columns_lt, Nat.card_Icc]

theorem lfsry_sweeps : Sweeps (lfsry.lowShift 8) 15 (words 8 rows.toFinset) where
  mem := (mem_words rows_lt).2 (by decide)
  maps := by
    have h : ∀ v : BitVec 8, v.toNat ∈ rows → (lfsry.lowShift 8 v).toNat ∈ rows := by decide +kernel
    intro v hv
    have hv := List.mem_toFinset.1 ((mem_words rows_lt).1 hv)
    exact (mem_words rows_lt).2 (List.mem_toFinset.2 (h v hv))
  card := by
    have h : Function.minimalPeriod (lfsry.lowShift 8) 15 = 3 * 17 := by
      refine minimalPeriod_eq_mul_prime (by norm_num) (by norm_num) ?_ ?_ ?_ <;>
        unfold Function.IsPeriodicPt Function.IsFixedPt <;> decide +kernel
    rw [h, card_words rows_lt, List.toFinset_card_of_nodup (by decide)]
    rfl

/-! ## The spawn field -/

/-- Every column comes up with every listed row. -/
theorem exists_spawn (rx ry : Regs) {x y : ℕ} (hx : 1 ≤ x ∧ x ≤ 511) (hy : y ∈ rows) :
    ∃ n, (lfsrx.after rx n).randomDone.toNat % 512 = x ∧ (lfsry.after ry n).randomDone.toNat % 256 = y := by
  have hx' := Finset.mem_Icc.2 hx
  have hy' := List.mem_toFinset.2 hy
  have cx : (words 9 (Finset.Icc 1 511)).card = 511 := by rw [card_words columns_lt, Nat.card_Icc]
  have cy : (words 8 rows.toFinset).card = 51 := by
    rw [card_words rows_lt, List.toFinset_card_of_nodup (by decide)]
    rfl
  obtain ⟨n, hn, e1, e2⟩ := lfsrx_sweeps.meet lfsry_sweeps (s := 9) (t := 8) (k := 10) (l := 9)
    (by rw [← lfsrx_sweeps.card, cx]; decide) (by rw [← lfsry_sweeps.card, cy]; decide) (by decide) (by decide)
    (by rw [cx, cy]; decide) (Finset.mem_image_of_mem _ hx') (Finset.mem_image_of_mem _ hy') 10
  refine ⟨n, ?_, ?_⟩
  · rw [column_after, if_neg (by omega), e1, BitVec.toNat_ofNat, Nat.mod_eq_of_lt (columns_lt x hx')]
  · rw [row_after, if_neg (by omega), e2, BitVec.toNat_ofNat, Nat.mod_eq_of_lt (rows_lt y hy')]

/-- **The spawn field.** With both registers running freely from one `Reset`, a column and a row come up together
exactly when the row is one of those that `LFSRY` goes through, or when both are what the outputs still hold. -/
theorem spawn_iff (rx ry : Regs) {x y : ℕ} (hx : 1 ≤ x ∧ x ≤ 511) :
    (∃ n, (lfsrx.after rx n).randomDone.toNat % 512 = x ∧ (lfsry.after ry n).randomDone.toNat % 256 = y) ↔
      y ∈ rows ∨ (x = rx.randomDone.toNat % 512 ∧ y = ry.randomDone.toNat % 256) := by
  constructor
  · rintro ⟨n, hnx, hny⟩
    by_cases hn : n < 9
    · rw [column_after, if_pos (by omega)] at hnx
      rw [row_after, if_pos hn] at hny
      exact Or.inr ⟨hnx.symm, hny.symm⟩
    · rw [row_after, if_neg hn] at hny
      have hm := (mem_words rows_lt).1 (lfsry_sweeps.iterate_mem (8 * (n / 9)))
      rw [hny] at hm
      exact Or.inl (List.mem_toFinset.1 hm)
  · rintro (hy | ⟨rfl, rfl⟩)
    · exact exists_spawn rx ry hx hy
    · exact ⟨0, rfl, rfl⟩

/-- No food ever comes to (1, 1). -/
theorem spawn_misses : ¬ ∀ (rx ry : Regs) (x y : ℕ), (1 ≤ x ∧ x ≤ 511) → (1 ≤ y ∧ y ≤ 255) →
    ∃ n, (lfsrx.after rx n).randomDone.toNat % 512 = x ∧ (lfsry.after ry n).randomDone.toNat % 256 = y := by
  intro h
  obtain ⟨n, -, hn⟩ := h ⟨0, 0, 0⟩ ⟨0, 0, 0⟩ 1 1 (by decide) (by decide)
  rw [row_after] at hn
  split at hn
  · exact absurd hn (by decide)
  · have hm := (mem_words rows_lt).1 (lfsry_sweeps.iterate_mem (8 * (n / 9)))
    rw [hn] at hm
    exact absurd (List.mem_toFinset.1 hm) (by decide)

theorem spawn_iff_corner :
    (∃ n, (lfsrx.after ⟨0, 0, 0⟩ n).randomDone.toNat % 512 = 511 ∧
        (lfsry.after ⟨0, 0, 0⟩ n).randomDone.toNat % 256 = 255) ↔
      255 ∈ rows ∨ (511 = (0 : BitVec 10).toNat % 512 ∧ 255 = (0 : BitVec 10).toNat % 256) :=
  spawn_iff ⟨0, 0, 0⟩ ⟨0, 0, 0⟩ (by decide)

end Lfsr

end Lab8
