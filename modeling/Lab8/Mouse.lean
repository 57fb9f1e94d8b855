import Lab8.Lib.Clocked
import Lab8.Lib.Word
/-!
# The mouse decoder (mouse_interface_IP.sv:11-82)

Three bytes move the cursor: the X byte is stored, the Y byte moves `curX`, the flags byte moves `curY`; the
signs are those of the previous flags byte. `KEY[0]` restarts the three phases and leaves the cursor where it
is. The comparisons hold an unsized literal, so they are made in 32 bits: `curX-5` is huge for a cursor in
0..4, where it starts, and a subtraction there passes zero. Apart from that the cursor stays on the screen
(`cursor_iff`).

| here | there |
| --- | --- |
| `magnitude` | `magX`, `magY` (mouse_interface_IP.sv:37-38) |
| `lower`, `raise` | the two ways to clamp (:67-68, :75-76) |
| `ff` | `always_ff` (:52-80) |
-/

namespace Lab8.Mouse

open Clocked

structure Regs where
  byte1 : BitVec 8
  byte2 : BitVec 8
  byte3 : BitVec 8
  counter : BitVec 2
  curX : BitVec 10
  curY : BitVec 10
deriving DecidableEq, Repr

/-- What a clock edge samples: `KEY[0]` and the two outputs of `PS2_Controller`. -/
structure In where
  key0 : Bool
  ps2DataReady : Bool
  ps2Data : BitVec 8
deriving DecidableEq, Repr

def magnitude (s : Bool) (b : BitVec 8) : BitVec 9 := if s then (~~~b).setWidth 9 + 1 else b.setWidth 9

def Regs.sX (r : Regs) : Bool := r.byte1.getLsbD 4
def Regs.sY (r : Regs) : Bool := r.byte1.getLsbD 5
def Regs.magX (r : Regs) : BitVec 9 := magnitude r.sX r.byte3
def Regs.magY (r : Regs) : BitVec 9 := magnitude r.sY r.byte2

/-- `cur-5 > mag ? cur - mag : 5`. -/
def lower (cur : BitVec 10) (mag : BitVec 9) : BitVec 10 :=
  if cur.setWidth 32 - 5 > mag.setWidth 32 then cur - mag.setWidth 10 else 5

/-- `cur < limit - mag ? cur + mag : limit`. -/
def raise (limit cur : BitVec 10) (mag : BitVec 9) : BitVec 10 :=
  if cur.setWidth 32 < limit.setWidth 32 - mag.setWidth 32 then cur + mag.setWidth 10 else limit

def Regs.nextX (r : Regs) : BitVec 10 := if r.sX then lower r.curX r.magX else raise 635 r.curX r.magX
def Regs.nextY (r : Regs) : BitVec 10 := if r.sY then raise 475 r.curY r.magY else lower r.curY r.magY

def ff (r : Regs) (i : In) : Regs :=
  if i.key0 = false then { r with byte1 := 0, counter := 0 }
  else if i.ps2DataReady then
    if r.counter = 0 then { r with byte3 := i.ps2Data, counter := 1 }
    else if r.counter = 1 then { r with curX := r.nextX, byte2 := i.ps2Data, counter := 2 }
    else { r with curY := r.nextY, byte1 := i.ps2Data, counter := 0 }
  else r

def machine : Machine In Regs := ⟨ff⟩

def powerUp : Regs := ⟨0, 0, 0, 0, 0, 0⟩

/-! ## Steps -/

section
variable {r : Regs} {i : In}

theorem next_reset (hk : i.key0 = false) : machine.next r i = { r with byte1 := 0, counter := 0 } := by
  simp [machine, ff, hk]

section
variable (hk : i.key0 = true)
include hk

theorem next_idle (hr : i.ps2DataReady = false) : machine.next r i = r := by
  simp [machine, ff, hk, hr]

theorem next_byteX (hr : i.ps2DataReady = true) (h : r.counter = 0) :
    machine.next r i = { r with byte3 := i.ps2Data, counter := 1 } := by
  simp [machine, ff, hk, hr, h]

theorem next_byteY (hr : i.ps2DataReady = true) (h : r.counter = 1) :
    machine.next r i = { r with curX := r.nextX, byte2 := i.ps2Data, counter := 2 } := by
  simp [machine, ff, hk, hr, h]

theorem next_flags (hr : i.ps2DataReady = true) (h0 : r.counter ≠ 0) (h1 : r.counter ≠ 1) :
    machine.next r i = { r with curY := r.nextY, byte1 := i.ps2Data, counter := 0 } := by
  change ff r i = _
  unfold ff
  rw [if_neg (by simp [hk]), if_pos hr, if_neg h0, if_neg h1]

end

end

/-! ## The clamps -/

/-- The signed nine-bit delta of a sign and a byte. -/
def delta (s : Bool) (b : BitVec 8) : ℤ := (BitVec.cons s b).toInt

def clamp (lo hi x : ℤ) : ℤ := max lo (min hi x)

theorem delta_eq (s : Bool) (b : BitVec 8) : delta s b = if s then (b.toNat : ℤ) - 256 else b.toNat := by
  have hb := b.isLt
  unfold delta
  rw [BitVec.toInt_eq_toNat_cond, BitVec.toNat_cons']
  cases s <;> simp [Nat.shiftLeft_eq] <;> omega

theorem magnitude_toNat (s : Bool) (b : BitVec 8) :
    (magnitude s b).toNat = if s then 256 - b.toNat else b.toNat := by
  have hb := b.isLt
  unfold magnitude
  cases s
  · simp [Nat.mod_eq_of_lt (show b.toNat < 512 by omega)]
  · simp only [if_true]
    bv_omega

theorem magnitude_le (s : Bool) (b : BitVec 8) : (magnitude s b).toNat ≤ 256 := by
  have hb := b.isLt
  rw [magnitude_toNat]
  split <;> omega

section
variable {cur : BitVec 10} {mag : BitVec 9}

theorem lower_of_ge (h : 5 ≤ cur.toNat) : (lower cur mag).toNat = max 5 (cur.toNat - mag.toNat) := by
  unfold lower
  split <;> bv_omega

/-- Below 5 the test always passes. -/
theorem lower_of_lt (h : cur.toNat < 5) : lower cur mag = cur - mag.setWidth 10 := by
  unfold lower
  rw [if_pos (by bv_omega)]

theorem raise_toNat {limit : BitVec 10} (h : 256 ≤ limit.toNat) (hm : mag.toNat ≤ 256) :
    (raise limit cur mag).toNat = min limit.toNat (cur.toNat + mag.toNat) := by
  unfold raise
  split <;> bv_omega

theorem lower_clamp {limit : ℕ} (h5 : 5 ≤ cur.toNat) (hl : cur.toNat ≤ limit) :
    ((lower cur mag).toNat : ℤ) = clamp 5 limit (cur.toNat - mag.toNat) := by
  rw [lower_of_ge h5, clamp]
  omega

theorem raise_clamp {limit : BitVec 10} (h : 256 ≤ limit.toNat) (hm : mag.toNat ≤ 256) (h5 : 5 ≤ cur.toNat) :
    ((raise limit cur mag).toNat : ℤ) = clamp 5 limit.toNat (cur.toNat + mag.toNat) := by
  rw [raise_toNat h hm, clamp]
  omega

/-- On the screen a subtraction leaves it exactly when it passes zero. -/
theorem lower_le_iff {limit : ℕ} (hl : limit ≤ 700) (h5 : 5 ≤ limit) (hc : cur.toNat ≤ limit) (hm : mag.toNat ≤ 256) :
    (lower cur mag).toNat ≤ limit ↔ ¬ (cur.toNat < 5 ∧ cur.toNat < mag.toNat) := by
  by_cases h : cur.toNat < 5
  · rw [lower_of_lt h]
    by_cases hlt : cur.toNat < mag.toNat <;> bv_omega
  · rw [lower_of_ge (by omega)]
    omega

end

/-! ## The screen -/

/-- The margin of 5 at the left and at the top belongs to the screen. -/
def OnScreen (r : Regs) : Prop := r.curX.toNat ≤ 635 ∧ r.curY.toNat ≤ 475

instance (r : Regs) : Decidable (OnScreen r) := inferInstanceAs (Decidable (_ ∧ _))

/-- The byte moves the cursor left or up by more than what is there, from the margin of 5. -/
def Underflows (r : Regs) (i : In) : Prop :=
  i.key0 = true ∧ i.ps2DataReady = true ∧
    ((r.counter = 1 ∧ r.sX = true ∧ r.curX.toNat < 5 ∧ r.curX.toNat < r.magX.toNat) ∨
      (r.counter ≠ 0 ∧ r.counter ≠ 1 ∧ r.sY = false ∧ r.curY.toNat < 5 ∧ r.curY.toNat < r.magY.toNat))

theorem nextX_le_iff {r : Regs} (h : r.curX.toNat ≤ 635) :
    r.nextX.toNat ≤ 635 ↔ ¬ (r.sX = true ∧ r.curX.toNat < 5 ∧ r.curX.toNat < r.magX.toNat) := by
  have hm : r.magX.toNat ≤ 256 := magnitude_le _ _
  unfold Regs.nextX
  cases hs : r.sX
  · have hr : (raise 635 r.curX r.magX).toNat = min 635 (r.curX.toNat + r.magX.toNat) := raise_toNat (by decide) hm
    simp only [Bool.false_eq_true, if_false, false_and, not_false_eq_true, iff_true]
    omega
  · simp only [if_true, true_and]
    exact lower_le_iff (by decide) (by decide) h hm

theorem nextY_le_iff {r : Regs} (h : r.curY.toNat ≤ 475) :
    r.nextY.toNat ≤ 475 ↔ ¬ (r.sY = false ∧ r.curY.toNat < 5 ∧ r.curY.toNat < r.magY.toNat) := by
  have hm : r.magY.toNat ≤ 256 := magnitude_le _ _
  unfold Regs.nextY
  cases hs : r.sY
  · simp only [Bool.false_eq_true, if_false, true_and]
    exact lower_le_iff (by decide) (by decide) h hm
  · have hr : (raise 475 r.curY r.magY).toNat = min 475 (r.curY.toNat + r.magY.toNat) := raise_toNat (by decide) hm
    simp only [Bool.true_eq_false, if_true, false_and, not_false_eq_true, iff_true]
    omega

theorem underflows_byteY_iff {r : Regs} {i : In} (hk : i.key0 = true) (hr : i.ps2DataReady = true) (h : r.counter = 1) :
    Underflows r i ↔ r.sX = true ∧ r.curX.toNat < 5 ∧ r.curX.toNat < r.magX.toNat := by
  constructor
  · rintro ⟨-, -, hu | hu⟩
    · exact hu.2
    · exact absurd h hu.2.1
  · exact fun hu => ⟨hk, hr, Or.inl ⟨h, hu⟩⟩

theorem underflows_flags_iff {r : Regs} {i : In} (hk : i.key0 = true) (hr : i.ps2DataReady = true)
    (h0 : r.counter ≠ 0) (h1 : r.counter ≠ 1) :
    Underflows r i ↔ r.sY = false ∧ r.curY.toNat < 5 ∧ r.curY.toNat < r.magY.toNat := by
  constructor
  · rintro ⟨-, -, hu | hu⟩
    · exact absurd hu.1 h1
    · exact hu.2.2
  · exact fun hu => ⟨hk, hr, Or.inr ⟨h0, h1, hu⟩⟩

/-- A step keeps the cursor on the screen exactly when it does not pass zero. -/
theorem onScreen_next_iff {r : Regs} (h : OnScreen r) (i : In) : OnScreen (machine.next r i) ↔ ¬ Underflows r i := by
  by_cases hk : i.key0 = true
  · by_cases hr : i.ps2DataReady = true
    · by_cases h0 : r.counter = 0
      · rw [next_byteX hk hr h0]
        refine iff_of_true h fun hu => ?_
        rcases hu.2.2 with hu | hu
        · exact absurd (h0.symm.trans hu.1) (by decide)
        · exact hu.1 h0
      · by_cases h1 : r.counter = 1
        · rw [next_byteY hk hr h1, underflows_byteY_iff hk hr h1, ← nextX_le_iff h.1]
          exact and_iff_left h.2
        · rw [next_flags hk hr h0 h1, underflows_flags_iff hk hr h0 h1, ← nextY_le_iff h.2]
          exact and_iff_right h.1
    · rw [next_idle hk (by simpa using hr)]
      exact iff_of_true h fun hu => hr hu.2.1
  · rw [next_reset (by simpa using hk)]
    exact iff_of_true h fun hu => hk hu.1

/-! ## Triples -/

/-- The bytes received since the last reset. -/
def phase (inp : ℕ → In) : ℕ → ℕ
  | 0 => 0
  | n + 1 => if (inp n).key0 = false then 0 else if (inp n).ps2DataReady then phase inp n + 1 else phase inp n

/-- The last flags byte received since the last reset, and 0 if there was none. -/
def flags (inp : ℕ → In) : ℕ → BitVec 8
  | 0 => 0
  | n + 1 =>
    if (inp n).key0 = false then 0
    else if (inp n).ps2DataReady ∧ phase inp n % 3 = 2 then (inp n).ps2Data
    else flags inp n

/-- A complete triple: the three bytes come at clocks `a < b < c`, the first one in phase. -/
structure Triple (inp : ℕ → In) (a b c : ℕ) : Prop where
  phase : phase inp a % 3 = 0
  ab : a < b
  bc : b < c
  key0 : ∀ k, a ≤ k → k ≤ c → (inp k).key0 = true
  ready : ∀ k, a ≤ k → k ≤ c → ((inp k).ps2DataReady = true ↔ k = a ∨ k = b ∨ k = c)

/-- `counter` and `byte1` hold the phase and the flags. -/
theorem trace_phase (inp : ℕ → In) (n : ℕ) : (machine.trace powerUp inp n).counter.toNat = phase inp n % 3 ∧
    (machine.trace powerUp inp n).byte1 = flags inp n := by
  induction n with
  | zero => exact ⟨rfl, rfl⟩
  | succ n ih =>
    obtain ⟨hc, hf⟩ := ih
    rw [Machine.trace_succ, phase, flags]
    generalize machine.trace powerUp inp n = r at hc hf
    by_cases hk : (inp n).key0 = true
    · by_cases hr : (inp n).ps2DataReady = true
      · by_cases h0 : r.counter = 0
        · rw [next_byteX hk hr h0]
          have : phase inp n % 3 = 0 := by rw [← hc, h0]; rfl
          simp [hk, hr, hf, this]
          omega
        · by_cases h1 : r.counter = 1
          · rw [next_byteY hk hr h1]
            have : phase inp n % 3 = 1 := by rw [← hc, h1]; rfl
            simp [hk, hr, hf, this]
            omega
          · rw [next_flags hk hr h0 h1]
            have : phase inp n % 3 = 2 := by bv_omega
            simp [hk, hr, this]
            omega
      · rw [next_idle hk (by simpa using hr)]
        simp [hk, hr, hc, hf]
    · rw [next_reset (by simpa using hk)]
      simp [hk]

/-- Between two bytes nothing changes. -/
theorem trace_idle {s : Regs} {inp : ℕ → In} {m n : ℕ} (hmn : m ≤ n)
    (hk : ∀ k, m ≤ k → k < n → (inp k).key0 = true) (hr : ∀ k, m ≤ k → k < n → (inp k).ps2DataReady = false) :
    machine.trace s inp n = machine.trace s inp m := by
  induction hmn with
  | refl => rfl
  | @step n hmn ih =>
    rw [Machine.trace_succ, next_idle (hk n hmn n.lt_succ_self) (hr n hmn n.lt_succ_self)]
    exact ih (fun k h1 h2 => hk k h1 (by omega)) fun k h1 h2 => hr k h1 (by omega)

namespace Triple

variable {inp : ℕ → In} {a b c : ℕ} (h : Triple inp a b c)
include h

theorem ready_all : (inp a).ps2DataReady = true ∧ (inp b).ps2DataReady = true ∧ (inp c).ps2DataReady = true := by
  have hab := h.ab
  have hbc := h.bc
  refine ⟨(h.ready a ?_ ?_).2 ?_, (h.ready b ?_ ?_).2 ?_, (h.ready c ?_ ?_).2 ?_⟩ <;> omega

theorem idle {k : ℕ} (h1 : a < k) (h2 : k < c) (h3 : k ≠ b) : (inp k).ps2DataReady = false := by
  rw [← Bool.not_eq_true, h.ready k (by omega) (by omega)]
  omega

theorem key0_first : (inp a).key0 = true := h.key0 a (by omega) (by have := h.ab; have := h.bc; omega)
theorem key0_second : (inp b).key0 = true := h.key0 b (Nat.le_of_lt h.ab) (Nat.le_of_lt h.bc)
theorem key0_third : (inp c).key0 = true := h.key0 c (by have := h.ab; have := h.bc; omega) (by omega)

end Triple

/-- A complete triple moves both coordinates once, by the signs in force when it starts. -/
theorem triple_moves {s : Regs} {inp : ℕ → In} {a b c : ℕ} (h : Triple inp a b c)
    (h0 : (machine.trace s inp a).counter = 0) :
    (machine.trace s inp (c + 1)).curX = { machine.trace s inp a with byte3 := (inp a).ps2Data }.nextX ∧
    (machine.trace s inp (c + 1)).curY = { machine.trace s inp a with byte2 := (inp b).ps2Data }.nextY := by
  obtain ⟨ra, rb, rc⟩ := h.ready_all
  have hab := h.ab
  have hbc := h.bc
  have ea : machine.trace s inp b = { machine.trace s inp a with byte3 := (inp a).ps2Data, counter := 1 } := by
    rw [trace_idle (m := a + 1) hab (fun k _ _ => h.key0 k (by omega) (by omega))
      (fun k _ _ => h.idle (by omega) (by omega) (by omega)), Machine.trace_succ, next_byteX h.key0_first ra h0]
  have eb : machine.trace s inp c =
      { machine.trace s inp b with
        curX := (machine.trace s inp b).nextX, byte2 := (inp b).ps2Data, counter := 2 } := by
    rw [trace_idle (m := b + 1) hbc (fun k _ _ => h.key0 k (by omega) (by omega))
      (fun k _ _ => h.idle (by omega) (by omega) (by omega)), Machine.trace_succ,
      next_byteY h.key0_second rb (by rw [ea])]
  have c0 : (machine.trace s inp c).counter ≠ 0 := by
    rw [eb]
    exact (by decide : (2 : BitVec 2) ≠ 0)
  have c1 : (machine.trace s inp c).counter ≠ 1 := by
    rw [eb]
    exact (by decide : (2 : BitVec 2) ≠ 1)
  rw [Machine.trace_succ, next_flags h.key0_third rc c0 c1, eb, ea]
  exact ⟨rfl, rfl⟩

/-- The magnitude is the delta without its sign. -/
theorem magnitude_eq_delta (s : Bool) (b : BitVec 8) :
    ((magnitude s b).toNat : ℤ) = if s then -delta s b else delta s b := by
  have hb := b.isLt
  rw [magnitude_toNat, delta_eq]
  cases s
  · rfl
  · simp only [if_true]
    omega

theorem nextX_clamp {r : Regs} (h : 5 ≤ r.curX.toNat) (h' : r.curX.toNat ≤ 635) :
    (r.nextX.toNat : ℤ) = clamp 5 635 (r.curX.toNat + delta r.sX r.byte3) := by
  have hd : (r.magX.toNat : ℤ) = if r.sX then -delta r.sX r.byte3 else delta r.sX r.byte3 := magnitude_eq_delta _ _
  unfold Regs.nextX
  by_cases hs : r.sX = true
  · rw [if_pos hs] at hd ⊢
    rw [lower_clamp h h', hd, Int.sub_neg]
    rfl
  · rw [if_neg hs] at hd ⊢
    have hc : ((raise 635 r.curX r.magX).toNat : ℤ) = clamp 5 635 (r.curX.toNat + r.magX.toNat) :=
      raise_clamp (by decide) (magnitude_le _ _) h
    rw [hc, hd]

theorem nextY_clamp {r : Regs} (h : 5 ≤ r.curY.toNat) (h' : r.curY.toNat ≤ 475) :
    (r.nextY.toNat : ℤ) = clamp 5 475 (r.curY.toNat - delta r.sY r.byte2) := by
  have hd : (r.magY.toNat : ℤ) = if r.sY then -delta r.sY r.byte2 else delta r.sY r.byte2 := magnitude_eq_delta _ _
  unfold Regs.nextY
  by_cases hs : r.sY = true
  · rw [if_pos hs] at hd ⊢
    have hc : ((raise 475 r.curY r.magY).toNat : ℤ) = clamp 5 475 (r.curY.toNat + r.magY.toNat) :=
      raise_clamp (by decide) (magnitude_le _ _) h
    rw [hc, hd, Int.sub_eq_add_neg]
  · rw [if_neg hs] at hd ⊢
    rw [lower_clamp h h', hd]
    rfl

/-- The row after a vertical delta, up being positive, for a cursor anywhere: from the margin of 5 the way up is not
clamped and passes zero. -/
def row (y dy : ℤ) : ℤ :=
  if 5 ≤ y ∧ y ≤ 475 then clamp 5 475 (y - dy)
  else if dy < 0 then min 475 (y - dy)
  else if y < 5 then (y - dy) % 1024
  else max 5 (y - dy)

theorem nextY_row (r : Regs) : (r.nextY.toNat : ℤ) = row r.curY.toNat (delta r.sY r.byte2) := by
  have hd : (r.magY.toNat : ℤ) = if r.sY then -delta r.sY r.byte2 else delta r.sY r.byte2 := magnitude_eq_delta _ _
  have hs := delta_eq r.sY r.byte2
  have hb := r.byte2.isLt
  unfold row
  by_cases hin : 5 ≤ r.curY.toNat ∧ r.curY.toNat ≤ 475
  · rw [if_pos (by omega)]
    exact nextY_clamp hin.1 hin.2
  rw [if_neg (by omega)]
  unfold Regs.nextY
  by_cases hup : r.sY = true
  · rw [if_pos hup] at hd hs ⊢
    have hr : (raise 475 r.curY r.magY).toNat = min 475 (r.curY.toNat + r.magY.toNat) :=
      raise_toNat (by decide) (magnitude_le _ _)
    rw [if_pos (by omega)]
    omega
  · rw [if_neg hup] at hd hs ⊢
    rw [if_neg (by omega)]
    by_cases h5 : r.curY.toNat < 5
    · rw [if_pos (by omega), lower_of_lt h5]
      bv_omega
    · have hl : (lower r.curY r.magY).toNat = max 5 (r.curY.toNat - r.magY.toNat) := lower_of_ge (by omega)
      rw [if_neg (by omega)]
      omega

theorem row_nonneg {y dy : ℤ} (hy : 0 ≤ y) : 0 ≤ row y dy := by
  unfold row clamp
  omega

/-- Every triple that starts inside the margins moves the cursor by its deltas, clamped. -/
def Decodes (inp : ℕ → In) : Prop :=
  ∀ a b c, Triple inp a b c →
    5 ≤ (machine.trace powerUp inp a).curX.toNat → (machine.trace powerUp inp a).curX.toNat ≤ 635 →
    5 ≤ (machine.trace powerUp inp a).curY.toNat → (machine.trace powerUp inp a).curY.toNat ≤ 475 →
    ((machine.trace powerUp inp (c + 1)).curX.toNat : ℤ) = clamp 5 635
      ((machine.trace powerUp inp a).curX.toNat + delta ((flags inp a).getLsbD 4) (inp a).ps2Data) ∧
    ((machine.trace powerUp inp (c + 1)).curY.toNat : ℤ) = clamp 5 475
      ((machine.trace powerUp inp a).curY.toNat - delta ((flags inp a).getLsbD 5) (inp b).ps2Data)

theorem decodes (inp : ℕ → In) : Decodes inp := by
  intro a b c h hx hx' hy hy'
  obtain ⟨hc, hf⟩ := trace_phase inp a
  have h0 : (machine.trace powerUp inp a).counter = 0 := by
    rw [h.phase] at hc
    exact BitVec.eq_of_toNat_eq hc
  obtain ⟨e1, e2⟩ := triple_moves h h0
  rw [e1, e2, ← hf]
  exact ⟨nextX_clamp hx hx', nextY_clamp hy hy'⟩

/-- **The cursor.** Every triple is decoded, and the cursor stays on the screen exactly in the runs in which no
byte moves it past zero from the margin of 5. -/
theorem cursor_iff (inp : ℕ → In) :
    ((∀ n, OnScreen (machine.trace powerUp inp n)) ∧ Decodes inp) ↔
      ∀ n, ¬ Underflows (machine.trace powerUp inp n) (inp n) := by
  have key := Machine.trace_guard_iff (M := machine) (P := OnScreen) (A := OnScreen)
    (C := fun r i => ¬ Underflows r i) (fun _ h => h) (fun _ i h => onScreen_next_iff h i) (fun _ _ _ h => h)
    (s := powerUp) (by decide) inp
  rw [← key]
  exact ⟨fun h => h.1, fun h => ⟨h, decodes inp⟩⟩

/-- The first three bytes 8, 1, 8 after power-up move `curY` to 1023. -/
theorem cursor_leaves : ¬ ∀ inp : ℕ → In, (∀ n, OnScreen (machine.trace powerUp inp n)) ∧ Decodes inp := by
  intro h
  have h3 := (h fun n => ⟨true, true, if n = 1 then 1 else 8⟩).1 3
  revert h3
  decide

end Lab8.Mouse
