import Lab8.Ps2Receive
/-!
# Clock periods on the PS/2 lines

A `Cell` is one clock period given by the mouse: the clock low for two samples or more, then high for two or
more, and a data line that is free everywhere but in the first high sample. One cell is one falling edge for
the transmitter, one rising edge for both halves of the controller, and one sampled bit (`run_cell`).
-/

namespace Lab8.Ps2Controller

open Clocked

/-- One clock period; `bit` is on the data line when the clock has just risen. -/
structure Cell where
  lo₀ : Bool
  lo₁ : Bool
  lo : List Bool
  bit : Bool
  hi₁ : Bool
  hi : List Bool

namespace Cell

def low (c : Cell) : List In := c.lo.map (lines false)
def high (c : Cell) : List In := c.hi.map (lines true)

def wave (c : Cell) : List In :=
  lines false c.lo₀ :: lines false c.lo₁ :: (c.low ++ lines true c.bit :: lines true c.hi₁ :: c.high)

theorem length_wave (c : Cell) : c.wave.length = c.lo.length + c.hi.length + 4 := by
  simp [wave, low, high]
  omega

theorem mem_wave (c : Cell) {i : In} (h : i ∈ c.wave) : ∃ clk dat, i = lines clk dat := by
  revert i
  simp only [wave, low, high, List.forall_mem_cons, List.forall_mem_append, List.forall_mem_map]
  exact ⟨⟨_, _, rfl⟩, ⟨_, _, rfl⟩, fun _ _ => ⟨_, _, rfl⟩, ⟨_, _, rfl⟩, ⟨_, _, rfl⟩, fun _ _ => ⟨_, _, rfl⟩⟩

/-- As short as a clock period gets. -/
def least (bit : Bool) : Cell := ⟨true, true, [], bit, true, []⟩

end Cell

/-- The sampled clock has been at one level for two clocks. -/
def Steady (c : Bool) (s : Regs) : Prop := s.ps2ClkReg = c ∧ s.lastPs2Clk = c

namespace Steady

variable {c : Bool} {s : Regs} (h : Steady c s)
include h

theorem posedge : s.ps2ClkPosedge = false := by cases c <;> simp [Regs.ps2ClkPosedge, h.1, h.2]
theorem negedge : s.ps2ClkNegedge = false := by cases c <;> simp [Regs.ps2ClkNegedge, h.1, h.2]
theorem sampled (i : In) : sampled s i = [] := by simp [Ps2Controller.sampled, h.posedge]

end Steady

/-- Nobody but the mouse holds the clock. -/
def Free (s : Regs) : Prop := CommandOut.clkDrive s.commandOut = none

section
variable {s : Regs} (hf : Free s) (clk dat : Bool)
include hf

theorem next_lines_clk : (next s (lines clk dat)).ps2ClkReg = clk ∧ (next s (lines clk dat)).lastPs2Clk = s.ps2ClkReg := by
  have hf : CommandOut.clkDrive s.commandOut = none := hf
  simp [next, lines, Regs.ps2Clk, line, hf]

theorem steady_lines (hs : s.ps2ClkReg = clk) : Steady clk (next s (lines clk dat)) :=
  ⟨(next_lines_clk hf clk dat).1, (next_lines_clk hf clk dat).2.trans hs⟩

end

/-- A stretch of the transmitter between two edges that matter to it. The number is how many clocks it can
last before a time-out. -/
structure Phase (P : ℕ → Regs → Prop) : Prop where
  free {n : ℕ} {s : Regs} : P n s → Free s
  quiet {n : ℕ} {s : Regs} {i : In} : P (n + 1) s → Alone i → s.ps2ClkPosedge = false → s.ps2ClkNegedge = false →
    P n (next s i)

/-- While the clock stays where it is, nothing happens. -/
theorem Phase.hold {P : ℕ → Regs → Prop} (hP : Phase P) (c : Bool) : ∀ (w : List Bool) {n : ℕ} {s : Regs},
    P (n + w.length) s → Steady c s →
      P n (machine.run s (w.map (lines c))) ∧ Steady c (machine.run s (w.map (lines c))) ∧
      machine.log sampled s (w.map (lines c)) = []
  | [], _, _, h, hs => ⟨h, hs, rfl⟩
  | d :: w, n, s, h, hs => by
    rw [List.map_cons, Machine.run_cons, Machine.log_cons, hs.sampled, List.nil_append]
    exact hP.hold c w (hP.quiet h (alone_lines c d) hs.posedge hs.negedge) (steady_lines (hP.free h) c d hs.1)

section
variable {A B P P' : ℕ → Regs → Prop} (h₀ : ∀ {n s i}, A (n + 1) s → Alone i → s.ps2ClkPosedge = false →
    s.ps2ClkNegedge = false → B n (next s i))
  (hf₀ : ∀ {n s}, A n s → Free s) (hf₁ : ∀ {n s}, B n s → Free s)
  (hneg : ∀ {n s i}, B (n + 1) s → Alone i → s.ps2ClkNegedge = true → P n (next s i))
  (hP : Phase P) (hpos : ∀ {n s i}, P (n + 1) s → Alone i → s.ps2ClkPosedge = true → P' n (next s i))
  (hP' : Phase P') {d : Option Bool} (hd : ∀ {n s}, P n s → CommandOut.datDrive s.commandOut = d)
include h₀ hf₀ hf₁ hneg hP hpos hP' hd

/-- One clock period. The falling edge is seen at its second sample and takes the transmitter from `B` to `P`;
the data line is read with the clock's rising, which is seen one sample later and takes it to `P'`. -/
theorem run_cell (c : Cell) {n : ℕ} {s : Regs} (h : A (n + c.wave.length) s) (hs : Steady true s) :
    P' n (machine.run s c.wave) ∧ Steady true (machine.run s c.wave) ∧
      machine.log sampled s c.wave = [line d c.bit] := by
  have hlen : n + c.wave.length = ((n + c.hi.length + 1 + 1) + c.lo.length) + 1 + 1 := by
    rw [c.length_wave]
    omega
  rw [hlen] at h
  -- the clock falls
  have h1 := h₀ h (alone_lines false c.lo₀) hs.posedge hs.negedge
  obtain ⟨k1, l1⟩ := next_lines_clk (hf₀ h) false c.lo₀
  rw [hs.1] at l1
  generalize hs1 : next s (lines false c.lo₀) = s1 at h1 k1 l1
  have h2 := hneg h1 (alone_lines false c.lo₁) (by simp [Regs.ps2ClkNegedge, k1, l1])
  have hs2 := steady_lines (hf₁ h1) false c.lo₁ k1
  generalize hs2e : next s1 (lines false c.lo₁) = s2 at h2 hs2
  obtain ⟨h3, hs3, e3⟩ := hP.hold false c.lo h2 hs2
  generalize hs3e : machine.run s2 (c.lo.map (lines false)) = s3 at h3 hs3
  -- the clock rises
  have h4 := hP.quiet h3 (alone_lines true c.bit) hs3.posedge hs3.negedge
  obtain ⟨k4, l4⟩ := next_lines_clk (hP.free h3) true c.bit
  rw [hs3.1] at l4
  have d4 : (next s3 (lines true c.bit)).ps2DataReg = line d c.bit := by
    simp [next, lines, Regs.ps2Dat, hd h3]
  generalize hs4e : next s3 (lines true c.bit) = s4 at h4 k4 l4 d4
  have hp4 : s4.ps2ClkPosedge = true := by simp [Regs.ps2ClkPosedge, k4, l4]
  have h5 := hpos h4 (alone_lines true c.hi₁) hp4
  have hs5 := steady_lines (hP.free h4) true c.hi₁ k4
  generalize hs5e : next s4 (lines true c.hi₁) = s5 at h5 hs5
  obtain ⟨h6, hs6, e6⟩ := hP'.hold true c.hi h5 hs5
  have run1 (r : Regs) (i : In) (is : List In) : machine.run r (i :: is) = machine.run (next r i) is := rfl
  have log1 (r : Regs) (i : In) (is : List In) :
      machine.log sampled r (i :: is) = sampled r i ++ machine.log sampled (next r i) is := rfl
  have n1 : sampled s1 (lines false c.lo₁) = [] := by simp [sampled, Regs.ps2ClkPosedge, k1]
  have n4 : sampled s4 (lines true c.hi₁) = [line d c.bit] := by simp [sampled, hp4, d4]
  unfold Cell.wave Cell.low Cell.high
  rw [run1, run1, Machine.run_append, run1, run1, log1, log1, Machine.log_append, log1, log1, hs1, hs2e, hs3e, hs4e,
    hs5e, hs.sampled, n1, e3, hs3.sampled, n4, e6]
  exact ⟨h6, hs6, rfl⟩

end

end Lab8.Ps2Controller
