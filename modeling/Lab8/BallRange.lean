import Lab8.Ball
/-!
# Ranges of the player's registers

What holds of `ball` in every reachable state, whatever the inputs: step and size stay coupled
(`Sized`), a motion is at most four pixels either way (`Slow`), and the camera offset, read as a signed
word, stays in `-4..243` on X and `-4..233` on Y (`CamRange`). The lower end is `-4` and not `0`: see
`Camera.lean`.
-/

namespace Lab8.Ball

open Clocked

/-! ## Step and size -/

/-- Growing slows the ball down and shrinking speeds it up, each within its limits. -/
structure Sized (r : Regs) : Prop where
  step_eq : r.x.step = r.y.step
  step_pos : 1 ≤ r.x.step.toNat
  step_le : r.x.step.toNat ≤ 4
  size_ge : 3 ≤ r.size.toNat
  size_le : r.size.toNat ≤ 10
  sum_ge : 7 ≤ r.x.step.toNat + r.size.toNat
  sum_le : r.x.step.toNat + r.size.toNat ≤ 11

theorem sized_init : Sized init := by
  constructor <;> decide

@[simp] theorem move_x_step (r : Regs) (k : BitVec 16) : (move r k).x.step = r.x.step := rfl
@[simp] theorem move_y_step (r : Regs) (k : BitVec 16) : (move r k).y.step = r.y.step := rfl
@[simp] theorem move_size (r : Regs) (k : BitVec 16) : (move r k).size = r.size := rfl

theorem sized_move {r : Regs} (h : Sized r) (k : BitVec 16) : Sized (move r k) :=
  ⟨h.step_eq, h.step_pos, h.step_le, h.size_ge, h.size_le, h.sum_ge, h.sum_le⟩

theorem grow_size (r : Regs) : (grow r).size = if r.size ≠ 10 then r.size + 1 else r.size := by
  unfold grow
  by_cases h1 : r.x.step ≠ 1 ∧ r.y.step ≠ 1
  · rw [if_pos h1]
    by_cases h2 : r.size ≠ 10
    · rw [if_pos h2, if_pos h2]
    · rw [if_neg h2, if_neg h2]
  · rw [if_neg h1]
    by_cases h2 : r.size ≠ 10
    · rw [if_pos h2, if_pos h2]
    · rw [if_neg h2, if_neg h2]

theorem shrink_size (r : Regs) : (shrink r).size = if r.size ≠ 3 then r.size - 1 else r.size := by
  unfold shrink
  by_cases h1 : r.x.step ≠ 4 ∧ r.y.step ≠ 4
  · rw [if_pos h1]
    by_cases h2 : r.size ≠ 3
    · rw [if_pos h2, if_pos h2]
    · rw [if_neg h2, if_neg h2]
  · rw [if_neg h1]
    by_cases h2 : r.size ≠ 3
    · rw [if_pos h2, if_pos h2]
    · rw [if_neg h2, if_neg h2]

/-- With equal steps the joint guard of `grow` and `shrink` is a guard on one of them. -/
theorem grow_step (r : Regs) (h : r.x.step = r.y.step) :
    (grow r).x.step = (if r.x.step = 1 then r.x.step else r.x.step - 1) ∧
      (grow r).y.step = (if r.x.step = 1 then r.x.step else r.x.step - 1) := by
  unfold grow
  by_cases h1 : r.x.step = 1#10 <;> by_cases h2 : r.size = 10#10 <;> simp [h1, h2, ← h]

theorem shrink_step (r : Regs) (h : r.x.step = r.y.step) :
    (shrink r).x.step = (if r.x.step = 4 then r.x.step else r.x.step + 1) ∧
      (shrink r).y.step = (if r.x.step = 4 then r.x.step else r.x.step + 1) := by
  unfold shrink
  by_cases h1 : r.x.step = 4#10 <;> by_cases h2 : r.size = 3#10 <;> simp [h1, h2, ← h]

theorem sized_food {r : Regs} (h : Sized r) (f : Food) : Sized (f.apply r) := by
  obtain ⟨he, h1, h2, h3, h4, h5, h6⟩ := h
  cases f with
  | none => exact ⟨he, h1, h2, h3, h4, h5, h6⟩
  | grow =>
    obtain ⟨e1, e2⟩ := grow_step r he
    have e3 := grow_size r
    simp only [Food.apply]
    constructor <;> simp only [e1, e2, e3] <;> first | rfl | (split <;> (try split) <;> bv_omega)
  | shrink =>
    obtain ⟨e1, e2⟩ := shrink_step r he
    have e3 := shrink_size r
    simp only [Food.apply]
    constructor <;> simp only [e1, e2, e3] <;> first | rfl | (split <;> (try split) <;> bv_omega)

/-! ## Motion -/

/-- A motion reads as a signed word between -4 and 4. -/
structure Slow (a : AxisRegs) : Prop where
  ge : -4 ≤ a.motion.toInt
  le : a.motion.toInt ≤ 4

theorem edgeElse_x (r : Regs) (m own : Motion) :
    (edgeElse r m own).x = m.x ∨ (edgeElse r m own).x = r.x.step ∨ (edgeElse r m own).x = -r.x.step ∨
      (edgeElse r m own).x = own.x := by
  unfold edgeElse
  split
  · exact Or.inl rfl
  · split
    · exact Or.inl rfl
    · split
      · exact Or.inr (Or.inr (Or.inl (Word.not_add_one _)))
      · split
        · exact Or.inr (Or.inl rfl)
        · exact Or.inr (Or.inr (Or.inr rfl))

theorem edgeElse_y (r : Regs) (m own : Motion) :
    (edgeElse r m own).y = m.y ∨ (edgeElse r m own).y = r.y.step ∨ (edgeElse r m own).y = -r.y.step ∨
      (edgeElse r m own).y = own.y := by
  unfold edgeElse
  split
  · exact Or.inr (Or.inr (Or.inl (Word.not_add_one _)))
  · split
    · exact Or.inr (Or.inl rfl)
    · split
      · exact Or.inl rfl
      · split
        · exact Or.inl rfl
        · exact Or.inr (Or.inr (Or.inr rfl))

theorem Drive.apply_cases (d : Drive) (step m : BitVec 10) :
    d.apply step m = m ∨ d.apply step m = step ∨ d.apply step m = -step := by
  cases d with
  | keep => exact Or.inl rfl
  | plus => exact Or.inr (Or.inl rfl)
  | minus => exact Or.inr (Or.inr (Word.not_add_one _))

/-- Whatever the key, the next motion of an axis is its old one, zero, or one step either way. -/
theorem motionIn_x (r : Regs) (k : BitVec 16) :
    (motionIn r k).x = r.x.motion ∨ (motionIn r k).x = 0 ∨ (motionIn r k).x = r.x.step ∨
      (motionIn r k).x = -r.x.step := by
  rw [motionIn_eq]
  generalize keyBranch k = b
  unfold KeyBranch.motion
  have hz : (if b.zeroX then (0 : BitVec 10) else r.x.motion) = r.x.motion ∨
      (if b.zeroX then (0 : BitVec 10) else r.x.motion) = 0 := by
    cases b.zeroX <;> simp
  have hd := b.x.apply_cases r.x.step (if b.zeroX then 0 else r.x.motion)
  have he := edgeElse_x r ⟨if b.zeroX then 0 else r.x.motion, if b.zeroY then 0 else r.y.motion⟩
    ⟨b.x.apply r.x.step (if b.zeroX then 0 else r.x.motion),
      b.y.apply r.y.step (if b.zeroY then 0 else r.y.motion)⟩
  grind

theorem motionIn_y (r : Regs) (k : BitVec 16) :
    (motionIn r k).y = r.y.motion ∨ (motionIn r k).y = 0 ∨ (motionIn r k).y = r.y.step ∨
      (motionIn r k).y = -r.y.step := by
  rw [motionIn_eq]
  generalize keyBranch k = b
  unfold KeyBranch.motion
  have hz : (if b.zeroY then (0 : BitVec 10) else r.y.motion) = r.y.motion ∨
      (if b.zeroY then (0 : BitVec 10) else r.y.motion) = 0 := by
    cases b.zeroY <;> simp
  have hd := b.y.apply_cases r.y.step (if b.zeroY then 0 else r.y.motion)
  have he := edgeElse_y r ⟨if b.zeroX then 0 else r.x.motion, if b.zeroY then 0 else r.y.motion⟩
    ⟨b.x.apply r.x.step (if b.zeroX then 0 else r.x.motion),
      b.y.apply r.y.step (if b.zeroY then 0 else r.y.motion)⟩
  grind

/-- A motion that is the old one, zero or a step of at most four stays slow. -/
theorem slow_of_cases {a a' : AxisRegs} (h : Slow a) (hs : a.step.toNat ≤ 4)
    (hc : a'.motion = a.motion ∨ a'.motion = 0 ∨ a'.motion = a.step ∨ a'.motion = -a.step) : Slow a' := by
  have hp : a.step.toInt = a.step.toNat := Word.toInt_of_lt (by omega)
  have hn : (-a.step).toInt = -a.step.toNat := Word.toInt_neg_of_lt (by omega)
  rcases hc with e | e | e | e
  · exact ⟨e ▸ h.ge, e ▸ h.le⟩
  · constructor <;> rw [e] <;> decide
  · constructor <;> rw [e, hp] <;> omega
  · constructor <;> rw [e, hn] <;> omega

/-! ## The camera offset -/

/-- The camera moves out: the ball is past `ahead`, moving outward, and not past `limit`. -/
def Axis.scrollsOut (g : Axis) (a : AxisRegs) : Prop :=
  a.pos ≥ a.progress + g.ahead ∧ a.motion.getLsbD 9 = false ∧ a.pos ≤ g.limit

/-- The camera moves back: the ball is within `behind`, moving inward, and not before `floor`. -/
def Axis.scrollsBack (g : Axis) (a : AxisRegs) : Prop :=
  ¬ a.pos ≥ a.progress + g.ahead ∧ a.pos ≤ a.progress + g.behind ∧ a.motion.getLsbD 9 = true ∧
    a.pos ≥ g.floor

instance (g : Axis) (a : AxisRegs) : Decidable (g.scrollsOut a) := inferInstanceAs (Decidable (_ ∧ _))
instance (g : Axis) (a : AxisRegs) : Decidable (g.scrollsBack a) := inferInstanceAs (Decidable (_ ∧ _))

/-- The camera either follows the motion or stands still. -/
theorem Axis.progressIn_eq (g : Axis) (a : AxisRegs) :
    g.progressIn a = if g.scrollsOut a ∨ g.scrollsBack a then a.progress + a.motion else a.progress := by
  unfold Axis.progressIn Axis.scrollsOut Axis.scrollsBack
  by_cases h1 : a.pos ≥ a.progress + g.ahead
  · by_cases h2 : a.motion.getLsbD 9 = false ∧ a.pos ≤ g.limit <;> simp [h1, h2]
  · by_cases h3 : a.pos ≤ a.progress + g.behind
    · by_cases h4 : a.motion.getLsbD 9 = true ∧ a.pos ≥ g.floor <;> simp [h1, h3, h4]
    · simp [h1, h3]

/-- What the two axes have in common, as far as the ranges need it. -/
structure Axis.Sane (g : Axis) : Prop where
  min_eq : g.min.toNat = 0
  limit_eq : g.limit.toNat = g.max.toNat
  floor_eq : g.floor.toNat = g.behind.toNat
  behind_ge : 100 ≤ g.behind.toNat
  behind_le : g.behind.toNat ≤ g.center.toNat
  center_le : g.center.toNat ≤ g.ahead.toNat
  gap : g.behind.toNat + 150 ≤ g.ahead.toNat
  ahead_le : g.ahead.toNat + 229 ≤ g.max.toNat
  ahead_ge : g.max.toNat ≤ g.ahead.toNat + 239
  max_le : g.max.toNat ≤ 639

theorem xAxis_sane : xAxis.Sane := by
  constructor <;> decide

theorem yAxis_sane : yAxis.Sane := by
  constructor <;> decide

/-- The offset, read as a signed word, lies between -4 and four past the furthest scrolling start. -/
structure Axis.CamRange (g : Axis) (a : AxisRegs) : Prop where
  ge : -4 ≤ a.progress.toInt
  le : a.progress.toInt ≤ (g.max.toNat : ℤ) - g.ahead.toNat + 4

theorem getLsbD_nine (m : BitVec 10) : m.getLsbD 9 = decide (m.toInt < 0) := by
  rw [← BitVec.msb_eq_toInt, BitVec.msb_eq_getLsbD_last]

section
variable {g : Axis} {a : AxisRegs} (hg : g.Sane) (hc : g.CamRange a)
include hg hc

theorem Axis.scrollsOut_iff : g.scrollsOut a ↔
    a.progress.toInt + g.ahead.toNat ≤ a.pos.toNat ∧ 0 ≤ a.motion.toInt ∧ a.pos.toNat ≤ g.max.toNat := by
  obtain ⟨-, hl, -, -, -, -, hgap, hal, hag, hm⟩ := hg
  obtain ⟨c1, c2⟩ := hc
  have hx := a.pos.isLt
  have hp := a.progress.isLt
  unfold Axis.scrollsOut
  rw [getLsbD_nine, ge_iff_le, BitVec.le_def, BitVec.le_def, BitVec.toNat_add, hl, decide_eq_false_iff_not,
    Int.not_lt]
  rw [BitVec.toInt_eq_toNat_cond] at c1 c2
  rw [BitVec.toInt_eq_toNat_cond a.progress]
  split at c1 <;> omega

theorem Axis.scrollsBack_iff : g.scrollsBack a ↔
    a.pos.toNat ≤ a.progress.toInt + g.behind.toNat ∧ a.motion.toInt < 0 ∧
      g.behind.toNat ≤ a.pos.toNat := by
  obtain ⟨-, -, hf, hb, -, -, hgap, hal, hag, hm⟩ := hg
  obtain ⟨c1, c2⟩ := hc
  have hx := a.pos.isLt
  have hp := a.progress.isLt
  unfold Axis.scrollsBack
  rw [getLsbD_nine, ge_iff_le, BitVec.le_def, BitVec.le_def, ge_iff_le, BitVec.le_def, BitVec.toNat_add,
    BitVec.toNat_add, hf, decide_eq_true_iff]
  rw [BitVec.toInt_eq_toNat_cond] at c1 c2
  rw [BitVec.toInt_eq_toNat_cond a.progress]
  split at c1 <;> omega

/-- The offset that is about to be committed, as a signed word. -/
theorem Axis.progressIn_toInt (hs : Slow a) : (g.progressIn a).toInt =
    if g.scrollsOut a ∨ g.scrollsBack a then a.progress.toInt + a.motion.toInt else a.progress.toInt := by
  rw [Axis.progressIn_eq]
  split
  · rename_i h
    have h' := h
    rw [Axis.scrollsOut_iff hg hc, Axis.scrollsBack_iff hg hc] at h'
    obtain ⟨-, -, -, -, -, -, -, hal, hag, hm⟩ := hg
    obtain ⟨c1, c2⟩ := hc
    obtain ⟨m1, m2⟩ := hs
    rw [BitVec.toInt_add, Int.bmod_eq_of_le] <;> omega
  · rfl

theorem Axis.camRange_move (hs : Slow a) (m : BitVec 10) : g.CamRange (g.move a m) := by
  have hp := Axis.progressIn_toInt hg hc hs
  have ho := Axis.scrollsOut_iff hg hc
  have hb := Axis.scrollsBack_iff hg hc
  obtain ⟨c1, c2⟩ := hc
  obtain ⟨m1, m2⟩ := hs
  constructor <;> simp only [Axis.move, hp] <;> split <;> rename_i h <;> (try rw [ho, hb] at h) <;> omega

end

/-! ## Together -/

structure Ranged (r : Regs) : Prop where
  sized : Sized r
  slowX : Slow r.x
  slowY : Slow r.y
  camX : xAxis.CamRange r.x
  camY : yAxis.CamRange r.y

theorem ranged_init : Ranged init := by
  refine ⟨sized_init, ?_, ?_, ?_, ?_⟩ <;> constructor <;> decide

theorem ranged_move {r : Regs} (h : Ranged r) (k : BitVec 16) : Ranged (move r k) := by
  obtain ⟨hs, hx, hy, cx, cy⟩ := h
  refine ⟨sized_move hs k, ?_, ?_, Axis.camRange_move xAxis_sane cx hx _,
    Axis.camRange_move yAxis_sane cy hy _⟩
  · exact slow_of_cases hx hs.step_le (motionIn_x r k)
  · exact slow_of_cases hy (hs.step_eq ▸ hs.step_le) (motionIn_y r k)

/-- Food changes steps and size only. -/
theorem food_frame (f : Food) (r : Regs) :
    (f.apply r).x.pos = r.x.pos ∧ (f.apply r).x.motion = r.x.motion ∧
      (f.apply r).x.progress = r.x.progress ∧ (f.apply r).y.pos = r.y.pos ∧
      (f.apply r).y.motion = r.y.motion ∧ (f.apply r).y.progress = r.y.progress := by
  cases f with
  | none => simp [Food.apply]
  | grow => simp only [Food.apply, grow]; split <;> split <;> simp
  | shrink => simp only [Food.apply, shrink]; split <;> split <;> simp

theorem ranged_food {r : Regs} (h : Ranged r) (f : Food) : Ranged (f.apply r) := by
  obtain ⟨hs, hx, hy, cx, cy⟩ := h
  obtain ⟨-, e2, e3, -, e5, e6⟩ := food_frame f r
  refine ⟨sized_food hs f, ?_, ?_, ?_, ?_⟩
  · exact ⟨e2 ▸ hx.ge, e2 ▸ hx.le⟩
  · exact ⟨e5 ▸ hy.ge, e5 ▸ hy.le⟩
  · exact ⟨e3 ▸ cx.ge, e3 ▸ cx.le⟩
  · exact ⟨e6 ▸ cy.ge, e6 ▸ cy.le⟩

theorem Reachable.ranged {s : EdgeReg Regs} (h : Reachable s) : Ranged s.regs :=
  h.regs_invariant ranged_init (fun _ k hp => ranged_move hp k) (fun _ f hp => ranged_food hp f)

/-- **The counters.** In every reachable state both steps are one number between 1 and 4, the size is between 3
and 10, and each motion reads as a signed word between -4 and 4. -/
theorem counters_ranged {s : EdgeReg Regs} (h : Reachable s) :
    (1 ≤ s.regs.x.step.toNat ∧ s.regs.x.step = s.regs.y.step ∧ s.regs.y.step.toNat ≤ 4) ∧
      (3 ≤ s.regs.size.toNat ∧ s.regs.size.toNat ≤ 10) ∧
      (-4 ≤ s.regs.x.motion.toInt ∧ s.regs.x.motion.toInt ≤ 4) ∧
      (-4 ≤ s.regs.y.motion.toInt ∧ s.regs.y.motion.toInt ≤ 4) := by
  obtain ⟨hs, hx, hy, -, -⟩ := h.ranged
  refine ⟨⟨hs.step_pos, hs.step_eq, ?_⟩, ⟨hs.size_ge, hs.size_le⟩, ⟨hx.ge, hx.le⟩, ⟨hy.ge, hy.le⟩⟩
  rw [← hs.step_eq]
  exact hs.step_le

/-- Right (d) for nine frames with a shrinking food in each: the ball is as small and as fast as it gets. -/
def smallAndFast : List In :=
  (List.replicate 9 [quiet 0x0007 false, { quiet 0x0007 true with isCollision2 := true }]).flatten

theorem counters_ranged_smallAndFast :
    let s := machine.run resetState smallAndFast
    (s.regs.x.step = 4 ∧ s.regs.size = 3 ∧ s.regs.x.motion = 4) ∧
      (1 ≤ s.regs.x.step.toNat ∧ s.regs.x.step = s.regs.y.step ∧ s.regs.y.step.toNat ≤ 4) ∧
      (3 ≤ s.regs.size.toNat ∧ s.regs.size.toNat ≤ 10) ∧
      (-4 ≤ s.regs.x.motion.toInt ∧ s.regs.x.motion.toInt ≤ 4) ∧
      (-4 ≤ s.regs.y.motion.toInt ∧ s.regs.y.motion.toInt ≤ 4) := by
  intro s
  have hs : s.regs.x.step = 4 ∧ s.regs.size = 3 ∧ s.regs.x.motion = 4 := by decide +kernel
  exact ⟨hs, counters_ranged (resetState_reachable.run smallAndFast)⟩

end Lab8.Ball
