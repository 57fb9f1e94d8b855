import Lab8.AIball
/-!
# The bouncing ball's screen

Y bounces by itself between 5 and 474: only its edges turn it, since the arms of the contact response that
would are dead. X is the player's to flip at any frame off the edges, and drifts while Y is at an edge, which
takes three frames each time. The invariant `Inside` leaves X room for them.
-/

namespace Lab8.AIball

open Clocked

/-! ## The screen in integers -/

/-- A ball at `(X, Y)` moving by `(m, n)`. While it is at a Y edge, the room to either side of the screen covers
the frames it stays there. -/
structure Inside (X Y m n : ℤ) : Prop where
  unitX : -1 ≤ m ∧ m ≤ 1
  unitY : n = 1 ∨ n = -1
  yLow : 5 ≤ Y ∧ (Y = 5 → n = 1)
  yHigh : Y ≤ 474 ∧ (Y = 474 → n = -1)
  x : 2 ≤ X ∧ X ≤ 637
  left : m = -1 → 3 ≤ X ∧ (Y ≤ 6 → 6 - Y + 2 - n + 3 ≤ X) ∧ (473 ≤ Y → Y - 473 + 2 + n + 3 ≤ X)
  right : m = 1 → X ≤ 636 ∧ (Y ≤ 6 → X + (6 - Y + 2 - n) ≤ 636) ∧ (473 ≤ Y → X + (Y - 473 + 2 + n) ≤ 636)

namespace Inside

variable {X Y m n m' : ℤ}

theorem bottom (h : Inside X Y m n) (hY : 473 ≤ Y) : Inside (X + m) (Y + n) m (-1) := by
  obtain ⟨u1, u2, y1, y2, x, hl, hr⟩ := h
  constructor <;> omega

theorem top (h : Inside X Y m n) (hY : Y ≤ 6) : Inside (X + m) (Y + n) m 1 := by
  obtain ⟨u1, u2, y1, y2, x, hl, hr⟩ := h
  constructor <;> omega

theorem turnLeft (h : Inside X Y m n) (hY : 6 < Y ∧ Y < 473) (hX : 633 ≤ X) : Inside (X + m) (Y + n) (-1) n := by
  obtain ⟨u1, u2, y1, y2, x, hl, hr⟩ := h
  constructor <;> omega

theorem turnRight (h : Inside X Y m n) (hY : 6 < Y ∧ Y < 473) (hX : X ≤ 6) : Inside (X + m) (Y + n) 1 n := by
  obtain ⟨u1, u2, y1, y2, x, hl, hr⟩ := h
  constructor <;> omega

/-- Off the edges the player may do with X as it likes. -/
theorem free (h : Inside X Y m n) (hY : 6 < Y ∧ Y < 473) (hX : 6 < X ∧ X < 633) (hm : -1 ≤ m' ∧ m' ≤ 1) :
    Inside (X + m) (Y + n) m' n := by
  obtain ⟨u1, u2, y1, y2, x, hl, hr⟩ := h
  constructor <;> omega

theorem bounds (h : Inside X Y m n) :
    (1 ≤ X ∧ X ≤ 638) ∧ (1 ≤ Y ∧ Y ≤ 478) ∧ (1 ≤ X + m ∧ X + m ≤ 638) ∧ (1 ≤ Y + n ∧ Y + n ≤ 478) := by
  obtain ⟨u1, u2, y1, y2, x, hl, hr⟩ := h
  omega

end Inside

/-! ## The registers -/

/-- The states of `AIball` reachable from `Reset`. -/
def Reachable : EdgeReg Regs → Prop := machine.Reachable (machine.AfterReset In.reset)

structure Contained (r : Regs) : Prop where
  size_eq : r.size = 6
  inside : Inside r.xPos.toNat r.yPos.toNat r.xMotion.toInt r.yMotion.toInt

theorem step_toInt : step.toInt = 1 := by decide
theorem neg_step_toInt : (~~~step + 1).toInt = -1 := by decide

section
variable {r : Regs} (h : Contained r)
include h

theorem bottomEdge_iff : r.yPos + r.size ≥ yMax ↔ 473 ≤ (r.yPos.toNat : ℤ) := by
  have hy := h.inside.yHigh
  rw [ge_iff_le, BitVec.le_def, BitVec.toNat_add, h.size_eq]
  change 479 ≤ (_ + 6) % 1024 ↔ _
  omega

theorem topEdge_iff : r.yPos ≤ yMin + r.size ↔ (r.yPos.toNat : ℤ) ≤ 6 := by
  rw [BitVec.le_def, h.size_eq]
  change _ ≤ 6 ↔ _
  omega

theorem rightEdge_iff : r.xPos + r.size ≥ xMax ↔ 633 ≤ (r.xPos.toNat : ℤ) := by
  have hx := h.inside.x
  rw [ge_iff_le, BitVec.le_def, BitVec.toNat_add, h.size_eq]
  change 639 ≤ (_ + 6) % 1024 ↔ _
  omega

theorem leftEdge_iff : r.xPos ≤ xMin + r.size ↔ (r.xPos.toNat : ℤ) ≤ 6 := by
  rw [BitVec.le_def, h.size_eq]
  change _ ≤ 6 ↔ _
  omega

theorem pos_toNat : ((r.xPos + r.xMotion).toNat : ℤ) = r.xPos.toNat + r.xMotion.toInt ∧
    ((r.yPos + r.yMotion).toNat : ℤ) = r.yPos.toNat + r.yMotion.toInt := by
  obtain ⟨-, -, hx, hy⟩ := h.inside.bounds
  rw [Word.toNat_add_toInt, Word.toNat_add_toInt]
  omega

end

/-- Off the edges only X can be turned, and it is turned to a unit. -/
theorem motionIn_free {r : Regs} (i : In) (hb : ¬ r.yPos + r.size ≥ yMax) (ht : ¬ r.yPos ≤ yMin + r.size)
    (hr : ¬ r.xPos + r.size ≥ xMax) (hl : ¬ r.xPos ≤ xMin + r.size)
    (hu : -1 ≤ r.xMotion.toInt ∧ r.xMotion.toInt ≤ 1) :
    (motionIn r i).y = r.yMotion ∧ -1 ≤ (motionIn r i).x.toInt ∧ (motionIn r i).x.toInt ≤ 1 := by
  unfold motionIn
  simp only [hb, ht, hr, hl, if_false]
  by_cases hc : contact r i.ballX i.ballY i.size
  · simp only [hc, if_true]
    cases r.xMotion.getLsbD 9 with
    | false =>
      simp only [if_true, neg_step_toInt]
      exact ⟨trivial, by omega⟩
    | true =>
      simp only [Bool.true_eq_false, if_true, if_false, step_toInt]
      exact ⟨trivial, by omega⟩
  · simp only [hc, if_false]
    exact ⟨trivial, hu⟩

theorem contained_init : Contained init := by
  refine ⟨rfl, ?_⟩
  constructor <;> decide

/-- One committed frame, edge by edge. -/
theorem contained_frame {r : Regs} (h : Contained r) (i : In) : Contained { r with
    xPos := r.xPos + r.xMotion
    yPos := r.yPos + r.yMotion
    xMotion := (motionIn r i).x
    yMotion := (motionIn r i).y } := by
  have hin := h.inside
  obtain ⟨ex, ey⟩ := pos_toNat h
  refine ⟨h.size_eq, ?_⟩
  simp only [ex, ey]
  by_cases hb : r.yPos + r.size ≥ yMax
  · have hm : motionIn r i = ⟨r.xMotion, ~~~step + 1⟩ := by simp only [motionIn, hb, if_true]
    rw [hm, neg_step_toInt]
    exact hin.bottom ((bottomEdge_iff h).1 hb)
  by_cases ht : r.yPos ≤ yMin + r.size
  · have hm : motionIn r i = ⟨r.xMotion, step⟩ := by simp only [motionIn, hb, ht, if_true, if_false]
    rw [hm, step_toInt]
    exact hin.top ((topEdge_iff h).1 ht)
  have hb' := (bottomEdge_iff h).not.1 hb
  have ht' := (topEdge_iff h).not.1 ht
  by_cases hr : r.xPos + r.size ≥ xMax
  · have hm : motionIn r i = ⟨~~~step + 1, r.yMotion⟩ := by
      simp only [motionIn, hb, ht, hr, if_true, if_false]
    rw [hm, neg_step_toInt]
    exact hin.turnLeft (by omega) ((rightEdge_iff h).1 hr)
  by_cases hl : r.xPos ≤ xMin + r.size
  · have hm : motionIn r i = ⟨step, r.yMotion⟩ := by simp only [motionIn, hb, ht, hr, hl, if_true, if_false]
    rw [hm, step_toInt]
    exact hin.turnRight (by omega) ((leftEdge_iff h).1 hl)
  have hr' := (rightEdge_iff h).not.1 hr
  have hl' := (leftEdge_iff h).not.1 hl
  obtain ⟨hy, hx⟩ := motionIn_free i hb ht hr hl hin.unitX
  rw [hy]
  exact hin.free (by omega) (by omega) hx

theorem contained_ff (b : Bool) (i : In) {r : Regs} (h : Contained r) : Contained (ff b i r) := by
  unfold ff
  split
  · exact contained_init
  · split
    · exact contained_frame h i
    · exact h

theorem Reachable.contained {s : EdgeReg Regs} (h : Reachable s) : Contained s.regs := by
  refine EdgeReg.invariant In.reset (fun b i r hr => ?_) (fun b i r hp => contained_ff b i hp) h
  unfold ff
  rw [if_pos hr]
  exact contained_init

/-- **The screen.** Whatever the player does, Y moves by one pixel and X by at most one, the ball stays on the
screen, and neither its positions nor its edge sums wrap. -/
theorem aiball_contained {s : EdgeReg Regs} (h : Reachable s) :
    (s.regs.yMotion.toInt = 1 ∨ s.regs.yMotion.toInt = -1) ∧
      (-1 ≤ s.regs.xMotion.toInt ∧ s.regs.xMotion.toInt ≤ 1) ∧
      (1 ≤ s.regs.xPos.toNat ∧ s.regs.xPos.toNat ≤ 638) ∧ (1 ≤ s.regs.yPos.toNat ∧ s.regs.yPos.toNat ≤ 478) ∧
      (0 ≤ (s.regs.xPos.toNat : ℤ) + s.regs.xMotion.toInt ∧
        (s.regs.xPos.toNat : ℤ) + s.regs.xMotion.toInt ≤ 1023) ∧
      (0 ≤ (s.regs.yPos.toNat : ℤ) + s.regs.yMotion.toInt ∧
        (s.regs.yPos.toNat : ℤ) + s.regs.yMotion.toInt ≤ 1023) ∧
      s.regs.xPos.toNat + s.regs.size.toNat ≤ 1023 ∧ s.regs.yPos.toNat + s.regs.size.toNat ≤ 1023 ∧
      xMin.toNat + s.regs.size.toNat ≤ 1023 ∧ yMin.toNat + s.regs.size.toNat ≤ 1023 := by
  obtain ⟨hs, hi⟩ := h.contained
  obtain ⟨bx, by', ax, ay⟩ := hi.bounds
  have hs6 : s.regs.size.toNat = 6 := by rw [hs]; rfl
  have hx0 : xMin.toNat = 0 := rfl
  have hy0 : yMin.toNat = 0 := rfl
  refine ⟨hi.unitY, hi.unitX, ?_, ?_, ?_, ?_, ?_, ?_, ?_, ?_⟩ <;> omega

/-- The bank after a reset clock that found `frame_clk` low. -/
def resetState : EdgeReg Regs := ⟨init, false⟩

theorem resetState_reachable : Reachable resetState :=
  .init ⟨resetState, ⟨true, false, 0, 0, 0⟩, rfl, rfl⟩

/-- A player in its way, for 620 frames. -/
def inTheWay : List In := (List.replicate 620 [⟨false, false, 320, 200, 5⟩, ⟨false, true, 320, 200, 5⟩]).flatten

/-- It has been sent to the left, and has come back from the right and the bottom. -/
theorem aiball_contained_inTheWay :
    let s := machine.run resetState inTheWay
    (s.regs.xMotion.toInt = -1 ∧ s.regs.yMotion.toInt = -1) ∧ (1 ≤ s.regs.xPos.toNat ∧ s.regs.xPos.toNat ≤ 638) ∧
      (1 ≤ s.regs.yPos.toNat ∧ s.regs.yPos.toNat ≤ 478) := by
  intro s
  have hs : Reachable s := resetState_reachable.run inTheWay
  have hm : s.regs.xMotion.toInt = -1 ∧ s.regs.yMotion.toInt = -1 := by decide +kernel
  exact ⟨hm, (aiball_contained hs).2.2.1, (aiball_contained hs).2.2.2.1⟩

end Lab8.AIball
