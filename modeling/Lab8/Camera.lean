import Lab8.BallRange
import Lab8.VgaController
/-!
# The camera and the window

The camera follows the ball back while `Ball_X_Pos >= 200` (ball.sv:471), a test on the position and not
on the offset, so a step of the motion can be subtracted from a smaller offset: holding left from the
start takes `progressx` from 0 to 1021 after forty-two frames. And the edge tests act one frame late, so
the motion that is committed may exceed the room that is left to the wall.

Both are decided by the registers before the edge. `CameraGuard` and `RoomLeft` are these conditions, and
along a run they hold at every edge exactly when the offset never underflows (`camera_iff`), respectively
when the ball never leaves the window (`window_iff`).
-/

namespace Lab8.Ball

open Clocked

/-- The edge commits `Pos_in`, `Motion_in` and `progress_in`. -/
def moves (s : EdgeReg Regs) (i : In) : Prop := ∃ f, act (s.rising i.frameClk) i = .move f

/-- An edge that does not move the ball keeps the bank or restarts it. -/
theorem next_regs_cases (s : EdgeReg Regs) (i : In) :
    (¬ moves s i ∧ ((machine.next s i).regs = s.regs ∨ (machine.next s i).regs = init)) ∨
      (moves s i ∧ ∃ f : Food, (machine.next s i).regs = f.apply (move s.regs i.keycode)) := by
  have e : (machine.next s i).regs = (act (s.rising i.frameClk) i).apply i.keycode s.regs :=
    ff_eq _ i s.regs
  rw [e]
  unfold moves
  cases act (s.rising i.frameClk) i with
  | hold => exact Or.inl ⟨by simp, Or.inl rfl⟩
  | restart => exact Or.inl ⟨by simp, Or.inr rfl⟩
  | move f => exact Or.inr ⟨⟨f, rfl⟩, f, rfl⟩

theorem ranged_next {s : EdgeReg Regs} (h : Ranged s.regs) (i : In) : Ranged (machine.next s i).regs := by
  rcases next_regs_cases s i with ⟨-, e | e⟩ | ⟨-, f, e⟩ <;> rw [e]
  · exact h
  · exact ranged_init
  · exact ranged_food (ranged_move h _) f

/-- `Reset` leaves the initial registers. -/
theorem afterReset_regs {s : EdgeReg Regs} (h : machine.AfterReset In.reset s) : s.regs = init := by
  obtain ⟨s₀, i, hr, rfl⟩ := h
  exact ff_reset hr _ _

/-! ## The offset -/

/-- Scrolling back subtracts no more than the offset: the guard ball.sv:471 and :487 lack. -/
def Axis.BackWithin (g : Axis) (a : AxisRegs) : Prop :=
  g.scrollsBack a → -a.motion.toInt ≤ a.progress.toNat

def CameraGuard (s : EdgeReg Regs) (i : In) : Prop :=
  moves s i → xAxis.BackWithin s.regs.x ∧ yAxis.BackWithin s.regs.y

def CameraOk (r : Regs) : Prop := r.x.progress.toNat ≤ 243 ∧ r.y.progress.toNat ≤ 233

instance (r : Regs) : Decidable (CameraOk r) := inferInstanceAs (Decidable (_ ∧ _))

/-- For every visible counter value the pixel coordinates are exact sums. -/
def PixelsExact (r : Regs) : Prop :=
  ∀ v : VgaController.Regs, v.hCounter.toNat < 640 → v.vCounter.toNat < 480 →
    (VgaController.drawX v r.x.progress).toNat = v.hCounter.toNat + r.x.progress.toNat ∧
    (VgaController.drawY v r.y.progress).toNat = v.vCounter.toNat + r.y.progress.toNat

theorem pixelsExact_of_cameraOk {r : Regs} (h : CameraOk r) : PixelsExact r := by
  obtain ⟨h1, h2⟩ := h
  intro v hh hv
  simp only [VgaController.drawX, VgaController.drawY, BitVec.toNat_add]
  omega

section
variable {g : Axis} {a : AxisRegs} (hg : g.Sane) (hc : g.CamRange a)
include hg hc

/-- Within its range the offset has wrapped exactly when it reads as a negative word. -/
theorem Axis.progress_le_iff :
    a.progress.toNat ≤ g.max.toNat - g.ahead.toNat + 4 ↔ 0 ≤ a.progress.toInt := by
  obtain ⟨-, -, -, -, -, -, -, hal, hag, hm⟩ := hg
  obtain ⟨c1, c2⟩ := hc
  have hp := a.progress.isLt
  rw [BitVec.toInt_eq_toNat_cond] at c1 c2 ⊢
  split at c1 <;> omega

theorem Axis.toInt_progress (h0 : 0 ≤ a.progress.toInt) : a.progress.toInt = a.progress.toNat := by
  have h := (Axis.progress_le_iff hg hc).2 h0
  obtain ⟨-, -, -, -, -, -, -, hal, hag, hm⟩ := hg
  exact Word.toInt_of_lt (by omega)

/-- One frame keeps the offset from wrapping exactly when it does not scroll back past zero. -/
theorem Axis.move_progress_iff (hs : Slow a) (h0 : 0 ≤ a.progress.toInt) (m : BitVec 10) :
    0 ≤ (g.move a m).progress.toInt ↔ g.BackWithin a := by
  have hp := Axis.progressIn_toInt hg hc hs
  have ho := Axis.scrollsOut_iff hg hc
  have hb := Axis.scrollsBack_iff hg hc
  have he := Axis.toInt_progress hg hc h0
  unfold Axis.BackWithin
  simp only [Axis.move, hp]
  by_cases h1 : g.scrollsBack a
  · simp only [h1, or_true, if_true, true_imp_iff]; omega
  · by_cases h2 : g.scrollsOut a
    · have := ho.1 h2
      simp only [h1, h2, true_or, if_true, false_imp_iff, iff_true]; omega
    · simp only [h1, h2, or_false, if_false, false_imp_iff, iff_true]; exact h0

end

theorem cameraOk_iff {r : Regs} (h : Ranged r) :
    CameraOk r ↔ 0 ≤ r.x.progress.toInt ∧ 0 ≤ r.y.progress.toInt := by
  rw [← Axis.progress_le_iff xAxis_sane h.camX, ← Axis.progress_le_iff yAxis_sane h.camY]
  exact Iff.rfl

/-- A step keeps the camera in range exactly when it meets the guard. -/
theorem cameraOk_next_iff {s : EdgeReg Regs} (h : Ranged s.regs) (hk : CameraOk s.regs) (i : In) :
    CameraOk (machine.next s i).regs ↔ CameraGuard s i := by
  obtain ⟨hx, hy⟩ := (cameraOk_iff h).1 hk
  rcases next_regs_cases s i with ⟨hm, e | e⟩ | ⟨hm, f, e⟩
  · rw [e]
    exact ⟨fun _ hm' => absurd hm' hm, fun _ => hk⟩
  · rw [e]
    exact ⟨fun _ hm' => absurd hm' hm, fun _ => by decide⟩
  · obtain ⟨-, -, e3, -, -, e6⟩ := food_frame f (move s.regs i.keycode)
    rw [cameraOk_iff (ranged_next h i), e, e3, e6]
    simp only [move, Axis.move_progress_iff xAxis_sane h.camX h.slowX hx,
      Axis.move_progress_iff yAxis_sane h.camY h.slowY hy]
    exact ⟨fun h' _ => h', fun h' => h' hm⟩

/-- **The camera offset.** Along a run from `Reset` the offset stays in `0..243` and `0..233`, and so
every visible pixel has exact coordinates, if and only if no edge scrolls back by more than the offset. -/
theorem camera_iff {s : EdgeReg Regs} (hs : machine.AfterReset In.reset s) (inp : ℕ → In) :
    (∀ n, CameraOk (machine.trace s inp n).regs ∧ PixelsExact (machine.trace s inp n).regs) ↔
      ∀ n, CameraGuard (machine.trace s inp n) (inp n) := by
  have h0 := afterReset_regs hs
  have key := Machine.trace_guard_iff (M := machine) (P := fun s => Ranged s.regs ∧ CameraOk s.regs)
    (A := fun s => CameraOk s.regs) (C := CameraGuard) (fun _ h => h.2)
    (fun s i h => cameraOk_next_iff h.1 h.2 i) (fun s i h hA => ⟨ranged_next h.1 i, hA⟩)
    (by rw [h0]; exact ⟨ranged_init, by decide⟩) inp
  rw [← key]
  exact ⟨fun h n => (h n).1, fun h n => ⟨h n, pixelsExact_of_cameraOk (h n)⟩⟩

/-- Holding left (a) from `Reset` scrolls back from offset 0 at `Ball_X_Pos = 200`. -/
theorem camera_underflows : ¬ ∀ s : EdgeReg Regs, Reachable s → CameraOk s.regs ∧ PixelsExact s.regs := by
  intro h
  have hr := resetState_reachable.run ((List.replicate 42 0x0004#16).flatMap frame)
  have hc := (h _ hr).1
  rw [run_frames] at hc
  revert hc
  decide +kernel

/-- Right (d) for sixty frames and left (a) for eighty. -/
def outAndBack : List In := (List.replicate 60 0x0007#16 ++ List.replicate 80 0x0004#16).flatMap frame

/-- The camera goes out to 99 and back to 63. -/
theorem camera_iff_outAndBack : (machine.run resetState outAndBack).regs.x.progress = 63 ∧
    ∀ n, CameraGuard (machine.trace resetState (fun n => outAndBack.getD n (quiet 0 false)) n)
      (outAndBack.getD n (quiet 0 false)) := by
  have h : machine.Along (fun s => CameraOk s.regs) resetState outAndBack := by decide +kernel
  refine ⟨by decide +kernel, (camera_iff resetState_afterReset _).1 fun n => ?_⟩
  have hk := h.trace_getD (d := quiet 0 false) (fun s hs => (next_quiet s 0).symm ▸ hs) n
  exact ⟨hk, pixelsExact_of_cameraOk hk⟩

/-! ## The window -/

/-- The centre is inside the window the camera shows, in unbounded arithmetic. -/
def InWindow (r : Regs) : Prop :=
  (r.x.progress.toNat ≤ r.x.pos.toNat ∧ r.x.pos.toNat ≤ r.x.progress.toNat + 639) ∧
    (r.y.progress.toNat ≤ r.y.pos.toNat ∧ r.y.pos.toNat ≤ r.y.progress.toNat + 479)

instance (r : Regs) : Decidable (InWindow r) := inferInstanceAs (Decidable (_ ∧ _))

def Axis.Visible (g : Axis) (a : AxisRegs) : Prop :=
  a.progress.toNat ≤ a.pos.toNat ∧ a.pos.toNat ≤ a.progress.toNat + g.max.toNat

/-- The motion register fits in the room between the centre and the wall it points to. -/
def Axis.Room (g : Axis) (a : AxisRegs) : Prop :=
  (a.motion.toInt < 0 → -a.motion.toInt ≤ (a.pos.toNat : ℤ) - a.progress.toNat) ∧
    (0 < a.motion.toInt → a.motion.toInt ≤ (a.progress.toNat : ℤ) + g.max.toNat - a.pos.toNat)

/-- While the camera follows, the ball keeps its place in the window and only the offset can go wrong;
while it stands still, the motion has to fit in the room that is left. -/
def Axis.StepFits (g : Axis) (a : AxisRegs) : Prop :=
  g.BackWithin a ∧ (¬ g.scrollsOut a → ¬ g.scrollsBack a → g.Room a)

def RoomLeft (s : EdgeReg Regs) (i : In) : Prop :=
  moves s i → xAxis.StepFits s.regs.x ∧ yAxis.StepFits s.regs.y

/-- A negative offset reads as one of the last four words. -/
theorem Axis.wrapped_ge {g : Axis} {a : AxisRegs} (hc : g.CamRange a) (h : a.progress.toInt < 0) :
    1020 ≤ a.progress.toNat := by
  have hlt := a.progress.isLt
  have c1 := hc.ge
  rw [BitVec.toInt_eq_toNat_cond] at c1 h
  split at h <;> omega

section
variable {g : Axis} {a : AxisRegs} (hg : g.Sane) (hc : g.CamRange a) (hs : Slow a)
  (h0 : 0 ≤ a.progress.toInt)
include hg hc hs h0

/-- A step that wraps the offset leaves the ball outside the window. -/
theorem Axis.progress_of_visible (m : BitVec 10) (h : g.Visible (g.move a m)) :
    0 ≤ (g.move a m).progress.toInt := by
  have hp := Axis.progressIn_toInt hg hc hs
  have ho := Axis.scrollsOut_iff hg hc
  have hb := Axis.scrollsBack_iff hg hc
  have hx := Word.toNat_add_toInt a.pos a.motion
  have hwrap := Axis.wrapped_ge (Axis.camRange_move hg hc hs m)
  obtain ⟨-, -, -, hbg, -, -, hgap, hal, hag, hm⟩ := hg
  obtain ⟨-, c2⟩ := hc
  obtain ⟨w1, -⟩ := h
  obtain ⟨m1, m2⟩ := hs
  by_contra hneg
  have h1020 := hwrap (by omega)
  -- a wrapped offset is at least 1020, and the position has not got that far
  simp only [Axis.move] at w1 h1020
  simp only [Axis.move, hp] at hneg
  split at hneg
  · rename_i hsc
    rw [ho, hb] at hsc
    omega
  · exact hneg h0

theorem Axis.visible_move_iff (hv : g.Visible a) (m : BitVec 10) : g.Visible (g.move a m) ↔ g.StepFits a := by
  have hp := Axis.progressIn_toInt hg hc hs
  have hq := Axis.move_progress_iff hg hc hs h0 m
  have hv' := Axis.progress_of_visible hg hc hs h0 m
  have hcm := Axis.camRange_move hg hc hs m
  have he' := fun h => Axis.toInt_progress hg hcm h
  have ho := Axis.scrollsOut_iff hg hc
  have hb := Axis.scrollsBack_iff hg hc
  have he := Axis.toInt_progress hg hc h0
  have hx := Word.toNat_add_toInt a.pos a.motion
  obtain ⟨-, -, -, -, -, -, -, hal, hag, hm⟩ := hg
  obtain ⟨-, c2⟩ := hc
  obtain ⟨v1, v2⟩ := hv
  obtain ⟨m1, m2⟩ := hs
  unfold Axis.StepFits
  rw [← hq]
  by_cases hpos : 0 ≤ (g.move a m).progress.toInt
  · have hpe := he' hpos
    simp only [hpos, true_and]
    unfold Axis.Visible Axis.Room
    simp only [Axis.move] at hpe hpos ⊢
    by_cases hsc : g.scrollsOut a ∨ g.scrollsBack a
    · have hsc' := hsc
      rw [ho, hb] at hsc'
      rw [if_pos hsc] at hp
      constructor
      · intro _ h1 h2; exact absurd hsc (not_or.2 ⟨h1, h2⟩)
      · intro _; omega
    · rw [if_neg hsc] at hp
      rw [not_or] at hsc
      simp only [hsc.1, hsc.2, not_false_eq_true, true_imp_iff]
      omega
  · exact ⟨fun h => absurd (hv' h) hpos, fun h => absurd h.1 hpos⟩

end

theorem inWindow_iff (r : Regs) : InWindow r ↔ xAxis.Visible r.x ∧ yAxis.Visible r.y := Iff.rfl

/-- What the run carries besides the window: ranges, and an offset that has not wrapped. -/
structure Framed (r : Regs) : Prop where
  ranged : Ranged r
  window : InWindow r
  camX : 0 ≤ r.x.progress.toInt
  camY : 0 ≤ r.y.progress.toInt

theorem framed_init : Framed init := ⟨ranged_init, by decide, by decide, by decide⟩

/-- A step keeps the ball in the window exactly when both axes' motions fit. -/
theorem inWindow_next_iff {s : EdgeReg Regs} (h : Framed s.regs) (i : In) :
    InWindow (machine.next s i).regs ↔ RoomLeft s i := by
  obtain ⟨hr, ⟨vx, vy⟩, hx, hy⟩ := h
  rcases next_regs_cases s i with ⟨hm, e | e⟩ | ⟨hm, f, e⟩
  · rw [e]
    exact ⟨fun _ hm' => absurd hm' hm, fun _ => ⟨vx, vy⟩⟩
  · rw [e]
    exact ⟨fun _ hm' => absurd hm' hm, fun _ => by decide⟩
  · obtain ⟨e1, -, e3, e4, -, e6⟩ := food_frame f (move s.regs i.keycode)
    have hmv : InWindow (machine.next s i).regs ↔ InWindow (move s.regs i.keycode) := by
      rw [e]; simp only [InWindow, e1, e3, e4, e6]
    rw [hmv, inWindow_iff]
    simp only [move, Axis.visible_move_iff xAxis_sane hr.camX hr.slowX hx vx,
      Axis.visible_move_iff yAxis_sane hr.camY hr.slowY hy vy]
    exact ⟨fun h' _ => h', fun h' => h' hm⟩

theorem framed_next {s : EdgeReg Regs} (h : Framed s.regs) (i : In)
    (hw : InWindow (machine.next s i).regs) : Framed (machine.next s i).regs := by
  obtain ⟨hr, -, hx, hy⟩ := h
  refine ⟨ranged_next hr i, hw, ?_, ?_⟩
  all_goals rcases next_regs_cases s i with ⟨-, e | e⟩ | ⟨-, f, e⟩
  · rw [e]; exact hx
  · rw [e]; decide
  · obtain ⟨e1, -, e3, -, -, -⟩ := food_frame f (move s.regs i.keycode)
    have hv : xAxis.Visible (move s.regs i.keycode).x := by
      have := hw.1; rw [e, e1, e3] at this; exact this
    rw [e, e3]
    exact Axis.progress_of_visible xAxis_sane hr.camX hr.slowX hx _ hv
  · rw [e]; exact hy
  · rw [e]; decide
  · obtain ⟨-, -, -, e4, -, e6⟩ := food_frame f (move s.regs i.keycode)
    have hv : yAxis.Visible (move s.regs i.keycode).y := by
      have := hw.2; rw [e, e4, e6] at this; exact this
    rw [e, e6]
    exact Axis.progress_of_visible yAxis_sane hr.camY hr.slowY hy _ hv

/-- **The window.** Along a run from `Reset` the ball stays in the window if and only if every edge that
moves it finds, on each axis, a motion that fits: within the offset while the camera scrolls back, within
the room to the wall while the camera stands still. -/
theorem window_iff {s : EdgeReg Regs} (hs : machine.AfterReset In.reset s) (inp : ℕ → In) :
    (∀ n, InWindow (machine.trace s inp n).regs) ↔
      ∀ n, RoomLeft (machine.trace s inp n) (inp n) :=
  Machine.trace_guard_iff (M := machine) (P := fun s => Framed s.regs) (A := fun s => InWindow s.regs)
    (C := RoomLeft) (fun _ h => h.window) (fun _ i h => inWindow_next_iff h i)
    (fun _ i h hA => framed_next h i hA) (by rw [afterReset_regs hs]; exact framed_init) inp

/-- Down and right (sd) into the corner of the window. -/
def intoTheCorner : List In := (List.replicate 188 0x0716#16).flatMap frame

/-- The bottom edge masks the right one for three frames and the ball ends two pixels outside the window. -/
theorem window_left : ¬ ∀ s : EdgeReg Regs, Reachable s → InWindow s.regs := by
  intro h
  have hw := h _ (resetState_reachable.run intoTheCorner)
  rw [intoTheCorner, run_frames] at hw
  revert hw
  decide +kernel

/-- Right (d), to the wall at 879 and off it again. -/
def toTheWall : List In := (List.replicate 188 0x0007#16).flatMap frame

theorem window_iff_toTheWall : (machine.run resetState toTheWall).regs.x.motion.toInt = -3 ∧
    ∀ n, RoomLeft (machine.trace resetState (fun n => toTheWall.getD n (quiet 0 false)) n)
      (toTheWall.getD n (quiet 0 false)) := by
  have h : machine.Along (fun s => InWindow s.regs) resetState toTheWall := by decide +kernel
  exact ⟨by decide +kernel, (window_iff resetState_afterReset _).1
    (h.trace_getD (d := quiet 0 false) fun s hs => (next_quiet s 0).symm ▸ hs)⟩

end Lab8.Ball
