import Lab8.BallRange
/-!
# Speed and size

Each food moves the step and the size in opposite directions, but the two saturate by themselves: the step at
1 and 4 (ball.sv:115, :135), the size at 3 and 10 (:120, :141). From size 7 on the step has nowhere to go, and
the first shrinking food makes the ball faster at once. So the step is the one that belongs to the size as
long as no food moves one of them away from a limit that the other has left behind (`speed_iff`).
-/

namespace Lab8.Ball

open Clocked

/-- The step that belongs to a size. -/
def stepOf (size : BitVec 10) : ℤ := min 4 (max 1 (8 - size.toNat))

/-- Both steps are the one that belongs to the size. -/
def SpeedOfSize (r : Regs) : Prop := (r.x.step.toNat : ℤ) = stepOf r.size ∧ (r.y.step.toNat : ℤ) = stepOf r.size

instance (r : Regs) : Decidable (SpeedOfSize r) := inferInstanceAs (Decidable (_ ∧ _))

/-- The food neither grows a ball of size 3 nor shrinks one of more than 7. -/
def Food.InStep (r : Regs) : Food → Prop
  | .none => True
  | .grow => r.size.toNat ≠ 3
  | .shrink => r.size.toNat ≤ 7

/-- A food of this clock is in step. -/
def SpeedGuard (s : EdgeReg Regs) (i : In) : Prop := ∀ f, act (s.rising i.frameClk) i = .move f → f.InStep s.regs

/-! ## Foods -/

section
variable {r : Regs} (h : Sized r)
include h

theorem grow_toNat : (grow r).x.step.toNat = max 1 (r.x.step.toNat - 1) ∧
    (grow r).size.toNat = min 10 (r.size.toNat + 1) := by
  have h1 := h.step_pos
  have h2 := h.step_le
  have h3 := h.size_le
  rw [(grow_step r h.step_eq).1, grow_size]
  constructor <;> split <;> bv_omega

theorem shrink_toNat : (shrink r).x.step.toNat = min 4 (r.x.step.toNat + 1) ∧
    (shrink r).size.toNat = max 3 (r.size.toNat - 1) := by
  have h1 := h.step_pos
  have h2 := h.step_le
  have h3 := h.size_ge
  have h4 := h.size_le
  rw [(shrink_step r h.step_eq).1, shrink_size]
  constructor <;> split <;> bv_omega

theorem speedOfSize_iff : SpeedOfSize r ↔ (r.x.step.toNat : ℤ) = stepOf r.size := by
  unfold SpeedOfSize
  rw [← h.step_eq, and_self]

theorem speedOfSize_food_iff (hs : SpeedOfSize r) (f : Food) : SpeedOfSize (f.apply r) ↔ f.InStep r := by
  have h3 := h.size_ge
  have h4 := h.size_le
  have hx := hs.1
  rw [speedOfSize_iff (sized_food h f)]
  unfold stepOf at hx ⊢
  cases f with
  | none => exact ⟨fun _ => trivial, fun _ => hx⟩
  | grow =>
    obtain ⟨e1, e2⟩ := grow_toNat h
    simp only [Food.apply, Food.InStep, e1, e2]
    omega
  | shrink =>
    obtain ⟨e1, e2⟩ := shrink_toNat h
    simp only [Food.apply, Food.InStep, e1, e2]
    omega

end

theorem speedOfSize_init : SpeedOfSize init := by decide

/-! ## Runs -/

theorem speedOfSize_next_iff {s : EdgeReg Regs} (h : Sized s.regs) (hs : SpeedOfSize s.regs) (i : In) :
    SpeedOfSize (machine.next s i).regs ↔ SpeedGuard s i := by
  have e : (machine.next s i).regs = (act (s.rising i.frameClk) i).apply i.keycode s.regs := ff_eq _ _ _
  rw [e]
  unfold SpeedGuard
  cases act (s.rising i.frameClk) i with
  | hold => exact ⟨fun _ _ hf => by simp at hf, fun _ => hs⟩
  | restart => exact ⟨fun _ _ hf => by simp at hf, fun _ => speedOfSize_init⟩
  | move f =>
    have hm : SpeedOfSize ((Act.move f).apply i.keycode s.regs) ↔ f.InStep s.regs := by
      have hi := speedOfSize_food_iff (sized_move h i.keycode) hs f
      cases f <;> exact hi
    rw [hm]
    constructor
    · rintro hf f' hf'
      obtain rfl : f = f' := by simpa using hf'
      exact hf
    · exact fun hf => hf f rfl

/-- **Speed and size.** In every reachable state the steps are equal and step and size are coupled loosely. From
a state in which the step belongs to the size, such as any fresh start, it does so throughout a stretch of a
run exactly when no food of the stretch grows a ball of size 3 or shrinks one of more than 7. -/
theorem speed_iff {s : EdgeReg Regs} (hs : Reachable s) :
    (s.regs.x.step = s.regs.y.step ∧ 7 ≤ s.regs.x.step.toNat + s.regs.size.toNat ∧
      s.regs.x.step.toNat + s.regs.size.toNat ≤ 11) ∧
    (∀ i, act (s.rising i.frameClk) i = .restart → SpeedOfSize (machine.next s i).regs) ∧
    (SpeedOfSize s.regs → ∀ (inp : ℕ → In) (N : ℕ),
      (∀ n, n ≤ N → SpeedOfSize (machine.trace s inp n).regs) ↔
        ∀ n, n < N → SpeedGuard (machine.trace s inp n) (inp n)) := by
  have hz := hs.ranged.sized
  refine ⟨⟨hz.step_eq, hz.sum_ge, hz.sum_le⟩, fun i hi => ?_, fun h inp N => ?_⟩
  · have e : (machine.next s i).regs = (act (s.rising i.frameClk) i).apply i.keycode s.regs := ff_eq _ _ _
    rw [e, hi]
    exact speedOfSize_init
  · exact Machine.trace_guard_upto_iff (P := fun s => Reachable s ∧ SpeedOfSize s.regs)
      (A := fun s => SpeedOfSize s.regs) (fun _ hp => hp.2)
      (fun s i hp => speedOfSize_next_iff hp.1.ranged.sized hp.2 i) (fun s i hp ha => ⟨hp.1.step i, ha⟩) ⟨hs, h⟩ inp N

/-- A frame with a food on it. -/
def meal (f1 f2 : Bool) : List In := [quiet 0 false, { quiet 0 true with isCollision1 := f1, isCollision2 := f2 }]

/-- Three growing foods and a shrinking one: size 7, and a step of 2 where two growing foods leave 1. -/
theorem speed_drifts : ¬ ∀ s : EdgeReg Regs, Reachable s → SpeedOfSize s.regs := by
  intro h
  have hs := h _ (Machine.Reachable.run resetState_reachable
    (meal true false ++ meal true false ++ meal true false ++ meal false true))
  revert hs
  decide

/-- Two growing foods and two shrinking ones. -/
def courses : List In := meal true false ++ meal true false ++ meal false true ++ meal false true

/-- The ball is at its smallest step after two and back at the size it had at the end. -/
theorem speed_iff_courses : ((machine.run resetState (courses.take 4)).regs.x.step = 1 ∧
      (machine.run resetState courses).regs.x.step = 3) ∧
    ∀ n, n < 8 → SpeedGuard (machine.trace resetState (fun n => courses.getD n (quiet 0 false)) n)
      (courses.getD n (quiet 0 false)) := by
  have h : machine.Along (fun s => SpeedOfSize s.regs) resetState courses := by decide
  exact ⟨by decide, ((speed_iff resetState_reachable).2.2 speedOfSize_init _ 8).1 fun n _ =>
    h.trace_getD (d := quiet 0 false) (fun s hs => (next_quiet s 0).symm ▸ hs) n⟩

end Lab8.Ball
