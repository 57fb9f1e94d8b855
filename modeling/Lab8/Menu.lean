import Lab8.Camera
import Lab8.Gamestate
/-!
# The menu screens

`gamestate` tests the mouse in screen coordinates; `color_mapper` draws the cursor where `DrawX` and `DrawY`,
the scan plus the camera offset, meet the same numbers (Color_Mapper.sv:216, :237). The two places are one as
long as the offset is zero. In `start` every frame edge that touches no food restarts the ball and the camera
(ball.sv:143); in `gameover_state` nothing does once `gameover` is low, and the ball still obeys the keyboard
(`menu_scrolls`).
-/

namespace Lab8.ColorMapper

/-- The cursor square of the two menu screens (Color_Mapper.sv:216, :237). -/
def cursor (mouseX mouseY drawX drawY : BitVec 10) : Bool :=
  decide (drawX > mouseX - 3 ∧ drawX < mouseX + 3 ∧ drawY < mouseY + 3 ∧ drawY > mouseY - 3)

end Lab8.ColorMapper

namespace Lab8.Menu

open Clocked

/-- `gamestate` and `ball`, wired by `start_signal`. -/
structure State where
  ball : EdgeReg Ball.Regs
  fsm : Gamestate.State

structure In where
  reset : Bool
  frameClk : Bool
  keycode : BitVec 16
  isCollision1 : Bool
  isCollision2 : Bool
  gameover : Bool
  mouseX : BitVec 10
  mouseY : BitVec 10
  leftButton : Bool
  rightButton : Bool

def State.ballIn (s : State) (i : In) : Ball.In where
  reset := i.reset
  frameClk := i.frameClk
  keycode := i.keycode
  isCollision1 := i.isCollision1
  isCollision2 := i.isCollision2
  gameover := i.gameover
  startSignal := Gamestate.startSignal s.fsm

def In.fsmIn (i : In) : Gamestate.In where
  reset := i.reset
  gameover := i.gameover
  mouseX := i.mouseX
  mouseY := i.mouseY
  leftButton := i.leftButton
  rightButton := i.rightButton

def machine : Machine In State where
  next s i := ⟨Ball.machine.next s.ball (s.ballIn i), Gamestate.ff s.fsm i.fsmIn⟩

/-! ## Offset and cursor -/

def Unscrolled (s : State) : Prop := s.ball.regs.x.progress = 0 ∧ s.ball.regs.y.progress = 0

instance (s : State) : Decidable (Unscrolled s) := inferInstanceAs (Decidable (_ ∧ _))

/-- Wherever the mouse is, the square is drawn there on the screen. -/
def CursorInPlace (s : State) : Prop :=
  ∀ (mouseX mouseY : BitVec 10) (v : VgaController.Regs),
    ColorMapper.cursor mouseX mouseY (VgaController.drawX v s.ball.regs.x.progress)
        (VgaController.drawY v s.ball.regs.y.progress) =
      ColorMapper.cursor mouseX mouseY v.hCounter v.vCounter

theorem Unscrolled.cursorInPlace {s : State} (h : Unscrolled s) : CursorInPlace s := by
  intro mouseX mouseY v
  have e (x : BitVec 10) : x + 0 = x := BitVec.add_zero x
  simp only [VgaController.drawX, VgaController.drawY, h.1, h.2, e]

/-! ## One clock -/

/-- An axis whose camera stands still with offset zero, or scrolls with a motion of exactly minus its offset. -/
def ComesToZero (g : Ball.Axis) (a : Ball.AxisRegs) : Prop :=
  (g.scrollsOut a ∨ g.scrollsBack a → a.motion = -a.progress) ∧
    (¬ (g.scrollsOut a ∨ g.scrollsBack a) → a.progress = 0)

theorem progressIn_eq_zero_iff (g : Ball.Axis) (a : Ball.AxisRegs) : g.progressIn a = 0 ↔ ComesToZero g a := by
  unfold ComesToZero
  rw [Ball.Axis.progressIn_eq]
  by_cases h : g.scrollsOut a ∨ g.scrollsBack a
  · rw [if_pos h]
    simp only [h, not_true, false_imp_iff, true_imp_iff, and_true]
    constructor <;> intro h' <;> bv_omega
  · rw [if_neg h]
    simp [h]

/-- At a frame edge of a menu screen that moves the ball, and does not see the click that starts a game, both axes
stand still with offset zero or scroll back by exactly their offset. -/
def MenuGuard (s : State) (i : In) : Prop :=
  s.fsm ≠ .ingame → ¬ (s.fsm = .start ∧ Gamestate.clickStart i.fsmIn = true) → Ball.moves s.ball (s.ballIn i) →
    ComesToZero Ball.xAxis s.ball.regs.x ∧ ComesToZero Ball.yAxis s.ball.regs.y

theorem next_ingame_iff {s : State} (h : s.fsm ≠ .ingame) {i : In} (hr : i.reset = false) :
    (machine.next s i).fsm = .ingame ↔ s.fsm = .start ∧ Gamestate.clickStart i.fsmIn = true := by
  have e : (machine.next s i).fsm = Gamestate.nextState s.fsm i.fsmIn := by
    change Gamestate.ff s.fsm i.fsmIn = _
    unfold Gamestate.ff
    rw [if_neg (by simp [In.fsmIn, hr])]
  rw [e]
  cases hs : s.fsm with
  | start => simp [Gamestate.nextState]
  | ingame => exact absurd hs h
  | gameoverState =>
    unfold Gamestate.nextState
    simp only [reduceCtorEq, false_and, iff_false]
    split <;> simp

/-- The ball moves at frame edges, and not while it is being reset. -/
theorem edge_of_moves {s : State} {i : In} (h : Ball.moves s.ball (s.ballIn i)) :
    i.reset = false ∧ s.ball.rising i.frameClk = true := by
  obtain ⟨f, hf⟩ := h
  change Ball.act (s.ball.rising i.frameClk) (s.ballIn i) = _ at hf
  unfold Ball.act at hf
  cases hr : i.reset with
  | true => simp [State.ballIn, hr] at hf
  | false =>
    cases he : s.ball.rising i.frameClk with
    | true => exact ⟨rfl, rfl⟩
    | false => simp [State.ballIn, hr, he] at hf

/-- A frame that moves the ball takes the camera to zero from these registers only. -/
theorem unscrolled_next_iff {s : State} {i : In} (h : Ball.moves s.ball (s.ballIn i)) :
    Unscrolled (machine.next s i) ↔
      ComesToZero Ball.xAxis s.ball.regs.x ∧ ComesToZero Ball.yAxis s.ball.regs.y := by
  obtain ⟨hn, -⟩ | ⟨-, f, e⟩ := Ball.next_regs_cases s.ball (s.ballIn i)
  · exact absurd h hn
  · obtain ⟨-, -, e3, -, -, e6⟩ := Ball.food_frame f (Ball.move s.ball.regs (s.ballIn i).keycode)
    have e' : (machine.next s i).ball.regs = f.apply (Ball.move s.ball.regs (s.ballIn i).keycode) := e
    unfold Unscrolled
    rw [e', e3, e6, ← progressIn_eq_zero_iff, ← progressIn_eq_zero_iff]
    exact Iff.rfl

/-- Any other clock keeps the camera or takes it to zero; a frame edge does the latter. -/
theorem unscrolled_of_not_moves {s : State} {i : In} (h : ¬ Ball.moves s.ball (s.ballIn i))
    (hu : Unscrolled s ∨ s.ball.rising i.frameClk = true) : Unscrolled (machine.next s i) := by
  have e : (machine.next s i).ball.regs =
      (Ball.act (s.ball.rising i.frameClk) (s.ballIn i)).apply (s.ballIn i).keycode s.ball.regs :=
    Ball.ff_eq _ _ _
  unfold Unscrolled
  cases ha : Ball.act (s.ball.rising i.frameClk) (s.ballIn i) with
  | move f => exact absurd ⟨f, ha⟩ h
  | restart =>
    rw [e, ha]
    exact ⟨rfl, rfl⟩
  | hold =>
    rw [e, ha]
    refine hu.resolve_right fun he => ?_
    rw [he] at ha
    revert ha
    unfold Ball.act
    cases (s.ballIn i).reset <;> cases (s.ballIn i).gameover <;> cases (s.ballIn i).isCollision1 <;>
      cases (s.ballIn i).isCollision2 <;> cases (s.ballIn i).startSignal <;> simp

/-! ## Runs -/

section
variable (s : State) (inp : ℕ → In)

/-- A menu screen is on at `n`, and has been since before some frame edge. -/
def MenuFrame (n : ℕ) : Prop :=
  ∃ m, m < n ∧ (machine.trace s inp m).ball.rising (inp m).frameClk = true ∧
    ∀ k, m ≤ k → k ≤ n → (machine.trace s inp k).fsm ≠ .ingame

end

variable {s : State} {inp : ℕ → In}

/-- A clock of a menu screen after which it is still on. -/
theorem unscrolled_step {k : ℕ} (hg : MenuGuard (machine.trace s inp k) (inp k))
    (h : (machine.trace s inp k).fsm ≠ .ingame) (h' : (machine.trace s inp (k + 1)).fsm ≠ .ingame)
    (hu : Unscrolled (machine.trace s inp k) ∨ (machine.trace s inp k).ball.rising (inp k).frameClk = true) :
    Unscrolled (machine.trace s inp (k + 1)) := by
  rw [Machine.trace_succ] at h' ⊢
  by_cases hm : Ball.moves (machine.trace s inp k).ball ((machine.trace s inp k).ballIn (inp k))
  · rw [unscrolled_next_iff hm]
    exact hg h (fun hc => h' ((next_ingame_iff h (edge_of_moves hm).1).2 hc)) hm
  · exact unscrolled_of_not_moves hm hu

/-- **The menu screens.** Along a run, from the first frame of a menu screen on, the camera is at zero and the cursor
drawn where it is tested, if and only if at every frame edge that moves the ball on a menu screen each axis either
has offset zero and does not scroll, or its motion is minus its offset. -/
theorem menu_unscrolled_iff (s : State) (inp : ℕ → In) :
    (∀ n, MenuFrame s inp n → Unscrolled (machine.trace s inp n) ∧ CursorInPlace (machine.trace s inp n)) ↔
      ∀ n, MenuGuard (machine.trace s inp n) (inp n) := by
  constructor
  · intro h n hf hc hm
    have hne : (machine.trace s inp (n + 1)).fsm ≠ .ingame := fun e =>
      hc ((next_ingame_iff hf (edge_of_moves hm).1).1 e)
    refine (unscrolled_next_iff hm).1 (h (n + 1) ⟨n, n.lt_succ_self, (edge_of_moves hm).2, fun k h1 h2 => ?_⟩).1
    rcases Nat.le_succ_iff.1 h2 with h2 | rfl
    · obtain rfl := Nat.le_antisymm h2 h1
      exact hf
    · exact hne
  · rintro h n ⟨m, hmn, he, hfsm⟩
    have hu : Unscrolled (machine.trace s inp n) := by
      induction n, hmn using Nat.le_induction with
      | base => exact unscrolled_step (h m) (hfsm m le_rfl m.le_succ) (hfsm (m + 1) m.le_succ le_rfl) (Or.inr he)
      | succ n hmn ih =>
        have hi := ih fun k h1 h2 => hfsm k h1 (by omega)
        exact unscrolled_step (h n) (hfsm n (by omega) n.le_succ) (hfsm (n + 1) (by omega) le_rfl) (Or.inl hi)
    exact ⟨hu, hu.cursorInPlace⟩

/-! ## Out of place -/

def resetState : State := ⟨Ball.resetState, .start⟩

theorem resetState_afterReset : machine.AfterReset In.reset resetState :=
  ⟨resetState, ⟨true, false, 0, false, false, false, 0, 0, false, false⟩, rfl, rfl⟩

/-- A click on the door, a frame edge at which an enemy wins, then right (d). -/
def wander : ℕ → In
  | 0 => ⟨false, false, 0, false, false, false, 361, 250, true, false⟩
  | 1 => ⟨false, true, 0, false, false, true, 0, 0, false, false⟩
  | n + 2 => ⟨false, decide (n % 2 = 1), 0x0007, false, false, false, 0, 0, false, false⟩

theorem wander_over : ∀ n, (machine.trace resetState wander (n + 2)).fsm = .gameoverState
  | 0 => by decide
  | n + 1 => by
    change Gamestate.ff (machine.trace resetState wander (n + 2)).fsm (wander (n + 2)).fsmIn = _
    rw [wander_over n]
    simp [Gamestate.ff, Gamestate.nextState, Gamestate.clickRestart, wander, In.fsmIn]

/-- After forty frames on the game over screen it has scrolled. -/
theorem menu_scrolls : ¬ ∀ s : State, machine.AfterReset In.reset s → ∀ (inp : ℕ → In) (n : ℕ),
    MenuFrame s inp n → Unscrolled (machine.trace s inp n) ∧ CursorInPlace (machine.trace s inp n) := by
  intro h
  have hu := (h resetState resetState_afterReset wander 83 ⟨3, by decide, by decide +kernel, fun k h1 h2 => ?_⟩).1
  · revert hu
    decide +kernel
  · obtain ⟨k, rfl⟩ := Nat.exists_eq_add_of_le' (show 2 ≤ k by omega)
    rw [wander_over]
    decide

end Lab8.Menu
