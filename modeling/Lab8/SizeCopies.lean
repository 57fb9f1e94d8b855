import Lab8.BallRange
import Lab8.RandomBall
/-!
# The two copies of the player's size

`ball` keeps `Ball_Size` for drawing and edges, `random_ball` keeps `bSize` for the food contact radius.
Both follow the same two flags, but `ball` stops at 3 and 10 (ball.sv:119, :138) and `random_ball` at 1
and 10 (random_ball.sv:147, :185), and only `ball` goes back to its initial size on `gameover` and
`start_signal` (ball.sv:93-104, :143-155). `SizeGuard` says at which edges this makes no difference.
-/

namespace Lab8

open Clocked

/-- `ball` and `random_ball` as lab8.sv wires them; what the other modules drive is input. -/
structure Pair where
  ball : EdgeReg Ball.Regs
  food : EdgeReg RandomBall.Regs

namespace Pair

structure In where
  reset : Bool
  frameClk : Bool
  keycode : BitVec 16
  gameover : Bool
  startSignal : Bool
  randomx : BitVec 10
  randomy : BitVec 10

def isCollision1 (p : Pair) : Bool := RandomBall.isCollision1 p.food.regs p.ball.regs.x.pos p.ball.regs.y.pos
def isCollision2 (p : Pair) : Bool := RandomBall.isCollision2 p.food.regs p.ball.regs.x.pos p.ball.regs.y.pos

def ballIn (p : Pair) (i : In) : Ball.In where
  reset := i.reset
  frameClk := i.frameClk
  keycode := i.keycode
  isCollision1 := p.isCollision1
  isCollision2 := p.isCollision2
  gameover := i.gameover
  startSignal := i.startSignal

def foodIn (p : Pair) (i : In) : RandomBall.In where
  reset := i.reset
  frameClk := i.frameClk
  ballX := p.ball.regs.x.pos
  ballY := p.ball.regs.y.pos
  randomx := i.randomx
  randomy := i.randomy
  startSignal := i.startSignal

def machine : Machine In Pair where
  next p i := ⟨Ball.machine.next p.ball (p.ballIn i), RandomBall.machine.next p.food (p.foodIn i)⟩

def Reachable : Pair → Prop := machine.Reachable (machine.AfterReset In.reset)

/-- `Ball_Size` and `bSize` differ by one, as after `Reset`. -/
def InStep (p : Pair) : Prop := p.ball.regs.size = p.food.regs.bSize + 1

instance (p : Pair) : Decidable (InStep p) := inferInstanceAs (Decidable (_ = _))

/-- At a frame edge outside `Reset`: a restart of `ball` finds the copy that `random_ball` ends up with at
4; growing does not find it at 9, where `Ball_Size` is at its limit; shrinking does not find it at 2. -/
def SizeGuard (p : Pair) (i : In) : Prop :=
  p.ball.rising i.frameClk = true → i.reset = false →
    if i.gameover then
      p.food.regs.bSize = if p.isCollision1 then 3 else if p.isCollision2 then 5 else 4
    else if p.isCollision1 then p.food.regs.bSize ≠ 9
    else if p.isCollision2 then p.food.regs.bSize ≠ 2
    else if i.startSignal then p.food.regs.bSize = 4
    else True

end Pair

/-! ## What a frame edge does to each copy -/

theorem Ball.ff_size {i : Ball.In} (h : i.reset = false) (r : Ball.Regs) : (Ball.ff true i r).size =
    if i.gameover then 5
    else if i.isCollision1 then (if r.size ≠ 10 then r.size + 1 else r.size)
    else if i.isCollision2 then (if r.size ≠ 3 then r.size - 1 else r.size)
    else if i.startSignal then 5
    else r.size := by
  have hg : (Ball.grow (Ball.move r i.keycode)).size = if r.size ≠ 10 then r.size + 1 else r.size :=
    Ball.grow_size _
  have hs : (Ball.shrink (Ball.move r i.keycode)).size = if r.size ≠ 3 then r.size - 1 else r.size :=
    Ball.shrink_size _
  rw [← hg, ← hs]
  unfold Ball.ff
  simp only [h, Bool.false_eq_true, if_false, Bool.true_and, if_true]
  cases i.gameover <;> cases i.isCollision1 <;> cases i.isCollision2 <;> cases i.startSignal <;> rfl

theorem RandomBall.ff_bSize {i : RandomBall.In} (h : i.reset = false) (r : RandomBall.Regs) :
    (RandomBall.ff true i r).bSize =
      if RandomBall.isCollision1 r i.ballX i.ballY then (if r.bSize ≠ 10 then r.bSize + 1 else r.bSize)
      else if RandomBall.isCollision2 r i.ballX i.ballY then
        (if r.bSize ≠ 1 then r.bSize - 1 else r.bSize)
      else r.bSize := by
  unfold RandomBall.ff
  simp only [h, Bool.false_eq_true, if_false, Bool.true_and, if_true]
  cases RandomBall.isCollision1 r i.ballX i.ballY <;> cases RandomBall.isCollision2 r i.ballX i.ballY <;>
    cases i.startSignal <;> rfl

namespace Pair

/-! ## The limits -/

section
variable {b : BitVec 10} (h3 : 3 ≤ (b + 1).toNat) (h10 : (b + 1).toNat ≤ 10)
include h3 h10

theorem grow_iff : (if b + 1 ≠ 10 then b + 1 + 1 else b + 1) = (if b ≠ 10 then b + 1 else b) + 1 ↔ b ≠ 9 := by
  by_cases h9 : b = 9
  · subst h9; decide
  · rw [if_pos (by bv_omega), if_pos (by bv_omega)]
    simp only [h9, ne_eq, not_false_eq_true]

theorem shrink_iff : (if b + 1 ≠ 3 then b + 1 - 1 else b + 1) = (if b ≠ 1 then b - 1 else b) + 1 ↔ b ≠ 2 := by
  by_cases h2 : b = 2
  · subst h2; decide
  · rw [if_pos (by bv_omega), if_pos (by bv_omega)]
    simp only [h2, ne_eq, not_false_eq_true, iff_true]
    bv_omega

theorem restart_grow_iff : 5 = (if b ≠ 10 then b + 1 else b) + 1 ↔ b = 3 := by
  rw [if_pos (by bv_omega)]
  constructor <;> intro h <;> bv_omega

theorem restart_shrink_iff : 5 = (if b ≠ 1 then b - 1 else b) + 1 ↔ b = 5 := by
  rw [if_pos (by bv_omega)]
  constructor <;> intro h <;> bv_omega

omit h3 h10 in
theorem restart_iff : 5 = b + 1 ↔ b = 4 := by
  constructor <;> intro h <;> bv_omega

end

/-- What the run carries: the copies in step, `ball`'s own limits, one frame edge for both. -/
structure Coupled (p : Pair) : Prop where
  inStep : InStep p
  sized : Ball.Sized p.ball.regs
  edge : p.ball.delayed = p.food.delayed

theorem sized_next {p : Pair} (h : Ball.Sized p.ball.regs) (i : In) :
    Ball.Sized (machine.next p i).ball.regs :=
  Ball.ff_keeps Ball.sized_init (fun _ k hr => Ball.sized_move hr k) (fun _ f hr => Ball.sized_food hr f)
    _ _ _ h

/-- At a frame edge outside `Reset`, branch by branch. -/
theorem inStep_edge_iff {p : Pair} (h : Coupled p) {i : In} (hr : i.reset = false) :
    (Ball.ff true (p.ballIn i) p.ball.regs).size = (RandomBall.ff true (p.foodIn i) p.food.regs).bSize + 1 ↔
      if i.gameover then
        p.food.regs.bSize = if p.isCollision1 then 3 else if p.isCollision2 then 5 else 4
      else if p.isCollision1 then p.food.regs.bSize ≠ 9
      else if p.isCollision2 then p.food.regs.bSize ≠ 2
      else if i.startSignal then p.food.regs.bSize = 4
      else True := by
  obtain ⟨hs, ⟨-, -, -, z1, z2, -, -⟩, -⟩ := h
  rw [Ball.ff_size (i := p.ballIn i) hr, RandomBall.ff_bSize (i := p.foodIn i) hr]
  change (if i.gameover then 5 else if p.isCollision1 then _ else if p.isCollision2 then _
    else if i.startSignal then _ else _) = (if p.isCollision1 then _ else if p.isCollision2 then _
    else _) + 1 ↔ _
  unfold InStep at hs
  rw [hs] at z1 z2 ⊢
  generalize p.food.regs.bSize = b at z1 z2 ⊢
  cases i.gameover with
  | true =>
    cases p.isCollision1
    · cases p.isCollision2
      · simpa using restart_iff
      · simpa using restart_shrink_iff z1 z2
    · simpa using restart_grow_iff z1 z2
  | false =>
    cases p.isCollision1
    · cases p.isCollision2
      · cases i.startSignal
        · simp
        · simpa using restart_iff
      · simpa using shrink_iff z1 z2
    · simpa using grow_iff z1 z2

/-- A step keeps the copies in step exactly when it meets the guard. -/
theorem inStep_next_iff {p : Pair} (h : Coupled p) (i : In) : InStep (machine.next p i) ↔ SizeGuard p i := by
  have eb : (machine.next p i).ball.regs = Ball.ff (p.ball.rising i.frameClk) (p.ballIn i) p.ball.regs := rfl
  have ef : (machine.next p i).food.regs =
      RandomBall.ff (p.ball.rising i.frameClk) (p.foodIn i) p.food.regs := by
    unfold EdgeReg.rising; rw [h.edge]; rfl
  unfold InStep SizeGuard
  rw [eb, ef]
  cases hr : i.reset with
  | true =>
    rw [Ball.ff_reset (i := p.ballIn i) hr, RandomBall.ff_reset (i := p.foodIn i) hr]
    exact ⟨fun _ _ h' => absurd h' (by decide), fun _ => by decide⟩
  | false =>
    cases p.ball.rising i.frameClk with
    | false =>
      rw [Ball.ff_hold (i := p.ballIn i) hr, RandomBall.ff_hold (i := p.foodIn i) hr]
      exact ⟨fun _ h' => absurd h' (by decide), fun _ => h.inStep⟩
    | true =>
      rw [inStep_edge_iff h hr]
      exact ⟨fun hg _ _ => hg, fun hg => hg rfl rfl⟩

/-- **The two sizes.** Along a run from `Reset` the copies stay in step if and only if every frame edge
meets the guard. -/
theorem sizes_iff {p : Pair} (hp : machine.AfterReset In.reset p) (inp : ℕ → In) :
    (∀ n, InStep (machine.trace p inp n)) ↔ ∀ n, SizeGuard (machine.trace p inp n) (inp n) := by
  refine Machine.trace_guard_iff (M := machine) (P := Coupled) (A := InStep) (C := SizeGuard)
    (fun _ h => h.inStep) (fun _ i h => inStep_next_iff h i)
    (fun _ i h hA => ⟨hA, sized_next h.sized i, rfl⟩) ?_ inp
  obtain ⟨p₀, i, hr, rfl⟩ := hp
  have eb : (machine.next p₀ i).ball.regs = Ball.init := Ball.ff_reset (i := p₀.ballIn i) hr _ _
  have ef : (machine.next p₀ i).food.regs = RandomBall.init := RandomBall.ff_reset (i := p₀.foodIn i) hr _ _
  refine ⟨?_, ?_, rfl⟩
  · unfold InStep; rw [eb, ef]; decide
  · rw [eb]; exact Ball.sized_init

/-! ## A run that separates them -/

def resetState : Pair := ⟨⟨Ball.init, false⟩, ⟨RandomBall.init, false⟩⟩

/-- One clock with a key held, away from the menu. -/
def quiet (keycode : BitVec 16) (frameClk : Bool) : In := ⟨false, frameClk, keycode, false, false, 0, 0⟩

def frame (keycode : BitVec 16) : List In := [quiet keycode false, quiet keycode true]

theorem resetState_afterReset : machine.AfterReset In.reset resetState :=
  ⟨resetState, { quiet 0 false with reset := true }, rfl, rfl⟩

theorem resetState_reachable : Reachable resetState := .init resetState_afterReset

/-- Up and left (aw) for six frames and up (w) for forty, to slot 9 at (300, 99); then `gameover`. -/
def eatAndLose : List In :=
  (List.replicate 6 0x041A#16 ++ List.replicate 40 0x001A#16).flatMap frame ++
    [quiet 0 false, { quiet 0 true with gameover := true }]

theorem sizes_separate : ¬ ∀ p : Pair, Reachable p → InStep p := by
  intro h
  have hp := h _ (resetState_reachable.run eatAndLose)
  revert hp
  decide +kernel

/-- The same with a frame between the food and `gameover`. -/
def eatThenLose : List In :=
  (List.replicate 6 0x041A#16 ++ List.replicate 41 0x001A#16).flatMap frame ++
    [quiet 0 false, { quiet 0 true with gameover := true }]

/-- The food leaves the copies in step, and the guard fails after it. -/
theorem sizes_iff_eatThenLose :
    ((machine.run resetState (eatThenLose.take 94)).food.regs.bSize = 3 ∧
      InStep (machine.run resetState (eatThenLose.take 94))) ∧
    ¬ ∀ n, SizeGuard (machine.trace resetState (fun n => eatThenLose.getD n (quiet 0 false)) n)
      (eatThenLose.getD n (quiet 0 false)) := by
  refine ⟨by decide +kernel, (sizes_iff resetState_afterReset _).not.1 fun h => ?_⟩
  have hs := h 96
  rw [Machine.trace_getD _ _ _ _ _ (by decide +kernel)] at hs
  revert hs
  decide +kernel

end Pair

end Lab8
