import Lab8.Lib.Clocked
import Lab8.Lib.Word
/-!
# The player: module `ball` (ball.sv)

| here | there |
| --- | --- |
| `AxisRegs`      | `Ball_X_Pos`, `Ball_X_Step`, `Ball_X_Motion`, `progressx` (ball.sv:46-54) and the Y copies |
| `Axis`          | the constants an axis is compared with (ball.sv:40-45, :462-490); `xAxis`, `yAxis` |
| `motionIn`      | the `case` on the keycode (ball.sv:184-452) |
| `edgeElse`      | the five-way `if` that its branches repeat (ball.sv:198-206 and its copies) |
| `keyBranch`     | what each of the branches does besides (`motionIn_eq`) |
| `Axis.progressIn` | the camera update (ball.sv:462-490) |
| `ff`            | the second `always_ff` (ball.sv:77-170) |

Every register is 10 bits wide and so is every sum in the comparisons: both sides are 10-bit
operands, so `Ball_X_Pos + Ball_Size >= Ball_X_Max + progressx` wraps at 1024 on either side.
-/

namespace Lab8.Ball

open Clocked

/-- The registers of one axis. -/
structure AxisRegs where
  pos : BitVec 10
  step : BitVec 10
  motion : BitVec 10
  progress : BitVec 10
deriving DecidableEq, Repr

/-- The constants of one axis. `ahead` and `limit` guard the camera's way out, `behind` and `floor`
its way back. -/
structure Axis where
  center : BitVec 10
  min : BitVec 10
  max : BitVec 10
  ahead : BitVec 10
  limit : BitVec 10
  behind : BitVec 10
  floor : BitVec 10

def xAxis : Axis where
  center := 320
  min := 0
  max := 639
  ahead := 400
  limit := 639
  behind := 200
  floor := 200

def yAxis : Axis where
  center := 240
  min := 0
  max := 479
  ahead := 250
  limit := 479
  behind := 100
  floor := 100

structure Regs where
  x : AxisRegs
  y : AxisRegs
  size : BitVec 10
deriving DecidableEq, Repr

structure In where
  reset : Bool
  frameClk : Bool
  keycode : BitVec 16
  isCollision1 : Bool
  isCollision2 : Bool
  gameover : Bool
  startSignal : Bool
deriving DecidableEq, Repr

/-! ## Edge tests -/

namespace Axis

/-- Bottom or right: `Pos + Size >= Max + progress`. -/
def farEdge (g : Axis) (size : BitVec 10) (a : AxisRegs) : Prop := a.pos + size ≥ g.max + a.progress

/-- Top or left: `Pos <= Min + Size + progress`. -/
def nearEdge (g : Axis) (size : BitVec 10) (a : AxisRegs) : Prop := a.pos ≤ g.min + size + a.progress

instance (g : Axis) (size : BitVec 10) (a : AxisRegs) : Decidable (g.farEdge size a) :=
  inferInstanceAs (Decidable (_ ≤ _))

instance (g : Axis) (size : BitVec 10) (a : AxisRegs) : Decidable (g.nearEdge size a) :=
  inferInstanceAs (Decidable (_ ≤ _))

/-- `progressx_in`, `progressy_in` (ball.sv:462-490). -/
def progressIn (g : Axis) (a : AxisRegs) : BitVec 10 :=
  if a.pos ≥ a.progress + g.ahead then
    if a.motion.getLsbD 9 = false ∧ a.pos ≤ g.limit then a.progress + a.motion else a.progress
  else if a.pos ≤ a.progress + g.behind then
    if a.motion.getLsbD 9 = true ∧ a.pos ≥ g.floor then a.progress + a.motion else a.progress
  else a.progress

/-- The axis after `Reset`, `gameover` or `start_signal`. -/
def init (g : Axis) : AxisRegs := ⟨g.center, 3, 0, 0⟩

/-- The axis once `Pos_in`, `progress_in` and a new motion are committed. -/
def move (g : Axis) (a : AxisRegs) (motionIn : BitVec 10) : AxisRegs :=
  { a with pos := a.pos + a.motion, motion := motionIn, progress := g.progressIn a }

end Axis

def bottomEdge (r : Regs) : Prop := yAxis.farEdge r.size r.y
def topEdge (r : Regs) : Prop := yAxis.nearEdge r.size r.y
def rightEdge (r : Regs) : Prop := xAxis.farEdge r.size r.x
def leftEdge (r : Regs) : Prop := xAxis.nearEdge r.size r.x

instance (r : Regs) : Decidable (bottomEdge r) := inferInstanceAs (Decidable (yAxis.farEdge _ _))
instance (r : Regs) : Decidable (topEdge r) := inferInstanceAs (Decidable (yAxis.nearEdge _ _))
instance (r : Regs) : Decidable (rightEdge r) := inferInstanceAs (Decidable (xAxis.farEdge _ _))
instance (r : Regs) : Decidable (leftEdge r) := inferInstanceAs (Decidable (xAxis.nearEdge _ _))

/-! ## The keycode case -/

structure Motion where
  x : BitVec 10
  y : BitVec 10
deriving DecidableEq, Repr

/-- `Ball_X_Motion_in`, `Ball_Y_Motion_in` (ball.sv:184-452), the sixteen branches and the default as they stand there. -/
def motionIn (r : Regs) (keycode : BitVec 16) : Motion :=
  let m : Motion := ⟨r.x.motion, r.y.motion⟩
  if keycode = 0x001A then -- up w
    let m := { m with x := 0 }
    if r.y.pos + r.size ≥ 479 + r.y.progress then { m with y := ~~~r.y.step + 1 }
    else if r.y.pos ≤ 0 + r.size + r.y.progress then { m with y := r.y.step }
    else if r.x.pos + r.size ≥ 639 + r.x.progress then { m with x := ~~~r.x.step + 1 }
    else if r.x.pos ≤ 0 + r.size + r.x.progress then { m with x := r.x.step }
    else { m with y := ~~~r.y.step + 1 }
  else if keycode = 0x1A00 then
    let m := { m with x := 0 }
    if r.y.pos + r.size ≥ 479 + r.y.progress then { m with y := ~~~r.y.step + 1 }
    else if r.y.pos ≤ 0 + r.size + r.y.progress then { m with y := r.y.step }
    else if r.x.pos + r.size ≥ 639 + r.x.progress then { m with x := ~~~r.x.step + 1 }
    else if r.x.pos ≤ 0 + r.size + r.x.progress then { m with x := r.x.step }
    else { m with y := ~~~r.y.step + 1 }
  else if keycode = 0x0016 then -- down s
    let m := { m with x := 0 }
    if r.y.pos + r.size ≥ 479 + r.y.progress then { m with y := ~~~r.y.step + 1 }
    else if r.y.pos ≤ 0 + r.size + r.y.progress then { m with y := r.y.step }
    else if r.x.pos + r.size ≥ 639 + r.x.progress then { m with x := ~~~r.x.step + 1 }
    else if r.x.pos ≤ 0 + r.size + r.x.progress then { m with x := r.x.step }
    else { m with y := r.y.step }
  else if keycode = 0x1600 then
    let m := { m with x := 0 }
    if r.y.pos + r.size ≥ 479 + r.y.progress then { m with y := ~~~r.y.step + 1 }
    else if r.y.pos ≤ 0 + r.size + r.y.progress then { m with y := r.y.step }
    else if r.x.pos + r.size ≥ 639 + r.x.progress then { m with x := ~~~r.x.step + 1 }
    else if r.x.pos ≤ 0 + r.size + r.x.progress then { m with x := r.x.step }
    else { m with y := r.y.step }
  else if keycode = 0x0004 then -- left a
    let m := { m with y := 0 }
    if r.y.pos + r.size ≥ 479 + r.y.progress then { m with y := ~~~r.y.step + 1 }
    else if r.y.pos ≤ 0 + r.size + r.y.progress then { m with y := r.y.step }
    else if r.x.pos + r.size ≥ 639 + r.x.progress then { m with x := ~~~r.x.step + 1 }
    else if r.x.pos ≤ 0 + r.size + r.x.progress then { m with x := r.x.step }
    else { m with x := ~~~r.x.step + 1 }
  else if keycode = 0x0400 then
    let m := { m with y := 0 }
    if r.y.pos + r.size ≥ 479 + r.y.progress then { m with y := ~~~r.y.step + 1 }
    else if r.y.pos ≤ 0 + r.size + r.y.progress then { m with y := r.y.step }
    else if r.x.pos + r.size ≥ 639 + r.x.progress then { m with x := ~~~r.x.step + 1 }
    else if r.x.pos ≤ 0 + r.size + r.x.progress then { m with x := r.x.step }
    else { m with x := ~~~r.x.step + 1 }
  else if keycode = 0x0007 then -- right d
    let m := { m with y := 0 }
    if r.y.pos + r.size ≥ 479 + r.y.progress then { m with y := ~~~r.y.step + 1 }
    else if r.y.pos ≤ 0 + r.size + r.y.progress then { m with y := r.y.step }
    else if r.x.pos + r.size ≥ 639 + r.x.progress then { m with x := ~~~r.x.step + 1 }
    else if r.x.pos ≤ 0 + r.size + r.x.progress then { m with x := r.x.step }
    else { m with x := r.x.step }
  else if keycode = 0x0700 then
    let m := { m with y := 0 }
    if r.y.pos + r.size ≥ 479 + r.y.progress then { m with y := ~~~r.y.step + 1 }
    else if r.y.pos ≤ 0 + r.size + r.y.progress then { m with y := r.y.step }
    else if r.x.pos + r.size ≥ 639 + r.x.progress then { m with x := ~~~r.x.step + 1 }
    else if r.x.pos ≤ 0 + r.size + r.x.progress then { m with x := r.x.step }
    else { m with x := r.x.step }
  else if keycode = 0x1A07 then -- upright wd
    if r.y.pos + r.size ≥ 479 + r.y.progress then { m with y := ~~~r.y.step + 1 }
    else if r.y.pos ≤ 0 + r.size + r.y.progress then { m with y := r.y.step }
    else if r.x.pos + r.size ≥ 639 + r.x.progress then { m with x := ~~~r.x.step + 1 }
    else if r.x.pos ≤ 0 + r.size + r.x.progress then { m with x := r.x.step }
    else ⟨r.x.step, ~~~r.y.step + 1⟩
  else if keycode = 0x071A then
    if r.y.pos + r.size ≥ 479 + r.y.progress then { m with y := ~~~r.y.step + 1 }
    else if r.y.pos ≤ 0 + r.size + r.y.progress then { m with y := r.y.step }
    else if r.x.pos + r.size ≥ 639 + r.x.progress then { m with x := ~~~r.x.step + 1 }
    else if r.x.pos ≤ 0 + r.size + r.x.progress then { m with x := r.x.step }
    else ⟨r.x.step, ~~~r.y.step + 1⟩
  else if keycode = 0x041A then -- upleft aw
    if r.y.pos + r.size ≥ 479 + r.y.progress then { m with y := ~~~r.y.step + 1 }
    else if r.y.pos ≤ 0 + r.size + r.y.progress then { m with y := r.y.step }
    else if r.x.pos + r.size ≥ 639 + r.x.progress then { m with x := ~~~r.x.step + 1 }
    else if r.x.pos ≤ 0 + r.size + r.x.progress then { m with x := r.x.step }
    else ⟨~~~r.x.step + 1, ~~~r.y.step + 1⟩
  else if keycode = 0x1A04 then
    if r.y.pos + r.size ≥ 479 + r.y.progress then { m with y := ~~~r.y.step + 1 }
    else if r.y.pos ≤ 0 + r.size + r.y.progress then { m with y := r.y.step }
    else if r.x.pos + r.size ≥ 639 + r.x.progress then { m with x := ~~~r.x.step + 1 }
    else if r.x.pos ≤ 0 + r.size + r.x.progress then { m with x := r.x.step }
    else ⟨~~~r.x.step + 1, ~~~r.y.step + 1⟩
  else if keycode = 0x1604 then -- downleft sa
    if r.y.pos + r.size ≥ 479 + r.y.progress then { m with y := ~~~r.y.step + 1 }
    else if r.y.pos ≤ 0 + r.size + r.y.progress then { m with y := r.y.step }
    else if r.x.pos + r.size ≥ 639 + r.x.progress then { m with x := ~~~r.x.step + 1 }
    else if r.x.pos ≤ 0 + r.size + r.x.progress then { m with x := r.x.step }
    else ⟨~~~r.x.step + 1, r.y.step⟩
  else if keycode = 0x0416 then
    if r.y.pos + r.size ≥ 479 + r.y.progress then { m with y := ~~~r.y.step + 1 }
    else if r.y.pos ≤ 0 + r.size + r.y.progress then { m with y := r.y.step }
    else if r.x.pos + r.size ≥ 639 + r.x.progress then { m with x := ~~~r.x.step + 1 }
    else if r.x.pos ≤ 0 + r.size + r.x.progress then { m with x := r.x.step }
    else ⟨~~~r.x.step + 1, r.y.step⟩
  else if keycode = 0x0716 then -- downright sd
    if r.y.pos + r.size ≥ 479 + r.y.progress then { m with y := ~~~r.y.step + 1 }
    else if r.y.pos ≤ 0 + r.size + r.y.progress then { m with y := r.y.step }
    else if r.x.pos + r.size ≥ 639 + r.x.progress then { m with x := ~~~r.x.step + 1 }
    else if r.x.pos ≤ 0 + r.size + r.x.progress then { m with x := r.x.step }
    else ⟨r.x.step, r.y.step⟩
  else if keycode = 0x1607 then
    if r.y.pos + r.size ≥ 479 + r.y.progress then { m with y := ~~~r.y.step + 1 }
    else if r.y.pos ≤ 0 + r.size + r.y.progress then { m with y := r.y.step }
    else if r.x.pos + r.size ≥ 639 + r.x.progress then { m with x := ~~~r.x.step + 1 }
    else if r.x.pos ≤ 0 + r.size + r.x.progress then { m with x := r.x.step }
    else ⟨r.x.step, r.y.step⟩
  else
    if r.y.pos + r.size ≥ 479 + r.y.progress then { m with y := ~~~r.y.step + 1 }
    else if r.y.pos ≤ 0 + r.size + r.y.progress then { m with y := r.y.step }
    else if r.x.pos + r.size ≥ 639 + r.x.progress then { m with x := ~~~r.x.step + 1 }
    else if r.x.pos ≤ 0 + r.size + r.x.progress then { m with x := r.x.step }
    else m

/-! What the branches have in common. -/

/-- What the final `else` of a branch assigns to one motion. -/
inductive Drive
  | keep | plus | minus
deriving DecidableEq, Repr

def Drive.apply : Drive → BitVec 10 → BitVec 10 → BitVec 10
  | .keep, _, m => m
  | .plus, step, _ => step
  | .minus, step, _ => ~~~step + 1

/-- A `case` branch: which motions it zeroes before the edge tests, what its final `else` drives. -/
structure KeyBranch where
  zeroX : Bool
  zeroY : Bool
  x : Drive
  y : Drive
deriving DecidableEq, Repr

def keyBranch (keycode : BitVec 16) : KeyBranch :=
  if keycode = 0x001A then ⟨true, false, .keep, .minus⟩       -- up w
  else if keycode = 0x1A00 then ⟨true, false, .keep, .minus⟩
  else if keycode = 0x0016 then ⟨true, false, .keep, .plus⟩   -- down s
  else if keycode = 0x1600 then ⟨true, false, .keep, .plus⟩
  else if keycode = 0x0004 then ⟨false, true, .minus, .keep⟩  -- left a
  else if keycode = 0x0400 then ⟨false, true, .minus, .keep⟩
  else if keycode = 0x0007 then ⟨false, true, .plus, .keep⟩   -- right d
  else if keycode = 0x0700 then ⟨false, true, .plus, .keep⟩
  else if keycode = 0x1A07 then ⟨false, false, .plus, .minus⟩ -- upright wd
  else if keycode = 0x071A then ⟨false, false, .plus, .minus⟩
  else if keycode = 0x041A then ⟨false, false, .minus, .minus⟩ -- upleft aw
  else if keycode = 0x1A04 then ⟨false, false, .minus, .minus⟩
  else if keycode = 0x1604 then ⟨false, false, .minus, .plus⟩ -- downleft sa
  else if keycode = 0x0416 then ⟨false, false, .minus, .plus⟩
  else if keycode = 0x0716 then ⟨false, false, .plus, .plus⟩  -- downright sd
  else if keycode = 0x1607 then ⟨false, false, .plus, .plus⟩
  else ⟨false, false, .keep, .keep⟩

/-- The `if` chain every branch ends with: the first true edge test sets its own axis inward, the
branch's own assignment comes last. -/
def edgeElse (r : Regs) (m own : Motion) : Motion :=
  if bottomEdge r then { m with y := ~~~r.y.step + 1 }
  else if topEdge r then { m with y := r.y.step }
  else if rightEdge r then { m with x := ~~~r.x.step + 1 }
  else if leftEdge r then { m with x := r.x.step }
  else own

/-- A branch: what it zeroes, the edge tests, its own assignment. -/
def KeyBranch.motion (b : KeyBranch) (r : Regs) : Motion :=
  let m : Motion := ⟨if b.zeroX then 0 else r.x.motion, if b.zeroY then 0 else r.y.motion⟩
  edgeElse r m ⟨b.x.apply r.x.step m.x, b.y.apply r.y.step m.y⟩

/-- The text and the table. -/
theorem motionIn_eq (r : Regs) (keycode : BitVec 16) : motionIn r keycode = (keyBranch keycode).motion r := by
  unfold keyBranch
  simp only [apply_ite (KeyBranch.motion · r)]
  rfl

/-! ## The registers -/

def init : Regs := ⟨xAxis.init, yAxis.init, 5⟩

/-- Commit `Pos_in`, `Motion_in` and `progress_in`. -/
def move (r : Regs) (keycode : BitVec 16) : Regs :=
  { r with
    x := xAxis.move r.x (motionIn r keycode).x
    y := yAxis.move r.y (motionIn r keycode).y }

/-- The `is_collision1` branch on step and size (ball.sv:114-120). -/
def grow (r : Regs) : Regs :=
  let r := if r.x.step ≠ 1 ∧ r.y.step ≠ 1 then
      { r with x := { r.x with step := r.x.step - 1 }, y := { r.y with step := r.y.step - 1 } }
    else r
  if r.size ≠ 10 then { r with size := r.size + 1 } else r

/-- The `is_collision2` branch on step and size (ball.sv:133-140). -/
def shrink (r : Regs) : Regs :=
  let r := if r.x.step ≠ 4 ∧ r.y.step ≠ 4 then
      { r with x := { r.x with step := r.x.step + 1 }, y := { r.y with step := r.y.step + 1 } }
    else r
  if r.size ≠ 3 then { r with size := r.size - 1 } else r

/-- The second `always_ff` (ball.sv:77-170), `rising` being `frame_clk_rising_edge`. -/
def ff (rising : Bool) (i : In) (r : Regs) : Regs :=
  if i.reset then init
  else if rising && i.gameover then init
  else if rising && i.isCollision1 then grow (move r i.keycode)
  else if rising && i.isCollision2 then shrink (move r i.keycode)
  else if rising && i.startSignal then init
  else if rising then move r i.keycode
  else r

def machine : Machine In (EdgeReg Regs) := EdgeReg.machine In.frameClk ff

/-- The states of `ball` reachable from `Reset`. -/
def Reachable : EdgeReg Regs → Prop := machine.Reachable (machine.AfterReset In.reset)

/-- `is_ball` (ball.sv:59-62, :455-458): signed 32-bit arithmetic on zero-extended operands. -/
def isBall (r : Regs) (drawX drawY : BitVec 10) : Bool :=
  (Word.sqDist32 drawX drawY r.x.pos r.y.pos).sle (r.size.setWidth 32 * r.size.setWidth 32)

/-! ## What one clock can do -/

inductive Food
  | none | grow | shrink
deriving DecidableEq, Repr

def Food.apply : Food → Regs → Regs
  | .none, r => r
  | .grow, r => Ball.grow r
  | .shrink, r => Ball.shrink r

/-- The three things a clock does to the bank: nothing, a fresh start, or one frame of movement. -/
inductive Act
  | hold | restart | move (food : Food)
deriving DecidableEq, Repr

def act (rising : Bool) (i : In) : Act :=
  if i.reset then .restart
  else if !rising then .hold
  else if i.gameover then .restart
  else if i.isCollision1 then .move .grow
  else if i.isCollision2 then .move .shrink
  else if i.startSignal then .restart
  else .move .none

def Act.apply : Act → BitVec 16 → Regs → Regs
  | .hold, _, r => r
  | .restart, _, _ => init
  | .move f, k, r => f.apply (Ball.move r k)

/-- The priority chain of the `always_ff` is a choice between three actions. -/
theorem ff_eq (rising : Bool) (i : In) (r : Regs) : ff rising i r = (act rising i).apply i.keycode r := by
  unfold ff act
  cases rising
  · cases i.reset <;> simp [Act.apply]
  · cases i.reset <;> cases i.gameover <;> cases i.isCollision1 <;> cases i.isCollision2 <;>
      cases i.startSignal <;> simp [Act.apply, Food.apply]

/-- An invariant of the bank: it holds of `init`, one frame of movement keeps it and so do both foods. -/
theorem ff_keeps {P : Regs → Prop} (h0 : P init) (hmove : ∀ r k, P r → P (move r k))
    (hfood : ∀ r f, P r → P (Food.apply f r)) (b : Bool) (i : In) (r : Regs) (h : P r) : P (ff b i r) := by
  rw [ff_eq]
  cases act b i with
  | hold => exact h
  | restart => exact h0
  | move f => exact hfood _ f (hmove r _ h)

theorem ff_reset {i : In} (h : i.reset = true) (b : Bool) (r : Regs) : ff b i r = init := by
  simp [ff, h]

/-- Off the frame edge the bank holds. -/
theorem ff_hold {i : In} (h : i.reset = false) (r : Regs) : ff false i r = r := by
  simp [ff, h]

theorem Reachable.regs_invariant {P : Regs → Prop} (h0 : P init) (hmove : ∀ r k, P r → P (move r k))
    (hfood : ∀ r f, P r → P (Food.apply f r)) {s : EdgeReg Regs} (h : Reachable s) : P s.regs := by
  refine EdgeReg.invariant In.reset (fun b i r hr => ?_) (fun b i r hp => ?_) h
  · rw [ff_reset hr]; exact h0
  · exact ff_keeps h0 hmove hfood b i r hp

/-! ## Frames without events -/

/-- One clock with a key held and nothing else going on. -/
def quiet (keycode : BitVec 16) (frameClk : Bool) : In :=
  ⟨false, frameClk, keycode, false, false, false, false⟩

/-- A whole frame: `frame_clk` low, then high. -/
def frame (keycode : BitVec 16) : List In := [quiet keycode false, quiet keycode true]

theorem next_quiet (s : EdgeReg Regs) (keycode : BitVec 16) : (machine.next s (quiet keycode false)).regs = s.regs :=
  ff_hold (i := quiet keycode false) rfl s.regs

/-- A sequence of keys, one a frame, moves the ball once for each. -/
theorem run_frames : ∀ (ks : List (BitVec 16)) (s : EdgeReg Regs),
    (machine.run s (ks.flatMap frame)).regs = ks.foldl move s.regs
  | [], _ => rfl
  | k :: ks, s => by
    have e : machine.run s (frame k) = ⟨move s.regs k, true⟩ := EdgeReg.run_pulse rfl rfl s rfl
    rw [List.flatMap_cons, Machine.run_append, e, run_frames ks, List.foldl_cons]

/-- The bank after a reset clock that found `frame_clk` low. -/
def resetState : EdgeReg Regs := ⟨init, false⟩

theorem resetState_afterReset : machine.AfterReset In.reset resetState :=
  ⟨resetState, { quiet 0 false with reset := true }, rfl, rfl⟩

theorem resetState_reachable : Reachable resetState := .init resetState_afterReset

end Lab8.Ball
