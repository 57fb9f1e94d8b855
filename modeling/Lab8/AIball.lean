import Lab8.Lib.Clocked
import Lab8.Lib.Word
/-!
# The bouncing ball: module `AIball` (AIball.sv)

The same edge chain as the enemies, and a response to the player that reverses the X motion. The last
two arms of that response (:115-118) are dead: the sign bit of the X motion is 0 or 1.
-/

namespace Lab8.AIball

open Clocked

structure Regs where
  xPos : BitVec 10
  yPos : BitVec 10
  xMotion : BitVec 10
  yMotion : BitVec 10
  size : BitVec 10
deriving DecidableEq, Repr

structure In where
  reset : Bool
  frameClk : Bool
  ballX : BitVec 10
  ballY : BitVec 10
  size : BitVec 10

structure Motion where
  x : BitVec 10
  y : BitVec 10
deriving DecidableEq, Repr

def xCenter : BitVec 10 := 320
def yCenter : BitVec 10 := 120
def xMin : BitVec 10 := 0
def xMax : BitVec 10 := 639
def yMin : BitVec 10 := 0
def yMax : BitVec 10 := 479

/-- `aiBall_X_Step` and `aiBall_Y_Step`, never written. -/
def step : BitVec 10 := 1

/-- `(BallX-aiBall_X_Pos)² + (BallY-aiBall_Y_Pos)² <= (6+size)²` (:110). -/
def contact (r : Regs) (ballX ballY size : BitVec 10) : Prop :=
  Word.sqDist32 ballX ballY r.xPos r.yPos ≤
    (BitVec.ofNat 32 6 + size.setWidth 32) * (BitVec.ofNat 32 6 + size.setWidth 32)

instance (r : Regs) (ballX ballY size : BitVec 10) : Decidable (contact r ballX ballY size) :=
  inferInstanceAs (Decidable (_ ≤ _))

/-- `aiBall_X_Motion_in`, `aiBall_Y_Motion_in` (:97-126). -/
def motionIn (r : Regs) (i : In) : Motion :=
  let m : Motion := ⟨r.xMotion, r.yMotion⟩
  if r.yPos + r.size ≥ yMax then { m with y := ~~~step + 1 }
  else if r.yPos ≤ yMin + r.size then { m with y := step }
  else if r.xPos + r.size ≥ xMax then { m with x := ~~~step + 1 }
  else if r.xPos ≤ xMin + r.size then { m with x := step }
  else if contact r i.ballX i.ballY i.size then
    if r.xMotion.getLsbD 9 = false then { m with x := ~~~step + 1 }
    else if r.xMotion.getLsbD 9 = true then { m with x := step }
    else if r.yMotion.getLsbD 9 = false then { m with y := ~~~step + 1 }
    else if r.yMotion.getLsbD 9 = true then { m with y := step }
    else m
  else m

/-- `is_aiball` (:131-134): the `int` distances meet the unsigned `aiBall_Size`. -/
def isAiball (r : Regs) (drawX drawY : BitVec 10) : Bool :=
  decide (Word.sqDist32 drawX drawY r.xPos r.yPos ≤ r.size.setWidth 32 * r.size.setWidth 32)

def init : Regs := ⟨xCenter, yCenter, 0, step, 6⟩

/-- The second `always_ff` (:64-86). -/
def ff (rising : Bool) (i : In) (r : Regs) : Regs :=
  if i.reset then init
  else if rising then
    { r with
      xPos := r.xPos + r.xMotion
      yPos := r.yPos + r.yMotion
      xMotion := (motionIn r i).x
      yMotion := (motionIn r i).y }
  else r

def machine : Machine In (EdgeReg Regs) := EdgeReg.machine In.frameClk ff

/-- Off the frame edge the bank holds. -/
theorem ff_hold {i : In} (h : i.reset = false) (r : Regs) : ff false i r = r := by
  simp [ff, h]

end Lab8.AIball
