import Lab8.Lib.Clocked
import Lab8.Lib.Word
/-!
# The enemies: modules `enemy_ball1`, `enemy_ball2`, `enemy_ball3` (enemy_ball.sv)

The three modules are copies of one text. They differ in the values collected in `Enemy`, and in
which motion the `start_signal` branch leaves alone: the X motion is zeroed and the Y motion kept in
`enemy_ball1` (:94-95), both are zeroed in `enemy_ball2` (:371-372), the X motion is kept and the Y
motion zeroed in `enemy_ball3` (:644-645).

| here | there (line numbers of `enemy_ball1`) |
| --- | --- |
| `comb`        | the `always_comb` (enemy_ball.sv:114-254) |
| `toward`, `away` | the two nine-way tables (:147-194, :195-243) |
| `ff`          | the second `always_ff` (:68-110) |

`Ball_X_Step` and `Ball_Y_Step` are registers nobody writes: they stay at their initial value 1. The
contact test (:133) meets an unsized literal, so it is computed in 32 bits, unsigned.
-/

namespace Lab8.EnemyBall

open Clocked

structure Regs where
  xPos : BitVec 10
  yPos : BitVec 10
  xMotion : BitVec 10
  yMotion : BitVec 10
  size : BitVec 10
  escore : BitVec 16
deriving DecidableEq, Repr

structure In where
  reset : Bool
  frameClk : Bool
  X : BitVec 10
  Y : BitVec 10
  size : BitVec 10
  startSignal : Bool
deriving DecidableEq, Repr

structure Motion where
  x : BitVec 10
  y : BitVec 10
deriving DecidableEq, Repr

/-- What tells the three copies apart. `radius` is `Ball_Size` as reset and the literal of the
contact and size tests, `equalSpeed` the motion set when the centres coincide. -/
structure Enemy where
  radius : ℕ
  xMin : BitVec 10
  xMax : BitVec 10
  yMin : BitVec 10
  yMax : BitVec 10
  xCenter : BitVec 10
  yCenter : BitVec 10
  equalSpeed : BitVec 10
  /-- The motions the `start_signal` branch leaves, from those before it. -/
  startMotion : Motion → Motion

def enemyBall1 : Enemy where
  radius := 6
  xMin := 0
  xMax := 1000
  yMin := 0
  yMax := 800
  xCenter := 2
  yCenter := 2
  equalSpeed := 4
  startMotion := fun m => ⟨0, m.y⟩

def enemyBall2 : Enemy where
  radius := 7
  xMin := 0
  xMax := 100
  yMin := 0
  yMax := 800
  xCenter := 600
  yCenter := 400
  equalSpeed := 3
  startMotion := fun _ => ⟨0, 0⟩

def enemyBall3 : Enemy where
  radius := 8
  xMin := 0
  xMax := 1000
  yMin := 0
  yMax := 800
  xCenter := 800
  yCenter := 0
  equalSpeed := 5
  startMotion := fun m => ⟨m.x, 0⟩

/-- The enemies instantiated in lab8.sv. -/
def enemies : List Enemy := [enemyBall1, enemyBall2, enemyBall3]

/-- `Ball_X_Step` and `Ball_Y_Step`. -/
def step : BitVec 10 := 1

/-! ## Edge and contact tests -/

def bottomEdge (E : Enemy) (r : Regs) : Prop := r.yPos + r.size ≥ E.yMax
def topEdge (E : Enemy) (r : Regs) : Prop := r.yPos ≤ E.yMin + r.size
def rightEdge (E : Enemy) (r : Regs) : Prop := r.xPos + r.size ≥ E.xMax
def leftEdge (E : Enemy) (r : Regs) : Prop := r.xPos ≤ E.xMin + r.size

instance (E : Enemy) (r : Regs) : Decidable (bottomEdge E r) := inferInstanceAs (Decidable (_ ≤ _))
instance (E : Enemy) (r : Regs) : Decidable (topEdge E r) := inferInstanceAs (Decidable (_ ≤ _))
instance (E : Enemy) (r : Regs) : Decidable (rightEdge E r) := inferInstanceAs (Decidable (_ ≤ _))
instance (E : Enemy) (r : Regs) : Decidable (leftEdge E r) := inferInstanceAs (Decidable (_ ≤ _))

/-- `(BallX-X)² + (BallY-Y)² <= (r+size)²` (:133). -/
def contact (E : Enemy) (r : Regs) (X Y size : BitVec 10) : Prop :=
  Word.sqDist32 r.xPos r.yPos X Y ≤
    (BitVec.ofNat 32 E.radius + size.setWidth 32) * (BitVec.ofNat 32 E.radius + size.setWidth 32)

instance (E : Enemy) (r : Regs) (X Y size : BitVec 10) : Decidable (contact E r X Y size) :=
  inferInstanceAs (Decidable (_ ≤ _))

/-! ## Next motion and outputs -/

/-- `size < r`: get closer to the ball (:147-194). -/
def toward (E : Enemy) (r : Regs) (X Y : BitVec 10) : Motion :=
  if X > r.xPos then
    if Y > r.yPos then ⟨step, step⟩
    else if Y < r.yPos then ⟨step, ~~~step + 1⟩
    else ⟨step, 0⟩
  else if X < r.xPos then
    if Y > r.yPos then ⟨~~~step + 1, step⟩
    else if Y < r.yPos then ⟨~~~step + 1, ~~~step + 1⟩
    else ⟨~~~step + 1, 0⟩
  else
    if Y > r.yPos then ⟨0, step⟩
    else if Y < r.yPos then ⟨0, ~~~step + 1⟩
    else ⟨E.equalSpeed, E.equalSpeed⟩

/-- `size >= r`: get away from the ball (:195-243). -/
def away (E : Enemy) (r : Regs) (X Y : BitVec 10) : Motion :=
  if X > r.xPos then
    if Y > r.yPos then ⟨~~~step + 1, ~~~step + 1⟩
    else if Y < r.yPos then ⟨~~~step + 1, step⟩
    else ⟨~~~step + 1, 0⟩
  else if X < r.xPos then
    if Y > r.yPos then ⟨step, ~~~step + 1⟩
    else if Y < r.yPos then ⟨step, step⟩
    else ⟨step, 0⟩
  else
    if Y > r.yPos then ⟨0, ~~~step + 1⟩
    else if Y < r.yPos then ⟨0, step⟩
    else ⟨E.equalSpeed, E.equalSpeed⟩

/-- What the `always_comb` drives, `is_eball` apart. -/
structure Comb where
  xPosIn : BitVec 10
  yPosIn : BitVec 10
  motionIn : Motion
  gameover : Bool
  isCollision : Bool
deriving DecidableEq, Repr

def comb (E : Enemy) (r : Regs) (X Y size : BitVec 10) : Comb :=
  let d : Comb := ⟨r.xPos + r.xMotion, r.yPos + r.yMotion, ⟨r.xMotion, r.yMotion⟩, false, false⟩
  if bottomEdge E r then { d with motionIn := ⟨r.xMotion, ~~~step + 1⟩ }
  else if topEdge E r then { d with motionIn := ⟨r.xMotion, step⟩ }
  else if rightEdge E r then { d with motionIn := ⟨~~~step + 1, r.yMotion⟩ }
  else if leftEdge E r then { d with motionIn := ⟨step, r.yMotion⟩ }
  else if contact E r X Y size then
    if size.toNat > E.radius then { d with xPosIn := 511, yPosIn := 511, isCollision := true }
    else { d with gameover := true }
  else if size.toNat < E.radius then { d with motionIn := toward E r X Y }
  else if size.toNat ≥ E.radius then { d with motionIn := away E r X Y }
  else d

/-- `is_eball` (:248-251), signed 32-bit arithmetic. -/
def isEball (r : Regs) (drawX drawY : BitVec 10) : Bool :=
  (Word.sqDist32 drawX drawY r.xPos r.yPos).sle (r.size.setWidth 32 * r.size.setWidth 32)

/-! ## The registers -/

def init (E : Enemy) : Regs := ⟨E.xCenter, E.yCenter, 0, 0, BitVec.ofNat 10 E.radius, 0⟩

/-- Commit `Pos_in` and `Motion_in`. -/
def move (r : Regs) (c : Comb) : Regs :=
  { r with xPos := c.xPosIn, yPos := c.yPosIn, xMotion := c.motionIn.x, yMotion := c.motionIn.y }

/-- The `start_signal` branch (:90-97). -/
def recentre (E : Enemy) (r : Regs) : Regs :=
  { r with
    xPos := E.xCenter
    yPos := E.yCenter
    xMotion := (E.startMotion ⟨r.xMotion, r.yMotion⟩).x
    yMotion := (E.startMotion ⟨r.xMotion, r.yMotion⟩).y
    escore := 0 }

/-- The second `always_ff` (:68-110). -/
def ff (E : Enemy) (rising : Bool) (i : In) (r : Regs) : Regs :=
  let c := comb E r i.X i.Y i.size
  if i.reset then init E
  else if rising && c.isCollision then { move r c with escore := r.escore + 3 }
  else if rising && i.startSignal then recentre E r
  else if rising then move r c
  else r

def machine (E : Enemy) : Machine In (EdgeReg Regs) := EdgeReg.machine In.frameClk (ff E)

/-- The states of the enemy reachable from `Reset`. -/
def Reachable (E : Enemy) : EdgeReg Regs → Prop :=
  (machine E).Reachable ((machine E).AfterReset In.reset)

theorem ff_reset {E : Enemy} {i : In} (h : i.reset = true) (b : Bool) (r : Regs) : ff E b i r = init E := by
  simp [ff, h]

/-- Off the frame edge the bank holds. -/
theorem ff_hold {E : Enemy} {i : In} (h : i.reset = false) (r : Regs) : ff E false i r = r := by
  simp [ff, h]

/-- The bank after a reset clock that found `frame_clk` low. -/
def resetState (E : Enemy) : EdgeReg Regs := ⟨init E, false⟩

theorem resetState_reachable (E : Enemy) : Reachable E (resetState E) :=
  .init ⟨resetState E, ⟨true, false, 0, 0, 0, false⟩, rfl, rfl⟩

/-- What one clock can do: keep the bank, reset it, recentre it, or commit the combinational block
and perhaps score. -/
theorem ff_cases (E : Enemy) (b : Bool) (i : In) (r : Regs) :
    ff E b i r = r ∨ ff E b i r = init E ∨ ff E b i r = recentre E r ∨
      ∃ score, ff E b i r = { move r (comb E r i.X i.Y i.size) with escore := score } := by
  unfold ff
  simp only
  split
  · exact Or.inr (Or.inl rfl)
  · split
    · exact Or.inr (Or.inr (Or.inr ⟨_, rfl⟩))
    · split
      · exact Or.inr (Or.inr (Or.inl rfl))
      · split
        · exact Or.inr (Or.inr (Or.inr ⟨r.escore, rfl⟩))
        · exact Or.inl rfl

end Lab8.EnemyBall
