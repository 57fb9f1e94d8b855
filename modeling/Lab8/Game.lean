import Lab8.Ball
import Lab8.EnemyBall
import Lab8.RandomBall
import Lab8.AIball
import Lab8.Gamestate
import Lab8.VgaController
/-!
# The wiring: module `lab8` (lab8.sv)

`Game` is the six game-object modules and the menu, all clocked by the 50 MHz `Clk`; the outputs one
module feeds to another (`is_collision1`, `gameover`, `start_signal`, `BallX` ...) depend on registers
only, so one clock edge is one function. `Board` adds `VGA_CLK` (half of `Clk`, lab8.sv:70-76), the
scan it clocks, and the two registered reset buttons (:66-69).

The keyboard, the mouse and the two random generators are inputs here: any value at any clock.
-/

namespace Lab8

open Clocked

structure Game where
  ball : EdgeReg Ball.Regs
  enemy1 : EdgeReg EnemyBall.Regs
  enemy2 : EdgeReg EnemyBall.Regs
  enemy3 : EdgeReg EnemyBall.Regs
  aiball : EdgeReg AIball.Regs
  food : EdgeReg RandomBall.Regs
  fsm : Gamestate.State

namespace Game

structure In where
  reset : Bool
  frameClk : Bool
  keycode : BitVec 16
  mouseX : BitVec 10
  mouseY : BitVec 10
  leftButton : Bool
  rightButton : Bool
  randomx : BitVec 10
  randomy : BitVec 10

/-- The combinational block of one enemy, fed with the player's registers. -/
def enemyComb (g : Game) (E : EnemyBall.Enemy) (e : EdgeReg EnemyBall.Regs) : EnemyBall.Comb :=
  EnemyBall.comb E e.regs g.ball.regs.x.pos g.ball.regs.y.pos g.ball.regs.size

/-- `gameover = gameover1 || gameover2 || gameover3` (lab8.sv:61). -/
def gameover (g : Game) : Bool :=
  (g.enemyComb EnemyBall.enemyBall1 g.enemy1).gameover ||
    (g.enemyComb EnemyBall.enemyBall2 g.enemy2).gameover ||
      (g.enemyComb EnemyBall.enemyBall3 g.enemy3).gameover

def isCollision1 (g : Game) : Bool := RandomBall.isCollision1 g.food.regs g.ball.regs.x.pos g.ball.regs.y.pos
def isCollision2 (g : Game) : Bool := RandomBall.isCollision2 g.food.regs g.ball.regs.x.pos g.ball.regs.y.pos
def startSignal (g : Game) : Bool := Gamestate.startSignal g.fsm

def ballIn (g : Game) (i : In) : Ball.In where
  reset := i.reset
  frameClk := i.frameClk
  keycode := i.keycode
  isCollision1 := g.isCollision1
  isCollision2 := g.isCollision2
  gameover := g.gameover
  startSignal := g.startSignal

def enemyIn (g : Game) (i : In) : EnemyBall.In where
  reset := i.reset
  frameClk := i.frameClk
  X := g.ball.regs.x.pos
  Y := g.ball.regs.y.pos
  size := g.ball.regs.size
  startSignal := g.startSignal

def aiballIn (g : Game) (i : In) : AIball.In where
  reset := i.reset
  frameClk := i.frameClk
  ballX := g.ball.regs.x.pos
  ballY := g.ball.regs.y.pos
  size := g.ball.regs.size

def foodIn (g : Game) (i : In) : RandomBall.In where
  reset := i.reset
  frameClk := i.frameClk
  ballX := g.ball.regs.x.pos
  ballY := g.ball.regs.y.pos
  randomx := i.randomx
  randomy := i.randomy
  startSignal := g.startSignal

def fsmIn (g : Game) (i : In) : Gamestate.In where
  reset := i.reset
  gameover := g.gameover
  mouseX := i.mouseX
  mouseY := i.mouseY
  leftButton := i.leftButton
  rightButton := i.rightButton

/-- One edge of the 50 MHz clock. -/
def machine : Machine In Game where
  next g i :=
    { ball := Ball.machine.next g.ball (g.ballIn i)
      enemy1 := (EnemyBall.machine EnemyBall.enemyBall1).next g.enemy1 (g.enemyIn i)
      enemy2 := (EnemyBall.machine EnemyBall.enemyBall2).next g.enemy2 (g.enemyIn i)
      enemy3 := (EnemyBall.machine EnemyBall.enemyBall3).next g.enemy3 (g.enemyIn i)
      aiball := AIball.machine.next g.aiball (g.aiballIn i)
      food := RandomBall.machine.next g.food (g.foodIn i)
      fsm := Gamestate.ff g.fsm (g.fsmIn i) }

/-! ## One frame edge for all modules -/

/-- All modules remember the same `frame_clk`. -/
structure EdgesAgree (g : Game) : Prop where
  enemy1 : g.enemy1.delayed = g.ball.delayed
  enemy2 : g.enemy2.delayed = g.ball.delayed
  enemy3 : g.enemy3.delayed = g.ball.delayed
  aiball : g.aiball.delayed = g.ball.delayed
  food : g.food.delayed = g.ball.delayed

theorem edgesAgree_next (g : Game) (i : In) : EdgesAgree (machine.next g i) := ⟨rfl, rfl, rfl, rfl, rfl⟩

theorem edgesAgree_trace {g : Game} (hg : machine.AfterReset In.reset g) (inp : ℕ → In) :
    ∀ n, EdgesAgree (machine.trace g inp n)
  | 0 => by
    obtain ⟨g₀, i, -, rfl⟩ := hg
    exact edgesAgree_next g₀ i
  | n + 1 => edgesAgree_next _ _

/-- The frame edge, as `ball` sees it. -/
def frameEdge (g : Game) (i : In) : Bool := g.ball.rising i.frameClk

/-- The register banks of `g'` are those of `g` after a clock at which all modules are told `rising`. -/
structure BanksAfter (rising : Bool) (g : Game) (i : In) (g' : Game) : Prop where
  ball : g'.ball.regs = Ball.ff rising (g.ballIn i) g.ball.regs
  enemy1 : g'.enemy1.regs = EnemyBall.ff EnemyBall.enemyBall1 rising (g.enemyIn i) g.enemy1.regs
  enemy2 : g'.enemy2.regs = EnemyBall.ff EnemyBall.enemyBall2 rising (g.enemyIn i) g.enemy2.regs
  enemy3 : g'.enemy3.regs = EnemyBall.ff EnemyBall.enemyBall3 rising (g.enemyIn i) g.enemy3.regs
  aiball : g'.aiball.regs = AIball.ff rising (g.aiballIn i) g.aiball.regs
  food : g'.food.regs = RandomBall.ff rising (g.foodIn i) g.food.regs

/-- The next state in terms of one frame edge. -/
theorem banksAfter_next {g : Game} (h : EdgesAgree g) (i : In) :
    BanksAfter (g.frameEdge i) g i (machine.next g i) := by
  unfold frameEdge EdgeReg.rising
  constructor
  · rfl
  · rw [← h.enemy1]; rfl
  · rw [← h.enemy2]; rfl
  · rw [← h.enemy3]; rfl
  · rw [← h.aiball]; rfl
  · rw [← h.food]; rfl

/-- No register of a game object differs. -/
structure SameBanks (g g' : Game) : Prop where
  ball : g'.ball.regs = g.ball.regs
  enemy1 : g'.enemy1.regs = g.enemy1.regs
  enemy2 : g'.enemy2.regs = g.enemy2.regs
  enemy3 : g'.enemy3.regs = g.enemy3.regs
  aiball : g'.aiball.regs = g.aiball.regs
  food : g'.food.regs = g.food.regs

/-- Between frame edges nothing moves, unless `Reset` is asserted. -/
theorem banks_hold {g : Game} (h : EdgesAgree g) {i : In} (he : g.frameEdge i = false)
    (hr : i.reset = false) : SameBanks g (machine.next g i) := by
  have hb := banksAfter_next h i
  rw [he] at hb
  obtain ⟨e1, e2, e3, e4, e5, e6⟩ := hb
  constructor
  · rw [e1]; exact Ball.ff_hold (i := g.ballIn i) hr _
  · rw [e2]; exact EnemyBall.ff_hold (i := g.enemyIn i) hr _
  · rw [e3]; exact EnemyBall.ff_hold (i := g.enemyIn i) hr _
  · rw [e4]; exact EnemyBall.ff_hold (i := g.enemyIn i) hr _
  · rw [e5]; exact AIball.ff_hold (i := g.aiballIn i) hr _
  · rw [e6]; exact RandomBall.ff_hold (i := g.foodIn i) hr _

/-! ## The state after `Reset` -/

def resetState : Game where
  ball := ⟨Ball.init, false⟩
  enemy1 := ⟨EnemyBall.init EnemyBall.enemyBall1, false⟩
  enemy2 := ⟨EnemyBall.init EnemyBall.enemyBall2, false⟩
  enemy3 := ⟨EnemyBall.init EnemyBall.enemyBall3, false⟩
  aiball := ⟨AIball.init, false⟩
  food := ⟨RandomBall.init, false⟩
  fsm := .start

theorem resetState_afterReset : machine.AfterReset In.reset resetState :=
  ⟨resetState, ⟨true, false, 0, 0, 0, false, false, 0, 0⟩, rfl, rfl⟩

end Game

structure Board where
  resetH : Bool
  resetB : Bool
  vgaClk : Bool
  vga : VgaController.Regs
  game : Game

namespace Board

structure In where
  key0 : Bool
  key1 : Bool
  keycode : BitVec 16
  mouseX : BitVec 10
  mouseY : BitVec 10
  leftButton : Bool
  rightButton : Bool
  randomx : BitVec 10
  randomy : BitVec 10

def gameIn (b : Board) (i : In) : Game.In where
  reset := b.resetB
  frameClk := b.vga.vgaVS
  keycode := i.keycode
  mouseX := i.mouseX
  mouseY := i.mouseY
  leftButton := i.leftButton
  rightButton := i.rightButton
  randomx := i.randomx
  randomy := i.randomy

/-- `VGA_CLK` after the next `Clk` edge (lab8.sv:70-76). -/
def vgaClkIn (b : Board) : Bool := if b.resetH then true else !b.vgaClk

/-- The next `Clk` edge makes `VGA_CLK` rise. -/
def vgaTick (b : Board) : Bool := !b.vgaClk && b.vgaClkIn

/-- One edge of `Clk`. `VGA_CLK` is itself a register output, so the scan moves just after the edge
and sees the reset register as the edge leaves it; the game sees `VGA_VS` from before the edge. -/
def machine : Machine In Board where
  next b i :=
    { resetH := !i.key0
      resetB := !i.key1
      vgaClk := b.vgaClkIn
      vga := if b.vgaTick then VgaController.tick (!i.key0) b.vga else b.vga
      game := Game.machine.next b.game (b.gameIn i) }

end Board

end Lab8
