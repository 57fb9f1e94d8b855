/-!
# The menu: module `gamestate` (gamestate.sv)

A three-state machine on the 50 MHz clock: `start`, `ingame` after a click on the door of the start
screen, `gameover_state` once an enemy asserts `gameover`, back to `start` after a click on the
restart area. `keycode` is an unused port.
-/

namespace Lab8.Gamestate

inductive State
  | start | gameoverState | ingame
deriving DecidableEq, Repr

structure In where
  reset : Bool
  gameover : Bool
  mouseX : BitVec 10
  mouseY : BitVec 10
  leftButton : Bool
  rightButton : Bool

/-- A click inside one of the two boxes that start a game (gamestate.sv:31). -/
def clickStart (i : In) : Bool :=
  (i.leftButton || i.rightButton) &&
    (decide (i.mouseX ≥ 361 ∧ i.mouseX ≤ 367 ∧ i.mouseY ≥ 244 ∧ i.mouseY ≤ 273) ||
      decide (i.mouseX ≥ 398 ∧ i.mouseX ≤ 403 ∧ i.mouseY ≥ 246 ∧ i.mouseY ≤ 273))

/-- A click inside the restart box (gamestate.sv:40). -/
def clickRestart (i : In) : Bool :=
  (i.leftButton || i.rightButton) &&
    decide (i.mouseX ≥ 107 ∧ i.mouseX ≤ 154 ∧ i.mouseY ≥ 340 ∧ i.mouseY ≤ 433)

def nextState (s : State) (i : In) : State :=
  match s with
  | .start => if clickStart i then .ingame else .start
  | .ingame => if i.gameover then .gameoverState else .ingame
  | .gameoverState => if clickRestart i then .start else .gameoverState

/-- The `always_ff` (gamestate.sv:16-22). -/
def ff (s : State) (i : In) : State :=
  if i.reset then .start else nextState s i

def startSignal (s : State) : Bool := s = .start
def ingameSignal (s : State) : Bool := s = .ingame
def gameoverSignal (s : State) : Bool := s = .gameoverState

end Lab8.Gamestate
