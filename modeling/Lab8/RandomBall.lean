import Mathlib.Data.Fintype.Card
import Mathlib.Data.Finset.Filter
import Lab8.Lib.Clocked
import Lab8.Lib.Word
/-!
# The food: module `random_ball` (random_ball.sv)

Sixteen slots, `0..7` raising `is_collision1` (the player grows), `8..15` raising `is_collision2` (it
shrinks). The module is written without loops: sixteen copies of the contact block (:451-593), of the
disc test (:325-403) and four copies of the commit list. A copy is a slot index here; the one copy with
a different text is slot 15, which stores `randomx` and `randomy` unmasked (:590-591).

| here | there |
| --- | --- |
| `resetPos` | the reset positions (random_ball.sv:104-135) |
| `contact`  | the slot's contact test, 32-bit because of the unsized `4` (:451 and its copies) |
| `spawn`    | the position a touched slot takes (:455-456 and its copies, :590-591) |
| `ff`       | the second `always_ff` (:98-297) |
-/

namespace Lab8.RandomBall

open Clocked

abbrev Slot := Fin 16

structure Regs where
  xPos : Slot → BitVec 10
  yPos : Slot → BitVec 10
  bSize : BitVec 10
  rscore : BitVec 16

structure In where
  reset : Bool
  frameClk : Bool
  ballX : BitVec 10
  ballY : BitVec 10
  randomx : BitVec 10
  randomy : BitVec 10
  startSignal : Bool

structure Point where
  x : BitVec 10
  y : BitVec 10
deriving DecidableEq, Repr

/-- Where `Reset` puts each slot. -/
def resetPos (k : Slot) : Point :=
  #v[⟨150, 300⟩, ⟨400, 89⟩, ⟨17, 58⟩, ⟨455, 300⟩, ⟨66, 88⟩, ⟨602, 38⟩, ⟨89, 120⟩, ⟨644, 79⟩,
    ⟨200, 66⟩, ⟨300, 99⟩, ⟨100, 130⟩, ⟨12, 7⟩, ⟨543, 400⟩, ⟨45, 69⟩, ⟨625, 5⟩, ⟨77, 92⟩][k]

/-- `Ball_size`, the radius a food is drawn with. -/
def ballSize : BitVec 10 := 4

/-- `(BallX-Ball_X_Pos[k])² + (BallY-Ball_Y_Pos[k])² <= (4+bSize)²`. -/
def contact (r : Regs) (ballX ballY : BitVec 10) (k : Slot) : Prop :=
  Word.sqDist32 ballX ballY (r.xPos k) (r.yPos k) ≤
    (BitVec.ofNat 32 4 + r.bSize.setWidth 32) * (BitVec.ofNat 32 4 + r.bSize.setWidth 32)

instance (r : Regs) (ballX ballY : BitVec 10) (k : Slot) : Decidable (contact r ballX ballY k) :=
  inferInstanceAs (Decidable (_ ≤ _))

/-- The one slot whose new position is not masked. -/
def unmasked : Slot := 15

/-- Slots 0 to 14 take `{1'b0,randomx[8:0]}` and `{2'b0,randomy[7:0]}`, slot 15 the words as they are. -/
def spawn (randomx randomy : BitVec 10) (k : Slot) : Point :=
  if k = unmasked then ⟨randomx, randomy⟩
  else ⟨(randomx.setWidth 9).setWidth 10, (randomy.setWidth 8).setWidth 10⟩

/-- `Ball_X_Pos_in[k]`, `Ball_Y_Pos_in[k]`. -/
def posIn (r : Regs) (i : In) (k : Slot) : Point :=
  if contact r i.ballX i.ballY k then spawn i.randomx i.randomy k else ⟨r.xPos k, r.yPos k⟩

def isCollision1 (r : Regs) (ballX ballY : BitVec 10) : Bool :=
  decide (∃ k : Slot, k.val < 8 ∧ contact r ballX ballY k)

def isCollision2 (r : Regs) (ballX ballY : BitVec 10) : Bool :=
  decide (∃ k : Slot, 8 ≤ k.val ∧ contact r ballX ballY k)

/-- `is_rball[k]`: the `int` distances meet the unsigned `rSize`, so the test is unsigned. -/
def isRball (r : Regs) (drawX drawY : BitVec 10) (k : Slot) : Bool :=
  decide (Word.sqDist32 drawX drawY (r.xPos k) (r.yPos k) ≤ ballSize.setWidth 32 * ballSize.setWidth 32)

def init : Regs where
  xPos k := (resetPos k).x
  yPos k := (resetPos k).y
  bSize := 4
  rscore := 0

/-- The 32 assignments `Ball_X_Pos[k] <= Ball_X_Pos_in[k]`, `Ball_Y_Pos[k] <= Ball_Y_Pos_in[k]`. -/
def commit (r : Regs) (i : In) : Regs :=
  { r with xPos := fun k => (posIn r i k).x, yPos := fun k => (posIn r i k).y }

/-- The second `always_ff` (:98-297). -/
def ff (rising : Bool) (i : In) (r : Regs) : Regs :=
  if i.reset then init
  else if rising && isCollision1 r i.ballX i.ballY then
    { commit r i with rscore := r.rscore + 1, bSize := if r.bSize ≠ 10 then r.bSize + 1 else r.bSize }
  else if rising && isCollision2 r i.ballX i.ballY then
    { commit r i with rscore := r.rscore + 1, bSize := if r.bSize ≠ 1 then r.bSize - 1 else r.bSize }
  else if rising && i.startSignal then { commit r i with rscore := 0 }
  else if rising then commit r i
  else r

def machine : Machine In (EdgeReg Regs) := EdgeReg.machine In.frameClk ff

/-- The states of `random_ball` reachable from `Reset`. -/
def Reachable : EdgeReg Regs → Prop := machine.Reachable (machine.AfterReset In.reset)

theorem ff_reset {i : In} (h : i.reset = true) (b : Bool) (r : Regs) : ff b i r = init := by
  simp [ff, h]

/-- Off the frame edge the bank holds. -/
theorem ff_hold {i : In} (h : i.reset = false) (r : Regs) : ff false i r = r := by
  simp [ff, h]

/-- At a frame edge every branch commits the same 32 assignments. -/
theorem ff_pos {i : In} (h : i.reset = false) (r : Regs) :
    (ff true i r).xPos = (commit r i).xPos ∧ (ff true i r).yPos = (commit r i).yPos := by
  unfold ff
  simp only [h, Bool.false_eq_true, if_false, Bool.true_and, if_true]
  split
  · exact ⟨rfl, rfl⟩
  · split
    · exact ⟨rfl, rfl⟩
    · split <;> exact ⟨rfl, rfl⟩

end Lab8.RandomBall
