import Lab8.Discs
import Lab8.Game
import Lab8.Menu
/-!
# Colours: module `color_mapper` (Color_Mapper.sv)

A pixel gets the colour of the first object that covers it, in a fixed order; on the menus, of the cursor (whose
square is defined in `Menu`) or of a bitmap. `canvas` is the same the other way round: paint the background, then the
discs over it, the player last.

| here | there |
| --- | --- |
| `Bitmaps` | `background`, `gameover`, `start`, `ball_ani`: tables of pixels, any tables here |
| `inGame`, `colour` | the `always_comb` (:56-254) |
-/

namespace Lab8.ColorMapper

structure Rgb where
  red : BitVec 8
  green : BitVec 8
  blue : BitVec 8
deriving DecidableEq, Repr

abbrev Picture := BitVec 10 → BitVec 10 → Rgb

structure Bitmaps where
  background : Picture
  gameover : Picture
  start : Picture
  ballAni : Picture

structure In where
  isBall : Bool
  isAiball : Bool
  isEball1 : Bool
  isEball2 : Bool
  isEball3 : Bool
  isRball : RandomBall.Slot → Bool
  drawX : BitVec 10
  drawY : BitVec 10
  mouseX : BitVec 10
  mouseY : BitVec 10
  startSignal : Bool
  ingameSignal : Bool

/-- The first eight foods are blue, the others red. -/
def foodColour (k : RandomBall.Slot) : Rgb := if k.val < 8 then ⟨0, 0, 255⟩ else ⟨255, 0, 0⟩

def foods (i : In) (background : Rgb) : List RandomBall.Slot → Rgb
  | [] => background
  | k :: ks => if i.isRball k then foodColour k else foods i background ks

def inGame (bm : Bitmaps) (i : In) : Rgb :=
  if i.isBall then bm.ballAni i.drawX i.drawY
  else if i.isAiball then bm.ballAni i.drawX i.drawY
  else if i.isEball1 then ⟨255, 255, 0⟩
  else if i.isEball2 then ⟨255, 0, 255⟩
  else if i.isEball3 then ⟨0, 255, 255⟩
  else foods i (bm.background i.drawX i.drawY) (List.finRange 16)

def colour (bm : Bitmaps) (i : In) : Rgb :=
  if i.ingameSignal then inGame bm i
  else if i.startSignal then
    if cursor i.mouseX i.mouseY i.drawX i.drawY then ⟨0, 0, 0⟩ else bm.start i.drawX i.drawY
  else if cursor i.mouseX i.mouseY i.drawX i.drawY then ⟨0xcc, 0xcc, 0xcc⟩ else bm.gameover i.drawX i.drawY

theorem colour_inGame {bm : Bitmaps} {i : In} (h : i.ingameSignal = true) : colour bm i = inGame bm i := if_pos h

/-! ## Painting -/

structure Layer where
  disc : Disc
  paint : Picture

/-- The layer over a picture. -/
def Layer.over (l : Layer) (below : Picture) : Picture := fun x y =>
  if l.disc.Covers x.toNat y.toNat then l.paint x y else below x y

/-- The layers over a background, the first one on top. -/
def canvas (background : Picture) (layers : List Layer) : Picture := layers.foldr Layer.over background

/-- What there is to see of a game, from the top down. -/
def layers (bm : Bitmaps) (g : Game) : List Layer :=
  [⟨Ball.disc g.ball.regs, bm.ballAni⟩, ⟨AIball.disc g.aiball.regs, bm.ballAni⟩,
    ⟨EnemyBall.disc g.enemy1.regs, fun _ _ => ⟨255, 255, 0⟩⟩,
    ⟨EnemyBall.disc g.enemy2.regs, fun _ _ => ⟨255, 0, 255⟩⟩,
    ⟨EnemyBall.disc g.enemy3.regs, fun _ _ => ⟨0, 255, 255⟩⟩] ++
    (List.finRange 16).map fun k => ⟨RandomBall.disc g.food.regs k, fun _ _ => foodColour k⟩

/-- The ports, for a pixel of a game (lab8.sv:259-285). -/
def mapperIn (g : Game) (drawX drawY mouseX mouseY : BitVec 10) : In where
  isBall := Ball.isBall g.ball.regs drawX drawY
  isAiball := AIball.isAiball g.aiball.regs drawX drawY
  isEball1 := EnemyBall.isEball g.enemy1.regs drawX drawY
  isEball2 := EnemyBall.isEball g.enemy2.regs drawX drawY
  isEball3 := EnemyBall.isEball g.enemy3.regs drawX drawY
  isRball := RandomBall.isRball g.food.regs drawX drawY
  drawX := drawX
  drawY := drawY
  mouseX := mouseX
  mouseY := mouseY
  startSignal := Gamestate.startSignal g.fsm
  ingameSignal := Gamestate.ingameSignal g.fsm

theorem canvas_cons (background : Picture) (l : Layer) (ls : List Layer) (x y : BitVec 10) :
    canvas background (l :: ls) x y = if l.disc.Covers x.toNat y.toNat then l.paint x y else canvas background ls x y :=
  rfl

variable (bm : Bitmaps) (g : Game) (x y mouseX mouseY : BitVec 10)

theorem foods_eq_canvas (ks : List RandomBall.Slot) :
    foods (mapperIn g x y mouseX mouseY) (bm.background x y) ks =
      canvas bm.background (ks.map fun k => ⟨RandomBall.disc g.food.regs k, fun _ _ => foodColour k⟩) x y := by
  induction ks with
  | nil => rfl
  | cons k ks ih =>
    rw [foods, List.map_cons, canvas_cons, ih]
    exact if_congr (RandomBall.isRball_iff g.food.regs x y k) rfl rfl

/-- The chain of the source paints the layers. -/
theorem inGame_eq_canvas :
    inGame bm (mapperIn g x y mouseX mouseY) = canvas bm.background (layers bm g) x y := by
  rw [inGame]
  simp only [layers, List.cons_append, List.nil_append, canvas_cons]
  refine if_congr (Ball.isBall_iff _ x y) rfl ?_
  refine if_congr (AIball.isAiball_iff _ x y) rfl ?_
  refine if_congr (EnemyBall.isEball_iff _ x y) rfl ?_
  refine if_congr (EnemyBall.isEball_iff _ x y) rfl ?_
  refine if_congr (EnemyBall.isEball_iff _ x y) rfl ?_
  exact foods_eq_canvas bm g x y mouseX mouseY _

end Lab8.ColorMapper
