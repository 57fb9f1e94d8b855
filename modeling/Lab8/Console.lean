import Lab8.BallRange
import Lab8.Discs
import Lab8.Food
import Lab8.Game
import Lab8.Lfsr
import Lab8.MouseInterface
/-!
# The whole board: module `lab8`, wired (lab8.sv:286-343)

`Board` with the mouse and the two random generators in the place of its inputs. What is left comes from outside: the
keys, the two PS/2 lines and the keycode the processor writes.

One reset button serves the generators and the game, but the outputs of the generators keep what they held: for ten
clocks after a reset they are not theirs. No food can be eaten that early, so no food is ever put anywhere but on the
columns and rows the generators go through (`foods_on_field`).

| here | there |
| --- | --- |
| `boardIn`, `machine` | the instances and their connections |
| `OnField` | where a food can be |
| `Early` | the clocks after a reset in which the outputs are stale |
-/

namespace Lab8

open Clocked

structure Console where
  board : Board
  mouse : MouseInterface.Regs
  randomX : Lfsr.Regs
  randomY : Lfsr.Regs

namespace Console

structure In where
  key0 : Bool
  key1 : Bool
  keycode : BitVec 16
  /-- What the mouse does to the two lines. -/
  clk : Bool
  dat : Bool

def In.mouse (i : In) : MouseInterface.In := ⟨i.key0, i.clk, i.dat⟩

def boardIn (c : Console) (i : In) : Board.In where
  key0 := i.key0
  key1 := i.key1
  keycode := i.keycode
  mouseX := c.mouse.mouse.curX
  mouseY := c.mouse.mouse.curY
  leftButton := c.mouse.mouse.byte1.getLsbD 0
  rightButton := c.mouse.mouse.byte1.getLsbD 1
  randomx := c.randomX.randomDone
  randomy := c.randomY.randomDone

def machine : Machine In Console where
  next c i :=
    { board := Board.machine.next c.board (c.boardIn i)
      mouse := MouseInterface.machine.next c.mouse i.mouse
      randomX := lfsrx.machine.next c.randomX c.board.resetB
      randomY := lfsry.machine.next c.randomY c.board.resetB }

/-- The screen that is on. -/
def fsm (c : Console) : Gamestate.State := c.board.game.fsm

theorem run_mouse (c : Console) : ∀ is : List In,
    (machine.run c is).mouse = MouseInterface.machine.run c.mouse (is.map In.mouse)
  | [] => rfl
  | i :: is => run_mouse (machine.next c i) is

theorem run_resetB {c : Console} (h : c.board.resetB = false) : ∀ is : List In, (∀ i ∈ is, i.key1 = true) →
    (machine.run c is).board.resetB = false
  | [], _ => h
  | i :: is, hk => by
    obtain ⟨hi, hk⟩ := List.forall_mem_cons.1 hk
    exact run_resetB (c := machine.next c i) (congrArg not hi) is hk

/-! ## The generators -/

def Column (x : BitVec 10) : Prop := 1 ≤ x.toNat % 512
def Row (y : BitVec 10) : Prop := y.toNat % 256 ∈ Lfsr.rows

instance (x : BitVec 10) : Decidable (Column x) := inferInstanceAs (Decidable (_ ≤ _))
instance (y : BitVec 10) : Decidable (Row y) := inferInstanceAs (Decidable (_ ∈ _))

theorem column_iff (x : BitVec 10) : Column x ↔ BitVec.setWidth 9 x ∈ Lfsr.words 9 (Finset.Icc 1 511) := by
  rw [Lfsr.mem_words Lfsr.columns_lt, Finset.mem_Icc, BitVec.toNat_setWidth]
  unfold Column
  omega

theorem row_iff (y : BitVec 10) : Row y ↔ BitVec.setWidth 8 y ∈ Lfsr.words 8 Lfsr.rows.toFinset := by
  rw [Lfsr.mem_words Lfsr.rows_lt, List.mem_toFinset, BitVec.toNat_setWidth]
  rfl

theorem column_shift {x : BitVec 10} (h : Column x) : Column (lfsrx.shift x) := by
  rw [column_iff] at h ⊢
  rw [Lfsr.lfsrx_closed x]
  exact Lfsr.lfsrx_sweeps.maps h

theorem row_shift {y : BitVec 10} (h : Row y) : Row (lfsry.shift y) := by
  rw [row_iff] at h ⊢
  rw [Lfsr.lfsry_closed y]
  exact Lfsr.lfsry_sweeps.maps h

section
variable {g : Lfsr} {P : BitVec 10 → Prop} {r : Lfsr.Regs} (h : P r.random)
include h

/-- What a shift keeps, the register keeps, and the output once it has it. -/
theorem lfsr_keeps (hs : ∀ r, P r → P (g.shift r)) : P (g.ff r false).random ∧ (P r.randomDone → P (g.ff r false).randomDone) := by
  unfold Lfsr.ff
  rw [if_neg Bool.false_ne_true]
  split
  · exact ⟨h, fun _ => h⟩
  · exact ⟨hs _ h, fun hd => hd⟩

/-- The last clock of a block hands it over, the others count. -/
theorem lfsr_counts {n : ℕ} (hn : r.count.toNat = n) (hl : n ≤ g.last.toNat) :
    (n = g.last.toNat ∧ P (g.ff r false).randomDone) ∨
      (n < g.last.toNat ∧ (g.ff r false).count.toNat = n + 1) := by
  have hb := g.last.isLt
  unfold Lfsr.ff
  rw [if_neg Bool.false_ne_true]
  by_cases hc : r.count = g.last
  · rw [if_pos hc]
    exact Or.inl ⟨by rw [← hn, hc], h⟩
  · rw [if_neg hc]
    have hne : n ≠ g.last.toNat := fun e => hc (BitVec.eq_of_toNat_eq (hn.trans e))
    refine Or.inr ⟨by omega, ?_⟩
    have ht : (r.count + 1).toNat = (r.count.toNat + 1) % 16 := BitVec.toNat_add _ _
    change (r.count + 1).toNat = n + 1
    omega

end

/-! ## The foods -/

/-- Where a food can be: where `Reset` puts it, or where the generators do. -/
def OnField (k : RandomBall.Slot) (p : RandomBall.Point) : Prop :=
  p = RandomBall.resetPos k ∨
    (Column p.x ∧ Row p.y ∧ (k ≠ RandomBall.unmasked → p.x.toNat < 512 ∧ p.y.toNat < 256))

theorem onField_spawn {x y : BitVec 10} (hx : Column x) (hy : Row y) (k : RandomBall.Slot) :
    OnField k (RandomBall.spawn x y k) := by
  refine Or.inr ?_
  unfold RandomBall.spawn
  by_cases hk : k = RandomBall.unmasked
  · rw [if_pos hk]
    exact ⟨hx, hy, fun h => absurd hk h⟩
  · rw [if_neg hk]
    have ex : ((x.setWidth 9).setWidth 10).toNat = x.toNat % 512 := by
      rw [BitVec.toNat_setWidth, BitVec.toNat_setWidth]
      omega
    have ey : ((y.setWidth 8).setWidth 10).toNat = y.toNat % 256 := by
      rw [BitVec.toNat_setWidth, BitVec.toNat_setWidth]
      omega
    unfold Column Row
    rw [ex, ey, Nat.mod_mod, Nat.mod_mod]
    exact ⟨hx, hy, fun _ => ⟨Nat.mod_lt _ (by decide), Nat.mod_lt _ (by decide)⟩⟩

/-- The place of a food. -/
def food (c : Console) (k : RandomBall.Slot) : RandomBall.Point :=
  ⟨c.board.game.food.regs.xPos k, c.board.game.food.regs.yPos k⟩

/-- A clock without `Reset` leaves a food where it is, or the food is eaten and takes the outputs. -/
theorem food_ff (b : Bool) {j : RandomBall.In} (hr : j.reset = false) (r : RandomBall.Regs) (k : RandomBall.Slot) :
    (⟨(RandomBall.ff b j r).xPos k, (RandomBall.ff b j r).yPos k⟩ : RandomBall.Point) = ⟨r.xPos k, r.yPos k⟩ ∨
      (RandomBall.contact r j.ballX j.ballY k ∧
        (⟨(RandomBall.ff b j r).xPos k, (RandomBall.ff b j r).yPos k⟩ : RandomBall.Point) =
          RandomBall.spawn j.randomx j.randomy k) := by
  cases b with
  | false =>
    rw [RandomBall.ff_hold hr]
    exact Or.inl rfl
  | true =>
    rw [RandomBall.ff_relocates hr]
    by_cases hk : k ∈ RandomBall.touched r j.ballX j.ballY
    · rw [if_pos hk]
      exact Or.inr ⟨RandomBall.mem_touched.1 hk, rfl⟩
    · rw [if_neg hk]
      exact Or.inl rfl

/-! ## Early -/

/-- A ball that has moved for `n` clocks at most. -/
structure Near (n : ℕ) (r : Ball.Regs) : Prop where
  ranged : Ball.Ranged r
  x : 320 ≤ r.x.pos.toNat + 4 * n ∧ r.x.pos.toNat ≤ 320 + 4 * n
  y : 240 ≤ r.y.pos.toNat + 4 * n ∧ r.y.pos.toNat ≤ 240 + 4 * n

theorem near_init (n : ℕ) : Near n Ball.init := by
  have ex : Ball.init.x.pos.toNat = 320 := rfl
  have ey : Ball.init.y.pos.toNat = 240 := rfl
  exact ⟨Ball.ranged_init, by omega, by omega⟩

theorem pos_add {a : Ball.AxisRegs} (h : Ball.Slow a) (hl : 40 ≤ a.pos.toNat) (hu : a.pos.toNat ≤ 400) :
    (a.pos + a.motion).toNat ≤ a.pos.toNat + 4 ∧ a.pos.toNat ≤ (a.pos + a.motion).toNat + 4 := by
  have e := Word.toNat_add_toInt a.pos a.motion
  have := h.ge
  have := h.le
  omega

theorem Near.next {n : ℕ} {r : Ball.Regs} (h : Near n r) (hn : n ≤ 9) (b : Bool) (j : Ball.In) :
    Near (n + 1) (Ball.ff b j r) := by
  obtain ⟨hr, hx, hy⟩ := h
  rw [Ball.ff_eq]
  cases Ball.act b j with
  | hold => exact ⟨hr, by change _ ≤ r.x.pos.toNat + _ ∧ r.x.pos.toNat ≤ _; omega,
      by change _ ≤ r.y.pos.toNat + _ ∧ r.y.pos.toNat ≤ _; omega⟩
  | restart => exact near_init _
  | move f =>
    obtain ⟨ex, -, -, ey, -, -⟩ := Ball.food_frame f (Ball.move r j.keycode)
    have px := pos_add hr.slowX (by omega) (by omega)
    have py := pos_add hr.slowY (by omega) (by omega)
    refine ⟨Ball.ranged_food (Ball.ranged_move hr _) f, ?_, ?_⟩
    · change _ ≤ (f.apply (Ball.move r j.keycode)).x.pos.toNat + _ ∧ _
      rw [Ball.Act.apply, ex]
      change _ ≤ (r.x.pos + r.x.motion).toNat + _ ∧ (r.x.pos + r.x.motion).toNat ≤ _
      omega
    · change _ ≤ (f.apply (Ball.move r j.keycode)).y.pos.toNat + _ ∧ _
      rw [Ball.Act.apply, ey]
      change _ ≤ (r.y.pos + r.y.motion).toNat + _ ∧ (r.y.pos + r.y.motion).toNat ≤ _
      omega

/-- Foods where `Reset` puts them, with the radius it gives. -/
def Laid (r : RandomBall.Regs) : Prop :=
  (∀ k, (⟨r.xPos k, r.yPos k⟩ : RandomBall.Point) = RandomBall.resetPos k) ∧ r.bSize = 4

/-- They are all far from the middle. -/
theorem resetPos_far (k : RandomBall.Slot) :
    (RandomBall.resetPos k).x.toNat ≤ 220 ∨ 420 ≤ (RandomBall.resetPos k).x.toNat ∨
      (RandomBall.resetPos k).y.toNat ≤ 140 := by
  revert k
  decide

theorem Near.untouched {n : ℕ} {b : Ball.Regs} (h : Near n b) (hn : n ≤ 9) {r : RandomBall.Regs} (hl : Laid r)
    (k : RandomBall.Slot) : ¬ RandomBall.contact r b.x.pos b.y.pos k := by
  obtain ⟨-, hx, hy⟩ := h
  rw [RandomBall.contact_iff]
  have ek := hl.1 k
  have hf := resetPos_far k
  rw [← ek] at hf
  have hf : (r.xPos k).toNat ≤ 220 ∨ 420 ≤ (r.xPos k).toNat ∨ (r.yPos k).toNat ≤ 140 := hf
  unfold Disc.Meets RandomBall.disc discAt
  rw [hl.2]
  change ¬ (((b.x.pos.toNat : ℤ) - (r.xPos k).toNat) ^ 2 + ((b.y.pos.toNat : ℤ) - (r.yPos k).toNat) ^ 2 ≤ 8 ^ 2)
  intro hc
  have h1 := abs_le_of_sq_le_sq' (le_trans (le_add_of_nonneg_right (sq_nonneg _)) hc) (by decide)
  have h2 := abs_le_of_sq_le_sq' (le_trans (le_add_of_nonneg_left (sq_nonneg _)) hc) (by decide)
  omega

/-- `n` clocks after a reset: `LFSRX` has not copied yet, and nothing has been eaten. -/
structure Early (n : ℕ) (c : Console) : Prop where
  countX : c.randomX.count.toNat = n
  rowOrCount : Row c.randomY.randomDone ∨ (n ≤ 8 ∧ c.randomY.count.toNat = n)
  ball : Near n c.board.game.ball.regs
  laid : Laid c.board.game.food.regs

/-- Both registers are on their orbits, and if it is no longer early their outputs too. -/
structure Drawing (c : Console) : Prop where
  column : Column c.randomX.random
  row : Row c.randomY.random
  outputs : (∃ n ≤ 9, Early n c) ∨ (Column c.randomX.randomDone ∧ Row c.randomY.randomDone)

section
variable {c : Console} {b : Bool} (hr : c.board.resetB = b) (i : In)
include hr

theorem randomX_next : (machine.next c i).randomX = lfsrx.ff c.randomX b := hr ▸ rfl

theorem randomY_next : (machine.next c i).randomY = lfsry.ff c.randomY b := hr ▸ rfl

end

theorem food_reset {c : Console} (hr : c.board.resetB = true) (i : In) :
    (machine.next c i).board.game.food.regs = RandomBall.init := RandomBall.ff_reset hr _ _

theorem food_next {c : Console} (hr : c.board.resetB = false) (i : In) (k : RandomBall.Slot) :
    (machine.next c i).food k = c.food k ∨
      (RandomBall.contact c.board.game.food.regs c.board.game.ball.regs.x.pos c.board.game.ball.regs.y.pos k ∧
        (machine.next c i).food k = RandomBall.spawn c.randomX.randomDone c.randomY.randomDone k) :=
  food_ff _ (j := c.board.game.foodIn (c.board.gameIn (c.boardIn i))) hr _ k

theorem Drawing.reset {c : Console} (hr : c.board.resetB = true) (i : In) : Drawing (machine.next c i) := by
  have eb : (machine.next c i).board.game.ball.regs = Ball.init := Ball.ff_reset hr _ _
  have hc : Column 0xF := by decide
  have hw : Row 0xF := by decide
  have early : Early 0 (machine.next c i) := by
    refine ⟨?_, Or.inr ⟨by decide, ?_⟩, eb ▸ near_init 0, food_reset hr i ▸ ⟨fun _ => rfl, rfl⟩⟩
    · rw [randomX_next hr]
      rfl
    · rw [randomY_next hr]
      rfl
  exact ⟨randomX_next hr i ▸ hc, randomY_next hr i ▸ hw, Or.inl ⟨0, by decide, early⟩⟩

theorem Early.next {n : ℕ} {c : Console} (h : Early n c) (hn : n ≤ 9) (hr : c.board.resetB = false)
    (hx : Column c.randomX.random) (hy : Row c.randomY.random) (i : In) :
    (∃ m ≤ 9, Early m (machine.next c i)) ∨
      (Column (machine.next c i).randomX.randomDone ∧ Row (machine.next c i).randomY.randomDone) := by
  have ex := randomX_next hr i
  have ey := randomY_next hr i
  have hrow : Row (machine.next c i).randomY.randomDone ∨
      (n + 1 ≤ 8 ∧ (machine.next c i).randomY.count.toNat = n + 1) := by
    rw [ey]
    rcases h.rowOrCount with hd | ⟨h8, hc⟩
    · exact Or.inl ((lfsr_keeps hy fun _ => row_shift).2 hd)
    · rcases lfsr_counts (g := lfsry) hy hc h8 with ⟨-, hd⟩ | ⟨hlt, hc'⟩
      · exact Or.inl hd
      · exact Or.inr ⟨hlt, hc'⟩
  have hfar := h.ball.untouched hn h.laid
  rcases lfsr_counts (g := lfsrx) hx h.countX hn with ⟨rfl, hd⟩ | ⟨hlt, hc⟩
  · refine Or.inr ⟨ex ▸ hd, hrow.resolve_right fun h' => absurd h'.1 (by decide)⟩
  · refine Or.inl ⟨n + 1, hlt, ex ▸ hc, hrow, h.ball.next hn _ _, fun k => ?_, ?_⟩
    · exact ((food_next hr i k).resolve_right fun h' => hfar k h'.1).trans (h.laid.1 k)
    · exact (RandomBall.ff_untouched _ (i := c.board.game.foodIn (c.board.gameIn (c.boardIn i))) hr hfar).2.2.trans
        h.laid.2

theorem Drawing.next {c : Console} (h : Drawing c) (i : In) : Drawing (machine.next c i) := by
  cases hr : c.board.resetB with
  | true => exact Drawing.reset hr i
  | false =>
    have ex := randomX_next hr i
    have ey := randomY_next hr i
    have kx := lfsr_keeps h.column fun _ => column_shift
    have ky := lfsr_keeps h.row fun _ => row_shift
    refine ⟨ex ▸ kx.1, ey ▸ ky.1, ?_⟩
    rcases h.outputs with ⟨n, hn, he⟩ | ⟨hx, hy⟩
    · exact he.next hn hr h.column h.row i
    · exact Or.inr ⟨ex ▸ kx.2 hx, ey ▸ ky.2 hy⟩

/-- One clock: the foods stay on the field. -/
theorem foods_next {c : Console} (hd : Drawing c) (h : ∀ k, OnField k (c.food k)) (i : In) (k : RandomBall.Slot) :
    OnField k ((machine.next c i).food k) := by
  cases hr : c.board.resetB with
  | true =>
    refine Or.inl ?_
    rw [food, food_reset hr]
    rfl
  | false =>
    rcases food_next hr i k with hk | ⟨hc, hk⟩
    · exact hk ▸ h k
    · rcases hd.outputs with ⟨n, hn, he⟩ | ⟨hx, hy⟩
      · exact absurd hc (he.ball.untouched hn he.laid k)
      · exact hk ▸ onField_spawn hx hy k

/-- **The foods.** From the first reset on, in every run of the board, whatever comes in and however often it is reset,
every food is where `Reset` puts it or on the columns and rows of the generators. -/
theorem foods_on_field {c : Console} (hr : c.board.resetB = true) (inp : ℕ → In) (k : RandomBall.Slot) (n : ℕ) :
    OnField k ((machine.trace c inp (n + 1)).food k) := by
  have h : ∀ n, Drawing (machine.trace c inp (n + 1)) ∧ ∀ k, OnField k ((machine.trace c inp (n + 1)).food k) := by
    intro n
    induction n with
    | zero =>
      refine ⟨Drawing.reset hr _, fun k => Or.inl ?_⟩
      change (machine.next c (inp 0)).food k = _
      rw [food, food_reset hr]
      rfl
    | succ n ih => exact ⟨ih.1.next _, foods_next ih.1 ih.2 _⟩
  exact (h n).2 k

/-- At power-up, with `KEY[1]` down. -/
def powerUp : Console :=
  ⟨⟨false, true, true, VgaController.init, Game.resetState⟩, MouseInterface.powerUp, ⟨0, 0, 0⟩, ⟨0, 0, 0⟩⟩

/-- The mouse holds its left button on the door of the start screen. -/
def ready : Console :=
  { powerUp with
    mouse := { MouseInterface.powerUp with mouse := { Mouse.powerUp with curX := 364, curY := 250, byte1 := 1 } } }

def hold (keycode : BitVec 16) (key0 : Bool) : In := ⟨key0, true, keycode, true, true⟩

/-- `KEY[0]` starts the scan anew, which makes a frame edge every five clocks. -/
def hurry (keycode : BitVec 16) : List In := hold keycode false :: List.replicate 4 (hold keycode true)

/-- The game starts; up and left (aw) for six frames and up (w) for 41, to slot 9. -/
def toSlotNine : List In :=
  List.replicate 3 (hold 0x041A true) ++
    (List.replicate 5 0x041A#16 ++ List.replicate 41 0x001A#16).flatMap hurry

/-- It is eaten, and put where the generators say. -/
theorem foods_on_field_toSlotNine :
    (machine.trace ready (fun n => toSlotNine.getD n (hold 0 true)) 233).board.game.food.regs.rscore = 1 ∧
      (machine.trace ready (fun n => toSlotNine.getD n (hold 0 true)) 233).food 9 ≠ RandomBall.resetPos 9 ∧
      OnField 9 ((machine.trace ready (fun n => toSlotNine.getD n (hold 0 true)) 233).food 9) := by
  have e := Machine.trace_getD machine ready toSlotNine (hold 0 true) 233 (by decide +kernel)
  have hs : (machine.run ready (toSlotNine.take 233)).board.game.food.regs.rscore = 1 := by decide +kernel
  have hf : (machine.run ready (toSlotNine.take 233)).food 9 ≠ RandomBall.resetPos 9 := by decide +kernel
  rw [← e] at hs hf
  exact ⟨hs, hf, foods_on_field (c := ready) rfl _ 9 232⟩

end Console

end Lab8
