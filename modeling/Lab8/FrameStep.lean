import Lab8.Frames
import Lab8.Lib.Divided
/-!
# The game, frame by frame

The board is clocked at 50 MHz and the game on it moves sixty times a second. `Banks.machine` is that game: all
objects move at once, each from where the others were, and all that comes in is what a frame edge samples. Between
two resets the banks of the board are its run, every state held for 840000 clocks (`refines`).

| here | there |
| --- | --- |
| `Banks` | the registers of the six game objects |
| `Banks.In`, `samples` | what they read at the frame edges besides each other |
-/

namespace Lab8

open Clocked

structure Banks where
  ball : Ball.Regs
  enemy1 : EnemyBall.Regs
  enemy2 : EnemyBall.Regs
  enemy3 : EnemyBall.Regs
  aiball : AIball.Regs
  food : RandomBall.Regs

namespace Banks

structure In where
  keycode : BitVec 16
  startSignal : Bool
  randomx : BitVec 10
  randomy : BitVec 10

def enemyComb (k : Banks) (E : EnemyBall.Enemy) (r : EnemyBall.Regs) : EnemyBall.Comb :=
  EnemyBall.comb E r k.ball.x.pos k.ball.y.pos k.ball.size

/-- Some enemy touches a player that is not larger than it is. -/
def gameover (k : Banks) : Bool :=
  (k.enemyComb EnemyBall.enemyBall1 k.enemy1).gameover || (k.enemyComb EnemyBall.enemyBall2 k.enemy2).gameover ||
    (k.enemyComb EnemyBall.enemyBall3 k.enemy3).gameover

def ballIn (k : Banks) (i : In) : Ball.In where
  reset := false
  frameClk := true
  keycode := i.keycode
  isCollision1 := RandomBall.isCollision1 k.food k.ball.x.pos k.ball.y.pos
  isCollision2 := RandomBall.isCollision2 k.food k.ball.x.pos k.ball.y.pos
  gameover := k.gameover
  startSignal := i.startSignal

def enemyIn (k : Banks) (i : In) : EnemyBall.In := ⟨false, true, k.ball.x.pos, k.ball.y.pos, k.ball.size, i.startSignal⟩

def aiballIn (k : Banks) : AIball.In := ⟨false, true, k.ball.x.pos, k.ball.y.pos, k.ball.size⟩

def foodIn (k : Banks) (i : In) : RandomBall.In :=
  ⟨false, true, k.ball.x.pos, k.ball.y.pos, i.randomx, i.randomy, i.startSignal⟩

/-- One frame. -/
def machine : Machine In Banks where
  next k i :=
    { ball := Ball.ff true (k.ballIn i) k.ball
      enemy1 := EnemyBall.ff EnemyBall.enemyBall1 true (k.enemyIn i) k.enemy1
      enemy2 := EnemyBall.ff EnemyBall.enemyBall2 true (k.enemyIn i) k.enemy2
      enemy3 := EnemyBall.ff EnemyBall.enemyBall3 true (k.enemyIn i) k.enemy3
      aiball := AIball.ff true k.aiballIn k.aiball
      food := RandomBall.ff true (k.foodIn i) k.food }

end Banks

namespace Game

def banks (g : Game) : Banks :=
  ⟨g.ball.regs, g.enemy1.regs, g.enemy2.regs, g.enemy3.regs, g.aiball.regs, g.food.regs⟩

theorem SameBanks.banks {g g' : Game} (h : SameBanks g g') : g'.banks = g.banks := by
  simp only [Game.banks, h.ball, h.enemy1, h.enemy2, h.enemy3, h.aiball, h.food]

theorem gameover_banks (g : Game) : g.banks.gameover = g.gameover := rfl

/-- A frame edge is one step of the frame machine. -/
theorem banks_frame {g : Game} (h : EdgesAgree g) {i : In} (he : g.frameEdge i = true) (hr : i.reset = false) :
    (machine.next g i).banks = Banks.machine.next g.banks ⟨i.keycode, g.startSignal, i.randomx, i.randomy⟩ := by
  have hf : i.frameClk = true := (Bool.and_eq_true _ _ ▸ he).1
  obtain ⟨e1, e2, e3, e4, e5, e6⟩ := banksAfter_next h i
  rw [he] at e1 e2 e3 e4 e5 e6
  simp only [banks, e1, e2, e3, e4, e5, e6, Banks.machine, ballIn, enemyIn, aiballIn, foodIn, hf, hr]
  rfl

/-- In the game, the menu only looks at the enemies. -/
theorem fsm_inGame {g : Game} {i : In} (h : g.fsm = .ingame) (hr : i.reset = false) :
    (machine.next g i).fsm = if g.gameover then .gameoverState else .ingame := by
  change Gamestate.ff g.fsm (g.fsmIn i) = _
  rw [h, Gamestate.ff, if_neg (by simp [fsmIn, hr])]
  rfl

end Game

namespace Board

open VgaController

def sample (b : Board) (i : In) : Banks.In := ⟨i.keycode, b.game.startSignal, i.randomx, i.randomy⟩

/-- What the frame edges after the one at `s` sample. -/
def samples (b : Board) (inp : ℕ → In) (s k : ℕ) : Banks.In :=
  sample (machine.trace b inp (s + 840000 * (k + 1))) (inp (s + 840000 * (k + 1)))

variable {b : Board} {inp : ℕ → In}

section
variable (h0 : b.vga = init) {c e s : ℕ} (hs : Segment b inp c e) (hcs : c ≤ s)
  (hf : (machine.trace b inp s).frameEdge = true)
include h0 hs hcs hf

/-- The phases, counted from a frame edge. -/
theorem phase_since {d : ℕ} (hd : s + d ≤ e) : (machine.trace b inp (s + d)).phase = (787200 + d) % 840000 := by
  have hp := (hs.frameEdge_iff h0 hcs (by omega)).1 hf
  have h := (counts_phase inp h0 hs.resetH).add hcs (phase_lt (started_trace inp h0 s).inRange) d hd
  rw [h, hp]

/-- Frame edges are a frame apart. -/
theorem frameEdge_since {d : ℕ} (hd : s + d ≤ e) : (machine.trace b inp (s + d)).frameEdge = true ↔ d % 840000 = 0 := by
  rw [hs.frameEdge_iff h0 (by omega) hd, phase_since h0 hs hcs hf hd]
  omega

variable (hr : ∀ t, s < t → t < e → (machine.trace b inp t).resetB = false)
include hr

theorem banks_trace {t : ℕ} (hst : s < t) (hte : t ≤ e) : (machine.trace b inp t).game.banks =
    Banks.machine.trace (machine.trace b inp (s + 1)).game.banks (samples b inp s) ((t - (s + 1)) / 840000) := by
  obtain ⟨d, rfl⟩ := Nat.exists_eq_add_of_le (Nat.succ_le_of_lt hst)
  rw [Nat.succ_eq_add_one] at hte ⊢
  rw [Nat.add_sub_cancel_left]
  refine Machine.trace_divided (M := machine) (f := fun b => b.game.banks) (by decide) (fun k hk => ?_)
    (fun d hd hne => ?_) hte
  · have hc : s + 1 + 840000 * (k + 1) = s + 840000 * (k + 1) + 1 := Nat.add_right_comm s 1 _
    rw [hc] at hk ⊢
    have he : (machine.trace b inp (s + 840000 * (k + 1))).frameEdge = true := by
      rw [frameEdge_since h0 hs hcs hf (Nat.le_of_succ_le hk)]
      omega
    rw [Nat.add_sub_cancel, samples]
    -- otherwise the kernel counts the clocks
    obtain ⟨t, ht⟩ : ∃ t, t = s + 840000 * (k + 1) := ⟨_, rfl⟩
    rw [← ht] at he hk ⊢
    exact Game.banks_frame (hs.edgesAgree h0 (t := t) (by omega)) (i := gameIn _ _) he (hr t (by omega) (by omega))
  · have hno : (machine.trace b inp (s + 1 + d)).frameEdge = false := by
      rw [← Bool.not_eq_true, Nat.add_assoc, Nat.add_comm 1 d, frameEdge_since h0 hs hcs hf (by omega)]
      exact hne
    exact (Game.banks_hold (hs.edgesAgree h0 (t := s + 1 + d) (by omega)) (i := gameIn _ _) hno
      (hr _ (by omega) (by omega))).banks

/-- **Sixty hertz.** After a frame edge and up to a reset, the board is in the `n`-th frame where the frame machine is
after `n` steps, with the samples of the frame edges, and whether a player has lost there can be read off the frame. -/
theorem refines {n t : ℕ} (hst : s + 840000 * n < t) (htn : t ≤ s + 840000 * (n + 1)) (hte : t ≤ e) :
    (machine.trace b inp t).game.banks =
        Banks.machine.trace (machine.trace b inp (s + 1)).game.banks (samples b inp s) n ∧
      (machine.trace b inp t).game.gameover =
        (Banks.machine.trace (machine.trace b inp (s + 1)).game.banks (samples b inp s) n).gameover := by
  have hlt : s < t := by omega
  have hn : (t - (s + 1)) / 840000 = n := by omega
  have h := banks_trace h0 hs hcs hf hr hlt hte
  rw [hn] at h
  rw [← Game.gameover_banks, h]
  exact ⟨rfl, rfl⟩

end

/-! ## A game -/

/-- What a frame edge of the game samples. -/
def right : Banks.In := ⟨0x0007, false, 0, 0⟩

/-- The game at clock `t`, with nothing caught yet. -/
structure Plays (t : ℕ) (k : Banks) : Prop where
  late : 3 ≤ t
  banks : (play t).game.banks = k
  fsm : (play t).game.fsm = .ingame
  gameover : k.gameover = false

section
variable {t : ℕ} {k : Banks} (h : Plays t k)
include h

theorem Plays.fsm_next : (play (t + 1)).game.fsm = .ingame := by
  have e := Game.fsm_inGame (i := gameIn (play t) playing) h.fsm (play_reset t).2
  rw [← Game.gameover_banks, h.banks, h.gameover] at e
  exact e

theorem Plays.edgesAgree : Game.EdgesAgree (play t).game := by
  obtain ⟨u, rfl⟩ := Nat.exists_eq_succ_of_ne_zero (Nat.ne_of_gt (Nat.lt_of_lt_of_le (by decide) h.late))
  exact Game.edgesAgree_next _ _

/-- Up to the next frame edge. -/
theorem Plays.still {n : ℕ} (htn : t ≤ n) (hno : ∀ u, t ≤ u → u < n → u % 840000 ≠ 787200) : Plays n k := by
  induction n, htn using Nat.le_induction with
  | base => exact h
  | succ n htn ih =>
    have ih := ih fun u h1 h2 => hno u h1 (by omega)
    have he : (play n).frameEdge = false := by
      rw [← Bool.not_eq_true, play_frameEdge_iff ih.late]
      exact hno n htn (Nat.lt_succ_self n)
    have hs := Game.banks_hold ih.edgesAgree (i := gameIn _ playing) he (play_reset n).2
    exact ⟨Nat.le_succ_of_le ih.late, hs.banks.trans ih.banks, ih.fsm_next, ih.gameover⟩

theorem Plays.sample : sample (play t) playing = right := by
  have hs : (play t).game.startSignal = false := by
    rw [Game.startSignal, h.fsm]
    rfl
  rw [Board.sample, hs]
  rfl

/-- A frame edge. -/
theorem Plays.step (he : t % 840000 = 787200) (hg : (Banks.machine.next k right).gameover = false) :
    Plays (t + 1) (Banks.machine.next k right) := by
  refine ⟨Nat.le_succ_of_le h.late, ?_, h.fsm_next, hg⟩
  have e := Game.banks_frame h.edgesAgree (i := gameIn _ playing) ((play_frameEdge_iff h.late).2 he) (play_reset t).2
  rw [← h.banks, ← h.sample]
  exact e

end

/-- Where the banks are after `n` frames. -/
def banksAfter (n : ℕ) : Banks := Banks.machine.trace Game.resetState.banks (fun _ => right) n

theorem plays_first : Plays 3 (banksAfter 1) := by
  refine ⟨le_rfl, ?_, by decide, by decide +kernel⟩
  have e0 := Game.banks_hold (g := powerUp.game) (i := gameIn powerUp playing) ⟨rfl, rfl, rfl, rfl, rfl⟩ rfl rfl
  have e1 := Game.banks_hold (g := (play 1).game) (i := gameIn (play 1) playing) (Game.edgesAgree_next _ _) (by decide) rfl
  have e2 := Game.banks_frame (g := (play 2).game) (i := gameIn (play 2) playing) (Game.edgesAgree_next _ _) (by decide) rfl
  have e := e1.banks.trans e0.banks
  exact e2.trans (congrArg (Banks.machine.next · right) e)

/-- After the first frame edge past line 490. -/
theorem plays_second : Plays (787200 + 1) (banksAfter 2) :=
  (plays_first.still (n := 787200) (by omega) fun u _ hu => by omega).step (by omega) (by decide +kernel)

/-- In the frame after that the ball has moved twice, by three. -/
theorem refines_playing :
    (play 2000000).game.banks.ball.x.pos = 326 ∧ (play 2000000).game.gameover = false := by
  obtain ⟨hb, hg⟩ := refines (b := powerUp) (n := 1) rfl (play_segment rfl 4000000) (by omega)
    ((play_frameEdge_iff (t := 787200) (by omega)).2 (by omega)) (fun t _ _ => (play_reset t).2)
    (t := 2000000) (by omega) (by omega) (by omega)
  have hs : samples powerUp (fun _ => playing) 787200 0 = right :=
    (plays_second.still (n := 787200 + 840000 * (0 + 1)) (by omega) fun u h1 h2 => by omega).sample
  have e : Banks.machine.trace (banksAfter 2) (samples powerUp (fun _ => playing) 787200) 1 = banksAfter 3 :=
    congrArg (Banks.machine.next (banksAfter 2)) hs
  rw [plays_second.banks, e] at hb hg
  rw [hb, hg]
  exact ⟨by decide +kernel, by decide +kernel⟩

end Board

end Lab8
