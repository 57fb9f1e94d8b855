import Lab8.EnemyPursuit
import Lab8.Escape
import Lab8.Food
import Lab8.FrameStep
import Lab8.Keyboard
/-!
# Nobody wins by waiting

A game in which the player has stopped and touches neither an edge nor a food is lost, if no direction is pressed
any more: `enemy_ball3` is never put back by a player of at most seven, so it gets there.

* one frame leaves the player and the foods where they are and moves the enemy one step of its pursuit (`AtRest.next`);
* so the frame machine comes to a frame in which the player is touched (`AtRest.caught`);
* on the board the menu sees it (`standing_loses`).
-/

namespace Lab8

open Clocked Pursuit

/-- A ball that has stopped off the edges stays there until a direction is pressed. -/
theorem Ball.ff_rest (b : Bool) {i : Ball.In} (hr : i.reset = false) (hg : i.gameover = false)
    (h1 : i.isCollision1 = false) (h2 : i.isCollision2 = false) (hs : i.startSignal = false)
    (hk : i.keycode ∉ Ball.listed) {r : Ball.Regs} (he : ¬ Ball.AtEdge r) (hx : r.x.motion = 0)
    (hy : r.y.motion = 0) : Ball.ff b i r = r := by
  obtain ⟨hb, ht, hR, hl⟩ : ¬ Ball.bottomEdge r ∧ ¬ Ball.topEdge r ∧ ¬ Ball.rightEdge r ∧ ¬ Ball.leftEdge r := by
    simpa [Ball.AtEdge] using he
  have hm : Ball.motionIn r i.keycode = ⟨0, 0⟩ := by
    simp [Ball.motionIn_eq, Ball.KeyBranch.motion, Ball.edgeElse, Ball.keyBranch_of_not_listed hk, Ball.Drive.apply, hb, ht,
      hR, hl, hx, hy]
  have hmove : Ball.move r i.keycode = r := by
    rw [Ball.move, hm, Ball.Axis.move_rest Ball.xAxis hx, Ball.Axis.move_rest Ball.yAxis hy]
  cases b with
  | false => exact Ball.ff_hold hr r
  | true =>
    rw [Ball.ff_eq]
    simpa [Ball.act, Ball.Act.apply, Ball.Food.apply, hr, hg, h1, h2, hs] using hmove

/-- A frame in a game commits the combinational block of an enemy that is not caught. -/
theorem EnemyBall.ff_frame {E : EnemyBall.Enemy} {i : EnemyBall.In} (hr : i.reset = false) (hs : i.startSignal = false)
    {r : EnemyBall.Regs} (hc : (EnemyBall.comb E r i.X i.Y i.size).isCollision = false) :
    EnemyBall.ff E true i r = EnemyBall.move r (EnemyBall.comb E r i.X i.Y i.size) := by
  simp [EnemyBall.ff, hr, hs, hc]

namespace Banks

/-- The player has stopped clear of the edges and the foods, and is small. -/
structure AtRest (k : Banks) : Prop where
  motionX : k.ball.x.motion = 0
  motionY : k.ball.y.motion = 0
  off : ¬ Ball.AtEdge k.ball
  x : 20 ≤ k.ball.x.pos.toNat ∧ k.ball.x.pos.toNat ≤ 979
  y : 20 ≤ k.ball.y.pos.toNat ∧ k.ball.y.pos.toNat ≤ 779
  size : 3 ≤ k.ball.size.toNat ∧ k.ball.size.toNat < 8
  hungry : ∀ f, ¬ RandomBall.contact k.food k.ball.x.pos k.ball.y.pos f

/-- No direction is pressed, and the game is on. -/
structure In.Quiet (i : In) : Prop where
  keycode : i.keycode ∉ Ball.listed
  startSignal : i.startSignal = false

/-- The player, as `enemy_ball3` meets it. -/
def quarry (k : Banks) : EnemyBall.Quarry :=
  EnemyBall.quarry EnemyBall.enemyBall3 k.ball.x.pos k.ball.y.pos k.ball.size

theorem mem3 : EnemyBall.enemyBall3 ∈ EnemyBall.enemies := by simp [EnemyBall.enemies]

theorem AtRest.fair {k : Banks} (h : AtRest k) : k.quarry.Fair := by
  have hx := h.x
  have hy := h.y
  have hs := h.size
  have hr : EnemyBall.enemyBall3.radius = 8 := rfl
  refine ⟨?_, ?_, ?_, ?_⟩ <;> simp only [quarry, EnemyBall.quarry, hr] <;> omega

section
variable {k : Banks} (h : AtRest k)
include h

theorem AtRest.noFood (i : In) : (k.ballIn i).isCollision1 = false ∧ (k.ballIn i).isCollision2 = false := by
  have hh := h.hungry
  simp [ballIn, RandomBall.isCollision1, RandomBall.isCollision2, hh]

/-- The ball after a frame, which touches it too. -/
theorem AtRest.ball_next {i : In} (hi : i.Quiet) (hg : k.gameover = false) : (machine.next k i).ball = k.ball :=
  Ball.ff_rest true rfl hg (h.noFood i).1 (h.noFood i).2 hi.startSignal hi.keycode h.off h.motionX h.motionY

theorem AtRest.step {i : In} (hi : i.Quiet) (hg : k.gameover = false) : AtRest (machine.next k i) := by
  have eb := h.ball_next hi hg
  obtain ⟨fx, fy, fs⟩ : (machine.next k i).food.xPos = k.food.xPos ∧ (machine.next k i).food.yPos = k.food.yPos ∧
      (machine.next k i).food.bSize = k.food.bSize :=
    RandomBall.ff_untouched true (i := k.foodIn i) rfl h.hungry
  refine ⟨?_, ?_, ?_, ?_, ?_, ?_, fun f => ?_⟩ <;> rw [eb]
  · exact h.motionX
  · exact h.motionY
  · exact h.off
  · exact h.x
  · exact h.y
  · exact h.size
  · rw [RandomBall.contact, fx, fy, fs]
    exact h.hungry f

/-- The enemy takes a step of its pursuit. -/
theorem AtRest.enemy_next {i : In} (hi : i.Quiet) : (machine.next k i).enemy3 =
    EnemyBall.move k.enemy3 (k.enemyComb EnemyBall.enemyBall3 k.enemy3) :=
  EnemyBall.ff_frame (i := k.enemyIn i) rfl hi.startSignal (EnemyBall.not_isCollision k.enemy3 h.size.2)

/-- **A frame.** -/
theorem AtRest.next {i : In} (hi : i.Quiet) (hg : k.gameover = false)
    (hc : EnemyBall.Contained EnemyBall.enemyBall3 k.enemy3) :
    AtRest (machine.next k i) ∧ (machine.next k i).quarry = k.quarry ∧
      EnemyBall.Contained EnemyBall.enemyBall3 (machine.next k i).enemy3 ∧
      (machine.next k i).enemy3.view = k.quarry.step k.enemy3.view := by
  refine ⟨h.step hi hg, ?_, ?_, ?_⟩
  · rw [quarry, h.ball_next hi hg]
    rfl
  · rw [h.enemy_next hi]
    exact EnemyBall.contained_move mem3 hc _ _ _
  · rw [h.enemy_next hi]
    exact EnemyBall.view_move mem3 rfl hc h.size.2

/-- A player the enemy has caught has lost. -/
theorem AtRest.lost (hc : EnemyBall.Contained EnemyBall.enemyBall3 k.enemy3)
    (hq : k.quarry.Caught k.enemy3.view) : k.gameover = true := by
  have := (EnemyBall.caught_iff mem3 rfl hc h.size.2).2 hq
  simp only [gameover, enemyComb, this, Bool.or_true]

/-- Waiting is lost on the frame machine. -/
theorem AtRest.caught (hc : EnemyBall.Contained EnemyBall.enemyBall3 k.enemy3) {inp : ℕ → In}
    (hi : ∀ n, (inp n).Quiet) : ∃ n, (machine.trace k inp n).gameover = true := by
  have hin : k.quarry.Inside k.enemy3.view := hc.inside
  refine Reaches.ends (f := k.quarry.step) (G := k.quarry.Caught) (u := machine.trace k inp)
    (v := fun k' => k'.enemy3.view) (E := fun k' => k'.gameover = true)
    (Q := fun k' => AtRest k' ∧ k'.quarry = k.quarry ∧ EnemyBall.Contained EnemyBall.enemyBall3 k'.enemy3)
    ⟨h, rfl, hc⟩ (fun n hq hg => ?_) (fun k' hq hcaught => ?_) (EnemyBall.Quarry.reaches_caught h.fair hin)
  · obtain ⟨hr, eq, hc'⟩ := hq
    obtain ⟨nr, nq, nc, nv⟩ := hr.next (hi n) (Bool.eq_false_of_not_eq_true hg) hc'
    exact ⟨⟨nr, nq.trans eq, nc⟩, eq ▸ nv⟩
  · obtain ⟨hr, eq, hc'⟩ := hq
    exact hr.lost hc' (eq ▸ hcaught)

end

end Banks

namespace Board

open VgaController

variable {b : Board} {inp : ℕ → In}

/-- The game of a board runs by itself, fed with what the board drives. -/
theorem game_reachable (hb : b.resetB = true) :
    ∀ n, Game.machine.Reachable (Game.machine.AfterReset Game.In.reset) (machine.trace b inp (n + 1)).game
  | 0 => .init ⟨b.game, gameIn b (inp 0), hb, rfl⟩
  | n + 1 => (game_reachable hb n).step (gameIn (machine.trace b inp (n + 1)) (inp (n + 1)))

/-- And the enemy of a game. -/
theorem contained_trace (hb : b.resetB = true) (n : ℕ) :
    EnemyBall.Contained EnemyBall.enemyBall3 (machine.trace b inp (n + 1)).game.enemy3.regs :=
  EnemyBall.Reachable.contained Banks.mem3
    (Machine.Reachable.part (f := Game.enemy3) (g := Game.enemyIn) (fun _ _ => rfl) (fun _ _ => rfl) (game_reachable hb n))

/-- Left alone, the scan comes to line 490 and to the frame edge after it. -/
theorem exists_frameEdge (h0 : b.vga = init) {n : ℕ} (hr : ∀ t, n ≤ t → (machine.trace b inp t).resetH = false) :
    ∃ c s, n ≤ c ∧ c ≤ s ∧ (∀ e, Segment b inp c e) ∧ (machine.trace b inp s).frameEdge = true := by
  have hp := phase_lt (started_trace inp h0 n).inRange
  have hcount := fun e => counts_phase inp h0 (c := n) (e := e) fun j hj _ => hr j hj
  obtain ⟨d, hd⟩ : ∃ d, ((machine.trace b inp n).phase + d) % 840000 = 784000 :=
    ⟨784000 + 840000 - (machine.trace b inp n).phase, by omega⟩
  have hc := (hcount (n + d)).add le_rfl hp d le_rfl
  have hs := (hcount (n + (d + 3200))).add le_rfl hp (d + 3200) le_rfl
  rw [hd] at hc
  have hline : (machine.trace b inp (n + d)).vga.vCounter = 490 := by
    obtain ⟨h1, h2⟩ := (started_trace (b := b) inp h0 (n + d)).inRange
    apply BitVec.eq_of_toNat_eq
    change _ = 490
    unfold phase pixel at hc
    split at hc <;> omega
  have hseg : ∀ e, Segment b inp (n + d) e := fun e => ⟨hline, fun j hj _ => hr j (by omega)⟩
  refine ⟨n + d, n + (d + 3200), by omega, by omega, hseg, ?_⟩
  rw [(hseg (n + (d + 3200))).frameEdge_iff h0 (by omega) le_rfl, hs]
  omega

/-- A clock of a game that goes on with the player at rest. -/
theorem atRest_next {b : Board} {i : In} (ha : Game.EdgesAgree b.game) (hf : b.game.fsm = .ingame)
    (h : b.game.banks.AtRest) (hr : b.resetB = false) (hk : i.keycode ∉ Ball.listed) (hg : b.game.gameover = false) :
    (machine.next b i).game.banks.AtRest := by
  cases he : b.game.frameEdge (b.gameIn i) with
  | true =>
    have e : (machine.next b i).game.banks = _ := Game.banks_frame ha he hr
    have hs : b.game.startSignal = false := by
      rw [Game.startSignal, hf]
      rfl
    rw [e]
    exact h.step ⟨hk, hs⟩ (by rw [Game.gameover_banks, hg])
  | false =>
    have e : (machine.next b i).game.banks = b.game.banks := (Game.banks_hold ha he hr).banks
    rw [e]
    exact h

section
variable {n : ℕ} (hn : 0 < n) (hi : (machine.trace b inp n).game.fsm = .ingame)
  (h : (machine.trace b inp n).game.banks.AtRest) (hr : ∀ t, n ≤ t → (machine.trace b inp t).resetB = false)
  (hk : ∀ t, n ≤ t → (inp t).keycode ∉ Ball.listed)
include hn hi h hr hk

/-- A player who waits and does not lose waits for ever. -/
theorem waits (hno : ∀ t, n ≤ t → (machine.trace b inp t).game.fsm ≠ .gameoverState) :
    ∀ t, n ≤ t → (machine.trace b inp t).game.fsm = .ingame ∧ (machine.trace b inp t).game.banks.AtRest ∧
      (machine.trace b inp t).game.gameover = false := by
  have goes : ∀ t, n ≤ t → (machine.trace b inp t).game.fsm = .ingame →
      (machine.trace b inp (t + 1)).game.fsm = .ingame ∧ (machine.trace b inp t).game.gameover = false := by
    intro t ht hf
    have e : (machine.trace b inp (t + 1)).game.fsm = _ :=
      Game.fsm_inGame (i := gameIn (machine.trace b inp t) (inp t)) hf (hr t ht)
    have hne := hno (t + 1) (by omega)
    cases hg : (machine.trace b inp t).game.gameover with
    | true => exact absurd (by rw [e, hg]; rfl) hne
    | false => exact ⟨by rw [e, hg]; rfl, rfl⟩
  intro t ht
  have rests : (machine.trace b inp t).game.fsm = .ingame ∧ (machine.trace b inp t).game.banks.AtRest := by
    induction t, ht using Nat.le_induction with
    | base => exact ⟨hi, h⟩
    | succ t ht ih =>
      obtain ⟨u, rfl⟩ := Nat.exists_eq_succ_of_ne_zero (show t ≠ 0 by omega)
      obtain ⟨hf, hg⟩ := goes _ ht ih.1
      exact ⟨hf, atRest_next (Game.edgesAgree_next _ _) ih.1 ih.2 (hr _ ht) (hk _ ht) hg⟩
  exact ⟨rests.1, rests.2, (goes t ht rests.1).2⟩

/-- **Waiting.** On a board that has been reset, a game in which the player has stopped clear of the edges and the
foods with a size below 8 comes to the game-over screen if no direction is pressed and no button is, whatever the mouse
and the generators do. -/
theorem standing_loses (h0 : b.vga = init) (hb : b.resetB = true)
    (hh : ∀ t, n ≤ t → (machine.trace b inp t).resetH = false) :
    ∃ t, n ≤ t ∧ (machine.trace b inp t).game.fsm = .gameoverState := by
  by_contra hno
  have hno : ∀ t, n ≤ t → (machine.trace b inp t).game.fsm ≠ .gameoverState := fun t ht hf => hno ⟨t, ht, hf⟩
  have hw := waits hn hi h hr hk hno
  obtain ⟨c, s, hnc, hcs, hseg, hf⟩ := exists_frameEdge h0 hh
  have quiet : ∀ m, (samples b inp s m).Quiet := by
    intro m
    have hm : n ≤ s + 840000 * (m + 1) := by omega
    refine ⟨hk _ hm, ?_⟩
    simp only [samples, sample, Game.startSignal, (hw _ hm).1]
    rfl
  obtain ⟨m, hm⟩ := (hw (s + 1) (by omega)).2.1.caught (contained_trace hb s) quiet
  have hlast := banks_trace h0 (hseg (s + 1 + 840000 * m)) hcs hf (fun t ht _ => hr t (by omega))
    (show s < s + 1 + 840000 * m by omega) le_rfl
  have hq : (s + 1 + 840000 * m - (s + 1)) / 840000 = m := by omega
  rw [hq] at hlast
  have hlost := (hw (s + 1 + 840000 * m) (by omega)).2.2
  rw [← Game.gameover_banks, hlast, hm] at hlost
  exact Bool.noConfusion hlost

end

/-- A click on the door of the start screen, kept up. -/
def door : In := ⟨true, true, 0, 364, 250, true, false, 0, 0⟩

def reset : Board := { powerUp with resetB := true }

theorem reset_buttons (n : ℕ) : (machine.trace reset (fun _ => door) (n + 1)).resetB = false ∧
    (machine.trace reset (fun _ => door) (n + 1)).resetH = false := ⟨rfl, rfl⟩

/-- Waiting where the ball starts. -/
theorem standing_loses_door : ∃ t, 2 ≤ t ∧ (machine.trace reset (fun _ => door) t).game.fsm = .gameoverState := by
  have hb : ∀ t, 2 ≤ t → (machine.trace reset (fun _ => door) t).resetB = false ∧
      (machine.trace reset (fun _ => door) t).resetH = false := fun t ht => by
    obtain ⟨u, rfl⟩ := Nat.exists_eq_succ_of_ne_zero (show t ≠ 0 by omega)
    exact reset_buttons u
  have he : ¬ Ball.AtEdge (machine.trace reset (fun _ => door) 2).game.banks.ball := by
    unfold Ball.AtEdge
    decide
  refine standing_loses (by omega) (by decide) ⟨by decide, by decide, he, by decide, by decide, by decide, ?_⟩
    (fun t ht => (hb t ht).1) (fun _ _ => by decide) rfl rfl fun t ht => (hb t ht).2
  decide

end Board

end Lab8
