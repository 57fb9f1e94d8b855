import Mathlib.Data.Nat.Find
import Lab8.Game
/-!
# Starting a game

`start_signal` puts the player, the score and the enemies back, but in every module its branch comes after
the collision branches (ball.sv:143 after :105 and :124, random_ball.sv:220 after :143 and :181,
enemy_ball.sv:90 after :82). So a frame edge of the start screen at which the player touches a food, or an
enemy that counts as eaten, scores instead of restarting, and a click before the next frame edge starts a
game from what it leaves.
-/

namespace Lab8.Game

open Clocked Gamestate

/-! ## Fresh and caught -/

/-- The player's registers and all four scores as `Reset` leaves them. -/
structure Fresh (g : Game) : Prop where
  ball : g.ball.regs = Ball.init
  rscore : g.food.regs.rscore = 0
  escore1 : g.enemy1.regs.escore = 0
  escore2 : g.enemy2.regs.escore = 0
  escore3 : g.enemy3.regs.escore = 0

/-- The player touches a food, or an enemy that is eaten. -/
def Caught (g : Game) : Prop :=
  g.isCollision1 = true ∨ g.isCollision2 = true ∨
    (g.enemyComb EnemyBall.enemyBall1 g.enemy1).isCollision = true ∨
    (g.enemyComb EnemyBall.enemyBall2 g.enemy2).isCollision = true ∨
    (g.enemyComb EnemyBall.enemyBall3 g.enemy3).isCollision = true

instance (g : Game) : Decidable (Caught g) := inferInstanceAs (Decidable (_ ∨ _ ∨ _ ∨ _ ∨ _))

theorem ballFf_of_start {b : Bool} {i : Ball.In} {r : Ball.Regs} (hb : b = true) (hs : i.startSignal = true)
    (h1 : i.isCollision1 = false) (h2 : i.isCollision2 = false) : Ball.ff b i r = Ball.init := by
  simp [Ball.ff, hb, hs, h1, h2]

theorem foodFf_of_start {b : Bool} {i : RandomBall.In} {r : RandomBall.Regs} (hb : b = true)
    (hs : i.startSignal = true) (h1 : RandomBall.isCollision1 r i.ballX i.ballY = false)
    (h2 : RandomBall.isCollision2 r i.ballX i.ballY = false) : (RandomBall.ff b i r).rscore = 0 := by
  cases hr : i.reset with
  | true => rw [RandomBall.ff_reset hr]; rfl
  | false => simp [RandomBall.ff, hr, hb, hs, h1, h2]

theorem enemyFf_of_start {E : EnemyBall.Enemy} {b : Bool} {i : EnemyBall.In} {r : EnemyBall.Regs}
    (hb : b = true) (hs : i.startSignal = true)
    (hc : (EnemyBall.comb E r i.X i.Y i.size).isCollision = false) : (EnemyBall.ff E b i r).escore = 0 := by
  cases hr : i.reset with
  | true => rw [EnemyBall.ff_reset hr]; rfl
  | false => simp [EnemyBall.ff, EnemyBall.recentre, hr, hb, hs, hc]

/-- `Reset` leaves a fresh state. -/
theorem fresh_of_reset {i : In} (hr : i.reset = true) {g : Game} (h : EdgesAgree g) :
    Fresh (machine.next g i) := by
  obtain ⟨e1, e3, e4, e5, -, e2⟩ := banksAfter_next h i
  constructor
  · rw [e1]; exact Ball.ff_reset (i := g.ballIn i) hr _ _
  · rw [e2, RandomBall.ff_reset (i := g.foodIn i) hr]; rfl
  · rw [e3, EnemyBall.ff_reset (i := g.enemyIn i) hr]; rfl
  · rw [e4, EnemyBall.ff_reset (i := g.enemyIn i) hr]; rfl
  · rw [e5, EnemyBall.ff_reset (i := g.enemyIn i) hr]; rfl

/-- A frame edge of the start screen that catches nothing leaves a fresh state. -/
theorem fresh_of_frame {g : Game} (h : EdgesAgree g) {i : In} (he : g.frameEdge i = true)
    (hs : g.fsm = .start) (hc : ¬ Caught g) : Fresh (machine.next g i) := by
  obtain ⟨e1, e3, e4, e5, -, e2⟩ := banksAfter_next h i
  simp only [Caught, not_or, Bool.not_eq_true] at hc
  obtain ⟨c1, c2, c3, c4, c5⟩ := hc
  have hst : g.startSignal = true := by
    unfold startSignal Gamestate.startSignal; rw [hs]; rfl
  constructor
  · rw [e1]; exact ballFf_of_start (i := g.ballIn i) he hst c1 c2
  · rw [e2]; exact foodFf_of_start (i := g.foodIn i) he hst c1 c2
  · rw [e3]; exact enemyFf_of_start (i := g.enemyIn i) he hst c3
  · rw [e4]; exact enemyFf_of_start (i := g.enemyIn i) he hst c4
  · rw [e5]; exact enemyFf_of_start (i := g.enemyIn i) he hst c5

theorem Fresh.hold {g : Game} (hf : Fresh g) (h : EdgesAgree g) {i : In} (he : g.frameEdge i = false) :
    Fresh (machine.next g i) := by
  cases hr : i.reset with
  | true => exact fresh_of_reset hr h
  | false =>
    obtain ⟨e1, e3, e4, e5, -, e2⟩ := banks_hold h he hr
    exact ⟨e1 ▸ hf.ball, e2 ▸ hf.rscore, e3 ▸ hf.escore1, e4 ▸ hf.escore2, e5 ▸ hf.escore3⟩

/-- No score is so high that a catch takes it back to zero. -/
structure NoWrap (g : Game) : Prop where
  rscore : g.food.regs.rscore ≠ 0xFFFF
  escore1 : g.enemy1.regs.escore ≠ 0xFFFD
  escore2 : g.enemy2.regs.escore ≠ 0xFFFD
  escore3 : g.enemy3.regs.escore ≠ 0xFFFD

theorem foodFf_of_caught {b : Bool} {i : RandomBall.In} {r : RandomBall.Regs} (hb : b = true)
    (hr : i.reset = false)
    (hc : RandomBall.isCollision1 r i.ballX i.ballY = true ∨ RandomBall.isCollision2 r i.ballX i.ballY = true)
    (hw : r.rscore ≠ 0xFFFF) : (RandomBall.ff b i r).rscore ≠ 0 := by
  have hne : r.rscore + 1 ≠ 0 := by bv_omega
  subst hb
  unfold RandomBall.ff
  cases h1 : RandomBall.isCollision1 r i.ballX i.ballY with
  | true => simpa [hr] using hne
  | false =>
    have h2 := hc.resolve_left (by simp [h1])
    simpa [hr, h2] using hne

theorem enemyFf_of_caught {E : EnemyBall.Enemy} {b : Bool} {i : EnemyBall.In} {r : EnemyBall.Regs}
    (hb : b = true) (hr : i.reset = false) (hc : (EnemyBall.comb E r i.X i.Y i.size).isCollision = true)
    (hw : r.escore ≠ 0xFFFD) : (EnemyBall.ff E b i r).escore ≠ 0 := by
  have hne : r.escore + 3 ≠ 0 := by bv_omega
  simpa [EnemyBall.ff, hb, hr, hc] using hne

/-- Between frame edges a fresh state was fresh before. -/
theorem Fresh.of_hold {g : Game} (h : EdgesAgree g) {i : In} (he : g.frameEdge i = false)
    (hr : i.reset = false) (hf : Fresh (machine.next g i)) : Fresh g := by
  obtain ⟨e1, e3, e4, e5, -, e2⟩ := banks_hold h he hr
  exact ⟨e1 ▸ hf.ball, e2 ▸ hf.rscore, e3 ▸ hf.escore1, e4 ▸ hf.escore2, e5 ▸ hf.escore3⟩

/-! ## Runs -/

section
variable (g : Game) (inp : ℕ → In)

/-- Edge `n` takes the menu from `start` to `ingame`. -/
def Starts (n : ℕ) : Prop :=
  (machine.trace g inp n).fsm = .start ∧ (machine.trace g inp (n + 1)).fsm = .ingame

/-- Edge `k` is a frame edge of the stay in `start` that edge `n` belongs to. -/
def FrameInStay (k n : ℕ) : Prop :=
  (∀ j, k ≤ j → j ≤ n → (machine.trace g inp j).fsm = .start) ∧
    (machine.trace g inp k).frameEdge (inp k) = true

/-- The last one. -/
def LastFrame (k n : ℕ) : Prop :=
  k ≤ n ∧ FrameInStay g inp k n ∧ ∀ j, k < j → j ≤ n → (machine.trace g inp j).frameEdge (inp j) = false

/-- `Reset` at edge `k` or between it and edge `n`. -/
def ResetSince (k n : ℕ) : Prop := ∃ j, k ≤ j ∧ j ≤ n ∧ (inp j).reset = true

end

variable {g : Game} {inp : ℕ → In}

theorem exists_lastFrame {k n : ℕ} (hk : k ≤ n) (h : FrameInStay g inp k n) :
    ∃ l, LastFrame g inp l n := by
  classical
  have hl := Nat.findGreatest_spec (P := fun j => FrameInStay g inp j n) hk h
  refine ⟨_, Nat.findGreatest_le n, hl, fun j hlj hjn => ?_⟩
  have hj := Nat.findGreatest_is_greatest hlj hjn
  rw [← Bool.not_eq_true]
  exact fun he => hj ⟨fun m hm hn => hl.1 m (by omega) hn, he⟩

/-- A fresh state stays fresh up to the next frame edge. -/
theorem fresh_until (hg : machine.AfterReset In.reset g) {j n : ℕ} (hjn : j ≤ n)
    (hlast : ∀ m, j < m → m ≤ n → (machine.trace g inp m).frameEdge (inp m) = false)
    (hf : Fresh (machine.trace g inp (j + 1))) : Fresh (machine.trace g inp (n + 1)) := by
  induction n, hjn using Nat.le_induction with
  | base => exact hf
  | succ n hn ih =>
    have hf := ih fun m h1 h2 => hlast m h1 (by omega)
    exact hf.hold (edgesAgree_trace hg inp (n + 1)) (hlast (n + 1) (by omega) le_rfl)

theorem fresh_of_last (hg : machine.AfterReset In.reset g) {k n : ℕ} (hl : LastFrame g inp k n)
    (hc : ResetSince inp k n ∨ ¬ Caught (machine.trace g inp k)) : Fresh (machine.trace g inp (n + 1)) := by
  obtain ⟨hkn, ⟨hstay, hedge⟩, hlast⟩ := hl
  have hagree := edgesAgree_trace hg inp
  rcases hc with ⟨j, hkj, hjn, hr⟩ | hc
  · exact fresh_until hg hjn (fun m h1 h2 => hlast m (by omega) h2) (fresh_of_reset hr (hagree j))
  · exact fresh_until hg hkn hlast (fresh_of_frame (hagree k) hedge (hstay k le_rfl hkn) hc)

/-- **A fresh start.** In a run whose games are started after a last frame edge that caught nothing, or after a `Reset`
since then, every game that is started after a frame edge in the menu starts fresh. -/
theorem fresh_start (hg : machine.AfterReset In.reset g)
    (h : ∀ n k, Starts g inp n → LastFrame g inp k n → ResetSince inp k n ∨ ¬ Caught (machine.trace g inp k)) :
    ∀ n, Starts g inp n → (∃ k, k ≤ n ∧ FrameInStay g inp k n) → Fresh (machine.trace g inp (n + 1)) := by
  rintro n hn ⟨k, hk, hf⟩
  obtain ⟨l, hl⟩ := exists_lastFrame hk hf
  exact fresh_of_last hg hl (h n l hn hl)

/-- Conversely a catch leaves a score behind, until the next frame edge or `Reset`. -/
theorem not_fresh_of_caught {g : Game} (h : EdgesAgree g) {i : In} (he : g.frameEdge i = true)
    (hr : i.reset = false) (hc : Caught g) (hw : NoWrap g) : ¬ Fresh (machine.next g i) := by
  obtain ⟨-, e3, e4, e5, -, e2⟩ := banksAfter_next h i
  obtain ⟨w0, w1, w2, w3⟩ := hw
  rintro ⟨-, f2, f3, f4, f5⟩
  rw [e2] at f2
  rw [e3] at f3
  rw [e4] at f4
  rw [e5] at f5
  have hfood : ¬ (g.isCollision1 = true ∨ g.isCollision2 = true) := fun hc =>
    foodFf_of_caught (i := g.foodIn i) he hr hc w0 f2
  rcases hc with hc | hc | hc | hc | hc
  · exact hfood (Or.inl hc)
  · exact hfood (Or.inr hc)
  · exact enemyFf_of_caught (i := g.enemyIn i) he hr hc w1 f3
  · exact enemyFf_of_caught (i := g.enemyIn i) he hr hc w2 f4
  · exact enemyFf_of_caught (i := g.enemyIn i) he hr hc w3 f5

/-- Short of a score about to wrap, the state a game starts from is fresh exactly when the last frame edge
caught nothing or `Reset` came since. -/
theorem fresh_iff_of_last (hg : machine.AfterReset In.reset g) {k n : ℕ} (hl : LastFrame g inp k n)
    (hw : NoWrap (machine.trace g inp k)) :
    Fresh (machine.trace g inp (n + 1)) ↔ ResetSince inp k n ∨ ¬ Caught (machine.trace g inp k) := by
  refine ⟨fun hf => ?_, fresh_of_last hg hl⟩
  by_cases hs : ResetSince inp k n
  · exact Or.inl hs
  refine Or.inr fun hc => ?_
  have hr : ∀ j, k ≤ j → j ≤ n → (inp j).reset = false := fun j h1 h2 =>
    Bool.eq_false_of_not_eq_true fun hj => hs ⟨j, h1, h2, hj⟩
  obtain ⟨hkn, ⟨-, hedge⟩, hlast⟩ := hl
  have hagree := edgesAgree_trace hg inp
  refine not_fresh_of_caught (hagree k) hedge (hr k le_rfl hkn) hc hw ?_
  clear hs hw hc hedge
  induction n, hkn using Nat.le_induction with
  | base => exact hf
  | succ n hkn ih =>
    refine ih ?_ (fun j h1 h2 => hr j h1 (by omega)) fun j h1 h2 => hlast j h1 (by omega)
    exact Fresh.of_hold (hagree (n + 1)) (hlast (n + 1) (by omega) le_rfl) (hr (n + 1) (by omega) le_rfl) hf

/-! ## A late catch -/

/-- The random generators hold (320, 240), the player's own starting place. -/
def press (keycode : BitVec 16) (frameClk : Bool) : In :=
  ⟨false, frameClk, keycode, 0, 0, false, false, 320, 240⟩

def click (mouseX mouseY : BitVec 10) : In := ⟨false, false, 0, mouseX, mouseY, true, false, 320, 240⟩

/-- Start; left (a) for 37 frames, up and left (aw) for 45, up (w) for 3, eating slots 10 and 6 on the way
to the first enemy; one frame after it, restart. Then a frame edge in the menu and a click. -/
def lateCatch : List In :=
  click 361 250 ::
    (List.replicate 37 0x0004#16 ++ List.replicate 45 0x041A#16 ++ List.replicate 3 0x001A#16).flatMap
      (fun k => [press k false, press k true]) ++
    [press 0 false, press 0 true, click 107 340, press 0 true, click 361 250]

/-- `g` is in the menu, a frame edge and a click start a game, and the score is not zero. -/
def StartsLate (g : Game) : Prop :=
  g.fsm = .start ∧ g.frameEdge (press 0 true) = true ∧ (machine.next g (press 0 true)).fsm = .start ∧
    (machine.next (machine.next g (press 0 true)) (click 361 250)).fsm = .ingame ∧
    (machine.next (machine.next g (press 0 true)) (click 361 250)).food.regs.rscore ≠ 0

instance (g : Game) : Decidable (StartsLate g) := inferInstanceAs (Decidable (_ ∧ _ ∧ _ ∧ _ ∧ _))

theorem fresh_start_late : ¬ ∀ g : Game, machine.AfterReset In.reset g → ∀ (inp : ℕ → In) (n : ℕ),
    Starts g inp n → (∃ k, k ≤ n ∧ FrameInStay g inp k n) → Fresh (machine.trace g inp (n + 1)) := by
  intro h
  have e : machine.trace resetState (fun n => lateCatch.getD n (press 0 false)) 174 =
      machine.run resetState (lateCatch.take 174) :=
    Machine.trace_getD _ _ _ _ _ (by decide +kernel)
  have hl : StartsLate (machine.run resetState (lateCatch.take 174)) := by decide +kernel
  rw [← e] at hl
  obtain ⟨h1, h2, h3, h4, h5⟩ := hl
  refine h5 (h resetState resetState_afterReset _ 175 ⟨h3, h4⟩ ⟨174, by decide, ?_, h2⟩).rscore
  intro j hj hj'
  rcases Nat.le_or_eq_of_le_succ hj' with hj' | rfl
  · obtain rfl := Nat.le_antisymm hj' hj
    exact h1
  · exact h3

/-- A frame edge on the start screen right after `Reset`, then clicks. -/
theorem fresh_start_first : Fresh (machine.trace resetState
    (fun n => if n = 0 then press 0 true else click 361 250) 2) := by
  refine fresh_start resetState_afterReset (fun n k _ hl => ?_) 1 ⟨rfl, by decide⟩
    ⟨0, by decide, fun j _ hj => ?_, rfl⟩
  · obtain ⟨-, ⟨-, he⟩, -⟩ := hl
    rcases k with - | k
    · exact Or.inr (by decide)
    · exact absurd he (by simp [frameEdge, EdgeReg.rising, click])
  · obtain rfl | rfl : j = 0 ∨ j = 1 := by omega
    · rfl
    · rfl

end Lab8.Game
