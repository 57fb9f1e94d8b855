import Lab8.EnemyField
/-!
# Chase, flight and catch

Off the edges an enemy that touches nobody looks where the player is: `toward` and `away` are the two signs
of the difference of the centres (`toward_sign`, `away_sign`). The table is chosen by `size < r` against
`size >= r` (enemy_ball.sv:147, :195), the outcome of a contact by `size > r` (:135), so the two do not meet
at `size = r`: an enemy flees a player that it would kill (`chase_iff`).

A caught enemy is put at (511, 511) with its motion as it was. That place is inside the bounds of
`enemy_ball1` and `enemy_ball3`, and past the right bound of `enemy_ball2` (`caught_again_iff`).
-/

namespace Lab8.EnemyBall

open Clocked

/-! ## The two tables -/

/-- The side of `x` on which `X` is: 1, 0 or -1. -/
def side (x X : BitVec 10) : ℤ := ((X.toNat : ℤ) - x.toNat).sign

theorem side_cases (x X : BitVec 10) : (X > x ∧ side x X = 1) ∨ (¬ X > x ∧ X < x ∧ side x X = -1) ∨
    (¬ X > x ∧ ¬ X < x ∧ X = x ∧ side x X = 0) := by
  unfold side
  rcases lt_trichotomy x.toNat X.toNat with h | h | h
  · exact Or.inl ⟨h, Int.sign_eq_one_of_pos (by omega)⟩
  · have e := BitVec.eq_of_toNat_eq h
    subst e
    exact Or.inr (Or.inr ⟨BitVec.lt_irrefl x, BitVec.lt_irrefl x, rfl, by simp⟩)
  · exact Or.inr (Or.inl ⟨fun h' => lt_asymm h h', h, Int.sign_eq_neg_one_of_neg (by omega)⟩)

theorem toward_sign {E : Enemy} {r : Regs} {X Y : BitVec 10} (h : ¬ (X = r.xPos ∧ Y = r.yPos)) :
    (toward E r X Y).x.toInt = side r.xPos X ∧ (toward E r X Y).y.toInt = side r.yPos Y := by
  unfold toward
  rcases side_cases r.xPos X with ⟨hx, ex⟩ | ⟨hx, hx', ex⟩ | ⟨hx, hx', rfl, ex⟩ <;>
    rcases side_cases r.yPos Y with ⟨hy, ey⟩ | ⟨hy, hy', ey⟩ | ⟨hy, hy', rfl, ey⟩
  case inr.inr.inr.inr => exact absurd ⟨rfl, rfl⟩ h
  all_goals (simp only [*, if_true, if_false]; decide)

theorem away_sign {E : Enemy} {r : Regs} {X Y : BitVec 10} (h : ¬ (X = r.xPos ∧ Y = r.yPos)) :
    (away E r X Y).x.toInt = -side r.xPos X ∧ (away E r X Y).y.toInt = -side r.yPos Y := by
  unfold away
  rcases side_cases r.xPos X with ⟨hx, ex⟩ | ⟨hx, hx', ex⟩ | ⟨hx, hx', rfl, ex⟩ <;>
    rcases side_cases r.yPos Y with ⟨hy, ey⟩ | ⟨hy, hy', ey⟩ | ⟨hy, hy', rfl, ey⟩
  case inr.inr.inr.inr => exact absurd ⟨rfl, rfl⟩ h
  all_goals (simp only [*, if_true, if_false]; decide)

/-- Equal centres touch. -/
theorem centres_ne {E : Enemy} {r : Regs} {X Y size : BitVec 10} (h : ¬ Touch E r X Y size) :
    ¬ (X = r.xPos ∧ Y = r.yPos) := by
  rintro ⟨rfl, rfl⟩
  exact h (touch_of_eq E r size)

/-- Off the edges and out of contact the size picks the table. -/
theorem motionIn_of_apart {E : Enemy} (hE : E ∈ enemies) {r : Regs} {X Y size : BitVec 10}
    (he : ¬ AtEdge E r) (ht : ¬ Touch E r X Y size) : (comb E r X Y size).motionIn =
      if size.toNat < E.radius then toward E r X Y else away E r X Y := by
  rw [comb_apart he ((contact_iff hE r X Y size).not.2 ht)]

/-! ## Who is afraid of whom -/

/-- A player of this size that touched the enemy, wherever, would lose the game. -/
def Kills (E : Enemy) (r : Regs) (size : BitVec 10) : Prop :=
  ∀ X Y, Touch E r X Y size → (comb E r X Y size).gameover = true

/-- A player of this size that touched the enemy, wherever, would catch it. -/
def Eaten (E : Enemy) (r : Regs) (size : BitVec 10) : Prop :=
  ∀ X Y, Touch E r X Y size → (comb E r X Y size).isCollision = true

section
variable {E : Enemy} (hE : E ∈ enemies) {r : Regs} (he : ¬ AtEdge E r)
include hE he

theorem kills_iff (size : BitVec 10) : Kills E r size ↔ size.toNat ≤ E.radius := by
  constructor
  · intro h
    exact ((comb_outputs E r _ _ size).2.1 (h _ _ (touch_of_eq E r size))).2.2
  · intro hs X Y ht
    exact (comb_outputs E r X Y size).2.2 ⟨he, (contact_iff hE r X Y size).2 ht, hs⟩

theorem eaten_iff (size : BitVec 10) : Eaten E r size ↔ size.toNat > E.radius := by
  constructor
  · intro h
    exact ((comb_outputs E r _ _ size).1.1 (h _ _ (touch_of_eq E r size))).2.2
  · intro hs X Y ht
    exact (comb_outputs E r X Y size).1.2 ⟨he, (contact_iff hE r X Y size).2 ht, hs⟩

end

/-- The next motion points to a player the enemy would kill and away from one that would eat it. -/
def ChasesRightly (E : Enemy) (r : Regs) (X Y size : BitVec 10) : Prop :=
  (Kills E r size → (comb E r X Y size).motionIn.x.toInt = side r.xPos X ∧
    (comb E r X Y size).motionIn.y.toInt = side r.yPos Y) ∧
  (Eaten E r size → (comb E r X Y size).motionIn.x.toInt = -side r.xPos X ∧
    (comb E r X Y size).motionIn.y.toInt = -side r.yPos Y)

/-- A player of the enemy's own size would lose, and is fled from: a side that is its own negation is 0, and
it is not on both axes. -/
theorem flees_of_size_eq {E : Enemy} (hE : E ∈ enemies) {r : Regs} {X Y size : BitVec 10} (he : ¬ AtEdge E r)
    (ht : ¬ Touch E r X Y size) (hs : size.toNat = E.radius) : ¬ ChasesRightly E r X Y size := by
  rintro ⟨hk, -⟩
  have hne := centres_ne ht
  have hk' := hk ((kills_iff hE he size).2 hs.le)
  rw [motionIn_of_apart hE he ht, if_neg (by omega)] at hk'
  obtain ⟨kx, ky⟩ := hk'
  obtain ⟨ex, ey⟩ := away_sign (E := E) hne
  rcases side_cases r.xPos X with ⟨-, hx⟩ | ⟨-, -, hx⟩ | ⟨-, -, hx, -⟩
  · omega
  · omega
  · rcases side_cases r.yPos Y with ⟨-, hy⟩ | ⟨-, -, hy⟩ | ⟨-, -, hy, -⟩
    · omega
    · omega
    · exact hne ⟨hx, hy⟩

/-- **Chase and flight.** Off the edges and out of contact an enemy runs the right way exactly when the
player's size is not its own. -/
theorem chase_iff {E : Enemy} (hE : E ∈ enemies) (r : Regs) (X Y size : BitVec 10) (he : ¬ AtEdge E r)
    (ht : ¬ Touch E r X Y size) : ChasesRightly E r X Y size ↔ size.toNat ≠ E.radius := by
  refine ⟨fun h hs => flees_of_size_eq hE he ht hs h, fun hs => ?_⟩
  have hne := centres_ne ht
  unfold ChasesRightly
  rw [kills_iff hE he, eaten_iff hE he, motionIn_of_apart hE he ht]
  by_cases hlt : size.toNat < E.radius
  · rw [if_pos hlt]
    exact ⟨fun _ => toward_sign hne, fun h => absurd h (by omega)⟩
  · rw [if_neg hlt]
    exact ⟨fun h => absurd h (by omega), fun _ => away_sign hne⟩

/-- A player of size 6 ten pixels outside the contact distance: `enemy_ball1` runs from it. -/
theorem flees_prey : ¬ ∀ E ∈ enemies, ∀ (r : Regs) (X Y size : BitVec 10), ¬ AtEdge E r →
    ¬ Touch E r X Y size → ChasesRightly E r X Y size := by
  intro h
  have hc := h enemyBall1 (by simp [enemies]) ⟨100, 100, 0, 0, 6, 0⟩ 122 100 6 (by decide) (by decide)
  exact flees_of_size_eq (by simp [enemies]) (by decide) (by decide) rfl hc

theorem chase_iff_far : ChasesRightly enemyBall1 ⟨100, 100, 0, 0, 6, 0⟩ 300 100 5 ↔
    (5 : BitVec 10).toNat ≠ enemyBall1.radius :=
  chase_iff (by simp [enemies]) _ _ _ _ (by decide) (by decide)

/-! ## Caught twice -/

section
variable (E : Enemy) (s : EdgeReg Regs) (inp : ℕ → In) (n : ℕ)

/-- Clock `n` of the run from `s` is a frame edge. -/
def FrameEdge : Prop := ((machine E).trace s inp n).rising (inp n).frameClk = true

/-- `is_collision` at clock `n` of the run. -/
def Catches : Prop :=
  (comb E ((machine E).trace s inp n).regs (inp n).X (inp n).Y (inp n).size).isCollision = true

end

/-- A caught enemy may be caught where it is put: (511, 511) is off its edges and touches the player. -/
def RespawnTouched (E : Enemy) (i : In) : Prop :=
  511 + E.radius < E.xMax.toNat ∧ Word.sqDist 511 511 i.X i.Y ≤ ((E.radius + i.size.toNat : ℕ) : ℤ) ^ 2

instance (E : Enemy) (i : In) : Decidable (RespawnTouched E i) := inferInstanceAs (Decidable (_ ∧ _))

theorem ff_catch {E : Enemy} {i : In} (hr : i.reset = false) {r : Regs}
    (hc : (comb E r i.X i.Y i.size).isCollision = true) : (ff E true i r).xPos = 511 ∧
      (ff E true i r).yPos = 511 ∧ (ff E true i r).escore = r.escore + 3 := by
  obtain ⟨he, ht, hs⟩ := (comb_outputs E r i.X i.Y i.size).1.1 hc
  unfold ff
  rw [comb_catch he ht hs]
  simp [hr, move]

/-- At the respawn point only the right edge can hold. -/
theorem atEdge_respawn_iff {E : Enemy} (hE : E ∈ enemies) {r : Regs} (h : Contained E r) (hx : r.xPos = 511)
    (hy : r.yPos = 511) : AtEdge E r ↔ ¬ 511 + E.radius < E.xMax.toNat := by
  have hS := sane hE
  have hρ := hS.radius
  unfold AtEdge
  rw [bottomEdge_iff hS h, topEdge_iff hS h, rightEdge_iff hS h, leftEdge_iff hS h, hx, hy]
  change _ ≤ ((511 : ℕ) : ℤ) + _ ∨ ((511 : ℕ) : ℤ) ≤ _ ∨ _ ≤ ((511 : ℕ) : ℤ) + _ ∨ ((511 : ℕ) : ℤ) ≤ _ ↔ _
  omega

/-- **A catch.** It puts the enemy at (511, 511) and scores three. Up to and with the next frame edge, a
player of the same place and size catches it again exactly when it touches the enemy there and the enemy
sees it. -/
theorem caught_again_iff {E : Enemy} (hE : E ∈ enemies) {s : EdgeReg Regs} (hs : Reachable E s) (inp : ℕ → In)
    {m n : ℕ} (hmn : m < n) (hm : FrameEdge E s inp m) (hc : ∀ k, m < k → k < n → ¬ FrameEdge E s inp k)
    (hr : ∀ k, m ≤ k → k < n → (inp k).reset = false)
    (held : (inp n).X = (inp m).X ∧ (inp n).Y = (inp m).Y ∧ (inp n).size = (inp m).size)
    (h : Catches E s inp m) :
    (((machine E).trace s inp n).regs.xPos = 511 ∧ ((machine E).trace s inp n).regs.yPos = 511 ∧
      ((machine E).trace s inp n).regs.escore = ((machine E).trace s inp m).regs.escore + 3) ∧
    (Catches E s inp n ↔ RespawnTouched E (inp m)) := by
  have hk : ((machine E).trace s inp n).regs = ((machine E).trace s inp (m + 1)).regs :=
    EdgeReg.trace_regs_hold hmn (fun k h1 h2 => Bool.eq_false_of_not_eq_true (hc k h1 h2))
      fun k h1 h2 r => ff_hold (hr k (Nat.le_of_lt h1) h2) r
  have e1 : ((machine E).trace s inp (m + 1)).regs = ff E true (inp m) ((machine E).trace s inp m).regs := by
    have he : ((machine E).trace s inp m).rising (inp m).frameClk = true := hm
    rw [← he]; rfl
  obtain ⟨hx, hy, hsc⟩ := ff_catch (hr m le_rfl hmn) h
  rw [← e1, ← hk] at hx hy hsc
  refine ⟨⟨hx, hy, hsc⟩, ?_⟩
  have hsize := ((comb_outputs E _ _ _ _).1.1 h).2.2
  have hcon := Reachable.contained hE (hs.trace inp n)
  obtain ⟨heX, heY, heS⟩ := held
  unfold Catches RespawnTouched
  rw [(comb_outputs E _ _ _ _).1, atEdge_respawn_iff hE hcon hx hy, contact_iff hE, Touch, hx, hy, heX, heY, heS,
    not_not]
  exact ⟨fun ⟨h1, h2, _⟩ => ⟨h1, h2⟩, fun ⟨h1, h2⟩ => ⟨h1, h2, hsize⟩⟩

/-- A player of size 10 that waits at (10, 10) for `enemy_ball1`, then at the respawn point. -/
def waiting (X Y : BitVec 10) (n : ℕ) : In := ⟨false, n % 2 = 1, X, Y, 10, false⟩

def ambush (n : ℕ) : In := if n < 30 then waiting 10 10 n else waiting 511 511 n

theorem ambush_reset (n : ℕ) : (ambush n).reset = false := by
  unfold ambush
  split <;> rfl

/-- Standing on the respawn point scores three at every frame. -/
theorem caught_twice : ¬ ∀ E ∈ enemies, ∀ s : EdgeReg Regs, Reachable E s → ∀ (inp : ℕ → In) (m n : ℕ), m < n →
    FrameEdge E s inp m → FrameEdge E s inp n → (∀ k, m < k → k < n → ¬ FrameEdge E s inp k) →
    (∀ k, m ≤ k → k ≤ n → (inp k).reset = false) →
    (∀ k, m ≤ k → k ≤ n → (inp k).X = (inp m).X ∧ (inp k).Y = (inp m).Y ∧ (inp k).size = (inp m).size) →
    Catches E s inp m → ¬ Catches E s inp n := by
  intro h
  refine h enemyBall1 (by simp [enemies]) _ (resetState_reachable enemyBall1) ambush 31 33 (by decide) ?_ ?_
    (fun k h1 h2 => ?_) (fun k _ _ => ambush_reset k) (fun k h1 h2 => ?_) ?_ ?_
  · unfold FrameEdge; decide +kernel
  · unfold FrameEdge; decide +kernel
  · obtain rfl : k = 32 := by omega
    unfold FrameEdge; decide +kernel
  · rcases (by omega : k = 31 ∨ k = 32 ∨ k = 33) with rfl | rfl | rfl <;> decide
  · unfold Catches; decide +kernel
  · unfold Catches; decide +kernel

/-- Away from the respawn point the same player catches once. -/
theorem caught_again_iff_ambush :
    Catches enemyBall1 (resetState enemyBall1) ambush 27 ↔ RespawnTouched enemyBall1 (ambush 25) := by
  have hm : FrameEdge enemyBall1 (resetState enemyBall1) ambush 25 := by unfold FrameEdge; decide +kernel
  have hc : Catches enemyBall1 (resetState enemyBall1) ambush 25 := by unfold Catches; decide +kernel
  have hk : ∀ k, 25 < k → k < 27 → ¬ FrameEdge enemyBall1 (resetState enemyBall1) ambush k := by
    intro k h1 h2
    obtain rfl : k = 26 := by omega
    unfold FrameEdge; decide +kernel
  exact (caught_again_iff (by simp [enemies]) (resetState_reachable enemyBall1) ambush (by decide) hm hk
    (fun k _ _ => ambush_reset k) ⟨rfl, rfl, rfl⟩ hc).2

end Lab8.EnemyBall
