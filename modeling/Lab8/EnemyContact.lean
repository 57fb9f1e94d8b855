import Lab8.EnemyBall
/-!
# Enemy contact

The contact test is computed in 32 bits and loses nothing (`contact_iff`), but it is the fifth arm of an
`else if` chain: an enemy at one of its edges does not look (`comb_outputs`). For `enemy_ball2`, whose
`Ball_X_Max` is 100 (enemy_ball.sv:300) where its siblings have 1000, the right edge holds over most of
the playfield, its own starting place included.
-/

namespace Lab8.EnemyBall

open Clocked

def AtEdge (E : Enemy) (r : Regs) : Prop :=
  bottomEdge E r ∨ topEdge E r ∨ rightEdge E r ∨ leftEdge E r

instance (E : Enemy) (r : Regs) : Decidable (AtEdge E r) := inferInstanceAs (Decidable (_ ∨ _ ∨ _ ∨ _))

/-- Off the edges of each axis. -/
theorem not_atEdge_iff {E : Enemy} {r : Regs} :
    ¬ AtEdge E r ↔ ¬ (bottomEdge E r ∨ topEdge E r) ∧ ¬ (rightEdge E r ∨ leftEdge E r) := by
  unfold AtEdge
  rw [← not_or, or_assoc]

/-- The exact circles of radius `radius` and `size` touch. -/
def Touch (E : Enemy) (r : Regs) (X Y size : BitVec 10) : Prop :=
  Word.sqDist r.xPos r.yPos X Y ≤ ((E.radius + size.toNat : ℕ) : ℤ) ^ 2

instance (E : Enemy) (r : Regs) (X Y size : BitVec 10) : Decidable (Touch E r X Y size) :=
  inferInstanceAs (Decidable (_ ≤ _))

/-- Touching asserts `is_collision` for a larger player, `gameover` for any other, never both; not
touching asserts neither. -/
def ContactExact (E : Enemy) (r : Regs) (X Y size : BitVec 10) : Prop :=
  (Touch E r X Y size →
    ((comb E r X Y size).isCollision = true ↔ size.toNat > E.radius) ∧
      ((comb E r X Y size).gameover = true ↔ size.toNat ≤ E.radius)) ∧
  (¬ Touch E r X Y size →
    (comb E r X Y size).isCollision = false ∧ (comb E r X Y size).gameover = false)

instance (E : Enemy) (r : Regs) (X Y size : BitVec 10) : Decidable (ContactExact E r X Y size) :=
  inferInstanceAs (Decidable (_ ∧ _))

theorem radius_lt {E : Enemy} (hE : E ∈ enemies) : E.radius < 9 := by
  simp only [enemies, List.mem_cons, List.not_mem_nil, or_false] at hE
  rcases hE with rfl | rfl | rfl <;> decide

theorem contact_iff {E : Enemy} (hE : E ∈ enemies) (r : Regs) (X Y size : BitVec 10) :
    contact E r X Y size ↔ Touch E r X Y size := by
  have hr := radius_lt hE
  exact Word.sqDist32_le_lit_iff (by decide) (by omega) _ _ _ _ _

/-! ## The arms of the chain -/

/-- `Motion_in` at an edge (enemy_ball.sv:124-131). -/
def turn (E : Enemy) (r : Regs) : Motion :=
  if bottomEdge E r then ⟨r.xMotion, ~~~step + 1⟩
  else if topEdge E r then ⟨r.xMotion, step⟩
  else if rightEdge E r then ⟨~~~step + 1, r.yMotion⟩
  else ⟨step, r.yMotion⟩

section
variable {E : Enemy} {r : Regs} {X Y size : BitVec 10}

theorem comb_atEdge (he : AtEdge E r) : comb E r X Y size =
    ⟨r.xPos + r.xMotion, r.yPos + r.yMotion, turn E r, false, false⟩ := by
  unfold comb turn
  by_cases hb : bottomEdge E r
  · simp only [hb, if_true]
  by_cases ht : topEdge E r
  · simp only [hb, ht, if_true, if_false]
  by_cases hr : rightEdge E r
  · simp only [hb, ht, hr, if_true, if_false]
  have hl : leftEdge E r := by
    rcases he with h | h | h | h
    · exact absurd h hb
    · exact absurd h ht
    · exact absurd h hr
    · exact h
  simp only [hb, ht, hr, hl, if_true, if_false]

theorem comb_catch (he : ¬ AtEdge E r) (hc : contact E r X Y size) (hs : size.toNat > E.radius) :
    comb E r X Y size = ⟨511, 511, ⟨r.xMotion, r.yMotion⟩, false, true⟩ := by
  simp only [AtEdge, not_or] at he
  unfold comb
  simp only [he, hc, hs, if_true, if_false]

theorem comb_kill (he : ¬ AtEdge E r) (hc : contact E r X Y size) (hs : size.toNat ≤ E.radius) :
    comb E r X Y size =
      ⟨r.xPos + r.xMotion, r.yPos + r.yMotion, ⟨r.xMotion, r.yMotion⟩, true, false⟩ := by
  simp only [AtEdge, not_or] at he
  unfold comb
  simp only [he, hc, not_lt.2 hs, if_true, if_false]

/-- Out of contact the size picks the table. -/
theorem comb_apart (he : ¬ AtEdge E r) (hc : ¬ contact E r X Y size) : comb E r X Y size =
    ⟨r.xPos + r.xMotion, r.yPos + r.yMotion,
      if size.toNat < E.radius then toward E r X Y else away E r X Y, false, false⟩ := by
  simp only [AtEdge, not_or] at he
  unfold comb
  by_cases hs : size.toNat < E.radius
  · simp only [he, hc, hs, if_true, if_false]
  · simp only [he, hc, hs, not_lt.1 hs, if_true, if_false]

end

/-- Both outputs are asserted off the edges only. -/
theorem comb_outputs (E : Enemy) (r : Regs) (X Y size : BitVec 10) :
    ((comb E r X Y size).isCollision = true ↔
        ¬ AtEdge E r ∧ contact E r X Y size ∧ size.toNat > E.radius) ∧
      ((comb E r X Y size).gameover = true ↔
        ¬ AtEdge E r ∧ contact E r X Y size ∧ size.toNat ≤ E.radius) := by
  by_cases he : AtEdge E r
  · rw [comb_atEdge he]
    simp [he]
  by_cases hc : contact E r X Y size
  · by_cases hs : size.toNat > E.radius
    · rw [comb_catch he hc hs]
      simp [he, hc, hs]
    · rw [comb_kill he hc (not_lt.1 hs)]
      simp [he, hc, hs, not_lt.1 hs]
  · rw [comb_apart he hc]
    simp [hc]

/-- **Enemy contact.** The outputs report contact exactly unless the player touches an enemy that is at
one of its edges. -/
theorem contactExact_iff {E : Enemy} (hE : E ∈ enemies) (r : Regs) (X Y size : BitVec 10) :
    ContactExact E r X Y size ↔ ¬ (AtEdge E r ∧ Touch E r X Y size) := by
  obtain ⟨hc, hg⟩ := comb_outputs E r X Y size
  rw [contact_iff hE] at hc hg
  unfold ContactExact
  simp only [← Bool.not_eq_true, hc, hg]
  by_cases ht : Touch E r X Y size
  · by_cases he : AtEdge E r
    · simp only [ht, he, not_true, false_and, true_and, true_imp_iff, false_imp_iff, and_true, iff_false,
        false_iff]
      omega
    · simp [ht, he]
  · simp [ht]

/-- The centre of `enemy_ball2` after `Reset` is past its `Ball_X_Max`: it does not see a player there. -/
theorem contact_missed : ¬ ∀ E ∈ enemies, ∀ s : EdgeReg Regs, Reachable E s →
    ∀ X Y size : BitVec 10, ContactExact E s.regs X Y size := by
  intro h
  have hc := h enemyBall2 (by simp [enemies]) _ (resetState_reachable enemyBall2) 600 400 5
  revert hc
  decide

theorem contactExact_iff_near : ContactExact enemyBall1 ⟨100, 100, 0, 0, 6, 0⟩ 103 104 7 ↔
    ¬ (AtEdge enemyBall1 ⟨100, 100, 0, 0, 6, 0⟩ ∧ Touch enemyBall1 ⟨100, 100, 0, 0, 6, 0⟩ 103 104 7) :=
  contactExact_iff (by simp [enemies]) _ _ _ _

end Lab8.EnemyBall
