import Lab8.EnemyContact
/-!
# The enemies' field

Only one axis of an enemy is turned round per frame, Y before X, and the turn is seen a frame late. So an
enemy that comes to a Y edge keeps drifting in X until it has left the edge, and the question is how long
that takes. In integers: at the top edge it is `ρ - Y + 2 - n` frames for an enemy of radius `ρ` with Y
motion `n` (`Inside.left`), never more than three when it walks in, and ten from the starting place of
`enemy_ball3`, which is far from both X edges. The invariant `Inside` says that X has room for it.
-/

namespace Lab8.EnemyBall

open Clocked

/-! ## The field in integers -/

/-- An enemy of radius `ρ` with right bound `R` at `(X, Y)`, moving by `(m, n)`. While it is at a Y edge,
the room to either X bound covers the frames it stays there; only a respawn at (511, 511) may be past the
right bound and move right. -/
structure Inside (ρ R X Y m n : ℤ) : Prop where
  unitX : -1 ≤ m ∧ m ≤ 1
  unitY : -1 ≤ n ∧ n ≤ 1
  yLow : 0 ≤ Y ∧ 0 ≤ Y + n
  yHigh : Y ≤ 799 ∧ Y + n ≤ 799
  xLow : ρ - 4 ≤ X
  xHigh : X ≤ R - ρ + 4 ∨ X ≤ 600
  left : m = -1 → ρ - 3 ≤ X ∧ (Y ≤ ρ → (ρ - Y + 2 - n) + (ρ - 3) ≤ X) ∧
    (800 ≤ Y + ρ → (Y - (800 - ρ) + 2 + n) + (ρ - 3) ≤ X)
  right : m = 1 → (X ≤ R - ρ + 3 ∧ (Y ≤ ρ → X + (ρ - Y + 2 - n) ≤ R - ρ + 3) ∧
    (800 ≤ Y + ρ → X + (Y - (800 - ρ) + 2 + n) ≤ R - ρ + 3)) ∨ (X = 511 ∧ Y = 511)

namespace Inside

variable {ρ R X Y m n m' n' : ℤ} (hρ : 6 ≤ ρ ∧ ρ ≤ 8) (hR : 100 ≤ R ∧ R ≤ 1000)
include hρ hR

theorem bottom (h : Inside ρ R X Y m n) (hY : 800 ≤ Y + ρ) : Inside ρ R (X + m) (Y + n) m (-1) := by
  obtain ⟨u1, u2, y1, y2, x1, x2, hl, hr⟩ := h
  constructor <;> omega

theorem top (h : Inside ρ R X Y m n) (hY : Y ≤ ρ) : Inside ρ R (X + m) (Y + n) m 1 := by
  obtain ⟨u1, u2, y1, y2, x1, x2, hl, hr⟩ := h
  constructor <;> omega

theorem turnLeft (h : Inside ρ R X Y m n) (hY : ρ < Y) (hY' : Y + ρ < 800) (hX : R ≤ X + ρ) :
    Inside ρ R (X + m) (Y + n) (-1) n := by
  obtain ⟨u1, u2, y1, y2, x1, x2, hl, hr⟩ := h
  constructor <;> omega

theorem turnRight (h : Inside ρ R X Y m n) (hY : ρ < Y) (hY' : Y + ρ < 800) (hX : X + ρ < R) (hX' : X ≤ ρ) :
    Inside ρ R (X + m) (Y + n) 1 n := by
  obtain ⟨u1, u2, y1, y2, x1, x2, hl, hr⟩ := h
  constructor <;> omega

omit hR in
/-- Off the edges any unit motion will do. -/
theorem free (h : Inside ρ R X Y m n) (hY : ρ < Y) (hY' : Y + ρ < 800) (hX : X + ρ < R) (hX' : ρ < X)
    (hm : -1 ≤ m' ∧ m' ≤ 1) (hn : -1 ≤ n' ∧ n' ≤ 1) : Inside ρ R (X + m) (Y + n) m' n' := by
  obtain ⟨u1, u2, y1, y2, x1, x2, hl, hr⟩ := h
  constructor <;> omega

omit hR in
theorem respawn (hm : -1 ≤ m ∧ m ≤ 1) (hn : -1 ≤ n ∧ n ≤ 1) : Inside ρ R 511 511 m n := by
  constructor <;> omega

/-- What the invariant is for. -/
theorem bounds (h : Inside ρ R X Y m n) : (1 ≤ X ∧ X ≤ 999) ∧ (0 ≤ Y ∧ Y ≤ 799) ∧
    (0 ≤ X + m ∧ X + m ≤ 1023) ∧ (0 ≤ Y + n ∧ Y + n ≤ 1023) ∧ X + ρ ≤ 1023 ∧ Y + ρ ≤ 1023 := by
  obtain ⟨u1, u2, y1, y2, x1, x2, hl, hr⟩ := h
  omega

end Inside

/-! ## The registers -/

structure Contained (E : Enemy) (r : Regs) : Prop where
  size_eq : r.size.toNat = E.radius
  inside : Inside E.radius E.xMax.toNat r.xPos.toNat r.yPos.toNat r.xMotion.toInt r.yMotion.toInt

/-- What the three copies have in common. -/
structure Enemy.Sane (E : Enemy) : Prop where
  mem : E ∈ enemies
  radius : 6 ≤ (E.radius : ℤ) ∧ (E.radius : ℤ) ≤ 8
  xMin : E.xMin.toNat = 0
  xMax : 100 ≤ (E.xMax.toNat : ℤ) ∧ (E.xMax.toNat : ℤ) ≤ 1000
  yMin : E.yMin.toNat = 0
  yMax : E.yMax.toNat = 800

theorem sane {E : Enemy} (hE : E ∈ enemies) : E.Sane := by
  have hE' := hE
  simp only [enemies, List.mem_cons, List.not_mem_nil, or_false] at hE
  rcases hE with rfl | rfl | rfl <;> exact ⟨hE', by decide, by decide, by decide, by decide, by decide⟩

theorem step_toInt : step.toInt = 1 := by decide
theorem neg_step_toInt : (~~~step + 1).toInt = -1 := by decide

section
variable {E : Enemy} {r : Regs} (hE : E.Sane) (h : Contained E r)
include hE h

theorem bottomEdge_iff : bottomEdge E r ↔ 800 ≤ (r.yPos.toNat : ℤ) + E.radius := by
  have hs := h.size_eq
  have hh := h.inside.yHigh
  have hr := hE.radius
  have hy := hE.yMax
  unfold bottomEdge
  rw [ge_iff_le, BitVec.le_def, BitVec.toNat_add]
  omega

theorem topEdge_iff : topEdge E r ↔ (r.yPos.toNat : ℤ) ≤ E.radius := by
  have hs := h.size_eq
  have hr := hE.radius
  have hy := hE.yMin
  unfold topEdge
  rw [BitVec.le_def, BitVec.toNat_add]
  omega

theorem rightEdge_iff : rightEdge E r ↔ (E.xMax.toNat : ℤ) ≤ r.xPos.toNat + E.radius := by
  have hs := h.size_eq
  have hr := hE.radius
  have hx := hE.xMax
  have hh := h.inside.xHigh
  unfold rightEdge
  rw [ge_iff_le, BitVec.le_def, BitVec.toNat_add]
  omega

theorem leftEdge_iff : leftEdge E r ↔ (r.xPos.toNat : ℤ) ≤ E.radius := by
  have hs := h.size_eq
  have hr := hE.radius
  have hx := hE.xMin
  unfold leftEdge
  rw [BitVec.le_def, BitVec.toNat_add]
  omega

/-- Neither sum that is committed wraps. -/
theorem pos_toNat : ((r.xPos + r.xMotion).toNat : ℤ) = r.xPos.toNat + r.xMotion.toInt ∧
    ((r.yPos + r.yMotion).toNat : ℤ) = r.yPos.toNat + r.yMotion.toInt := by
  obtain ⟨-, -, hx, hy, -, -⟩ := h.inside.bounds hE.radius hE.xMax
  rw [Word.toNat_add_toInt, Word.toNat_add_toInt]
  omega

end

/-! ## The next motion -/

/-- Each component is -1, 0 or 1. -/
def UnitSpeed (m : Motion) : Prop := (-1 ≤ m.x.toInt ∧ m.x.toInt ≤ 1) ∧ (-1 ≤ m.y.toInt ∧ m.y.toInt ≤ 1)

instance (m : Motion) : Decidable (UnitSpeed m) := inferInstanceAs (Decidable (_ ∧ _))

/-- Equal centres are in contact. -/
theorem touch_of_eq (E : Enemy) (r : Regs) (size : BitVec 10) : Touch E r r.xPos r.yPos size := by
  unfold Touch Word.sqDist
  simp only [sub_self, ne_eq, OfNat.ofNat_ne_zero, not_false_eq_true, zero_pow, add_zero]
  exact sq_nonneg _

/-- The tables set the third speed only when the centres coincide. -/
theorem toward_unit {E : Enemy} {r : Regs} {X Y : BitVec 10} (h : ¬ (X = r.xPos ∧ Y = r.yPos)) :
    UnitSpeed (toward E r X Y) := by
  unfold toward
  split
  · split
    · decide
    · split <;> decide
  · split
    · split
      · decide
      · split <;> decide
    · split
      · decide
      · split
        · decide
        · exact absurd ⟨by bv_omega, by bv_omega⟩ h

theorem away_unit {E : Enemy} {r : Regs} {X Y : BitVec 10} (h : ¬ (X = r.xPos ∧ Y = r.yPos)) :
    UnitSpeed (away E r X Y) := by
  unfold away
  split
  · split
    · decide
    · split <;> decide
  · split
    · split
      · decide
      · split <;> decide
    · split
      · decide
      · split
        · decide
        · exact absurd ⟨by bv_omega, by bv_omega⟩ h

/-- `Pos_in` adds the motion. -/
def Advances (r : Regs) (c : Comb) : Prop := c.xPosIn = r.xPos + r.xMotion ∧ c.yPosIn = r.yPos + r.yMotion

/-- The six things the combinational block can do. -/
theorem comb_cases {E : Enemy} (hE : E ∈ enemies) {r : Regs} (hu : UnitSpeed ⟨r.xMotion, r.yMotion⟩)
    (X Y size : BitVec 10) :
    (Advances r (comb E r X Y size) ∧
      ((bottomEdge E r ∧ (comb E r X Y size).motionIn = ⟨r.xMotion, ~~~step + 1⟩) ∨
        (¬ bottomEdge E r ∧ topEdge E r ∧ (comb E r X Y size).motionIn = ⟨r.xMotion, step⟩) ∨
        (¬ bottomEdge E r ∧ ¬ topEdge E r ∧ rightEdge E r ∧
          (comb E r X Y size).motionIn = ⟨~~~step + 1, r.yMotion⟩) ∨
        (¬ bottomEdge E r ∧ ¬ topEdge E r ∧ ¬ rightEdge E r ∧ leftEdge E r ∧
          (comb E r X Y size).motionIn = ⟨step, r.yMotion⟩) ∨
        (¬ AtEdge E r ∧ UnitSpeed (comb E r X Y size).motionIn))) ∨
      (¬ AtEdge E r ∧ (comb E r X Y size).xPosIn = 511 ∧ (comb E r X Y size).yPosIn = 511 ∧
        (comb E r X Y size).motionIn = ⟨r.xMotion, r.yMotion⟩) := by
  by_cases he : AtEdge E r
  · rw [comb_atEdge he]
    refine Or.inl ⟨⟨rfl, rfl⟩, ?_⟩
    unfold turn
    by_cases hb : bottomEdge E r
    · simp [hb]
    by_cases ht : topEdge E r
    · simp [hb, ht]
    by_cases hr : rightEdge E r
    · simp [hb, ht, hr]
    have hl : leftEdge E r := by simpa [AtEdge, hb, ht, hr] using he
    simp [hb, ht, hr, hl]
  by_cases hc : contact E r X Y size
  · by_cases hs : size.toNat > E.radius
    · rw [comb_catch he hc hs]
      exact Or.inr ⟨he, rfl, rfl, rfl⟩
    · rw [comb_kill he hc (not_lt.1 hs)]
      exact Or.inl ⟨⟨rfl, rfl⟩, Or.inr (Or.inr (Or.inr (Or.inr ⟨he, hu⟩)))⟩
  · have hne : ¬ (X = r.xPos ∧ Y = r.yPos) := by
      rintro ⟨rfl, rfl⟩
      exact hc ((contact_iff hE _ _ _ _).2 (touch_of_eq E r size))
    rw [comb_apart he hc]
    refine Or.inl ⟨⟨rfl, rfl⟩, Or.inr (Or.inr (Or.inr (Or.inr ⟨he, ?_⟩)))⟩
    split
    · exact toward_unit hne
    · exact away_unit hne

/-! ## The invariant -/

theorem contained_init {E : Enemy} (hE : E ∈ enemies) : Contained E (init E) := by
  simp only [enemies, List.mem_cons, List.not_mem_nil, or_false] at hE
  rcases hE with rfl | rfl | rfl <;> refine ⟨by decide, ?_⟩ <;> constructor <;> decide

theorem Contained.unitSpeed {E : Enemy} {r : Regs} (h : Contained E r) : UnitSpeed ⟨r.xMotion, r.yMotion⟩ :=
  ⟨h.inside.unitX, h.inside.unitY⟩

theorem contained_recentre {E : Enemy} (hE : E ∈ enemies) {r : Regs} (h : Contained E r) :
    Contained E (recentre E r) := by
  obtain ⟨hs, u1, u2, -⟩ := h
  simp only [enemies, List.mem_cons, List.not_mem_nil, or_false] at hE
  rcases hE with rfl | rfl | rfl <;> refine ⟨hs, ?_⟩
  · change Inside 6 1000 2 2 0 r.yMotion.toInt
    constructor <;> omega
  · change Inside 7 100 600 400 0 0
    constructor <;> omega
  · change Inside 8 1000 800 0 r.xMotion.toInt 0
    constructor <;> omega

/-- One committed frame, by what the combinational block did. -/
theorem contained_move {E : Enemy} (hE : E ∈ enemies) {r : Regs} (h : Contained E r) (X Y size : BitVec 10) :
    Contained E (move r (comb E r X Y size)) := by
  have hS := sane hE
  have hρ := hS.radius
  have hR := hS.xMax
  have hin := h.inside
  obtain ⟨ex, ey⟩ := pos_toNat hS h
  have hb := bottomEdge_iff hS h
  have ht := topEdge_iff hS h
  have hr := rightEdge_iff hS h
  have hl := leftEdge_iff hS h
  have hc := comb_cases hE h.unitSpeed X Y size
  refine ⟨h.size_eq, ?_⟩
  generalize comb E r X Y size = c at hc
  unfold Advances AtEdge at hc
  rw [hb, ht, hr, hl] at hc
  simp only [move]
  rcases hc with ⟨⟨hx, hy⟩, hc⟩ | ⟨he, hx, hy, hm⟩
  · rw [hx, hy, ex, ey]
    rcases hc with ⟨h1, hm⟩ | ⟨h1, h2, hm⟩ | ⟨h1, h2, h3, hm⟩ | ⟨h1, h2, h3, h4, hm⟩ | ⟨he, hm⟩
    · rw [hm, neg_step_toInt]
      exact hin.bottom hρ hR h1
    · rw [hm, step_toInt]
      exact hin.top hρ hR h2
    · rw [hm, neg_step_toInt]
      exact hin.turnLeft hρ hR (by omega) (by omega) h3
    · rw [hm, step_toInt]
      exact hin.turnRight hρ hR (by omega) (by omega) (by omega) h4
    · exact hin.free hρ (by omega) (by omega) (by omega) (by omega) hm.1 hm.2
  · rw [hx, hy, hm]
    exact Inside.respawn hρ hin.unitX hin.unitY

theorem contained_ff {E : Enemy} (hE : E ∈ enemies) (b : Bool) (i : In) {r : Regs} (h : Contained E r) :
    Contained E (ff E b i r) := by
  rcases ff_cases E b i r with e | e | e | ⟨score, e⟩ <;> rw [e]
  · exact h
  · exact contained_init hE
  · exact contained_recentre hE h
  · obtain ⟨hs, hi⟩ := contained_move hE h i.X i.Y i.size
    exact ⟨hs, hi⟩

theorem Reachable.contained {E : Enemy} (hE : E ∈ enemies) {s : EdgeReg Regs} (h : Reachable E s) :
    Contained E s.regs := by
  refine EdgeReg.invariant In.reset (fun b i r hr => ?_) (fun b i r hp => contained_ff hE b i hp) h
  rw [ff_reset hr]
  exact contained_init hE

/-- **The field.** Whatever the player does, an enemy's motions are -1, 0 or 1, and so is whatever the
combinational block would commit next; it stays in its field and none of its sums wraps. -/
theorem enemy_contained {E : Enemy} (hE : E ∈ enemies) {s : EdgeReg Regs} (h : Reachable E s) :
    UnitSpeed ⟨s.regs.xMotion, s.regs.yMotion⟩ ∧
      (∀ X Y size : BitVec 10, UnitSpeed (comb E s.regs X Y size).motionIn) ∧
      (1 ≤ s.regs.xPos.toNat ∧ s.regs.xPos.toNat ≤ 999) ∧
      (0 ≤ s.regs.yPos.toNat ∧ s.regs.yPos.toNat ≤ 799) ∧
      (0 ≤ (s.regs.xPos.toNat : ℤ) + s.regs.xMotion.toInt ∧
        (s.regs.xPos.toNat : ℤ) + s.regs.xMotion.toInt ≤ 1023) ∧
      (0 ≤ (s.regs.yPos.toNat : ℤ) + s.regs.yMotion.toInt ∧
        (s.regs.yPos.toNat : ℤ) + s.regs.yMotion.toInt ≤ 1023) ∧
      s.regs.xPos.toNat + s.regs.size.toNat ≤ 1023 ∧ s.regs.yPos.toNat + s.regs.size.toNat ≤ 1023 := by
  have hc := h.contained hE
  have hS := sane hE
  have hs := hc.size_eq
  obtain ⟨bx, by', ax, ay, sx, sy⟩ := hc.inside.bounds hS.radius hS.xMax
  refine ⟨hc.unitSpeed, fun X Y size => (contained_move hE hc X Y size).unitSpeed, ?_, ?_, ax, ay, ?_, ?_⟩
  all_goals omega

/-- A player of size 10 in one place, for some frames. -/
def stalked (X Y : BitVec 10) (frames : ℕ) : List In :=
  (List.replicate frames [⟨false, false, X, Y, 10, false⟩, ⟨false, true, X, Y, 10, false⟩]).flatten

/-- `enemy_ball3` flees along its top edge, is caught there and flees again. -/
theorem enemy_contained_caught :
    let s := (machine enemyBall3).run (resetState enemyBall3) (stalked 780 20 17 ++ stalked 806 10 1 ++ stalked 780 20 5)
    s.regs.escore = 3 ∧ UnitSpeed ⟨s.regs.xMotion, s.regs.yMotion⟩ ∧
      (∀ X Y size : BitVec 10, UnitSpeed (comb enemyBall3 s.regs X Y size).motionIn) ∧
      (1 ≤ s.regs.xPos.toNat ∧ s.regs.xPos.toNat ≤ 999) ∧ (0 ≤ s.regs.yPos.toNat ∧ s.regs.yPos.toNat ≤ 799) := by
  intro s
  obtain ⟨h1, h2, h3, h4, -⟩ := enemy_contained (by simp [enemies]) ((resetState_reachable enemyBall3).run
    (stalked 780 20 17 ++ stalked 806 10 1 ++ stalked 780 20 5))
  exact ⟨by decide +kernel, h1, h2, h3, h4⟩

end Lab8.EnemyBall
