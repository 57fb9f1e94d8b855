import Lab8.EnemyChase
import Lab8.Lib.Pursuit
/-!
# The end of a pursuit

`enemy_ball1` and `enemy_ball3` catch every smaller player that stands still clear of the edges. In integers
(`Agent`, `Quarry.step`) a pursuit goes through four stages, each left after finitely many frames:

* at a Y edge, until Y has turned inward (`reaches_yOff`); X drifts, and `Inside` has room for it;
* at an X edge with Y on its way in, until X has turned too (`reaches_xOff`);
* off the edges: one frame later both motions point away from any edge that is near (`Turned`), and at most two
  more edge frames follow (`reaches_of_turned`);
* clear of the edges for good (`Steady`): the axes are two independent chases, and when both have settled the
  player is touched (`reaches_of_steady`).

The registers of the module take the same steps (`view_run`).
-/

namespace Lab8.EnemyBall

open Clocked Pursuit

/-! ## The chase in integers -/

/-- An enemy: position and motion. -/
structure Agent where
  x : ℤ
  y : ℤ
  m : ℤ
  n : ℤ

/-- A player who stands still at `(P, Q)`, for an enemy of radius `ρ` that touches it at distance `D`. -/
structure Quarry where
  ρ : ℤ
  P : ℤ
  Q : ℤ
  D : ℤ

namespace Quarry

section
variable (c : Quarry) (a : Agent)

def YWall : Prop := AtWall c.ρ 800 a.y
def XWall : Prop := AtWall c.ρ 1000 a.x
def Touches : Prop := (a.x - c.P) ^ 2 + (a.y - c.Q) ^ 2 ≤ c.D ^ 2

instance : Decidable (c.YWall a) := inferInstanceAs (Decidable (AtWall _ _ _))
instance : Decidable (c.XWall a) := inferInstanceAs (Decidable (AtWall _ _ _))
instance : Decidable (c.Touches a) := inferInstanceAs (Decidable (_ ≤ _))

/-- One frame: Y edges first, then X edges, then the player. -/
def step : Agent :=
  if c.YWall a then ⟨a.x + a.m, a.y + a.n, a.m, inward c.ρ 800 a.y⟩
  else if c.XWall a then ⟨a.x + a.m, a.y + a.n, inward c.ρ 1000 a.x, a.n⟩
  else if c.Touches a then ⟨a.x + a.m, a.y + a.n, a.m, a.n⟩
  else ⟨a.x + a.m, a.y + a.n, (c.P - a.x).sign, (c.Q - a.y).sign⟩

def Caught : Prop := ¬ c.YWall a ∧ ¬ c.XWall a ∧ c.Touches a

def Inside : Prop := EnemyBall.Inside c.ρ 1000 a.x a.y a.m a.n

end

/-- The player is clear of the edges and not too small to be touched within one pixel of its centre. -/
structure Fair (c : Quarry) : Prop where
  ρ : 6 ≤ c.ρ ∧ c.ρ ≤ 8
  P : 20 ≤ c.P ∧ c.P ≤ 979
  Q : 20 ≤ c.Q ∧ c.Q ≤ 779
  D : 9 ≤ c.D

variable {c : Quarry} {a : Agent}

theorem step_yWall (h : c.YWall a) : c.step a = ⟨a.x + a.m, a.y + a.n, a.m, inward c.ρ 800 a.y⟩ := by
  unfold step
  rw [if_pos h]

theorem step_xWall (hy : ¬ c.YWall a) (hx : c.XWall a) :
    c.step a = ⟨a.x + a.m, a.y + a.n, inward c.ρ 1000 a.x, a.n⟩ := by
  unfold step
  rw [if_neg hy, if_pos hx]

theorem step_touch (hy : ¬ c.YWall a) (hx : ¬ c.XWall a) (ht : c.Touches a) :
    c.step a = ⟨a.x + a.m, a.y + a.n, a.m, a.n⟩ := by
  unfold step
  rw [if_neg hy, if_neg hx, if_pos ht]

theorem step_free (hy : ¬ c.YWall a) (hx : ¬ c.XWall a) (ht : ¬ c.Touches a) :
    c.step a = ⟨a.x + a.m, a.y + a.n, (c.P - a.x).sign, (c.Q - a.y).sign⟩ := by
  unfold step
  rw [if_neg hy, if_neg hx, if_neg ht]

/-! ## Clear of the edges -/

/-- Off the edges of an axis, now and after the step. -/
structure Steady (ρ R x m : ℤ) : Prop where
  unit : -1 ≤ m ∧ m ≤ 1
  now : ρ < x ∧ x + ρ < R
  next : ρ < x + m ∧ x + m + ρ < R

theorem Steady.off {ρ R x m : ℤ} (h : Steady ρ R x m) : ¬ AtWall ρ R x := by
  have hn := h.now
  unfold AtWall
  omega

/-- A step towards a target that is clear of the edges does not come near one. -/
theorem Steady.chase {ρ R P x m : ℤ} (hρ : ρ ≤ 8) (hP : 20 ≤ P ∧ P + 21 ≤ R) (h : Steady ρ R x m) :
    Steady ρ R (x + m) (P - x).sign := by
  obtain ⟨hm, hn, hx⟩ := h
  rcases sign_cases (P - x) with ⟨he, hs⟩ | ⟨he, hs⟩ | ⟨he, hs⟩ <;> rw [hs] <;> constructor <;> omega

/-- Within a pixel on both axes is within touching distance. -/
theorem touches_of_settled (hc : c.Fair) (hx : Settled (c.P - a.x) a.m) (hy : Settled (c.Q - a.y) a.n) :
    c.Touches a := by
  obtain ⟨x1, x2⟩ := hx.1
  obtain ⟨y1, y2⟩ := hy.1
  have hD := hc.D
  unfold Touches
  nlinarith

theorem reaches_of_steady (hc : c.Fair) (hx : Steady c.ρ 1000 a.x a.m) (hy : Steady c.ρ 800 a.y a.n) :
    Reaches c.step c.Caught a := by
  refine reaches_of_measure (P := fun a => Steady c.ρ 1000 a.x a.m ∧ Steady c.ρ 800 a.y a.n)
    (fun a => lag (c.P - a.x) a.m + lag (c.Q - a.y) a.n) (fun a h hg => ?_) ⟨hx, hy⟩
  obtain ⟨hx, hy⟩ := h
  have ht : ¬ c.Touches a := fun ht => hg ⟨hy.off, hx.off, ht⟩
  have hP := hc.P
  have hQ := hc.Q
  rw [step_free hy.off hx.off ht]
  refine ⟨⟨hx.chase hc.ρ.2 (by omega), hy.chase hc.ρ.2 (by omega)⟩, ?_⟩
  simp only [sub_add_eq_sub_sub]
  by_cases hsx : Settled (c.P - a.x) a.m
  · have hsy : ¬ Settled (c.Q - a.y) a.n := fun h => ht (touches_of_settled hc hsx h)
    exact Nat.add_lt_add_of_le_of_lt (lag_next_le hx.unit) (lag_next_lt hy.unit hsy)
  · exact Nat.add_lt_add_of_lt_of_le (lag_next_lt hx.unit hsx) (lag_next_le hy.unit)

/-! ## After a frame off the edges -/

/-- Within `16 + k` of an edge the motion points away from it. -/
structure Turned (k ρ R x m : ℤ) : Prop where
  unit : -1 ≤ m ∧ m ≤ 1
  low : ρ ≤ x
  high : x + ρ ≤ R
  up : x ≤ 16 + k → m = 1
  down : R ≤ x + 17 + k → m = -1

section
variable {k ρ R x m : ℤ} (hρ : 6 ≤ ρ ∧ ρ ≤ 8) (hR : 800 ≤ R)

/-- One chasing step from off the edges turns the motion, if need be. -/
theorem turned_of_off {P : ℤ} (hm : -1 ≤ m ∧ m ≤ 1) (hP : 20 ≤ P ∧ P + 21 ≤ R) (h : ¬ AtWall ρ R x) :
    Turned 2 ρ R (x + m) (P - x).sign := by
  unfold AtWall at h
  rcases sign_cases (P - x) with ⟨he, hs⟩ | ⟨he, hs⟩ | ⟨he, hs⟩ <;> rw [hs] <;> constructor <;> omega

include hρ

theorem Turned.steady (hk : 0 ≤ k) (h : Turned k ρ R x m) (hw : ¬ AtWall ρ R x) : Steady ρ R x m := by
  obtain ⟨hm, h1, h2, hu, hd⟩ := h
  unfold AtWall at hw
  constructor <;> omega

/-- While the other axis turns, this one drifts one step. -/
theorem Turned.drift (hk : 0 ≤ k) (h : Turned (k + 1) ρ R x m) : Turned k ρ R (x + m) m := by
  obtain ⟨hm, h1, h2, hu, hd⟩ := h
  constructor <;> omega

theorem Turned.drift_off (hk : 0 ≤ k) (h : Turned k ρ R x m) (hw : ¬ AtWall ρ R x) : ¬ AtWall ρ R (x + m) := by
  obtain ⟨hm, h1, h2, hu, hd⟩ := h
  unfold AtWall at hw ⊢
  omega

include hR in
/-- An axis that has turned leaves its edge at once. -/
theorem Turned.leave (hk : 0 ≤ k ∧ k ≤ 2) (h : Turned (k + 1) ρ R x m) (hw : AtWall ρ R x) :
    Turned k ρ R (x + m) (inward ρ R x) ∧ ¬ AtWall ρ R (x + m) := by
  obtain ⟨hm, h1, h2, hu, hd⟩ := h
  unfold AtWall at hw ⊢
  unfold inward
  refine ⟨?_, by omega⟩
  split <;> constructor <;> omega

end

theorem reaches_of_turned_yOff {k : ℤ} (hc : c.Fair) (hk : 0 ≤ k ∧ k ≤ 2) (hx : Turned (k + 1) c.ρ 1000 a.x a.m)
    (hy : Turned (k + 1) c.ρ 800 a.y a.n) (hw : ¬ c.YWall a) : Reaches c.step c.Caught a := by
  have hk' : 0 ≤ k + 1 := by omega
  by_cases hx' : c.XWall a
  · obtain ⟨tx, ox⟩ := hx.leave hc.ρ (by omega) hk hx'
    apply Reaches.of_next
    rw [step_xWall hw hx']
    exact reaches_of_steady hc (tx.steady hc.ρ hk.1 ox)
      ((hy.drift hc.ρ hk.1).steady hc.ρ hk.1 (hy.drift_off hc.ρ hk' hw))
  · exact reaches_of_steady hc (hx.steady hc.ρ hk' hx') (hy.steady hc.ρ hk' hw)

theorem reaches_of_turned (hc : c.Fair) (hx : Turned 2 c.ρ 1000 a.x a.m) (hy : Turned 2 c.ρ 800 a.y a.n) :
    Reaches c.step c.Caught a := by
  by_cases hw : c.YWall a
  · obtain ⟨ty, oy⟩ := Turned.leave (k := 1) hc.ρ (by omega) (by omega) hy hw
    have tx : Turned 1 c.ρ 1000 (a.x + a.m) a.m := Turned.drift hc.ρ (by omega) hx
    apply Reaches.of_next
    rw [step_yWall hw]
    exact reaches_of_turned_yOff (k := 0) hc (by omega) tx ty oy
  · exact reaches_of_turned_yOff (k := 1) hc (by omega) hx hy hw

/-- From off the edges. -/
theorem reaches_of_off (hc : c.Fair) (hi : c.Inside a) (hy : ¬ c.YWall a) (hx : ¬ c.XWall a) :
    Reaches c.step c.Caught a := by
  by_cases ht : c.Touches a
  · exact .here ⟨hy, hx, ht⟩
  · have hP := hc.P
    have hQ := hc.Q
    apply Reaches.of_next
    rw [step_free hy hx ht]
    exact reaches_of_turned hc (turned_of_off hi.unitX (by omega) hx) (turned_of_off hi.unitY (by omega) hy)

/-! ## At the edges -/

/-- A pursuit stays inside the field. -/
theorem inside_step (hc : c.Fair) (h : c.Inside a) : c.Inside (c.step a) := by
  have hρ := hc.ρ
  by_cases hy : c.YWall a
  · rw [step_yWall hy]
    unfold YWall AtWall at hy
    unfold inward
    split
    · exact EnemyBall.Inside.bottom hρ (by omega) h (by omega)
    · exact EnemyBall.Inside.top hρ (by omega) h (by omega)
  · have hy' := hy
    unfold YWall AtWall at hy'
    by_cases hx : c.XWall a
    · rw [step_xWall hy hx]
      unfold XWall AtWall at hx
      unfold inward
      split
      · exact EnemyBall.Inside.turnLeft hρ (by omega) h (by omega) (by omega) (by omega)
      · exact EnemyBall.Inside.turnRight hρ (by omega) h (by omega) (by omega) (by omega) (by omega)
    · have hx' := hx
      unfold XWall AtWall at hx'
      by_cases ht : c.Touches a
      · rw [step_touch hy hx ht]
        exact EnemyBall.Inside.free hρ h (by omega) (by omega) (by omega) (by omega) h.unitX h.unitY
      · rw [step_free hy hx ht]
        exact EnemyBall.Inside.free hρ h (by omega) (by omega) (by omega) (by omega) (sign_unit _) (sign_unit _)

/-- The Y axis has just come off its edge. -/
def YExit (c : Quarry) (a : Agent) : Prop :=
  (a.y = c.ρ + 1 ∧ a.n = 1) ∨ (a.y + c.ρ + 1 = 800 ∧ a.n = -1)

/-- The Y axis is on its way in, and off its edges for the next `k` frames. -/
def YClear (c : Quarry) (a : Agent) (k : ℕ) : Prop :=
  (a.n = 1 ∧ c.ρ < a.y ∧ a.y + k + c.ρ < 800) ∨ (a.n = -1 ∧ a.y + c.ρ < 800 ∧ c.ρ < a.y - k)

theorem YClear.off {k : ℕ} (h : YClear c a k) : ¬ c.YWall a := by
  unfold YClear at h
  unfold YWall AtWall
  omega

theorem reaches_yExit (hc : c.Fair) (hi : c.Inside a) (hy : c.YWall a) :
    Reaches c.step (fun a => c.Inside a ∧ YExit c a) a := by
  refine reaches_of_measure (P := fun a => c.Inside a ∧ (c.YWall a ∨ YExit c a))
    (fun a => wallTime c.ρ 800 a.y a.n) (fun a h hg => ?_) ⟨hi, Or.inl hy⟩
  obtain ⟨hi, hy⟩ := h
  have hy := hy.resolve_right fun he => hg ⟨hi, he⟩
  have hρ := hc.ρ
  have hi' := inside_step hc hi
  rw [step_yWall hy] at hi' ⊢
  refine ⟨⟨hi', ?_⟩, wallTime_next hi.unitY (by omega) hy⟩
  by_cases hw : AtWall c.ρ 800 (a.y + a.n)
  · exact Or.inl hw
  · exact Or.inr (off_wall hi.unitY hy hw)

/-- No axis needs more than ten frames to come off its edge. -/
theorem wallTime_le (hc : c.Fair) (hi : c.Inside a) : wallTime c.ρ 1000 a.x a.m ≤ 10 := by
  have hρ := hc.ρ
  have hu := hi.unitX
  have hb := (EnemyBall.Inside.bounds hρ (by omega) hi).1
  unfold wallTime
  split <;> omega

theorem reaches_xOff (hc : c.Fair) (hi : c.Inside a) (hy : YClear c a (wallTime c.ρ 1000 a.x a.m)) :
    Reaches c.step (fun a => c.Inside a ∧ ¬ c.YWall a ∧ ¬ c.XWall a) a := by
  refine reaches_of_measure (P := fun a => c.Inside a ∧ YClear c a (wallTime c.ρ 1000 a.x a.m))
    (fun a => wallTime c.ρ 1000 a.x a.m) (fun a h hg => ?_) ⟨hi, hy⟩
  obtain ⟨hi, hy⟩ := h
  have hx : c.XWall a := by
    by_contra hx
    exact hg ⟨hi, hy.off, hx⟩
  have hρ := hc.ρ
  have hi' := inside_step hc hi
  rw [step_xWall hy.off hx] at hi' ⊢
  have hlt := wallTime_next hi.unitX (by omega) hx
  refine ⟨⟨hi', ?_⟩, hlt⟩
  unfold YClear at hy ⊢
  simp only
  omega

theorem reaches_of_yWall (hc : c.Fair) (hi : c.Inside a) (hy : c.YWall a) : Reaches c.step c.Caught a := by
  refine (reaches_yExit hc hi hy).trans fun b ⟨hi, he⟩ => ?_
  have hρ := hc.ρ
  have hk := wallTime_le hc hi
  have hcl : YClear c b (wallTime c.ρ 1000 b.x b.m) := by
    unfold YExit at he
    unfold YClear
    omega
  exact (reaches_xOff hc hi hcl).trans fun d ⟨hi, hy, hx⟩ => reaches_of_off hc hi hy hx

/-- **Pursuit in integers.** From anywhere in the field the player is caught. -/
theorem reaches_caught (hc : c.Fair) (hi : c.Inside a) : Reaches c.step c.Caught a := by
  have hρ := hc.ρ
  -- X leaves its edge, unless Y comes to one meanwhile
  have hout : Reaches c.step (fun a => c.Inside a ∧ (c.YWall a ∨ ¬ c.XWall a)) a := by
    refine reaches_of_measure (P := c.Inside) (fun a => wallTime c.ρ 1000 a.x a.m) (fun a hi hg => ?_) hi
    obtain ⟨hy, hx⟩ := not_or.1 fun h => hg ⟨hi, h⟩
    rw [not_not] at hx
    have hi' := inside_step hc hi
    rw [step_xWall hy hx] at hi' ⊢
    exact ⟨hi', wallTime_next hi.unitX (by omega) hx⟩
  refine hout.trans fun b ⟨hi, hb⟩ => ?_
  by_cases hy : c.YWall b
  · exact reaches_of_yWall hc hi hy
  · exact reaches_of_off hc hi hy (hb.resolve_left hy)

end Quarry

/-! ## The registers -/

def Regs.view (r : Regs) : Agent := ⟨r.xPos.toNat, r.yPos.toNat, r.xMotion.toInt, r.yMotion.toInt⟩

/-- The player as the enemy meets it. -/
def quarry (E : Enemy) (X Y size : BitVec 10) : Quarry :=
  ⟨E.radius, X.toNat, Y.toNat, (E.radius + size.toNat : ℕ)⟩

/-- One frame of an enemy, player at rest: `frame_clk` low, then high. -/
def frame (X Y size : BitVec 10) : List In := [⟨false, false, X, Y, size, false⟩, ⟨false, true, X, Y, size, false⟩]

def frames (X Y size : BitVec 10) : ℕ → List In
  | 0 => []
  | n + 1 => frame X Y size ++ frames X Y size n

section
variable {E : Enemy} (hE : E ∈ enemies) (hw : E.xMax = 1000) {X Y size : BitVec 10}
include hE hw

variable (X Y size) in
theorem atEdge_view {r : Regs} (h : Contained E r) :
    (bottomEdge E r ∨ topEdge E r ↔ (quarry E X Y size).YWall r.view) ∧
      (rightEdge E r ∨ leftEdge E r ↔ (quarry E X Y size).XWall r.view) := by
  have hS := sane hE
  have hR := rightEdge_iff hS h
  rw [hw] at hR
  rw [bottomEdge_iff hS h, topEdge_iff hS h, hR, leftEdge_iff hS h]
  exact ⟨Iff.rfl, Iff.rfl⟩

theorem caught_iff {r : Regs} (h : Contained E r) (hs : size.toNat < E.radius) :
    (comb E r X Y size).gameover = true ↔ (quarry E X Y size).Caught r.view := by
  obtain ⟨hy, hx⟩ := atEdge_view hE hw X Y size h
  rw [(comb_outputs E r X Y size).2, contact_iff hE, not_atEdge_iff]
  unfold Quarry.Caught
  rw [← hy, ← hx]
  constructor
  · rintro ⟨⟨h1, h2⟩, ht, -⟩
    exact ⟨h1, h2, ht⟩
  · rintro ⟨h1, h2, ht⟩
    exact ⟨⟨h1, h2⟩, ht, hs.le⟩

omit hw in
theorem view_move_of_advances {r : Regs} (h : Contained E r) {c : Comb} (ha : Advances r c) : (move r c).view =
    ⟨r.view.x + r.view.m, r.view.y + r.view.n, c.motionIn.x.toInt, c.motionIn.y.toInt⟩ := by
  obtain ⟨ex, ey⟩ := pos_toNat (sane hE) h
  obtain ⟨hx, hy⟩ := ha
  simp only [Regs.view, move, hx, hy, ex, ey]

omit hE hw in
/-- A player who is not larger is not eaten. -/
theorem not_isCollision (r : Regs) (hs : size.toNat < E.radius) : (comb E r X Y size).isCollision = false := by
  rw [← Bool.not_eq_true, (comb_outputs E r X Y size).1]
  omega

omit hE hw in
theorem advances_of_smaller (r : Regs) (hs : size.toNat < E.radius) : Advances r (comb E r X Y size) := by
  by_cases he : AtEdge E r
  · rw [comb_atEdge he]
    exact ⟨rfl, rfl⟩
  by_cases hc : contact E r X Y size
  · rw [comb_kill he hc hs.le]
    exact ⟨rfl, rfl⟩
  · rw [comb_apart he hc]
    exact ⟨rfl, rfl⟩

/-- One frame of the module is one step of the pursuit. -/
theorem view_move {r : Regs} (h : Contained E r) (hs : size.toNat < E.radius) :
    (move r (comb E r X Y size)).view = (quarry E X Y size).step r.view := by
  have hS := sane hE
  have hB := bottomEdge_iff hS h
  have hR := rightEdge_iff hS h
  rw [hw] at hR
  obtain ⟨hy, hx⟩ := atEdge_view hE hw X Y size h
  rw [view_move_of_advances hE h (advances_of_smaller r hs)]
  by_cases hb : bottomEdge E r
  · have hi : inward (quarry E X Y size).ρ 800 r.view.y = -1 := if_pos (hB.1 hb)
    rw [Quarry.step_yWall (hy.1 (Or.inl hb)), hi, ← neg_step_toInt, comb_atEdge (Or.inl hb)]
    simp [turn, hb, Regs.view]
  by_cases ht : topEdge E r
  · have hi : inward (quarry E X Y size).ρ 800 r.view.y = 1 := if_neg (hB.not.1 hb)
    rw [Quarry.step_yWall (hy.1 (Or.inr ht)), hi, ← step_toInt, comb_atEdge (Or.inr (Or.inl ht))]
    simp [turn, hb, ht, Regs.view]
  have hny := hy.not.1 (not_or.2 ⟨hb, ht⟩)
  by_cases hr : rightEdge E r
  · have hi : inward (quarry E X Y size).ρ 1000 r.view.x = -1 := if_pos (hR.1 hr)
    rw [Quarry.step_xWall hny (hx.1 (Or.inl hr)), hi, ← neg_step_toInt,
      comb_atEdge (Or.inr (Or.inr (Or.inl hr)))]
    simp [turn, hb, ht, hr, Regs.view]
  by_cases hl : leftEdge E r
  · have hi : inward (quarry E X Y size).ρ 1000 r.view.x = 1 := if_neg (hR.not.1 hr)
    rw [Quarry.step_xWall hny (hx.1 (Or.inr hl)), hi, ← step_toInt,
      comb_atEdge (Or.inr (Or.inr (Or.inr hl)))]
    simp [turn, hb, ht, hr, Regs.view]
  have hnx := hx.not.1 (not_or.2 ⟨hr, hl⟩)
  have he : ¬ AtEdge E r := not_atEdge_iff.2 ⟨not_or.2 ⟨hb, ht⟩, not_or.2 ⟨hr, hl⟩⟩
  by_cases hc : Touch E r X Y size
  · rw [Quarry.step_touch hny hnx hc, comb_kill he ((contact_iff hE r X Y size).2 hc) hs.le]
    rfl
  · obtain ⟨ex, ey⟩ := toward_sign (E := E) (centres_ne hc)
    rw [Quarry.step_free hny hnx hc, motionIn_of_apart hE he hc, if_pos hs, ex, ey]
    rfl

omit hE hw in
/-- A frame commits the combinational block. -/
theorem run_frame {s : EdgeReg Regs} (hs : size.toNat < E.radius) :
    (machine E).run s (frame X Y size) = ⟨move s.regs (comb E s.regs X Y size), true⟩ := by
  have e : (machine E).run s (frame X Y size) = ⟨ff E true ⟨false, true, X, Y, size, false⟩ s.regs, true⟩ :=
    EdgeReg.run_pulse rfl rfl s (ff_hold rfl _)
  have hn := not_isCollision (E := E) (X := X) (Y := Y) s.regs hs
  rw [e]
  simp [ff, hn]

/-- The module follows the pursuit. -/
theorem view_run (hs : size.toNat < E.radius) : ∀ (n : ℕ) (s : EdgeReg Regs), Contained E s.regs →
    ((machine E).run s (frames X Y size n)).regs.view = (quarry E X Y size).step^[n] s.regs.view ∧
      Contained E ((machine E).run s (frames X Y size n)).regs
  | 0, _, h => ⟨rfl, h⟩
  | n + 1, s, h => by
    have hm := contained_move hE h X Y size
    obtain ⟨ih, hc⟩ := view_run hs n ⟨move s.regs (comb E s.regs X Y size), true⟩ hm
    rw [frames, Machine.run_append, run_frame hs]
    refine ⟨?_, hc⟩
    rw [ih, Function.iterate_succ_apply, view_move hE hw h hs]

end

/-- **The end of a pursuit.** From every reachable state of `enemy_ball1` or `enemy_ball3`, a smaller player that
stands still clear of the edges is caught after finitely many frames. -/
theorem pursuit_ends {E : Enemy} (hE : E = enemyBall1 ∨ E = enemyBall3) {s : EdgeReg Regs} (hs : Reachable E s)
    {X Y size : BitVec 10} (hX : 20 ≤ X.toNat ∧ X.toNat ≤ 979) (hY : 20 ≤ Y.toNat ∧ Y.toNat ≤ 779)
    (hsize : 3 ≤ size.toNat ∧ size.toNat < E.radius) :
    ∃ n, (comb E ((machine E).run s (frames X Y size n)).regs X Y size).gameover = true := by
  have hmem : E ∈ enemies := by rcases hE with rfl | rfl <;> simp [enemies]
  have hw : E.xMax = 1000 := by rcases hE with rfl | rfl <;> rfl
  have hρ := (sane hmem).radius
  have hcon := hs.contained hmem
  have hfair : (quarry E X Y size).Fair := by
    refine ⟨hρ, ?_, ?_, ?_⟩ <;> simp only [quarry] <;> omega
  have hi : (quarry E X Y size).Inside s.regs.view := by
    have hin := hcon.inside
    rw [hw] at hin
    exact hin
  obtain ⟨n, hn⟩ := Quarry.reaches_caught hfair hi
  obtain ⟨ev, hc⟩ := view_run hmem hw hsize.2 n s hcon
  refine ⟨n, (caught_iff hmem hw hc hsize.2).2 ?_⟩
  rw [ev]
  exact hn

/-- From `Reset`, a player of size 5 in the middle of the field. -/
theorem pursuit_ends_reset : ∃ n, (comb enemyBall1
    ((machine enemyBall1).run (resetState enemyBall1) (frames 500 400 5 n)).regs 500 400 5).gameover = true :=
  pursuit_ends (Or.inl rfl) (resetState_reachable enemyBall1) (by decide) (by decide) (by decide)

end Lab8.EnemyBall
