import Lab8.BallRange
/-!
# One axis at its walls

While an axis is at a wall its keys do nothing: the motion is set inward (`bounce`). The position sees
that one frame late, so a ball at one wall may still be carried outward, and with size 3 and step 4 it can
be carried across the 1024 wrap into the other wall's zone, where the roles swap. That is the only way not
to come off the walls (`leaves_of_not_stuck`).
-/

namespace Lab8.Ball

namespace Axis

def atWall (g : Axis) (size : BitVec 10) (a : AxisRegs) : Prop := g.farEdge size a ∨ g.nearEdge size a

/-- The frame an axis at a wall makes, whatever the key. -/
def bounce (g : Axis) (size : BitVec 10) (a : AxisRegs) : AxisRegs :=
  g.move a (if g.farEdge size a then ~~~a.step + 1 else a.step)

/-- Carried outward from one wall into the zone of the other. -/
def Stuck (g : Axis) (size : BitVec 10) (a : AxisRegs) : Prop :=
  (g.nearEdge size a ∧ ¬ g.farEdge size a ∧ a.motion.toInt < 0 ∧ g.farEdge size (g.move a a.motion)) ∨
    (g.farEdge size a ∧ 0 < a.motion.toInt ∧ ¬ g.farEdge size (g.move a a.motion) ∧
      g.nearEdge size (g.move a a.motion))

/-- `Stuck` on the registers: size 3, and the motion takes the ball from 0 over the wrap to 1020 or back,
or, while the offset is wrapped to 1020 and the near test holds everywhere, over the line above 1020. -/
def Shuttles (size : BitVec 10) (a : AxisRegs) : Prop :=
  size.toNat = 3 ∧ ((a.pos.toNat = 0 ∧ a.motion.toInt = -4) ∨ (a.pos.toNat = 1020 ∧ a.motion.toInt = 4) ∨
    (a.progress.toInt = -4 ∧
      ((1020 < a.pos.toNat ∧ a.pos.toNat + a.motion.toInt ≤ 1020) ∨
        (a.pos.toNat ≤ 1020 ∧ 1020 < a.pos.toNat + a.motion.toInt ∧
          a.pos.toNat + a.motion.toInt ≤ 1023))))

instance (size : BitVec 10) (a : AxisRegs) : Decidable (Shuttles size a) :=
  inferInstanceAs (Decidable (_ ∧ _))

/-- Bouncing ends, off the walls, in a state that satisfies `Q`. -/
inductive Leaves (g : Axis) (size : BitVec 10) (Q : AxisRegs → Prop) : AxisRegs → Prop
  | off {a : AxisRegs} : ¬ g.atWall size a → Q a → Leaves g size Q a
  | bounce {a : AxisRegs} : g.atWall size a → Leaves g size Q (g.bounce size a) → Leaves g size Q a

theorem Leaves.mono {g : Axis} {size : BitVec 10} {Q R : AxisRegs → Prop} (hQ : ∀ a, Q a → R a)
    {a : AxisRegs} (h : g.Leaves size Q a) : g.Leaves size R a := by
  induction h with
  | off h1 h2 => exact .off h1 (hQ _ h2)
  | bounce h1 _ ih => exact .bounce h1 ih

/-- The next frame stays off the walls too. -/
def Settled (g : Axis) (size : BitVec 10) (a : AxisRegs) : Prop :=
  ¬ g.atWall size (g.move a a.motion)

/-! ## Edge tests as integer inequalities -/

/-- What a reachable axis satisfies together with the size it is tested with. -/
structure Live (g : Axis) (size : BitVec 10) (a : AxisRegs) : Prop where
  cam : g.CamRange a
  slow : Slow a
  step_pos : 1 ≤ a.step.toNat
  step_le : a.step.toNat ≤ 4
  size_ge : 3 ≤ size.toNat
  size_le : size.toNat ≤ 10
  sum_ge : 7 ≤ a.step.toNat + size.toNat

section
variable {g : Axis} {size : BitVec 10} {a : AxisRegs}

theorem Live.move (hg : g.Sane) (h : g.Live size a) {m : BitVec 10}
    (hm : m = a.motion ∨ m = 0 ∨ m = a.step ∨ m = -a.step) : g.Live size (g.move a m) :=
  ⟨camRange_move hg h.cam h.slow m, slow_of_cases h.slow h.step_le hm, h.step_pos, h.step_le, h.size_ge,
    h.size_le, h.sum_ge⟩

theorem Live.bounce (hg : g.Sane) (h : g.Live size a) : g.Live size (g.bounce size a) := by
  refine h.move hg ?_
  split
  · exact Or.inr (Or.inr (Or.inr (Word.not_add_one _)))
  · exact Or.inr (Or.inr (Or.inl rfl))

/-- Only the far test's left side can wrap, and then the test fails. -/
theorem farEdge_iff (hg : g.Sane) (h : g.Live size a) : g.farEdge size a ↔
    a.pos.toNat + size.toNat ≤ 1023 ∧ g.max.toNat + a.progress.toInt ≤ a.pos.toNat + size.toNat := by
  obtain ⟨-, -, -, -, -, -, -, hal, hag, hm⟩ := hg
  obtain ⟨⟨c1, c2⟩, -, -, -, -, hz, -⟩ := h
  have hx := a.pos.isLt
  have hp := a.progress.isLt
  unfold farEdge
  rw [ge_iff_le, BitVec.le_def, BitVec.toNat_add, BitVec.toNat_add]
  rw [BitVec.toInt_eq_toNat_cond] at c1 c2
  rw [BitVec.toInt_eq_toNat_cond a.progress]
  split at c1 <;> omega

/-- The near test holds everywhere once the offset has wrapped past the size. -/
theorem nearEdge_iff (hg : g.Sane) (h : g.Live size a) : g.nearEdge size a ↔
    (a.pos.toNat : ℤ) ≤ size.toNat + a.progress.toInt ∨ size.toNat + a.progress.toInt < 0 := by
  obtain ⟨hmin, -, -, -, -, -, -, hal, hag, hm⟩ := hg
  obtain ⟨⟨c1, c2⟩, -, -, -, hz1, hz, -⟩ := h
  have hx := a.pos.isLt
  have hp := a.progress.isLt
  unfold nearEdge
  rw [BitVec.le_def, BitVec.toNat_add, BitVec.toNat_add, hmin]
  rw [BitVec.toInt_eq_toNat_cond] at c1 c2
  rw [BitVec.toInt_eq_toNat_cond a.progress]
  split at c1 <;> omega

/-- One committed frame in integers: the position wraps, the offset follows or stands. -/
theorem move_view (hg : g.Sane) (h : g.Live size a) (m : BitVec 10) :
    ((g.move a m).pos.toNat : ℤ) = (a.pos.toNat + a.motion.toInt) % 1024 ∧
      (((g.move a m).progress.toInt = a.progress.toInt + a.motion.toInt ∧
          ((a.progress.toInt + g.ahead.toNat ≤ a.pos.toNat ∧ 0 ≤ a.motion.toInt ∧
              a.pos.toNat ≤ g.max.toNat) ∨
            (a.pos.toNat ≤ a.progress.toInt + g.behind.toNat ∧ a.motion.toInt < 0 ∧
              g.behind.toNat ≤ a.pos.toNat))) ∨
        ((g.move a m).progress.toInt = a.progress.toInt ∧
          ¬(a.progress.toInt + g.ahead.toNat ≤ a.pos.toNat ∧ 0 ≤ a.motion.toInt ∧
              a.pos.toNat ≤ g.max.toNat) ∧
            ¬(a.pos.toNat ≤ a.progress.toInt + g.behind.toNat ∧ a.motion.toInt < 0 ∧
              g.behind.toNat ≤ a.pos.toNat))) := by
  refine ⟨Word.toNat_add_toInt _ _, ?_⟩
  rw [← scrollsOut_iff hg h.cam, ← scrollsBack_iff hg h.cam]
  have hp := progressIn_toInt hg h.cam h.slow
  by_cases hs : g.scrollsOut a ∨ g.scrollsBack a
  · rw [if_pos hs] at hp
    exact Or.inl ⟨hp, hs⟩
  · rw [if_neg hs] at hp
    exact Or.inr ⟨hp, not_or.1 hs⟩

theorem Live.step_toInt (h : g.Live size a) : a.step.toInt = a.step.toNat :=
  Word.toInt_of_lt (by have := h.step_le; omega)

theorem Live.neg_step_toInt (h : g.Live size a) : (~~~a.step + 1).toInt = -a.step.toNat := by
  rw [← Word.toInt_neg_of_lt (x := a.step) (by have := h.step_le; omega)]
  exact congrArg _ (Word.not_add_one _)

/-! ## Coming off a wall -/

/-- Above the wrap a climbing ball first comes round to 0, then climbs. -/
def height (a : AxisRegs) : ℕ := if 1021 ≤ a.pos.toNat then 1100 else 1024 - a.pos.toNat

/-- Off the near wall and moving away from it, with room ahead for a step or with the camera following. -/
theorem settled_of_room (hg : g.Sane) {b : AxisRegs} (h : g.Live size b) (hm : b.motion = b.step)
    (hnear : ¬ g.nearEdge size b)
    (hroom : b.pos.toNat + size.toNat < g.max.toNat + b.progress.toInt)
    (hnext : b.pos.toNat + size.toNat + b.step.toNat < g.max.toNat + b.progress.toInt ∨
      (b.progress.toInt + g.ahead.toNat ≤ b.pos.toNat ∧ b.pos.toNat ≤ g.max.toNat)) :
    g.Settled size b := by
  have hL := h.move hg (m := b.motion) (Or.inl rfl)
  obtain ⟨w1, w2⟩ := move_view hg h b.motion
  have hs : b.motion.toInt = b.step.toNat := by rw [hm, h.step_toInt]
  rw [nearEdge_iff hg h] at hnear
  rw [hs] at w1 w2
  have hg' := hg
  obtain ⟨-, -, -, -, -, -, hgap, hal, hag, hmx⟩ := hg
  obtain ⟨⟨c1, c2⟩, -, s1, s2, z1, z2, sz⟩ := h
  rintro (hw | hw)
  · rw [farEdge_iff hg' hL] at hw
    omega
  · rw [nearEdge_iff hg' hL] at hw
    omega

/-- At the near wall and already moving inward: off it, and further still a frame later. When the wrapped
offset makes the near test hold everywhere, the climb goes on until the camera scrolls out again. -/
theorem climb (hg : g.Sane) : ∀ (n : ℕ) (a : AxisRegs), height a < n → g.Live size a →
    a.motion = a.step → g.nearEdge size a → ¬ g.farEdge size a → g.Leaves size (g.Settled size) a
  | 0, _, hn, _, _, _, _ => absurd hn (Nat.not_lt_zero _)
  | n + 1, a, hn, h, hm, hnear, hfar => by
    have hb : g.bounce size a = g.move a a.step := by rw [bounce, if_neg hfar]
    have hL : g.Live size (g.move a a.step) := h.move hg (Or.inr (Or.inr (Or.inl rfl)))
    obtain ⟨v1, v2⟩ := move_view hg h a.step
    refine .bounce (Or.inr hnear) ?_
    rw [hb]
    have hfar' := (farEdge_iff hg h).not.1 hfar
    have hnear' := (nearEdge_iff hg h).1 hnear
    rw [hm, h.step_toInt] at v1 v2
    have hx := a.pos.isLt
    have hg' := hg
    obtain ⟨-, -, -, -, -, -, hgap, hal, hag, hmx⟩ := hg
    obtain ⟨⟨c1, c2⟩, -, s1, s2, z1, z2, sz⟩ := h
    have hfar2 : ¬ g.farEdge size (g.move a a.step) := by
      rw [farEdge_iff hg' hL]
      rintro ⟨f1, f2⟩
      rcases lt_or_ge ((a.pos.toNat : ℤ) + a.step.toNat) 1024 with hlt | hge
      · rw [Int.emod_eq_of_lt (by omega) hlt] at v1
        omega
      · omega
    by_cases hnear2 : g.nearEdge size (g.move a a.step)
    · refine climb hg' n _ ?_ hL rfl hnear2 hfar2
      rw [nearEdge_iff hg' hL] at hnear2
      unfold height at hn ⊢
      split at hn <;> split <;> omega
    · have hn2 := (nearEdge_iff hg' hL).not.1 hnear2
      have hroom : (g.move a a.step).pos.toNat + size.toNat <
          g.max.toNat + (g.move a a.step).progress.toInt := by omega
      refine .off (fun hw => hw.elim hfar2 hnear2) (settled_of_room hg' hL rfl hnear2 hroom ?_)
      rw [show (g.move a a.step).step = a.step from rfl]
      omega

/-- Between the walls by the far test alone, after a frame that moved inward from the far wall: off both
walls, unless the wrapped offset makes the near test hold, and then the ball turns and climbs. -/
theorem leaves_below_far (hg : g.Sane) {b : AxisRegs} (h : g.Live size b)
    (hm : b.motion.toInt = -b.step.toNat) (hfar : ¬ g.farEdge size b)
    (hlo : g.max.toNat + b.progress.toInt - 4 ≤ b.pos.toNat + size.toNat)
    (hhi : b.pos.toNat + size.toNat ≤ 1023) : g.Leaves size (g.Settled size) b := by
  have hL := h.move hg (m := b.motion) (Or.inl rfl)
  obtain ⟨v1, v2⟩ := move_view hg h b.motion
  obtain ⟨w1, w2⟩ := move_view hg h b.step
  have hfar' := (farEdge_iff hg h).not.1 hfar
  have hx := b.pos.isLt
  have hg' := hg
  obtain ⟨-, -, -, -, -, -, hgap, hal, hag, hmx⟩ := hg
  have h' := h
  obtain ⟨⟨c1, c2⟩, -, s1, s2, z1, z2, sz⟩ := h
  by_cases hnear : g.nearEdge size b
  · have hL1 : g.Live size (g.move b b.step) := h'.move hg' (Or.inr (Or.inr (Or.inl rfl)))
    have hb : g.bounce size b = g.move b b.step := by rw [bounce, if_neg hfar]
    have hnear' := (nearEdge_iff hg' h').1 hnear
    refine .bounce (Or.inr hnear) ?_
    rw [hb]
    refine climb hg' _ _ (Nat.lt_succ_self _) hL1 rfl ?_ ?_
    · rw [nearEdge_iff hg' hL1]; omega
    · rw [farEdge_iff hg' hL1]; omega
  · have hnear' := (nearEdge_iff hg' h').not.1 hnear
    refine .off (fun hw => hw.elim hfar hnear) ?_
    rintro (hw | hw)
    · rw [farEdge_iff hg' hL] at hw; omega
    · rw [nearEdge_iff hg' hL] at hw; omega

/-- At the far wall and already moving inward. -/
theorem descend (hg : g.Sane) : ∀ (n : ℕ) (a : AxisRegs), a.pos.toNat < n → g.Live size a →
    a.motion.toInt = -a.step.toNat → g.farEdge size a → g.Leaves size (g.Settled size) a
  | 0, _, hn, _, _, _ => absurd hn (Nat.not_lt_zero _)
  | n + 1, a, hn, h, hm, hfar => by
    have hb : g.bounce size a = g.move a (~~~a.step + 1) := by rw [bounce, if_pos hfar]
    have hL : g.Live size (g.move a (~~~a.step + 1)) :=
      h.move hg (Or.inr (Or.inr (Or.inr (Word.not_add_one _))))
    have hm' : (g.move a (~~~a.step + 1)).motion.toInt = -(g.move a (~~~a.step + 1)).step.toNat :=
      h.neg_step_toInt
    obtain ⟨v1, v2⟩ := move_view hg h (~~~a.step + 1)
    have hfar' := (farEdge_iff hg h).1 hfar
    refine .bounce (Or.inl hfar) ?_
    rw [hb]
    have hx := a.pos.isLt
    have hg' := hg
    obtain ⟨-, -, -, -, -, -, hgap, hal, hag, hmx⟩ := hg
    obtain ⟨⟨c1, c2⟩, -, s1, s2, z1, z2, sz⟩ := h
    by_cases hfar2 : g.farEdge size (g.move a (~~~a.step + 1))
    · exact descend hg' n _ (by omega) hL hm' hfar2
    · exact leaves_below_far hg' hL hm' hfar2 (by omega) (by omega)

/-- A ball at rest at a wall comes off it and stays off for another frame. -/
theorem leaves_of_rest (hg : g.Sane) (h : g.Live size a) (hw : g.atWall size a) (hm : a.motion = 0) :
    g.Leaves size (g.Settled size) a := by
  refine .bounce hw ?_
  have hL := h.bounce hg
  have hm0 : a.motion.toInt = 0 := by rw [hm]; decide
  by_cases hfar : g.farEdge size a
  · obtain ⟨v1, v2⟩ := move_view hg h (~~~a.step + 1)
    have hb : g.bounce size a = g.move a (~~~a.step + 1) := by rw [bounce, if_pos hfar]
    have hfar' := (farEdge_iff hg h).1 hfar
    rw [hb] at hL ⊢
    refine descend hg _ _ (Nat.lt_succ_self _) hL h.neg_step_toInt ?_
    rw [farEdge_iff hg hL]; omega
  · obtain ⟨v1, v2⟩ := move_view hg h a.step
    have hb : g.bounce size a = g.move a a.step := by rw [bounce, if_neg hfar]
    have hfar' := (farEdge_iff hg h).not.1 hfar
    have hnear' := (nearEdge_iff hg h).1 (hw.resolve_left hfar)
    rw [hb] at hL ⊢
    have hx := a.pos.isLt
    refine climb hg _ _ (Nat.lt_succ_self _) hL rfl ?_ ?_
    · rw [nearEdge_iff hg hL]; omega
    · rw [farEdge_iff hg hL]; omega

/-- From the far wall, if the motion does not carry the ball into the near zone. -/
theorem leaves_of_far (hg : g.Sane) (h : g.Live size a) (hfar : g.farEdge size a)
    (hs : ¬ (0 < a.motion.toInt ∧ ¬ g.farEdge size (g.move a a.motion) ∧ g.nearEdge size (g.move a a.motion))) :
    g.Leaves size (fun _ => True) (g.bounce size a) := by
  have hL := h.bounce hg
  obtain ⟨v1, v2⟩ := move_view hg h (~~~a.step + 1)
  have hb : g.bounce size a = g.move a (~~~a.step + 1) := by rw [bounce, if_pos hfar]
  rw [hb] at hL ⊢
  by_cases hfar2 : g.farEdge size (g.move a (~~~a.step + 1))
  · exact (descend hg _ _ (Nat.lt_succ_self _) hL h.neg_step_toInt hfar2).mono fun _ _ => trivial
  by_cases hnear2 : g.nearEdge size (g.move a (~~~a.step + 1))
  · -- not carried outward, so the near test holds because of the offset
    have hm0 : a.motion.toInt ≤ 0 := by
      by_contra hpos
      exact hs ⟨by omega, hfar2, hnear2⟩
    have hx := a.pos.isLt
    have hmg := h.slow.ge
    have hfar' := (farEdge_iff hg h).1 hfar
    have hm := h.neg_step_toInt
    have hg' := hg
    obtain ⟨-, -, -, -, -, -, hgap, hal, hag, hmx⟩ := hg
    obtain ⟨⟨c1, c2⟩, -, s1, s2, z1, z2, sz⟩ := h
    exact (leaves_below_far hg' hL hm hfar2 (by omega) (by omega)).mono fun _ _ => trivial
  · exact .off (fun hw => hw.elim hfar2 hnear2) trivial

/-- From the near wall, if the motion does not carry the ball into the far zone. -/
theorem leaves_of_near (hg : g.Sane) (h : g.Live size a) (hnear : g.nearEdge size a)
    (hfar : ¬ g.farEdge size a)
    (hs : ¬ (a.motion.toInt < 0 ∧ g.farEdge size (g.move a a.motion))) :
    g.Leaves size (fun _ => True) (g.bounce size a) := by
  have hL := h.bounce hg
  obtain ⟨v1, v2⟩ := move_view hg h a.step
  have hb : g.bounce size a = g.move a a.step := by rw [bounce, if_neg hfar]
  rw [hb] at hL ⊢
  have hfar2 : ¬ g.farEdge size (g.move a a.step) := by
    intro hfar2
    have hm0 : 0 ≤ a.motion.toInt := by
      by_contra hneg
      exact hs ⟨by omega, hfar2⟩
    have hx := a.pos.isLt
    have hml := h.slow.le
    rw [farEdge_iff hg hL] at hfar2
    rw [farEdge_iff hg h] at hfar
    rw [nearEdge_iff hg h] at hnear
    obtain ⟨-, -, -, -, -, -, hgap, hal, hag, hmx⟩ := hg
    obtain ⟨⟨c1, c2⟩, -, s1, s2, z1, z2, sz⟩ := h
    omega
  by_cases hnear2 : g.nearEdge size (g.move a a.step)
  · exact (climb hg _ _ (Nat.lt_succ_self _) hL rfl hnear2 hfar2).mono fun _ _ => trivial
  · exact .off (fun hw => hw.elim hfar2 hnear2) trivial

/-- **One axis.** A ball at a wall that is not being carried into the other wall comes off the walls. -/
theorem leaves_of_not_stuck (hg : g.Sane) (h : g.Live size a) (hw : g.atWall size a)
    (hs : ¬ g.Stuck size a) : g.Leaves size (fun _ => True) a := by
  obtain ⟨hs1, hs2⟩ := not_or.1 hs
  refine .bounce hw ?_
  by_cases hfar : g.farEdge size a
  · exact leaves_of_far hg h hfar fun ⟨hm, hf, hn⟩ => hs2 ⟨hfar, hm, hf, hn⟩
  · have hnear := hw.resolve_left hfar
    exact leaves_of_near hg h hnear hfar fun ⟨hm, hf⟩ => hs1 ⟨hnear, hfar, hm, hf⟩

/-! ## Being stuck -/

theorem Stuck.atWall (hs : g.Stuck size a) : g.atWall size a :=
  hs.elim (fun h => Or.inr h.1) (fun h => Or.inl h.1)

theorem stuck_iff (hg : g.Sane) (h : g.Live size a) : g.Stuck size a ↔ Shuttles size a := by
  have hL := h.move hg (m := a.motion) (Or.inl rfl)
  obtain ⟨v1, v2⟩ := move_view hg h a.motion
  have hx := a.pos.isLt
  unfold Stuck Shuttles
  rw [nearEdge_iff hg h, farEdge_iff hg h, farEdge_iff hg hL, nearEdge_iff hg hL]
  obtain ⟨-, -, -, hbg, -, -, hgap, hal, hag, hmx⟩ := hg
  obtain ⟨⟨c1, c2⟩, ⟨m1, m2⟩, s1, s2, z1, z2, sz⟩ := h
  constructor
  · rintro (⟨h1, h2, h3, h4⟩ | ⟨h1, h2, h3, h4⟩)
    · rcases lt_or_ge ((a.pos.toNat : ℤ) + a.motion.toInt) 0 with hlt | hge
      · omega
      · -- the position does not wrap, so the near test held because the offset had
        rw [Int.emod_eq_of_lt hge (by omega)] at v1
        have hp : 1020 < a.pos.toNat := by omega
        have hq : a.progress.toInt = -4 ∧ size.toNat = 3 := by omega
        omega
    · rcases lt_or_ge ((a.pos.toNat : ℤ) + a.motion.toInt) 1024 with hlt | hge
      · rw [Int.emod_eq_of_lt (by omega) hlt] at v1
        have hq : a.progress.toInt = -4 ∧ size.toNat = 3 := by omega
        omega
      · omega
  · rintro ⟨h0, ⟨h1, h2⟩ | ⟨h1, h2⟩ | ⟨h1, ⟨h2, h3⟩ | ⟨h2, h3, h4⟩⟩⟩
    · left; omega
    · right; omega
    · left; omega
    · right; omega

theorem Stuck.motion_ne (hs : g.Stuck size a) : a.motion ≠ 0 := by
  rintro h0
  rcases hs with ⟨-, -, hm, -⟩ | ⟨-, hm, -, -⟩ <;> rw [h0] at hm <;> exact absurd hm (by decide)

/-- The two wall zones swap: the ball is carried back the way it came. -/
theorem Stuck.bounce (hg : g.Sane) (h : g.Live size a) (hs : g.Stuck size a) :
    g.Stuck size (g.bounce size a) := by
  rw [stuck_iff hg (h.bounce hg)]
  rw [stuck_iff hg h] at hs
  have hx := a.pos.isLt
  have hfar := farEdge_iff hg h
  by_cases hf : g.farEdge size a
  · obtain ⟨v1, v2⟩ := move_view hg h (~~~a.step + 1)
    have hm : (g.move a (~~~a.step + 1)).motion.toInt = -a.step.toNat := h.neg_step_toInt
    rw [Axis.bounce, if_pos hf]
    have hf' := hfar.1 hf
    obtain ⟨-, -, -, hbg, -, -, hgap, hal, hag, hmx⟩ := hg
    obtain ⟨⟨c1, c2⟩, ⟨m1, m2⟩, s1, s2, z1, z2, sz⟩ := h
    unfold Shuttles at hs ⊢
    obtain ⟨h0, ⟨h1, h2⟩ | ⟨h1, h2⟩ | ⟨h1, ⟨h2, h3⟩ | ⟨h2, h3, h4⟩⟩⟩ := hs <;> omega
  · obtain ⟨v1, v2⟩ := move_view hg h a.step
    have hm : (g.move a a.step).motion.toInt = a.step.toNat := h.step_toInt
    rw [Axis.bounce, if_neg hf]
    have hf' := hfar.not.1 hf
    obtain ⟨-, -, -, hbg, -, -, hgap, hal, hag, hmx⟩ := hg
    obtain ⟨⟨c1, c2⟩, ⟨m1, m2⟩, s1, s2, z1, z2, sz⟩ := h
    unfold Shuttles at hs ⊢
    obtain ⟨h0, ⟨h1, h2⟩ | ⟨h1, h2⟩ | ⟨h1, ⟨h2, h3⟩ | ⟨h2, h3, h4⟩⟩⟩ := hs <;> omega

end

end Axis

end Lab8.Ball
