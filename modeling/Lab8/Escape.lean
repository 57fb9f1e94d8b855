import Lab8.Walls
import Lab8.Camera
/-!
# Coming off the walls

Y edges have priority over X edges and both over the keys. The way out: press w while a Y edge holds (it
zeroes the X motion), press a while only an X edge holds (it zeroes the Y motion). It works from every
reachable state but those in which an axis is carried from wall to wall for ever: Y, whatever X does, or
X while Y is at rest off its edges (`Trapped`, `escapes_iff`).
-/

namespace Lab8.Ball

open Clocked

def AtEdge (r : Regs) : Prop := bottomEdge r ∨ topEdge r ∨ rightEdge r ∨ leftEdge r

/-- Some sequence of keys leads to a state in which no edge test holds. -/
def Escapes (s : EdgeReg Regs) : Prop :=
  ∃ ks : List (BitVec 16), ¬ AtEdge (machine.run s (ks.flatMap frame)).regs

/-- Y shuttles between its walls, or X does while Y is at rest off its edges. -/
def Trapped (r : Regs) : Prop :=
  Axis.Shuttles r.size r.y ∨ (Axis.Shuttles r.size r.x ∧ ¬ bottomEdge r ∧ ¬ topEdge r ∧ r.y.motion = 0)

instance (r : Regs) : Decidable (Trapped r) := inferInstanceAs (Decidable (_ ∨ (_ ∧ ¬ _ ∧ ¬ _ ∧ _)))

theorem atEdge_iff (r : Regs) : AtEdge r ↔ yAxis.atWall r.size r.y ∨ xAxis.atWall r.size r.x := by
  unfold AtEdge Axis.atWall bottomEdge topEdge rightEdge leftEdge
  rw [or_assoc]

/-! ## What a key does at an edge -/

/-- At a Y edge the key decides only whether the X motion is dropped. -/
theorem move_of_yWall {r : Regs} (h : yAxis.atWall r.size r.y) (k : BitVec 16) :
    (move r k).y = yAxis.bounce r.size r.y ∧
      (move r k).x = xAxis.move r.x (if (keyBranch k).zeroX then 0 else r.x.motion) := by
  by_cases hb : bottomEdge r
  · have hb' : yAxis.farEdge r.size r.y := hb
    simp [move, motionIn_eq, KeyBranch.motion, edgeElse, hb, Axis.bounce, hb']
  · have ht : topEdge r := h.resolve_left hb
    have hb' : ¬ yAxis.farEdge r.size r.y := hb
    simp [move, motionIn_eq, KeyBranch.motion, edgeElse, hb, ht, Axis.bounce, hb']

/-- At an X edge alone it decides only whether the Y motion is dropped. -/
theorem move_of_xWall {r : Regs} (hy : ¬ yAxis.atWall r.size r.y) (h : xAxis.atWall r.size r.x)
    (k : BitVec 16) :
    (move r k).x = xAxis.bounce r.size r.x ∧
      (move r k).y = yAxis.move r.y (if (keyBranch k).zeroY then 0 else r.y.motion) := by
  have hb : ¬ bottomEdge r := fun h' => hy (Or.inl h')
  have ht : ¬ topEdge r := fun h' => hy (Or.inr h')
  by_cases hr : rightEdge r
  · have hr' : xAxis.farEdge r.size r.x := hr
    simp [move, motionIn_eq, KeyBranch.motion, edgeElse, hb, ht, hr, Axis.bounce, hr']
  · have hl : leftEdge r := h.resolve_left hr
    have hr' : ¬ xAxis.farEdge r.size r.x := hr
    simp [move, motionIn_eq, KeyBranch.motion, edgeElse, hb, ht, hr, hl, Axis.bounce, hr']

def keyW : BitVec 16 := 0x001A
def keyA : BitVec 16 := 0x0004

theorem keyBranch_w : (keyBranch keyW).zeroX = true ∧ (keyBranch keyW).zeroY = false := by decide
theorem keyBranch_a : (keyBranch keyA).zeroX = false ∧ (keyBranch keyA).zeroY = true := by decide

/-- An axis at rest that is given no motion stays as it is. -/
theorem Axis.move_rest (g : Axis) {a : AxisRegs} (h : a.motion = 0) : g.move a 0 = a := by
  have hp : g.progressIn a = a.progress := by
    rw [Axis.progressIn_eq, h]
    split
    · exact BitVec.add_zero _
    · rfl
  have hx : a.pos + a.motion = a.pos := by rw [h]; exact BitVec.add_zero _
  unfold Axis.move
  rw [hp, hx, ← h]

theorem Axis.Leaves.of_bounce {g : Axis} {z : BitVec 10} {Q : AxisRegs → Prop} {a : AxisRegs}
    (h : g.Leaves z Q a) (hw : g.atWall z a) : g.Leaves z Q (g.bounce z a) := by
  cases h with
  | off h1 _ => exact absurd hw h1
  | bounce _ h2 => exact h2

theorem Ranged.live (h : Ranged r) : xAxis.Live r.size r.x ∧ yAxis.Live r.size r.y := by
  obtain ⟨⟨he, s1, s2, z1, z2, sz, -⟩, hx, hy, cx, cy⟩ := h
  exact ⟨⟨cx, hx, s1, s2, z1, z2, sz⟩, ⟨cy, hy, he ▸ s1, he ▸ s2, z1, z2, he ▸ sz⟩⟩

/-! ## Getting away -/

/-- `Escapes` on the registers: keys act one a frame. -/
def Away (r : Regs) : Prop := ∃ ks : List (BitVec 16), ¬ AtEdge (ks.foldl move r)

theorem escapes_iff_away (s : EdgeReg Regs) : Escapes s ↔ Away s.regs := by
  unfold Escapes Away
  simp only [run_frames]

theorem Away.press {r : Regs} {k : BitVec 16} (h : Away (move r k)) : Away r := by
  obtain ⟨ks, hk⟩ := h
  exact ⟨k :: ks, hk⟩

theorem away_of_off {r : Regs} (hy : ¬ yAxis.atWall r.size r.y) (hx : ¬ xAxis.atWall r.size r.x) : Away r :=
  ⟨[], fun h => ((atEdge_iff r).1 h).elim hy hx⟩

/-- Y at rest off its edges: hold a until X comes off. -/
theorem away_of_restY {Q : AxisRegs → Prop} {z : BitVec 10} {a : AxisRegs} (h : xAxis.Leaves z Q a) :
    ∀ r : Regs, r.size = z → r.x = a → r.y.motion = 0 → ¬ yAxis.atWall r.size r.y → Away r := by
  induction h with
  | off hw _ =>
    rintro r rfl rfl - hy
    exact away_of_off hy hw
  | bounce hw _ ih =>
    rintro r rfl rfl hm hy
    obtain ⟨ex, ey⟩ := move_of_xWall hy hw keyA
    rw [keyBranch_a.2, if_pos rfl, Axis.move_rest yAxis hm] at ey
    refine Away.press (ih (move r keyA) rfl ex ?_ ?_)
    · rw [ey]; exact hm
    · rw [ey]; exact hy

/-- Y settled off its edges and X at rest: drop the Y motion, then let X come off. -/
theorem away_of_settled {r : Regs} (h : Ranged r) (hy : ¬ yAxis.atWall r.size r.y)
    (hs : yAxis.Settled r.size r.y) (hx0 : r.x.motion = 0) : Away r := by
  by_cases hx : xAxis.atWall r.size r.x
  · have hl := (Axis.leaves_of_rest xAxis_sane h.live.1 hx hx0).of_bounce hx
    obtain ⟨ex, ey⟩ := move_of_xWall hy hx keyA
    rw [keyBranch_a.2, if_pos rfl] at ey
    refine Away.press (away_of_restY hl (move r keyA) rfl ex ?_ ?_)
    · rw [ey]; rfl
    · rw [ey]; exact hs
  · exact away_of_off hy hx

/-- Y comes off its walls: hold w until it does, and X is then at rest. -/
theorem away_of_yLeaves {Q : AxisRegs → Prop} {z : BitVec 10} {a : AxisRegs}
    (hoff : ∀ r : Regs, Ranged r → r.size = z → ¬ yAxis.atWall r.size r.y → Q r.y → r.x.motion = 0 → Away r)
    (h : yAxis.Leaves z Q a) : ∀ r : Regs, Ranged r → r.size = z → r.y = a →
      (yAxis.atWall r.size r.y ∨ r.x.motion = 0) → Away r := by
  induction h with
  | off hw hq =>
    rintro r hr rfl rfl hx
    exact hoff r hr rfl hw hq (hx.resolve_left hw)
  | bounce hw _ ih =>
    rintro r hr rfl rfl -
    obtain ⟨ey, ex⟩ := move_of_yWall hw keyW
    rw [keyBranch_w.1, if_pos rfl] at ex
    refine Away.press (ih (move r keyW) (ranged_move hr keyW) rfl ey (Or.inr ?_))
    rw [ex]; rfl

theorem away_of_yRest {r : Regs} (h : Ranged r) (hw : yAxis.atWall r.size r.y) (h0 : r.y.motion = 0) :
    Away r := by
  refine away_of_yLeaves (fun r' hr hz hy hs hx => ?_) (Axis.leaves_of_rest yAxis_sane h.live.2 hw h0) r h rfl
    rfl (Or.inl hw)
  rw [← hz] at hs
  exact away_of_settled hr hy hs hx

/-- Y off its edges and X not stuck: press a once, then Y is at rest. -/
theorem away_of_yOff {r : Regs} (h : Ranged r) (hy : ¬ yAxis.atWall r.size r.y)
    (hs : ¬ xAxis.Stuck r.size r.x) : Away r := by
  by_cases hx : xAxis.atWall r.size r.x
  · have hl := (Axis.leaves_of_not_stuck xAxis_sane h.live.1 hx hs).of_bounce hx
    obtain ⟨ex, ey⟩ := move_of_xWall hy hx keyA
    rw [keyBranch_a.2, if_pos rfl] at ey
    have hm : (move r keyA).y.motion = 0 := by rw [ey]; rfl
    apply Away.press (k := keyA)
    by_cases hw : yAxis.atWall (move r keyA).size (move r keyA).y
    · exact away_of_yRest (ranged_move h keyA) hw hm
    · exact away_of_restY hl (move r keyA) rfl ex hm hw
  · exact away_of_off hy hx

theorem away_of_yWall {r : Regs} (h : Ranged r) (hw : yAxis.atWall r.size r.y)
    (hs : ¬ yAxis.Stuck r.size r.y) : Away r :=
  away_of_yLeaves (fun _ hr _ hy _ hx => away_of_yOff hr hy fun hs => hs.motion_ne hx)
    (Axis.leaves_of_not_stuck yAxis_sane h.live.2 hw hs) r h rfl rfl (Or.inl hw)

/-! ## Drifting into a wall -/

/-- How far a moving axis is from `1010..1013`, where the far test holds whatever the offset. -/
def Axis.wallDistance (a : AxisRegs) : ℤ :=
  if 0 < a.motion.toInt then (1013 - a.pos.toNat) % 1024 else (a.pos.toNat - 1010) % 1024

theorem Axis.drift {g : Axis} (hg : g.Sane) {z : BitVec 10} {a : AxisRegs} (h : g.Live z a)
    (hm : a.motion.toInt ≠ 0) (hw : ¬ g.atWall z a) :
    Axis.wallDistance (g.move a a.motion) < Axis.wallDistance a := by
  have hfar := (farEdge_iff hg h).not.1 fun hf => hw (Or.inl hf)
  obtain ⟨v, -⟩ := move_view hg h a.motion
  have hm' : (g.move a a.motion).motion = a.motion := rfl
  have hx := a.pos.isLt
  obtain ⟨-, -, -, -, -, -, hgap, hal, hag, hmx⟩ := hg
  obtain ⟨⟨c1, c2⟩, ⟨m1, m2⟩, s1, s2, z1, z2, sz⟩ := h
  unfold Axis.wallDistance
  rw [hm', v]
  split <;> omega

/-- X bounces between its walls for ever, so let Y drift, and stop it with a when it gets to a wall. -/
theorem away_of_drift : ∀ (n : ℕ) (r : Regs), Axis.wallDistance r.y < n → Ranged r →
    ¬ yAxis.atWall r.size r.y → xAxis.Stuck r.size r.x → r.y.motion.toInt ≠ 0 → Away r
  | 0, r, hn, _, _, _, _ => by
    unfold Axis.wallDistance at hn
    split at hn <;> omega
  | n + 1, r, hn, h, hy, hs, hm => by
    have hd := Axis.drift yAxis_sane h.live.2 hm hy
    by_cases hw : yAxis.atWall r.size (yAxis.move r.y r.y.motion)
    · obtain ⟨-, ey⟩ := move_of_xWall hy hs.atWall keyA
      rw [keyBranch_a.2, if_pos rfl] at ey
      refine Away.press (k := keyA) (away_of_yRest (ranged_move h keyA) ?_ ?_)
      · rw [ey]; exact hw
      · rw [ey]; rfl
    · obtain ⟨ex, ey⟩ := move_of_xWall hy hs.atWall keyW
      rw [keyBranch_w.2, if_neg Bool.false_ne_true] at ey
      refine Away.press (k := keyW) (away_of_drift n (move r keyW) ?_ (ranged_move h keyW) ?_ ?_ ?_)
      · rw [ey]; push_cast at hn; omega
      · rw [ey]; exact hw
      · rw [ex]; exact hs.bounce xAxis_sane h.live.1
      · rw [ey]; exact hm

/-! ## The trap -/

theorem trapped_iff {r : Regs} (h : Ranged r) : Trapped r ↔ yAxis.Stuck r.size r.y ∨
    (xAxis.Stuck r.size r.x ∧ ¬ yAxis.atWall r.size r.y ∧ r.y.motion = 0) := by
  rw [Axis.stuck_iff xAxis_sane h.live.1, Axis.stuck_iff yAxis_sane h.live.2, Axis.atWall, not_or, and_assoc]
  exact Iff.rfl

/-- No key leads out of a trapped state. -/
theorem trapped_move {r : Regs} (h : Ranged r) (ht : Trapped r) (k : BitVec 16) : Trapped (move r k) := by
  rw [trapped_iff (ranged_move h k)]
  rcases (trapped_iff h).1 ht with hs | ⟨hs, hy, hm⟩
  · left
    rw [(move_of_yWall hs.atWall k).1]
    exact hs.bounce yAxis_sane h.live.2
  · right
    obtain ⟨ex, ey⟩ := move_of_xWall hy hs.atWall k
    have ey' : (move r k).y = r.y := by
      rw [ey, hm, ite_self]; exact Axis.move_rest yAxis hm
    rw [ex, ey']
    exact ⟨hs.bounce xAxis_sane h.live.1, hy, hm⟩

theorem Trapped.atEdge {r : Regs} (h : Ranged r) (ht : Trapped r) : AtEdge r :=
  (atEdge_iff r).2 (((trapped_iff h).1 ht).imp (fun hs => hs.atWall) fun hs => hs.1.atWall)

theorem Trapped.not_away {r : Regs} (ht : Trapped r) (h : Ranged r) : ¬ Away r := by
  rintro ⟨ks, hk⟩
  induction ks generalizing r with
  | nil => exact hk (ht.atEdge h)
  | cons k ks ih => exact ih (trapped_move h ht k) (ranged_move h k) hk

theorem away_of_not_trapped {r : Regs} (h : Ranged r) (ht : ¬ Trapped r) : Away r := by
  obtain ⟨hsy, hsx⟩ := not_or.1 ((trapped_iff h).not.1 ht)
  by_cases hy : yAxis.atWall r.size r.y
  · exact away_of_yWall h hy hsy
  · by_cases hx : xAxis.Stuck r.size r.x
    · have hm : r.y.motion ≠ 0 := fun h0 => hsx ⟨hx, hy, h0⟩
      have hm' : r.y.motion.toInt ≠ 0 := fun h0 => hm (BitVec.eq_of_toInt_eq h0)
      refine away_of_drift (Axis.wallDistance r.y).toNat.succ r ?_ h hy hx hm'
      push_cast
      have := Int.self_le_toNat (Axis.wallDistance r.y)
      omega
    · exact away_of_yOff h hy hx

/-- **Coming off the walls.** From a reachable state some sequence of keys takes the ball off all four
edges, unless an axis is being carried from wall to wall. -/
theorem escapes_iff {s : EdgeReg Regs} (h : Reachable s) : Escapes s ↔ ¬ Trapped s.regs := by
  rw [escapes_iff_away]
  exact ⟨fun ha ht => ht.not_away h.ranged ha, away_of_not_trapped h.ranged⟩

/-- Up (w) to the window's top at three pixels a frame, two shrink foods on the way, and on at four
pixels a frame with size 3: over the wrap from `Ball_Y_Pos = 0`. -/
def intoTheTop : List In :=
  (List.replicate 47 keyW).flatMap frame ++
    (List.replicate 2 [quiet keyW false, { quiet keyW true with isCollision2 := true }]).flatten ++
    (List.replicate 24 keyW).flatMap frame

theorem trapped_at_top : ¬ ∀ s : EdgeReg Regs, Reachable s → Escapes s := by
  intro h
  have hr := resetState_reachable.run intoTheTop
  have ht : Trapped (machine.run resetState intoTheTop).regs := by decide +kernel
  exact ht.not_away (Reachable.ranged hr) ((escapes_iff_away _).1 (h _ hr))

/-- Past the right edge of the window. -/
theorem escapes_iff_intoTheCorner :
    AtEdge (machine.run resetState intoTheCorner).regs ∧ Escapes (machine.run resetState intoTheCorner) := by
  have ht : ¬ Trapped (machine.run resetState intoTheCorner).regs := by decide +kernel
  have he : rightEdge (machine.run resetState intoTheCorner).regs := by decide +kernel
  exact ⟨Or.inr (Or.inr (Or.inl he)), (escapes_iff (resetState_reachable.run intoTheCorner)).2 ht⟩

end Lab8.Ball

