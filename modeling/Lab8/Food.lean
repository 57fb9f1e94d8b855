import Lab8.RandomBall
/-!
# Score and playfield

All slots in contact at a frame edge are relocated by the same 32 assignments, but the score goes through
one priority chain with a single increment, so it counts edges and not foods (`score_iff`). The sixteen
relocation blocks mask the random coordinates to 9 and 8 bits; the last one (random_ball.sv:590-591)
takes them as they are, so the playfield bound rests on what slot 15 is given (`field_iff`).
-/

namespace Lab8.RandomBall

open Clocked

/-! ## The score -/

/-- The slots in contact with the player. -/
def touched (r : Regs) (ballX ballY : BitVec 10) : Finset Slot := Finset.univ.filter (contact r ballX ballY)

@[simp] theorem mem_touched {r : Regs} {ballX ballY : BitVec 10} {k : Slot} :
    k ∈ touched r ballX ballY ↔ contact r ballX ballY k := by
  simp [touched]

/-- The two flags together say that some slot is touched. -/
theorem collision_iff (r : Regs) (ballX ballY : BitVec 10) :
    (isCollision1 r ballX ballY = true ∨ isCollision2 r ballX ballY = true) ↔
      (touched r ballX ballY).Nonempty := by
  simp only [isCollision1, isCollision2, decide_eq_true_eq]
  constructor
  · rintro (⟨k, -, hc⟩ | ⟨k, -, hc⟩) <;> exact ⟨k, mem_touched.2 hc⟩
  · rintro ⟨k, hk⟩
    rcases Nat.lt_or_ge k.val 8 with h | h
    · exact Or.inl ⟨k, h, mem_touched.1 hk⟩
    · exact Or.inr ⟨k, h, mem_touched.1 hk⟩

/-- At a frame edge exactly the touched slots are given new coordinates. -/
theorem ff_relocates {i : In} (h : i.reset = false) (r : Regs) (k : Slot) :
    (⟨(ff true i r).xPos k, (ff true i r).yPos k⟩ : Point) =
      if k ∈ touched r i.ballX i.ballY then spawn i.randomx i.randomy k else ⟨r.xPos k, r.yPos k⟩ := by
  obtain ⟨hx, hy⟩ := ff_pos h r
  rw [hx, hy]
  simp only [commit, posIn, mem_touched]

/-- The score of a frame edge outside the start screen: one, however many slots are touched. -/
theorem ff_rscore {i : In} (h : i.reset = false) (hs : i.startSignal = false) (r : Regs) :
    (ff true i r).rscore = if (touched r i.ballX i.ballY).Nonempty then r.rscore + 1 else r.rscore := by
  rw [if_congr (collision_iff r i.ballX i.ballY).symm rfl rfl]
  unfold ff
  simp only [h, hs, Bool.false_eq_true, if_false, Bool.true_and, if_true]
  by_cases h1 : isCollision1 r i.ballX i.ballY = true
  · simp [h1]
  · by_cases h2 : isCollision2 r i.ballX i.ballY = true
    · simp [h1, h2]
    · simp [h1, h2, commit]

/-- A clock at which no food is touched leaves all of them, and the radius, as they are. -/
theorem ff_untouched (b : Bool) {i : In} (hr : i.reset = false) {r : Regs} (h : ∀ k, ¬ contact r i.ballX i.ballY k) :
    (ff b i r).xPos = r.xPos ∧ (ff b i r).yPos = r.yPos ∧ (ff b i r).bSize = r.bSize := by
  have h1 : isCollision1 r i.ballX i.ballY = false := by simp [isCollision1, h]
  have h2 : isCollision2 r i.ballX i.ballY = false := by simp [isCollision2, h]
  have hc : commit r i = r := by simp [commit, posIn, h]
  unfold ff
  rw [hr, h1, h2, hc]
  cases b <;> cases i.startSignal <;> exact ⟨rfl, rfl, rfl⟩

/-- The score grows by the number of foods eaten. -/
def ScoreExact (s : EdgeReg Regs) (i : In) : Prop :=
  (machine.next s i).regs.rscore =
    s.regs.rscore + BitVec.ofNat 16 (touched s.regs i.ballX i.ballY).card

/-- **The score.** A frame edge counts every food it relocates exactly when it relocates at most one. -/
theorem score_iff {s : EdgeReg Regs} {i : In} (he : s.rising i.frameClk = true) (hr : i.reset = false)
    (hs : i.startSignal = false) : ScoreExact s i ↔ (touched s.regs i.ballX i.ballY).card ≤ 1 := by
  have hc : (touched s.regs i.ballX i.ballY).card ≤ 16 := by
    simpa using Finset.card_le_univ (touched s.regs i.ballX i.ballY)
  have e : (machine.next s i).regs = ff true i s.regs := by rw [← he]; rfl
  unfold ScoreExact
  rw [e, ff_rscore hr hs]
  by_cases hn : (touched s.regs i.ballX i.ballY).Nonempty
  · have hpos := Finset.card_pos.2 hn
    rw [if_pos hn, BitVec.add_right_inj, ← BitVec.toNat_inj, BitVec.toNat_ofNat]
    change 1 = _ ↔ _
    omega
  · have h0 : (touched s.regs i.ballX i.ballY).card = 0 := by
      rw [Finset.not_nonempty_iff_eq_empty.1 hn, Finset.card_empty]
    rw [if_neg hn, h0]
    simp

/-- The bank after a reset clock that found `frame_clk` low. -/
def resetState : EdgeReg Regs := ⟨init, false⟩

/-- A frame edge with the player at a given place, in a game. -/
def frameAt (ballX ballY randomx randomy : BitVec 10) : In :=
  ⟨false, true, ballX, ballY, randomx, randomy, false⟩

theorem resetState_afterReset : machine.AfterReset In.reset resetState :=
  ⟨resetState, ⟨true, false, 0, 0, 0, 0, false⟩, rfl, rfl⟩

theorem resetState_reachable : Reachable resetState := .init resetState_afterReset

/-- Slots 4 and 15 start eleven pixels apart: a player between them eats both and scores one. -/
theorem score_lost : ¬ ∀ s : EdgeReg Regs, Reachable s → ∀ i : In, s.rising i.frameClk = true →
    i.reset = false → i.startSignal = false → ScoreExact s i := by
  intro h
  have hs := h resetState resetState_reachable (frameAt 71 90 0 0) rfl rfl rfl
  revert hs
  unfold ScoreExact
  decide +kernel

theorem score_iff_single : ScoreExact resetState (frameAt 150 300 0 0) ↔
    (touched resetState.regs 150 300).card ≤ 1 :=
  score_iff rfl rfl rfl

/-! ## The playfield -/

def InField (r : Regs) : Prop := ∀ k : Slot, (r.xPos k).toNat ≤ 644 ∧ (r.yPos k).toNat ≤ 479

instance (r : Regs) : Decidable (InField r) := inferInstanceAs (Decidable (∀ _ : Slot, _))

/-- What slot 15 is given, if it is relocated, is in the playfield. -/
def SpawnInField (s : EdgeReg Regs) (i : In) : Prop :=
  s.rising i.frameClk = true → i.reset = false → contact s.regs i.ballX i.ballY unmasked →
    i.randomx.toNat ≤ 644 ∧ i.randomy.toNat ≤ 479

/-- The masks of slots 0 to 14 keep any pair of words inside 511 by 255. -/
theorem spawn_lt (randomx randomy : BitVec 10) {k : Slot} (hk : k ≠ unmasked) :
    (spawn randomx randomy k).x.toNat < 512 ∧ (spawn randomx randomy k).y.toNat < 256 := by
  have hx := (randomx.setWidth 9).isLt
  have hy := (randomy.setWidth 8).isLt
  have ex := BitVec.toNat_setWidth 10 (randomx.setWidth 9)
  have ey := BitVec.toNat_setWidth 10 (randomy.setWidth 8)
  rw [spawn, if_neg hk]
  simp only
  omega

theorem inField_commit_iff {r : Regs} (h : InField r) (i : In) : InField (commit r i) ↔
    (contact r i.ballX i.ballY unmasked → i.randomx.toNat ≤ 644 ∧ i.randomy.toNat ≤ 479) := by
  simp only [InField, commit, posIn]
  constructor
  · intro hk hc
    have h15 := hk unmasked
    rwa [if_pos hc] at h15
  · intro hc k
    by_cases ht : contact r i.ballX i.ballY k
    · rw [if_pos ht]
      by_cases hk : k = unmasked
      · subst hk; exact hc ht
      · have := spawn_lt i.randomx i.randomy hk
        omega
    · rw [if_neg ht]; exact h k

theorem inField_next_iff {s : EdgeReg Regs} (h : InField s.regs) (i : In) :
    InField (machine.next s i).regs ↔ SpawnInField s i := by
  have e : (machine.next s i).regs = ff (s.rising i.frameClk) i s.regs := rfl
  rw [e]
  unfold SpawnInField
  cases hr : i.reset with
  | true =>
    rw [ff_reset hr]
    exact ⟨fun _ _ h' => absurd h' (by decide), fun _ => by decide⟩
  | false =>
    cases s.rising i.frameClk with
    | false =>
      rw [ff_hold hr]
      exact ⟨fun _ h' => absurd h' (by decide), fun _ => h⟩
    | true =>
      obtain ⟨hx, hy⟩ := ff_pos hr s.regs
      have hc : InField (ff true i s.regs) ↔ InField (commit s.regs i) := by
        unfold InField; rw [hx, hy]
      rw [hc, inField_commit_iff h]
      simp

/-- **The playfield.** Along a run from `Reset` every food stays in the playfield if and only if every
edge that relocates slot 15 is given coordinates inside it. -/
theorem field_iff {s : EdgeReg Regs} (hs : machine.AfterReset In.reset s) (inp : ℕ → In) :
    (∀ n, InField (machine.trace s inp n).regs) ↔ ∀ n, SpawnInField (machine.trace s inp n) (inp n) := by
  refine Machine.trace_guard_iff (M := machine) (P := fun s => InField s.regs)
    (A := fun s => InField s.regs) (C := SpawnInField) (fun _ h => h) (fun _ i h => inField_next_iff h i)
    (fun _ _ _ h => h) ?_ inp
  obtain ⟨s₀, i, hr, rfl⟩ := hs
  change InField (ff _ i s₀.regs)
  rw [ff_reset hr]
  decide

/-- The player on slot 15's first place, `randomx` at its largest. -/
theorem field_left : ¬ ∀ s : EdgeReg Regs, Reachable s → InField s.regs := by
  intro h
  have hf := h _ (resetState_reachable.step (frameAt 77 92 1023 0))
  revert hf
  decide +kernel

def low : In := { frameAt 0 0 0 0 with frameClk := false }

/-- The player eats slot 15, goes where it is put and eats it again. -/
def eatTwice : List In := [frameAt 77 92 600 400, low, frameAt 600 400 300 200]

theorem field_iff_eatTwice : ((machine.run resetState eatTwice).regs.xPos unmasked = 300 ∧
      (machine.run resetState eatTwice).regs.rscore = 2) ∧
    ∀ n, SpawnInField (machine.trace resetState (fun n => eatTwice.getD n low) n) (eatTwice.getD n low) := by
  have h : machine.Along (fun s => InField s.regs) resetState eatTwice := by decide +kernel
  exact ⟨by decide +kernel, (field_iff resetState_afterReset _).1
    (h.trace_getD (d := low) fun s hs => (ff_hold (i := low) rfl s.regs).symm ▸ hs)⟩

end Lab8.RandomBall
