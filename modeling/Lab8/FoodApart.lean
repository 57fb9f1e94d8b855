import Lab8.Food
/-!
# Foods that meet

All sixteen slots draw from the one random pair of the frame edge, so foods that are eaten together are put in
one place (`foods_merge`). With pairs that do not come twice that is the only way to meet, and they part when
one of them is eaten again (`foods_meet_iff`): where a food is says when it was moved last. Slot 15, whose pair
is stored unmasked, keeps to this as long as the masks would not change what it is given.
-/

namespace Lab8.RandomBall

open Clocked

def Regs.pos (r : Regs) (k : Slot) : Point := ⟨r.xPos k, r.yPos k⟩

/-- The pair under the masks of slots 0 to 14: `randomx` mod 512 and `randomy` mod 256. -/
def masked (i : In) : Point := ⟨(i.randomx.setWidth 9).setWidth 10, (i.randomy.setWidth 8).setWidth 10⟩

theorem spawn_eq_masked {i : In} {k : Slot}
    (h : k = unmasked → i.randomx.toNat < 512 ∧ i.randomy.toNat < 256) :
    spawn i.randomx i.randomy k = masked i := by
  unfold spawn masked
  by_cases hk : k = unmasked
  · obtain ⟨hx, hy⟩ := h hk
    rw [if_pos hk, Point.mk.injEq]
    constructor <;> apply BitVec.eq_of_toNat_eq <;> simp only [BitVec.toNat_setWidth] <;> omega
  · rw [if_neg hk]

/-- No two slots are reset to one place. -/
theorem resetPos_injective : Function.Injective resetPos := by decide

section
variable (s : EdgeReg Regs) (inp : ℕ → In)

/-- Clock `n` of the run is a frame edge. -/
def FrameEdge (n : ℕ) : Prop := (machine.trace s inp n).rising (inp n).frameClk = true

/-- Clock `n` gives slot `k` a new place. -/
def Moves (k : Slot) (n : ℕ) : Prop :=
  (inp n).reset = false ∧ FrameEdge s inp n ∧ k ∈ touched (machine.trace s inp n).regs (inp n).ballX (inp n).ballY

instance (k : Slot) (n : ℕ) : Decidable (Moves s inp k n) := inferInstanceAs (Decidable (_ ∧ (_ = _) ∧ _))

/-- The clock before `n` at which slot `k` was moved last, if it was since `Reset`. -/
def movedAt (k : Slot) : ℕ → Option ℕ
  | 0 => none
  | n + 1 =>
    if (inp n).reset = true then none
    else if Moves s inp k n then some n
    else movedAt k n

/-- The random pairs of the frame edges, masked, are all different, and none is a reset position. -/
structure FreshPairs : Prop where
  apart : ∀ m n, FrameEdge s inp m → FrameEdge s inp n → m ≠ n → masked (inp m) ≠ masked (inp n)
  new : ∀ n k, FrameEdge s inp n → masked (inp n) ≠ resetPos k

end

variable {s : EdgeReg Regs} {inp : ℕ → In}

theorem pos_next (n : ℕ) (k : Slot) : (machine.trace s inp (n + 1)).regs.pos k =
    if (inp n).reset = true then resetPos k
    else if Moves s inp k n then spawn (inp n).randomx (inp n).randomy k
    else (machine.trace s inp n).regs.pos k := by
  have e : (machine.trace s inp (n + 1)).regs =
    ff ((machine.trace s inp n).rising (inp n).frameClk) (inp n) (machine.trace s inp n).regs := rfl
  rw [e]
  by_cases hr : (inp n).reset = true
  · rw [if_pos hr, ff_reset hr]
    rfl
  · have hr' := Bool.eq_false_of_not_eq_true hr
    rw [if_neg hr]
    by_cases he : (machine.trace s inp n).rising (inp n).frameClk = true
    · rw [he, Regs.pos, ff_relocates hr']
      exact if_congr ⟨fun h => ⟨hr', he, h⟩, fun h => h.2.2⟩ rfl rfl
    · rw [if_neg fun hm => he hm.2.1, Bool.eq_false_of_not_eq_true he, ff_hold hr']

/-- Slot `k` has been moved at `m` and is where it was put. -/
theorem pos_eq (hs : machine.AfterReset In.reset s) (inp : ℕ → In) (k : Slot) : ∀ n,
    (movedAt s inp k n = none ∧ (machine.trace s inp n).regs.pos k = resetPos k) ∨
      ∃ m, movedAt s inp k n = some m ∧ Moves s inp k m ∧
        (machine.trace s inp n).regs.pos k = spawn (inp m).randomx (inp m).randomy k
  | 0 => by
    obtain ⟨s₀, i, hr, rfl⟩ := hs
    left
    refine ⟨rfl, ?_⟩
    change (ff _ i s₀.regs).pos k = _
    rw [ff_reset hr]
    rfl
  | n + 1 => by
    rw [pos_next, movedAt]
    by_cases hr : (inp n).reset = true
    · rw [if_pos hr, if_pos hr]
      exact Or.inl ⟨rfl, rfl⟩
    · rw [if_neg hr, if_neg hr]
      by_cases hm : Moves s inp k n
      · rw [if_pos hm, if_pos hm]
        exact Or.inr ⟨n, rfl, hm, rfl⟩
      · rw [if_neg hm, if_neg hm]
        exact pos_eq hs inp k n

/-- Whenever slot `k` is moved, the masks change nothing. They never do for slots 0 to 14. -/
def InMask (s : EdgeReg Regs) (inp : ℕ → In) (k : Slot) : Prop :=
  k = unmasked → ∀ n, Moves s inp k n → (inp n).randomx.toNat < 512 ∧ (inp n).randomy.toNat < 256

/-- **Foods that meet.** With fresh random pairs, two foods are in one place exactly when both have been moved
last at the same frame edge. -/
theorem foods_meet_iff (hs : machine.AfterReset In.reset s) (hf : FreshPairs s inp) {j k : Slot} (hjk : j ≠ k)
    (hj : InMask s inp j) (hk : InMask s inp k) (n : ℕ) :
    (machine.trace s inp n).regs.pos j = (machine.trace s inp n).regs.pos k ↔
      ∃ m, movedAt s inp j n = some m ∧ movedAt s inp k n = some m := by
  rcases pos_eq hs inp j n with ⟨hj0, ej⟩ | ⟨a, hja, hma, ej⟩
  · rcases pos_eq hs inp k n with ⟨hk0, ek⟩ | ⟨b, hkb, hmb, ek⟩
    · rw [ej, ek, hj0]
      simp [resetPos_injective.eq_iff, hjk]
    · rw [ej, ek, hj0, spawn_eq_masked fun h => hk h b hmb]
      simp [(hf.new b j hmb.2.1).symm]
  · rw [spawn_eq_masked fun h => hj h a hma] at ej
    rcases pos_eq hs inp k n with ⟨hk0, ek⟩ | ⟨b, hkb, hmb, ek⟩
    · rw [ej, ek, hk0]
      simp [hf.new a k hma.2.1]
    · rw [spawn_eq_masked fun h => hk h b hmb] at ek
      rw [ej, ek, hja, hkb]
      by_cases hab : a = b
      · subst hab
        exact ⟨fun _ => ⟨a, rfl, rfl⟩, fun _ => rfl⟩
      · have hne := hf.apart a b hma.2.1 hmb.2.1 hab
        simp [hne, hab, eq_comm]

/-- A single frame edge. -/
theorem freshPairs_single (i : In) (h : ∀ k, masked i ≠ resetPos k) (hi : i.frameClk = true) :
    FreshPairs resetState fun _ => i := by
  have hedge : ∀ n, FrameEdge resetState (fun _ => i) n → n = 0 := by
    intro n hn
    cases n with
    | zero => rfl
    | succ n =>
      have hd : (machine.trace resetState (fun _ => i) (n + 1)).delayed = i.frameClk := rfl
      simp [FrameEdge, EdgeReg.rising, hd, hi] at hn
  refine ⟨fun m n hm hn hne => ?_, fun n k _ => h k⟩
  rw [hedge m hm, hedge n hn] at hne
  exact absurd rfl hne

/-- Slots 6 and 10 start fifteen pixels apart: a player between them sends both to one place. -/
theorem foods_merge : ¬ ∀ s : EdgeReg Regs, machine.AfterReset In.reset s → ∀ inp : ℕ → In, FreshPairs s inp →
    ∀ n, Function.Injective (machine.trace s inp n).regs.pos := by
  intro h
  have hi := h resetState resetState_afterReset (fun _ => frameAt 94 125 1 1)
    (freshPairs_single _ (by decide) rfl) 1
  have e : (6 : Slot) = 10 := hi (by decide +kernel)
  exact absurd e (by decide)

theorem foods_meet_iff_between :
    (machine.trace resetState (fun _ => frameAt 94 125 1 1) 1).regs.pos 6 =
        (machine.trace resetState (fun _ => frameAt 94 125 1 1) 1).regs.pos 10 ↔
      ∃ m, movedAt resetState (fun _ => frameAt 94 125 1 1) 6 1 = some m ∧
        movedAt resetState (fun _ => frameAt 94 125 1 1) 10 1 = some m :=
  foods_meet_iff resetState_afterReset (freshPairs_single _ (by decide) rfl) (by decide)
    (fun h => absurd h (by decide)) (fun h => absurd h (by decide)) 1

end Lab8.RandomBall
