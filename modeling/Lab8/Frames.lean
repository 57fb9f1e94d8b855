import Lab8.Lib.Cyclic
import Lab8.Game
/-!
# Frames

The scan and the `VGA_CLK` divider are one counter on `Clk`: `phase` goes through `2 * 800 * 525` values,
one a clock, as long as `Reset_h` stays low. `VGA_VS` goes up when line 492 begins, so that is where every
module sees its frame edge, twelve lines after the last visible one. Before the scan has reached line 490
for the first time this is not so: `Reset` leaves `VGA_VS` low and the next tick raises it, in line 0.
-/

namespace Lab8

open Clocked

/-! ## The scan -/

namespace VgaController

/-- The counters are in range and the outputs belong to them. -/
structure Synced (r : Regs) : Prop where
  h_lt : r.hCounter.toNat < 800
  v_lt : r.vCounter.toNat < 525
  vs : r.vgaVS = false ↔ 490 ≤ r.vCounter.toNat ∧ r.vCounter.toNat < 492
  blank : r.vgaBlankN = true ↔ r.hCounter.toNat < 640 ∧ r.vCounter.toNat < 480

/-- The position of the scan in the frame. -/
def pixel (r : Regs) : ℕ := r.vCounter.toNat * 800 + r.hCounter.toNat

theorem counters_next {r : Regs} (hh : r.hCounter.toNat < 800) (hv : r.vCounter.toNat < 525) :
    (hCounterIn r).toNat = (if r.hCounter.toNat = 799 then 0 else r.hCounter.toNat + 1) ∧
      (vCounterIn r).toNat = (if r.hCounter.toNat = 799 then
        (if r.vCounter.toNat = 524 then 0 else r.vCounter.toNat + 1) else r.vCounter.toNat) := by
  have e1 : r.hCounter + 1 = hTotal ↔ r.hCounter.toNat = 799 := by unfold hTotal; bv_omega
  have e2 : r.vCounter + 1 = vTotal ↔ r.vCounter.toNat = 524 := by unfold vTotal; bv_omega
  unfold hCounterIn vCounterIn
  by_cases h1 : r.hCounter.toNat = 799
  · rw [if_pos (e1.2 h1), if_pos (e1.2 h1), if_pos h1, if_pos h1]
    by_cases h2 : r.vCounter.toNat = 524
    · rw [if_pos (e2.2 h2), if_pos h2]
      exact ⟨rfl, rfl⟩
    · rw [if_neg (e2.not.2 h2), if_neg h2]
      exact ⟨rfl, by bv_omega⟩
  · rw [if_neg (e1.not.2 h1), if_neg (e1.not.2 h1), if_neg h1, if_neg h1]
    exact ⟨by bv_omega, rfl⟩

theorem tick_synced {r : Regs} (hh : r.hCounter.toNat < 800) (hv : r.vCounter.toNat < 525) :
    Synced (tick false r) := by
  obtain ⟨e1, e2⟩ := counters_next hh hv
  constructor
  · change (hCounterIn r).toNat < 800
    rw [e1]; split <;> omega
  · change (vCounterIn r).toNat < 525
    rw [e2]; split
    · split <;> omega
    · omega
  · simp [tick, BitVec.le_def, BitVec.lt_def]
  · simp [tick, BitVec.lt_def]

theorem pixel_tick {r : Regs} (hh : r.hCounter.toNat < 800) (hv : r.vCounter.toNat < 525) :
    pixel (tick false r) = (pixel r + 1) % 420000 := by
  obtain ⟨e1, e2⟩ := counters_next hh hv
  unfold pixel tick
  simp only [Bool.false_eq_true, if_false]
  rw [e1, e2]
  split
  · split
    · rename_i h1 h2
      rw [h1, h2]
    · rw [Nat.mod_eq_of_lt (by omega)]; omega
  · rw [Nat.mod_eq_of_lt (by omega)]; omega

/-- The counters are in range. -/
def InRange (r : Regs) : Prop := r.hCounter.toNat < 800 ∧ r.vCounter.toNat < 525

/-- Right after `Reset`, or in step. -/
def Started (r : Regs) : Prop := r = init ∨ Synced r

theorem Started.inRange {r : Regs} (h : Started r) : InRange r := by
  rcases h with rfl | h
  · exact ⟨by decide, by decide⟩
  · exact ⟨h.h_lt, h.v_lt⟩

theorem started_tick {r : Regs} (h : Started r) (reset : Bool) : Started (tick reset r) := by
  cases reset with
  | true => exact Or.inl rfl
  | false => exact Or.inr (tick_synced h.inRange.1 h.inRange.2)

/-- `VGA_VS` is low in lines 490 and 491. -/
theorem Synced.vs_iff {r : Regs} (h : Synced r) : r.vgaVS = false ↔ 392000 ≤ pixel r ∧ pixel r < 393600 := by
  obtain ⟨h1, h2, hv, -⟩ := h
  rw [hv]
  unfold pixel
  omega

theorem Started.synced {r : Regs} (h : Started r) (hv : r.vCounter ≠ 0) : Synced r := by
  rcases h with rfl | h
  · exact absurd rfl hv
  · exact h

end VgaController

/-! ## Scan and divider together -/

namespace Board

open VgaController

/-- Where the board is in the `2 * 800 * 525` clocks of a frame. -/
def phase (b : Board) : ℕ := 2 * pixel b.vga + if b.vgaClk then 0 else 1

theorem phase_lt {b : Board} (h : InRange b.vga) : b.phase < 840000 := by
  obtain ⟨h1, h2⟩ := h
  unfold phase pixel
  split <;> omega

/-- A clock with `Reset_h` low before and after it toggles `VGA_CLK`, and ticks the scan when it rises. -/
theorem next_scan {b : Board} {i : In} (h : b.resetH = false) (h' : (machine.next b i).resetH = false) :
    (machine.next b i).vgaClk = !b.vgaClk ∧
      (machine.next b i).vga = if b.vgaClk then b.vga else tick false b.vga := by
  have hk : (!i.key0) = false := h'
  have hc : b.vgaClkIn = !b.vgaClk := by simp [vgaClkIn, h]
  have ht : b.vgaTick = !b.vgaClk := by simp [vgaTick, hc]
  refine ⟨hc, ?_⟩
  change (if b.vgaTick then tick (!i.key0) b.vga else b.vga) = _
  rw [ht, hk]
  cases b.vgaClk <;> rfl

theorem phase_next {b : Board} {i : In} (h : b.resetH = false) (h' : (machine.next b i).resetH = false)
    (hr : InRange b.vga) : (machine.next b i).phase = (b.phase + 1) % 840000 := by
  obtain ⟨e1, e2⟩ := next_scan h h'
  have hp := pixel_tick hr.1 hr.2
  have hlt := phase_lt hr
  unfold phase at hlt ⊢
  rw [e1, e2]
  cases b.vgaClk with
  | true =>
    simp only [if_true, Bool.not_true, Bool.false_eq_true, if_false] at hlt ⊢
    rw [Nat.mod_eq_of_lt (by omega)]
  | false =>
    simp only [Bool.false_eq_true, if_false, Bool.not_false, if_true] at hlt ⊢
    rw [hp]
    omega

theorem started_next {b : Board} (h : Started b.vga) (i : In) : Started (machine.next b i).vga := by
  change Started (if b.vgaTick then tick (!i.key0) b.vga else b.vga)
  split
  · exact started_tick h _
  · exact h

variable {b : Board} {inp : ℕ → In}

theorem started_trace (inp : ℕ → In) (h0 : b.vga = init) : ∀ n, Started (machine.trace b inp n).vga
  | 0 => Or.inl h0
  | n + 1 => started_next (started_trace inp h0 n) _

/-- While `Reset_h` is low the phase counts clocks. -/
theorem counts_phase (inp : ℕ → In) (h0 : b.vga = init) {c e : ℕ}
    (hr : ∀ j, c ≤ j → j ≤ e → (machine.trace b inp j).resetH = false) :
    Cyclic.Counts 840000 (fun t => (machine.trace b inp t).phase) c e := fun t hc he =>
  phase_next (hr t hc he.le) (hr (t + 1) (by omega) he) (started_trace inp h0 t).inRange

theorem vs_iff {b : Board} (h : Synced b.vga) : b.vga.vgaVS = false ↔ 784000 ≤ b.phase ∧ b.phase < 787200 := by
  rw [h.vs_iff]
  unfold phase
  split <;> omega

/-- While `Reset_h` is low the scan stays in step. -/
theorem synced_since {c e : ℕ} (hc : Synced (machine.trace b inp c).vga)
    (hr : ∀ j, c ≤ j → j ≤ e → (machine.trace b inp j).resetH = false) {t : ℕ} (hct : c ≤ t) (hte : t ≤ e) :
    Synced (machine.trace b inp t).vga := by
  induction t, hct using Nat.le_induction with
  | base => exact hc
  | succ t hct ih =>
    have ih := ih (by omega)
    obtain ⟨-, e2⟩ := next_scan (hr t hct (by omega)) (hr (t + 1) (by omega) hte)
    rw [Machine.trace_succ, e2]
    split
    · exact ih
    · exact tick_synced ih.h_lt ih.v_lt

/-! ## Frame edges -/

/-- The frame edge as `ball` sees it. -/
def frameEdge (b : Board) : Bool := b.game.ball.rising b.vga.vgaVS

/-- All six modules see a frame edge, or none. -/
structure EdgesTogether (b : Board) : Prop where
  enemy1 : b.game.enemy1.rising b.vga.vgaVS = b.frameEdge
  enemy2 : b.game.enemy2.rising b.vga.vgaVS = b.frameEdge
  enemy3 : b.game.enemy3.rising b.vga.vgaVS = b.frameEdge
  aiball : b.game.aiball.rising b.vga.vgaVS = b.frameEdge
  food : b.game.food.rising b.vga.vgaVS = b.frameEdge

/-- From `c` to `e` `Reset_h` is low, and at `c` the scan is in line 490. -/
structure Segment (b : Board) (inp : ℕ → In) (c e : ℕ) : Prop where
  line : (machine.trace b inp c).vga.vCounter = 490
  resetH : ∀ j, c ≤ j → j ≤ e → (machine.trace b inp j).resetH = false

section
variable (h0 : b.vga = init) {c e : ℕ} (hs : Segment b inp c e)
include h0 hs

theorem Segment.pos : 1 ≤ c := by
  have hl := hs.line
  rcases c with - | c
  · rw [Machine.trace_zero, h0] at hl
    exact absurd hl (by decide)
  · omega

theorem Segment.synced {t : ℕ} (hc : c ≤ t) (he : t ≤ e) : Synced (machine.trace b inp t).vga := by
  refine synced_since ((started_trace inp h0 c).synced ?_) hs.resetH hc he
  rw [hs.line]
  decide

/-- Frame edges are at the phase at which line 492 begins. -/
theorem Segment.frameEdge_iff {t : ℕ} (hc : c ≤ t) (he : t ≤ e) :
    (machine.trace b inp t).frameEdge = true ↔ (machine.trace b inp t).phase = 787200 := by
  have hv := vs_iff (hs.synced h0 hc he)
  unfold frameEdge EdgeReg.rising
  rcases Nat.eq_or_lt_of_le hc with rfl | hlt
  · obtain ⟨h1, -, -, -⟩ := hs.synced h0 hc he
    have hp : (machine.trace b inp c).phase < 787200 := by
      unfold phase pixel
      rw [hs.line]
      change 2 * (490 * 800 + _) + _ < _
      split <;> omega
    have hp' : 784000 ≤ (machine.trace b inp c).phase := by
      unfold phase pixel
      rw [hs.line]
      change _ ≤ 2 * (490 * 800 + _) + _
      omega
    rw [hv.2 ⟨hp', hp⟩]
    simp only [Bool.false_and, Bool.false_eq_true, false_iff]
    omega
  · obtain ⟨u, rfl⟩ : ∃ u, t = u + 1 := ⟨t - 1, by omega⟩
    have hu := vs_iff (hs.synced h0 (t := u) (by omega) (by omega))
    have hph := counts_phase inp h0 hs.resetH u (by omega) (by omega)
    have hlt := phase_lt (started_trace inp h0 u).inRange
    have hd : (machine.trace b inp (u + 1)).game.ball.delayed = (machine.trace b inp u).vga.vgaVS := rfl
    simp only at hph
    rw [hd, Bool.and_eq_true, Bool.not_eq_true', hu, ← Bool.not_eq_false, hv, hph]
    omega

/-- So no visible pixel is drawn at a frame edge. -/
theorem Segment.blank_of_frameEdge {t : ℕ} (hc : c ≤ t) (he : t ≤ e)
    (hf : (machine.trace b inp t).frameEdge = true) : (machine.trace b inp t).vga.vgaBlankN = false := by
  have hp := (hs.frameEdge_iff h0 hc he).1 hf
  obtain ⟨h1, h2, -, hb⟩ := hs.synced h0 hc he
  rw [← Bool.not_eq_true, hb]
  unfold phase pixel at hp
  split at hp <;> omega

theorem Segment.edgesAgree {t : ℕ} (hc : c ≤ t) : Game.EdgesAgree (machine.trace b inp t).game := by
  have h1 := hs.pos h0
  obtain ⟨u, rfl⟩ : ∃ u, t = u + 1 := ⟨t - 1, by omega⟩
  exact Game.edgesAgree_next _ _

end

theorem edgesTogether_of_agree {b : Board} (h : Game.EdgesAgree b.game) : EdgesTogether b := by
  constructor <;> unfold Board.frameEdge EdgeReg.rising
  · rw [h.enemy1]
  · rw [h.enemy2]
  · rw [h.enemy3]
  · rw [h.aiball]
  · rw [h.food]

/-- Between two consecutive frame edges `VGA_CLK` rises `800 * 525` times. -/
theorem ticks_between (h0 : b.vga = init) {c e : ℕ} (hs : Segment b inp c e) {s t : ℕ} (hcs : c ≤ s)
    (hst : s < t) (hte : t ≤ e) (h1 : (machine.trace b inp s).frameEdge = true)
    (h2 : (machine.trace b inp t).frameEdge = true)
    (hn : ∀ u, s < u → u < t → (machine.trace b inp u).frameEdge = false) :
    t = s + 2 * (800 * 525) ∧
      (Cyclic.high (fun u => (machine.trace b inp u).vgaTick) s t).card = 800 * 525 := by
  have hf := fun u (hc : c ≤ u) (he : u ≤ e) => hs.frameEdge_iff h0 hc he
  have ht : t = s + 840000 := by
    refine (counts_phase inp h0 hs.resetH).apart (k := 787200) (by omega) hcs hst hte
      ((hf s hcs (by omega)).1 h1) ((hf t (by omega) hte).1 h2) fun u hu hu' hp => ?_
    have hn' := hn u hu hu'
    rw [(hf u (by omega) (by omega)).2 hp] at hn'
    exact Bool.noConfusion hn'
  refine ⟨ht, ?_⟩
  subst ht
  refine Cyclic.card_high_of_alternating s (800 * 525) fun u hu hu' => ?_
  have hr := hs.resetH u (by omega) (by omega)
  have hr' := hs.resetH (u + 1) (by omega) (by omega)
  obtain ⟨e1, -⟩ := next_scan hr hr'
  have ht : ∀ v, (machine.trace b inp v).resetH = false →
      (machine.trace b inp v).vgaTick = !(machine.trace b inp v).vgaClk := fun v hv => by
    simp [vgaTick, vgaClkIn, hv]
  rw [ht u hr, ht (u + 1) hr', ← e1]
  rfl

/-- A frame edge is followed by another one a frame later. -/
theorem frameEdge_again (h0 : b.vga = init) {c e : ℕ} (hs : Segment b inp c e) {s : ℕ} (hcs : c ≤ s)
    (he : s + 2 * (800 * 525) ≤ e) (h : (machine.trace b inp s).frameEdge = true) :
    (machine.trace b inp (s + 2 * (800 * 525))).frameEdge = true := by
  rw [hs.frameEdge_iff h0 (by omega) he]
  rw [hs.frameEdge_iff h0 hcs (by omega)] at h
  exact ((counts_phase inp h0 hs.resetH).round hcs (phase_lt (started_trace inp h0 s).inRange) he).trans h

/-- **Frames are coherent.** Once the scan has reached line 490, and until a reset: no game object changes
at a clock edge with `VGA_BLANK_N` high, all six modules see the same frame edges and step at them, and consecutive
frame edges are exactly one frame of `VGA_CLK` ticks apart, each followed by the next. -/
theorem frames_coherent (h0 : b.vga = init) {c e : ℕ} (hs : Segment b inp c e) :
    (∀ t, c ≤ t → t ≤ e → (machine.trace b inp t).resetB = false →
        (machine.trace b inp t).vga.vgaBlankN = true →
        Game.SameBanks (machine.trace b inp t).game (machine.trace b inp (t + 1)).game) ∧
      (∀ t, c ≤ t → t ≤ e → EdgesTogether (machine.trace b inp t)) ∧
      (∀ s t, c ≤ s → s < t → t ≤ e → (machine.trace b inp s).frameEdge = true →
        (machine.trace b inp t).frameEdge = true →
        (∀ u, s < u → u < t → (machine.trace b inp u).frameEdge = false) →
        (Cyclic.high (fun u => (machine.trace b inp u).vgaTick) s t).card = 800 * 525) ∧
      (∀ t, c ≤ t → t ≤ e → (machine.trace b inp t).frameEdge = true →
        Game.BanksAfter true (machine.trace b inp t).game (gameIn (machine.trace b inp t) (inp t))
          (machine.trace b inp (t + 1)).game) ∧
      (∀ s, c ≤ s → s + 2 * (800 * 525) ≤ e → (machine.trace b inp s).frameEdge = true →
        (machine.trace b inp (s + 2 * (800 * 525))).frameEdge = true) := by
  refine ⟨fun t hc he hr hb => ?_, fun t hc _ => edgesTogether_of_agree (hs.edgesAgree h0 hc), ?_, ?_, ?_⟩
  · refine Game.banks_hold (hs.edgesAgree h0 hc) ?_ hr
    rw [← Bool.not_eq_true]
    intro hf
    rw [hs.blank_of_frameEdge h0 hc he hf] at hb
    exact Bool.noConfusion hb
  · intro s t hcs hst hte h1 h2 hn
    exact (ticks_between h0 hs hcs hst hte h1 h2 hn).2
  · intro t hc _ hf
    have hb := Game.banksAfter_next (hs.edgesAgree h0 hc) (gameIn (machine.trace b inp t) (inp t))
    rwa [show (machine.trace b inp t).game.frameEdge (gameIn (machine.trace b inp t) (inp t)) = true from hf] at hb
  · exact fun s hcs he hf => frameEdge_again h0 hs hcs he hf

/-! ## A game -/

def powerUp : Board := ⟨false, false, true, init, Game.resetState⟩

/-- A button held on the door of the start screen, and the key that goes right. -/
def playing : In := ⟨true, true, 0x0007, 364, 250, true, false, 0, 0⟩

/-- The game that is played so from power-up. -/
abbrev play : ℕ → Board := machine.trace powerUp fun _ => playing

theorem play_reset : ∀ n, (play n).resetH = false ∧ (play n).resetB = false
  | 0 => ⟨rfl, rfl⟩
  | _ + 1 => ⟨rfl, rfl⟩

theorem play_phase (t : ℕ) : (play t).phase = t % 840000 := by
  have h := (counts_phase (b := powerUp) (fun _ => playing) rfl (c := 0) (e := t)
    (fun j _ _ => (play_reset j).1)).add le_rfl (by decide) t (by omega)
  rw [Nat.zero_add, Machine.trace_zero, show powerUp.phase = 0 by decide, Nat.zero_add] at h
  exact h

theorem play_synced {t : ℕ} (ht : 2 ≤ t) : Synced (play t).vga := by
  have h2 : Synced (play 2).vga := by
    refine (started_trace (b := powerUp) (fun _ => playing) rfl 2).resolve_left ?_
    decide
  exact synced_since h2 (fun j _ _ => (play_reset j).1) ht le_rfl

/-- After 784000 clocks the scan is in line 490. -/
theorem play_segment {c : ℕ} (hc : c = 784000) (e : ℕ) : Segment powerUp (fun _ => playing) c e := by
  refine ⟨?_, fun j _ _ => (play_reset j).1⟩
  have hp := play_phase c
  obtain ⟨h1, h2⟩ : InRange (play c).vga := (started_trace (b := powerUp) (fun _ => playing) rfl c).inRange
  unfold phase pixel at hp
  apply BitVec.eq_of_toNat_eq
  change (play c).vga.vCounter.toNat = 490
  split at hp <;> omega

/-- From the third clock on its frame edges are where line 492 begins. -/
theorem play_frameEdge_iff {t : ℕ} (ht : 3 ≤ t) : (play t).frameEdge = true ↔ t % 840000 = 787200 := by
  obtain ⟨u, rfl⟩ : ∃ u, t = u + 1 := ⟨t - 1, by omega⟩
  have hu := vs_iff (play_synced (t := u) (by omega))
  have hv := vs_iff (play_synced (t := u + 1) (by omega))
  have hd : (play (u + 1)).game.ball.delayed = (play u).vga.vgaVS := rfl
  rw [play_phase] at hu hv
  rw [frameEdge, EdgeReg.rising, hd, Bool.and_eq_true, Bool.not_eq_true', hu, ← Bool.not_eq_false, hv]
  omega

/-- Line 100 is visible. -/
theorem play_visible {t : ℕ} (ht : 2 ≤ t) (hp : t % 840000 = 160000) : (play t).vga.vgaBlankN = true := by
  obtain ⟨hh, -, -, hb⟩ := play_synced ht
  rw [← play_phase] at hp
  rw [hb]
  unfold phase pixel at hp
  split at hp <;> omega

/-- Its second frame edge: the first one, at 787200, is followed by it, and a visible clock between moves nothing. -/
theorem frames_coherent_playing :
    Game.SameBanks (play 1000000).game (play (1000000 + 1)).game ∧
      EdgesTogether (play (787200 + 2 * (800 * 525))) ∧
      (Cyclic.high (fun u => (play u).vgaTick) 787200 (787200 + 2 * (800 * 525))).card = 800 * 525 ∧
      Game.BanksAfter true (play 787200).game (gameIn (play 787200) playing) (play (787200 + 1)).game ∧
      (play (787200 + 2 * (800 * 525))).frameEdge = true := by
  obtain ⟨h1, h2, h3, h4, h5⟩ := frames_coherent (b := powerUp) rfl (play_segment rfl 4000000)
  have hf := (play_frameEdge_iff (t := 787200) (by omega)).2 (by omega)
  have hf' := h5 787200 (by omega) (by omega) hf
  have hv := play_visible (t := 1000000) (by omega) (by omega)
  refine ⟨h1 1000000 (by omega) (by omega) (play_reset _).2 hv, h2 _ (by omega) (by omega),
    h3 787200 _ (by omega) (by omega) (by omega) hf hf' fun u hu hu' => ?_, h4 787200 (by omega) (by omega) hf, hf'⟩
  rw [← Bool.not_eq_true, play_frameEdge_iff (t := u) (by omega)]
  omega

end Board

end Lab8
