import Lab8.ColorMapper
import Lab8.FrameStep
/-!
# What a frame shows

The scan asks `color_mapper` for one pixel after the other, while the camera and every object could move under it.
They move at frame edges only, and those are off the screen: a frame shows the game as its frame edge has left it,
every pixel of it once, for two clocks, line by line (`frame_shown`).
-/

namespace Lab8.Board

open Clocked VgaController ColorMapper

/-- `VGA_R`, `VGA_G` and `VGA_B` -/
def rgb (bm : Bitmaps) (b : Board) (i : In) : Rgb :=
  colour bm (mapperIn b.game (drawX b.vga b.game.ball.regs.x.progress) (drawY b.vga b.game.ball.regs.y.progress)
    i.mouseX i.mouseY)

/-- The game as the camera sees it, in screen coordinates. -/
def screen (bm : Bitmaps) (g : Game) (h v : BitVec 10) : Rgb :=
  canvas bm.background (layers bm g) (h + g.ball.regs.x.progress) (v + g.ball.regs.y.progress)

theorem screen_of_banks (bm : Bitmaps) {g g' : Game} (h : g'.banks = g.banks) : screen bm g' = screen bm g := by
  obtain ⟨h1, h2, h3, h4, h5, h6⟩ := Banks.mk.inj h
  funext x y
  simp only [screen, layers, h1, h2, h3, h4, h5, h6]

/-- In the game a pixel is one of the screen. -/
theorem rgb_inGame (bm : Bitmaps) {b : Board} (i : In) (h : b.game.fsm = .ingame) :
    rgb bm b i = screen bm b.game b.vga.hCounter b.vga.vCounter := by
  have hsig : Gamestate.ingameSignal b.game.fsm = true := by
    rw [h]
    rfl
  rw [rgb, colour_inGame hsig, inGame_eq_canvas]
  rfl

variable {b : Board} {inp : ℕ → In}

section
variable (h0 : b.vga = init) {c e s : ℕ} (hs : Segment b inp c e) (hcs : c ≤ s) (he : s + 840000 ≤ e)
  (hf : (machine.trace b inp s).frameEdge = true)
include h0 hs hcs he hf

/-- Until the next frame edge nothing moves. -/
theorem banks_since (hr : ∀ t, s < t → t < s + 840000 → (machine.trace b inp t).resetB = false) {d : ℕ}
    (hd : d + 1 ≤ 840000) :
    (machine.trace b inp (s + 1 + d)).game.banks = (machine.trace b inp (s + 1)).game.banks := by
  have hs' : Segment b inp c (s + 840000) := ⟨hs.line, fun j h1 h2 => hs.resetH j h1 (h2.trans he)⟩
  have hq : (s + 1 + d - (s + 1)) / 840000 = 0 := Nat.div_eq_of_lt (by omega)
  rw [banks_trace h0 hs' hcs hf hr (show s < s + 1 + d by omega) (by omega), hq]
  rfl

/-- When a pixel is on the screen. -/
theorem pixel_iff {h v t : ℕ} (hh : h < 640) (hv : v < 480) (hst : s < t) (hte : t ≤ s + 840000) :
    ((machine.trace b inp t).vga.vgaBlankN = true ∧ (machine.trace b inp t).vga.hCounter.toNat = h ∧
        (machine.trace b inp t).vga.vCounter.toNat = v) ↔
      t = s + 52800 + 2 * (800 * v + h) ∨ t = s + 52800 + 2 * (800 * v + h) + 1 := by
  obtain ⟨d, rfl⟩ := Nat.exists_eq_add_of_le hst.le
  have hph := phase_since h0 hs hcs hf (d := d) (by omega)
  obtain ⟨h1, h2, -, hb⟩ := hs.synced h0 (show c ≤ s + d by omega) (by omega)
  rw [hb]
  unfold phase pixel at hph
  split at hph <;> omega

/-- A game that goes on at the beginning of a frame goes on to its end. -/
theorem inGame_since (hr : ∀ t, s < t → t < s + 840000 → (machine.trace b inp t).resetB = false)
    (h1 : (machine.trace b inp (s + 1)).game.fsm = .ingame) (h2 : (machine.trace b inp (s + 2)).game.fsm = .ingame)
    {d : ℕ} (hd : d + 1 ≤ 840000) : (machine.trace b inp (s + 1 + d)).game.fsm = .ingame := by
  have hno : (machine.trace b inp (s + 1)).game.gameover = false := by
    rw [Machine.trace_succ] at h2
    have e := (Game.fsm_inGame (i := gameIn (machine.trace b inp (s + 1)) (inp (s + 1))) h1
      (hr (s + 1) (by omega) (by omega))).symm.trans h2
    rw [← Bool.not_eq_true]
    exact fun hg => by simp [hg] at e
  induction d with
  | zero => exact h1
  | succ d ih =>
    have hsame := congrArg Banks.gameover (banks_since h0 hs hcs he hf hr (d := d) (by omega))
    rw [Game.gameover_banks, Game.gameover_banks, hno] at hsame
    refine (Game.fsm_inGame (i := gameIn (machine.trace b inp (s + 1 + d)) (inp (s + 1 + d))) (ih (by omega))
      (hr (s + 1 + d) (by omega) (by omega))).trans ?_
    rw [hsame]
    rfl

/-- **A frame.** Without a reset, every visible pixel of a game from one frame edge to the next has the colour it has
on the screen of the game right after the edge, and every pixel of the screen is shown, for one tick of `VGA_CLK`,
line by line from the left to the right. A game that goes on after the edge is shown on the whole frame. -/
theorem frame_shown (bm : Bitmaps)
    (hr : ∀ t, s < t → t < s + 840000 → (machine.trace b inp t).resetB = false) :
    (∀ t, s < t → t ≤ s + 840000 → (machine.trace b inp t).game.fsm = .ingame →
      rgb bm (machine.trace b inp t) (inp t) = screen bm (machine.trace b inp (s + 1)).game
        (machine.trace b inp t).vga.hCounter (machine.trace b inp t).vga.vCounter) ∧
      (∀ h < 640, ∀ v < 480, ∀ t, s < t → t ≤ s + 840000 →
        ((machine.trace b inp t).vga.vgaBlankN = true ∧ (machine.trace b inp t).vga.hCounter.toNat = h ∧
            (machine.trace b inp t).vga.vCounter.toNat = v ↔
          t = s + 52800 + 2 * (800 * v + h) ∨ t = s + 52800 + 2 * (800 * v + h) + 1)) ∧
      ((machine.trace b inp (s + 1)).game.fsm = .ingame → (machine.trace b inp (s + 2)).game.fsm = .ingame →
        ∀ t, s < t → t ≤ s + 840000 → (machine.trace b inp t).game.fsm = .ingame) := by
  refine ⟨fun t hst hte hg => ?_, fun h hh v hv t hst hte => pixel_iff h0 hs hcs he hf hh hv hst hte,
    fun h1 h2 t hst hte => ?_⟩
  · obtain ⟨d, rfl⟩ := Nat.exists_eq_add_of_le (Nat.succ_le_of_lt hst)
    rw [rgb_inGame bm _ hg, screen_of_banks bm (banks_since h0 hs hcs he hf hr (d := d) (by omega))]
  · obtain ⟨d, rfl⟩ := Nat.exists_eq_add_of_le (Nat.succ_le_of_lt hst)
    exact inGame_since h0 hs hcs he hf hr h1 h2 (by omega)

end

/-! ## A frame of a game -/

/-- Where its disc is, the screen shows the player. -/
theorem screen_player (bm : Bitmaps) {g : Game} {r : Ball.Regs} (hr : g.banks.ball = r) {h v : BitVec 10}
    (hc : (Ball.disc r).Covers (h + r.x.progress).toNat (v + r.y.progress).toNat) :
    screen bm g h v = bm.ballAni (h + r.x.progress) (v + r.y.progress) := by
  subst hr
  rw [screen, layers, List.cons_append, canvas_cons]
  exact if_pos hc

/-- A white ball, and all else black. -/
def white : Bitmaps :=
  ⟨fun _ _ => ⟨0, 0, 0⟩, fun _ _ => ⟨0, 0, 0⟩, fun _ _ => ⟨0, 0, 0⟩, fun _ _ => ⟨255, 255, 255⟩⟩

/-- The ball has moved to column 323. -/
theorem frame_shown_playing : (play 1224646).vga.vgaBlankN = true ∧ (play 1224646).vga.hCounter.toNat = 323 ∧
    (play 1224646).vga.vCounter.toNat = 240 ∧ rgb white (play 1224646) playing = ⟨255, 255, 255⟩ := by
  obtain ⟨hcol, hpix, hgame⟩ := frame_shown (b := powerUp) rfl (play_segment (c := 784000) rfl 4000000)
    (s := 787200) (by omega) (by omega) ((play_frameEdge_iff (by omega)).2 (by omega)) white
    fun t _ _ => (play_reset t).2
  obtain ⟨hb, hh, hv⟩ := (hpix 323 (by omega) 240 (by omega) 1224646 (by omega) (by omega)).2 (by omega)
  have hf := hgame plays_second.fsm plays_second.fsm_next 1224646 (by omega) (by omega)
  have eb := congrArg Banks.ball plays_second.banks
  refine ⟨hb, hh, hv, (hcol 1224646 (by omega) (by omega) hf).trans ?_⟩
  rw [BitVec.eq_of_toNat_eq (y := 323) hh, BitVec.eq_of_toNat_eq (y := 240) hv, screen_player white eb]
  · rfl
  · decide +kernel

end Lab8.Board
