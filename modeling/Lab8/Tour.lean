import Lab8.Console
/-!
# The mouse plays

The menu looks at the cursor and at the buttons at every clock, and those change in the middle of a packet: the flags
byte brings the buttons and the vertical movement of the packet before, the last byte the horizontal movement. So a
packet that holds a button shows two places to the menu, and the menu goes on exactly when one of them is in its area
(`leaves_iff`). `tour` takes the cursor from anywhere to both areas: no screen is a dead end (`playable`).

| here | there |
| --- | --- |
| `pressed` | `leftButton`, `rightButton` (mouse_interface_IP.sv:33-35) |
| `area` | the boxes of `gamestate` (gamestate.sv:31, :40) |
| `Held` | what a session says to a menu |
-/

namespace Lab8.Console

open Clocked

/-! ## The menu and the decoder -/

def pressed (flags : BitVec 8) : Bool := flags.getLsbD 0 || flags.getLsbD 1

/-- Where a menu screen wants the click. -/
def area : Gamestate.State → ℤ → ℤ → Prop
  | .start, x, y => (361 ≤ x ∧ x ≤ 367 ∧ 244 ≤ y ∧ y ≤ 273) ∨ (398 ≤ x ∧ x ≤ 403 ∧ 246 ≤ y ∧ y ≤ 273)
  | .gameoverState, x, y => 107 ≤ x ∧ x ≤ 154 ∧ 340 ≤ y ∧ y ≤ 433
  | .ingame, _, _ => False

/-- The screen after it. -/
def after : Gamestate.State → Gamestate.State
  | .start => .ingame
  | .gameoverState => .start
  | .ingame => .gameoverState

instance (s : Gamestate.State) (x y : ℤ) : Decidable (area s x y) :=
  match s with
  | .start => inferInstanceAs (Decidable (_ ∨ _))
  | .gameoverState => inferInstanceAs (Decidable (_ ∧ _))
  | .ingame => inferInstanceAs (Decidable False)

def Clicks (s : Gamestate.State) (m : Mouse.Regs) : Prop :=
  pressed m.byte1 = true ∧ area s m.curX.toNat m.curY.toNat

theorem after_ne (s : Gamestate.State) : after s ≠ s := by cases s <;> decide

theorem clickStart_iff (g : Game) (c : Console) (i : In) :
    Gamestate.clickStart (g.fsmIn (c.board.gameIn (c.boardIn i))) = true ↔ Clicks .start c.mouse.mouse := by
  simp only [Gamestate.clickStart, Game.fsmIn, Board.gameIn, boardIn, Clicks, pressed, area, Bool.and_eq_true,
    Bool.or_eq_true, decide_eq_true_eq, BitVec.le_def, ge_iff_le, BitVec.reduceToNat]
  exact and_congr_right fun _ => by omega

theorem clickRestart_iff (g : Game) (c : Console) (i : In) :
    Gamestate.clickRestart (g.fsmIn (c.board.gameIn (c.boardIn i))) = true ↔ Clicks .gameoverState c.mouse.mouse := by
  simp only [Gamestate.clickRestart, Game.fsmIn, Board.gameIn, boardIn, Clicks, pressed, area, Bool.and_eq_true,
    Bool.or_eq_true, decide_eq_true_eq, BitVec.le_def, ge_iff_le, BitVec.reduceToNat]
  exact and_congr_right fun _ => by omega

/-- A menu screen goes on with a click in its area, and with nothing else. -/
theorem next_fsm {c : Console} (hr : c.board.resetB = false) (hs : c.fsm ≠ .ingame) (i : In) :
    (Clicks c.fsm c.mouse.mouse → (machine.next c i).fsm = after c.fsm) ∧
      (¬ Clicks c.fsm c.mouse.mouse → (machine.next c i).fsm = c.fsm) := by
  have e : (machine.next c i).fsm =
      Gamestate.nextState c.fsm (c.board.game.fsmIn (c.board.gameIn (c.boardIn i))) := by
    change Gamestate.ff _ _ = _
    rw [Gamestate.ff, if_neg (by simp [Game.fsmIn, Board.gameIn, hr])]
    rfl
  rw [e]
  cases h : c.fsm with
  | ingame => exact absurd h hs
  | start =>
    rw [← clickStart_iff c.board.game c i]
    simp only [Gamestate.nextState]
    constructor <;> intro hc <;> simp [hc, after]
  | gameoverState =>
    rw [← clickRestart_iff c.board.game c i]
    simp only [Gamestate.nextState]
    constructor <;> intro hc <;> simp [hc, after]

/-- A run leaves a menu screen after the first clock at which the decoder shows it a click. -/
theorem run_leaves_iff (is : List In) (j : In) {c : Console} (hr : c.board.resetB = false)
    (hk : ∀ i ∈ is, i.key1 = true) (hs : c.fsm ≠ .ingame) :
    (∃ js, js <+: is ++ [j] ∧ (machine.run c js).fsm = after c.fsm) ↔
      ∃ js, js <+: is ∧ Clicks c.fsm (machine.run c js).mouse.mouse := by
  induction is generalizing c with
  | nil =>
    constructor
    · rintro ⟨js, hp, he⟩
      refine ⟨[], List.prefix_rfl, Classical.byContradiction fun hc => ?_⟩
      rcases List.prefix_cons_iff.1 hp with rfl | ⟨t, rfl, ht⟩
      · exact after_ne _ he.symm
      · rw [List.prefix_nil.1 ht] at he
        exact after_ne _ (he.symm.trans ((next_fsm hr hs j).2 hc))
    · rintro ⟨js, hp, hc⟩
      rw [List.prefix_nil.1 hp] at hc
      exact ⟨[j], List.prefix_rfl, (next_fsm hr hs j).1 hc⟩
  | cons i is ih =>
    obtain ⟨hi, hk⟩ := List.forall_mem_cons.1 hk
    have hr' : (machine.next c i).board.resetB = false := congrArg not hi
    by_cases hc : Clicks c.fsm c.mouse.mouse
    · exact ⟨fun _ => ⟨[], List.prefix_append [] _, hc⟩,
        fun _ => ⟨[i], List.prefix_append [i] _, (next_fsm hr hs i).1 hc⟩⟩
    · have hf := (next_fsm hr hs i).2 hc
      have ih := ih hr' hk (hf ▸ hs)
      rw [hf] at ih
      constructor
      · rintro ⟨js, hp, he⟩
        rcases List.prefix_cons_iff.1 hp with rfl | ⟨t, rfl, ht⟩
        · exact absurd he.symm (after_ne _)
        · obtain ⟨js, hjs, hcl⟩ := ih.1 ⟨t, ht, he⟩
          exact ⟨i :: js, List.cons_prefix_cons.2 ⟨rfl, hjs⟩, hcl⟩
      · rintro ⟨js, hp, hcl⟩
        rcases List.prefix_cons_iff.1 hp with rfl | ⟨t, rfl, ht⟩
        · exact absurd hcl hc
        · obtain ⟨js, hjs, he⟩ := ih.2 ⟨t, ht, hcl⟩
          exact ⟨i :: js, List.cons_prefix_cons.2 ⟨rfl, hjs⟩, he⟩

/-! ## Bytes -/

open MouseInterface

/-- The bytes the decoder is offered. -/
def bytes (c : Console) (is : List In) : List (BitVec 8) :=
  Ps2Controller.machine.log (fun s _ => offered s) c.mouse.ps2 ((is.map In.mouse).map toPs2)

theorem bytes_append (c : Console) (is js : List In) :
    c.bytes (is ++ js) = c.bytes is ++ (machine.run c is).bytes js := by
  rw [bytes, List.map_append, List.map_append, Machine.log_append, ← run_ps2, ← run_mouse]
  rfl

theorem length_offered (s : Ps2Controller.Regs) : (offered s).length ≤ 1 := by
  unfold offered
  split <;> simp

/-- The decoder is where the bytes take it. -/
theorem run_take (c : Console) {is : List In} (hk : ∀ i ∈ is, i.key0 = true) :
    (machine.run c is).mouse.mouse = (c.bytes is).foldl take c.mouse.mouse := by
  rw [run_mouse, MouseInterface.run_mouse _ _ (List.forall_mem_map.2 hk)]
  rfl

/-- It stops at every one of them. -/
theorem exists_bytes_eq {c : Console} {is : List In} {bs : List (BitVec 8)} (hb : bs <+: c.bytes is) :
    ∃ js ks, is = js ++ ks ∧ c.bytes js = bs := by
  obtain ⟨js, ks, e, hl⟩ := Ps2Controller.machine.exists_log_eq _ (fun s _ => length_offered s) hb
  rw [List.map_map] at e
  obtain ⟨js, ks, rfl, rfl, -⟩ := List.map_eq_append_iff.1 e
  exact ⟨js, ks, rfl, by rwa [bytes, List.map_map]⟩

/-- A menu screen and the bytes: it goes on if and only if a click shows after some of them. -/
theorem bytes_leave_iff {c : Console} (is : List In) (j : In) (hr : c.board.resetB = false)
    (hk : ∀ i ∈ is, i.key0 = true ∧ i.key1 = true) (hs : c.fsm ≠ .ingame) :
    (∃ js, js <+: is ++ [j] ∧ (machine.run c js).fsm = after c.fsm) ↔
      ∃ bs, bs <+: c.bytes is ∧ Clicks c.fsm (bs.foldl take c.mouse.mouse) := by
  rw [run_leaves_iff is j hr (fun i hi => (hk i hi).2) hs]
  constructor
  · rintro ⟨js, ⟨ks, rfl⟩, hc⟩
    rw [run_take c fun i hi => (hk i (List.mem_append_left ks hi)).1] at hc
    exact ⟨c.bytes js, bytes_append c js ks ▸ List.prefix_append _ _, hc⟩
  · rintro ⟨bs, hb, hc⟩
    obtain ⟨js, ks, rfl, rfl⟩ := exists_bytes_eq hb
    refine ⟨js, List.prefix_append js ks, ?_⟩
    rwa [run_take c fun i hi => (hk i (List.mem_append_left ks hi)).1]

theorem length_bytes_singleton (c : Console) (j : In) : (c.bytes [j]).length ≤ 1 := by
  change (offered c.mouse.ps2 ++ []).length ≤ 1
  rw [List.append_nil]
  exact length_offered _

/-- It goes on a byte after the click at the latest. -/
theorem reaches {c : Console} {is : List In} (hr : c.board.resetB = false)
    (hk : ∀ i ∈ is, i.key0 = true ∧ i.key1 = true) (hs : c.fsm ≠ .ingame) {bs : List (BitVec 8)} (hb : bs <+: c.bytes is)
    (hl : bs.length < (c.bytes is).length) (hc : Clicks c.fsm (bs.foldl take c.mouse.mouse)) :
    ∃ js ks, is = js ++ ks ∧ (machine.run c js).fsm = after c.fsm ∧ (c.bytes js).length ≤ bs.length + 1 := by
  obtain ⟨us, vs, rfl, rfl⟩ := exists_bytes_eq hb
  cases vs with
  | nil => simp at hl
  | cons v vs =>
    have hku : ∀ i ∈ us, i.key0 = true ∧ i.key1 = true := fun i hi => hk i (List.mem_append_left _ hi)
    obtain ⟨js, ⟨ws, hws⟩, he⟩ := (bytes_leave_iff us v hr hku hs).2 ⟨_, List.prefix_rfl, hc⟩
    refine ⟨js, ws ++ vs, by rw [← List.append_assoc, hws, List.append_assoc]; rfl, he, ?_⟩
    have e := congrArg List.length ((bytes_append c js ws).symm.trans (congrArg c.bytes hws))
    rw [bytes_append, List.length_append, List.length_append] at e
    have := length_bytes_singleton (machine.run c us) v
    omega

/-! ## Packets -/

/-- The two places a packet shows. -/
def Shows (s : Gamestate.State) (q : Pointer) (p : Packet) : Prop :=
  pressed p.flags = true ∧ (area s q.x (q.move p).y ∨ area s (q.move p).x (q.move p).y)

/-- Some packet of a session clicks. -/
def Held (s : Gamestate.State) : Pointer → List Packet → Prop
  | _, [] => False
  | q, p :: ps => Shows s q p ∨ Held s (q.move p) ps

theorem exists_prefix_cons {A : Type*} {P : List A → Prop} {a : A} {as : List A} :
    (∃ bs, bs <+: a :: as ∧ P bs) ↔ P [] ∨ ∃ bs, bs <+: as ∧ P (a :: bs) := by
  simp only [List.prefix_cons_iff]
  constructor
  · rintro ⟨bs, rfl | ⟨t, rfl, ht⟩, hp⟩
    · exact Or.inl hp
    · exact Or.inr ⟨t, ht, hp⟩
  · rintro (hp | ⟨t, ht, hp⟩)
    · exact ⟨[], Or.inl rfl, hp⟩
    · exact ⟨a :: t, Or.inr ⟨t, rfl, ht⟩, hp⟩

/-- In step, with the column inside its margins; the row may be anywhere. -/
structure Synced (m : Mouse.Regs) : Prop where
  counter : m.counter = 2
  x : 5 ≤ m.curX.toNat ∧ m.curX.toNat ≤ 635

section
variable {m : Mouse.Regs} (h : Synced m) (p : Packet)
include h

theorem Synced.pointer_packet : pointer (p.bytes.foldl take m) = (pointer m).move p :=
  MouseInterface.pointer_packet h.counter h.x.1 h.x.2 p

theorem Synced.packet : Synced (p.bytes.foldl take m) := by
  have hx : (5 : ℤ) ≤ ((pointer m).move p).x ∧ ((pointer m).move p).x ≤ 635 := clamp_range (by decide)
  rw [← h.pointer_packet p] at hx
  exact ⟨by rw [take_packet h.counter], ⟨Int.ofNat_le.1 hx.1, Int.ofNat_le.1 hx.2⟩⟩

variable {s : Gamestate.State}

/-- With the flags byte the cursor has moved vertically. -/
theorem Synced.clicks_flags : Clicks s (take m p.flags) ↔
    pressed p.flags = true ∧ area s (pointer m).x ((pointer m).move p).y := by
  rw [← h.pointer_packet p, take_packet h.counter, take_flags p.flags h.counter]
  rfl

theorem Synced.clicks_x : Clicks s (take (take m p.flags) p.x) ↔ Clicks s (take m p.flags) := by
  have h0 : (take m p.flags).counter = 0 := by rw [take_flags p.flags h.counter]
  rw [take_x p.x h0]
  rfl

/-- With the last byte it has moved to both sides. -/
theorem Synced.clicks_packet : Clicks s (p.bytes.foldl take m) ↔ pressed p.flags = true ∧
    area s ((pointer m).move p).x ((pointer m).move p).y := by
  rw [← h.pointer_packet p, take_packet h.counter]
  rfl

end

theorem clicks_packets (s : Gamestate.State) : ∀ (ps : List Packet) {m : Mouse.Regs}, Synced m →
    ((∃ bs, bs <+: ps.flatMap Packet.bytes ∧ Clicks s (bs.foldl take m)) ↔ Clicks s m ∨ Held s (pointer m) ps)
  | [], m, h => by
    simp [Held, List.prefix_nil]
  | p :: ps, m, h => by
    have ih := clicks_packets s ps (h.packet p)
    rw [h.pointer_packet, h.clicks_packet] at ih
    change (∃ bs, bs <+: p.flags :: p.x :: p.y :: ps.flatMap Packet.bytes ∧ _) ↔ _
    simp only [exists_prefix_cons, List.foldl_cons, List.foldl_nil, h.clicks_x, h.clicks_flags, Held, Shows]
    change _ ∨ _ ∨ _ ∨ (∃ bs, bs <+: ps.flatMap Packet.bytes ∧ Clicks s (bs.foldl take (p.bytes.foldl take m))) ↔ _
    rw [ih]
    tauto

/-! ## Sessions -/

theorem not_clicks {s : Gamestate.State} {m : Mouse.Regs} (hb : m.byte1 = 0) : ¬ Clicks s m := by
  simp [Clicks, pressed, hb]

/-- `KEY[0]` was down for a clock, and then the mouse has its session. -/
structure Plays (c : Console) (e : Session) (is : List In) : Prop where
  reset : machine.AfterReset (fun i => !i.key0 && i.key1) c
  lines : is.map In.mouse = e.wave
  up : ∀ i ∈ is, i.key1 = true

namespace Plays

variable {c : Console} {e : Session} {is : List In} (h : Plays c e is)
include h

theorem fresh : c.board.resetB = false ∧ c.mouse.ps2 = Ps2Controller.init ∧ c.mouse.mouse.counter = 0 ∧
    c.mouse.mouse.byte1 = 0 := by
  obtain ⟨c₀, i, hi, rfl⟩ := h.reset
  simp only [Bool.and_eq_true, Bool.not_eq_true'] at hi
  refine ⟨congrArg not hi.2, ?_, ?_, ?_⟩ <;>
    simp [machine, MouseInterface.machine, MouseInterface.next, In.mouse, Ps2Controller.next, toPs2, Mouse.ff, hi.1]

theorem keys : ∀ i ∈ is, i.key0 = true ∧ i.key1 = true := fun i hi =>
  ⟨e.key0_wave i.mouse (h.lines ▸ List.mem_map_of_mem hi), h.up i hi⟩

theorem bytes (j : In) : c.bytes (is ++ [j]) = 0xf4#8 :: (e.reply <<< 1) :: e.packets.flatMap Packet.bytes := by
  have hl := log_offered e.key0_wave j.mouse
  rw [e.wave_toPs2, e.decode_levels] at hl
  rw [Console.bytes, h.fresh.2.1, List.map_append, h.lines]
  exact hl

end Plays

theorem synced_opened (m : Mouse.Regs) (reply : BitVec 8) : Synced (opened m reply) := by
  have hx := opened_curX m reply
  exact ⟨rfl, by omega⟩

/-- **The menu and the mouse.** After a reset of the mouse, wherever the cursor is, a session that the mouse may time as
it likes makes a menu screen go on if and only if one of its packets holds a button and shows the cursor in the area of
that screen. -/
theorem leaves_iff {c : Console} {e : Session} {is : List In} (h : Plays c e is) {i j : In}
    (hi : i.key0 = true ∧ i.key1 = true) (hs : c.fsm ≠ .ingame) :
    (∃ js, js <+: is ++ [i, j] ∧ (machine.run c js).fsm = after c.fsm) ↔
      Held c.fsm ⟨min 635 (c.mouse.mouse.curX.toNat + 244), c.mouse.mouse.curY.toNat,
        Mouse.delta false (e.reply <<< 1)⟩ e.packets := by
  obtain ⟨hr, -, hc, hb⟩ := h.fresh
  have hk : ∀ k ∈ is ++ [i], k.key0 = true ∧ k.key1 = true :=
    List.forall_mem_append.2 ⟨h.keys, List.forall_mem_singleton.2 hi⟩
  have hl := bytes_leave_iff (is ++ [i]) j hr hk hs
  rw [List.append_assoc, h.bytes i, exists_prefix_cons, exists_prefix_cons] at hl
  have hf : take c.mouse.mouse 0xf4#8 = { c.mouse.mouse with byte3 := 0xf4#8, counter := 1 } := take_x _ hc
  have ho : take (take c.mouse.mouse 0xf4#8) (e.reply <<< 1) = opened c.mouse.mouse (e.reply <<< 1) :=
    take_opening hc hb (e.reply <<< 1)
  simp only [List.foldl_cons, List.foldl_nil, ho] at hl
  refine hl.trans ?_
  rw [clicks_packets _ _ (synced_opened _ _), pointer_opened hb]
  have n1 : ¬ Clicks c.fsm c.mouse.mouse := not_clicks hb
  have n2 : ¬ Clicks c.fsm (take c.mouse.mouse 0xf4#8) := not_clicks (by rw [hf]; exact hb)
  have n3 : ¬ Clicks c.fsm (opened c.mouse.mouse (e.reply <<< 1)) := not_clicks hb
  simp only [n1, n2, n3, false_or]

/-! ## Sessions with everything else idle -/

def lift (i : MouseInterface.In) : In := ⟨i.key0, true, 0, i.clk, i.dat⟩

theorem plays_lift {c : Console} (hc : machine.AfterReset (fun i => !i.key0 && i.key1) c) (e : Session) :
    Plays c e (e.wave.map lift) where
  reset := hc
  lines := by
    rw [List.map_map]
    exact List.map_id _
  up := List.forall_mem_map.2 fun _ _ => rfl

/-- A clock with `KEY[0]` down. -/
def press : In := ⟨false, true, 0, true, true⟩

def idle : In := ⟨true, true, 0, true, true⟩

def atRest : Console :=
  { powerUp with
    board := { powerUp.board with resetB := false }
    mouse := ⟨Ps2Controller.init, Mouse.powerUp⟩ }

def click : Packet := ⟨0x09, 0, 0⟩

/-- From power-up, where the cursor is in the corner: the echo and 119 take it to the column of the door, the reply takes
it past zero to row 780, and twice 255 up from there to the rows of the door. -/
theorem leaves_iff_door :
    ∃ js, js <+: (Session.ofPackets [⟨0x08, 0x77, 0xff⟩, ⟨0x08, 0, 0xff⟩, click]).wave.map lift ++ [idle, idle] ∧
      (machine.run (machine.next atRest press) js).fsm = .ingame :=
  (leaves_iff (plays_lift ⟨atRest, press, rfl, rfl⟩ _) (i := idle) (j := idle) ⟨rfl, rfl⟩ (by decide)).2
    (Or.inr (Or.inr (Or.inl ⟨rfl, Or.inl (by decide)⟩)))

/-! ## A tour -/

/-- Right and down, as far as a packet goes. -/
def corner : Packet := ⟨0x28, 0xff, 0x01⟩

/-- To the corner of the screen, then to the restart area and a click, then to the door and a click. -/
def approach : List Packet := [corner, corner, corner, ⟨0x18, 0x01, 0x4b⟩, ⟨0x18, 0x06, 0⟩]

def toRestart : List Packet := corner :: corner :: approach

def toDoor : List Packet := [click, ⟨0x08, 0xea, 0x8c⟩]

def tour : List Packet := toRestart ++ toDoor ++ [click]

/-- From a corner to the next packet the row goes down, wherever it was. -/
theorem row_corner {y : ℤ} (hy : 0 ≤ y) : Mouse.row y (-255) = min 475 (y + 255) := by
  unfold Mouse.row Mouse.clamp
  omega

theorem Synced.packets : ∀ (ps : List Packet) {m : Mouse.Regs}, Synced m →
    Synced ((ps.flatMap Packet.bytes).foldl take m) ∧
      pointer ((ps.flatMap Packet.bytes).foldl take m) = ps.foldl Pointer.move (pointer m)
  | [], _, h => ⟨h, rfl⟩
  | p :: ps, m, h => by
    rw [List.flatMap_cons, List.foldl_append, List.foldl_cons, ← h.pointer_packet p]
    exact Synced.packets ps (h.packet p)

/-- Five corners bring the cursor into the corner, whatever vertical movement was left over. -/
theorem toRestart_pointer {q : Pointer} (hx : 5 ≤ q.x) (hy : 0 ≤ q.y) : toRestart.foldl Pointer.move q = ⟨130, 400, 0⟩ := by
  obtain ⟨x, y, dy⟩ := q
  have hx : 5 ≤ x := hx
  have hr : 0 ≤ Mouse.row y dy := Mouse.row_nonneg hy
  have h1 : Mouse.row (Mouse.row y dy) (-255) = min 475 (Mouse.row y dy + 255) := row_corner hr
  have h2 : Mouse.row (min 475 (Mouse.row y dy + 255)) (-255) = 475 := by
    rw [row_corner (by omega)]
    omega
  have h3 : Mouse.row 475 (-255) = 475 := by decide
  have h4 : Mouse.row 475 75 = 400 := by decide
  simp [toRestart, approach, Pointer.move, corner, Mouse.delta_eq, Mouse.clamp, h1, h2, h3, h4]
  omega

/-- The decoder at the two clicks. -/
theorem tour_clicks {m : Mouse.Regs} (h : Synced m) :
    Clicks .gameoverState ((toRestart.flatMap Packet.bytes ++ [click.flags]).foldl take m) ∧
      Clicks .start (((toRestart ++ toDoor).flatMap Packet.bytes ++ [click.flags]).foldl take m) := by
  have hx : (5 : ℤ) ≤ (pointer m).x := Int.ofNat_le.2 h.x.1
  have hy : (0 : ℤ) ≤ (pointer m).y := Int.natCast_nonneg _
  obtain ⟨h1, e1⟩ := h.packets toRestart
  obtain ⟨h2, e2⟩ := h.packets (toRestart ++ toDoor)
  rw [List.foldl_append] at e2
  rw [toRestart_pointer hx hy] at e1 e2
  rw [List.foldl_append, List.foldl_append, List.foldl_cons, List.foldl_nil, List.foldl_cons, List.foldl_nil]
  refine ⟨(h1.clicks_flags click).2 ?_, (h2.clicks_flags click).2 ?_⟩
  · rw [e1]
    decide
  · rw [e2]
    decide

/-- **No dead end.** Whatever screen is on and wherever the cursor is, on the screen or off it, a mouse that makes the
tour, as slowly as it likes, gets a game on. -/
theorem playable {c : Console} {e : Session} {is : List In} (h : Plays c e is) (ht : e.packets = tour) :
    ∃ js, js <+: is ∧ (machine.run c js).fsm = .ingame := by
  obtain ⟨hr, -, hc, hb⟩ := h.fresh
  obtain ⟨c1, c2⟩ := tour_clicks (synced_opened c.mouse.mouse (e.reply <<< 1))
  rw [← take_opening hc hb, ← List.foldl_append] at c1 c2
  -- The two clicks, as beginnings of what the decoder gets.
  have hall := h.bytes ⟨true, true, 0, true, true⟩
  rw [ht, bytes_append] at hall
  have hlen := length_bytes_singleton (machine.run c is) ⟨true, true, 0, true, true⟩
  have hl : 31 ≤ (c.bytes is).length := by
    have := congrArg List.length hall
    rw [List.length_append] at this
    change _ = 32 at this
    omega
  have hp (bs : List (BitVec 8)) (hb : bs <+: 0xf4#8 :: (e.reply <<< 1) :: tour.flatMap Packet.bytes)
      (hn : bs.length ≤ 31) : bs <+: c.bytes is :=
    List.prefix_of_prefix_length_le (hall ▸ hb) (List.prefix_append _ _) (by omega)
  have p1 := hp ([0xf4#8, e.reply <<< 1] ++ (toRestart.flatMap Packet.bytes ++ [click.flags])) ⟨_, rfl⟩
    (show 24 ≤ 31 by decide)
  have p2 := hp ([0xf4#8, e.reply <<< 1] ++ ((toRestart ++ toDoor).flatMap Packet.bytes ++ [click.flags])) ⟨_, rfl⟩
    (show 30 ≤ 31 by decide)
  generalize h1 : [0xf4#8, e.reply <<< 1] ++ (toRestart.flatMap Packet.bytes ++ [click.flags]) = b1 at p1 c1
  generalize h2 : [0xf4#8, e.reply <<< 1] ++ ((toRestart ++ toDoor).flatMap Packet.bytes ++ [click.flags]) = b2 at p2 c2
  have l1 : b1.length = 24 := by rw [← h1]; rfl
  have l2 : b2.length = 30 := by rw [← h2]; rfl
  cases hf : c.fsm with
  | ingame => exact ⟨[], List.prefix_append [] _, hf⟩
  | start =>
    obtain ⟨js, ks, rfl, he, -⟩ := reaches hr h.keys (by simp [hf]) p2 (by omega) (hf ▸ c2)
    exact ⟨js, List.prefix_append js ks, he.trans (by rw [hf]; rfl)⟩
  | gameoverState =>
    have hk := h.keys
    obtain ⟨js, ks, rfl, he, hj⟩ := reaches hr hk (by simp [hf]) p1 (by omega) (hf ▸ c1)
    rw [hf] at he
    obtain ⟨hkj, hkk⟩ := List.forall_mem_append.1 hk
    rw [bytes_append] at p2 hl
    obtain ⟨b3, rfl⟩ := List.prefix_of_prefix_length_le (List.prefix_append _ _) p2 (by omega)
    rw [List.foldl_append, ← run_take c fun i hi => (hkj i hi).1, ← (show (machine.run c js).fsm = .start from he)] at c2
    rw [List.length_append] at l2 hl
    have hrj := run_resetB hr js fun i hi => (hkj i hi).2
    obtain ⟨us, vs, rfl, hu, -⟩ := reaches hrj hkk (by rw [he]; decide) ((List.prefix_append_right_inj _).1 p2)
      (by omega) c2
    refine ⟨js ++ us, ⟨vs, List.append_assoc js us vs⟩, ?_⟩
    rw [Machine.run_append, hu, he]
    rfl

theorem playable_atRest : ∃ js, js <+: (Session.ofPackets tour).wave.map lift ∧
    (machine.run (machine.next atRest press) js).fsm = .ingame :=
  playable (plays_lift ⟨atRest, press, rfl, rfl⟩ _) rfl

end Lab8.Console
