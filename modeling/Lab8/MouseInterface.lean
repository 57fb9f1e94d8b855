import Lab8.Ps2Start
import Lab8.Mouse
/-!
# From the PS/2 lines to the cursor: module `Mouse_interface` (mouse_interface_IP.sv:11-82)

The controller and the decoder of `Mouse`, wired. The ports `the_command` and `send_command` of the controller
are not connected (:37-44) and read as 0. The decoder's phases look rotated, X, Y and then the flags, but it
also gets the two bytes of the opening conversation (`Ps2Start`), and with those it is in step: every packet is
decoded with its own flags. Its vertical half is shown when the next packet begins.

| here | there |
| --- | --- |
| `toPs2` | the connections of `PS2` (:37-44) |
| `Pointer.move` | what a packet means |
| `Session` | a mouse that answers the request and then reports |
-/

namespace Lab8.MouseInterface

open Clocked Ps2Controller

structure Regs where
  ps2 : Ps2Controller.Regs
  mouse : Mouse.Regs

/-- `KEY[0]` and what the mouse does to the two lines. -/
structure In where
  key0 : Bool
  clk : Bool
  dat : Bool
deriving DecidableEq, Repr

def toPs2 (i : In) : Ps2Controller.In := ⟨!i.key0, 0, false, i.clk, i.dat⟩

def next (r : Regs) (i : In) : Regs where
  ps2 := Ps2Controller.next r.ps2 (toPs2 i)
  mouse := Mouse.ff r.mouse ⟨i.key0, r.ps2.dataIn.receivedDataEn, r.ps2.dataIn.receivedData⟩

def machine : Machine In Regs := ⟨next⟩

def reset (i : In) : Bool := !i.key0

/-! ## Bytes -/

/-- The decoder at the clock a byte is handed over. -/
def take (m : Mouse.Regs) (b : BitVec 8) : Mouse.Regs := Mouse.ff m ⟨true, true, b⟩

/-- The byte at the outputs of the controller. -/
def offered (s : Ps2Controller.Regs) : List (BitVec 8) :=
  if s.dataIn.receivedDataEn then [s.dataIn.receivedData] else []

theorem alone_toPs2 {i : In} (hk : i.key0 = true) : Alone (toPs2 i) := by simp [Alone, toPs2, hk]

theorem run_ps2 (r : Regs) : ∀ is : List In, (machine.run r is).ps2 = Ps2Controller.machine.run r.ps2 (is.map toPs2)
  | [] => rfl
  | i :: is => run_ps2 (next r i) is

/-- Between two bytes the decoder keeps still. -/
theorem run_mouse : ∀ (is : List In) (r : Regs), (∀ i ∈ is, i.key0 = true) →
    (machine.run r is).mouse =
      (Ps2Controller.machine.log (fun s _ => offered s) r.ps2 (is.map toPs2)).foldl take r.mouse
  | [], _, _ => rfl
  | i :: is, r, hk => by
    obtain ⟨hi, hk⟩ := List.forall_mem_cons.1 hk
    rw [Machine.run_cons, run_mouse is _ hk, List.map_cons, Machine.log_cons, List.foldl_append]
    congr 1
    change Mouse.ff r.mouse ⟨i.key0, _, _⟩ = _
    rw [hi]
    by_cases he : r.ps2.dataIn.receivedDataEn = true
    · simp [offered, he, take]
    · simp [offered, he, Mouse.ff]

/-- The decoder gets the frames on the line, the last one a clock late. -/
theorem log_offered {is : List In} (hk : ∀ i ∈ is, i.key0 = true) (j : In) :
    Ps2Controller.machine.log (fun s _ => offered s) init ((is ++ [j]).map toPs2) =
      (Framing.decode 8 2 (Ps2Controller.machine.log sampled init (is.map toPs2))).map DataIn.byte := by
  have ha : ∀ i ∈ is.map toPs2, Alone i := List.forall_mem_map.2 fun i hi => alone_toPs2 (hk i hi)
  have hd := Ps2Controller.machine.log_delay offered init (is.map toPs2)
  have h0 : offered init = [] := rfl
  rw [h0, List.nil_append] at hd
  have hlast : Ps2Controller.machine.log (fun s _ => offered s)
      (Ps2Controller.machine.run init (is.map toPs2)) ([j].map toPs2) =
      offered (Ps2Controller.machine.run init (is.map toPs2)) := List.append_nil _
  rw [List.map_append, Machine.log_append, hlast, hd, ← log_received _ ha]
  rfl

/-- **The stack.** The decoder is where the bytes of the frames on the line take it, one clock after them. -/
theorem run_decode {r : Regs} (h : r.ps2 = init) (is : List In) (j : In)
    (hk : ∀ i ∈ is, i.key0 = true) (hj : j.key0 = true) :
    (machine.run r (is ++ [j])).mouse = ((Framing.decode 8 2
      (Ps2Controller.machine.log sampled init (is.map toPs2))).map DataIn.byte).foldl take r.mouse := by
  have hall : ∀ i ∈ is ++ [j], i.key0 = true :=
    List.forall_mem_append.2 ⟨hk, List.forall_mem_cons.2 ⟨hj, List.forall_mem_nil _⟩⟩
  rw [run_mouse _ r hall, h, log_offered hk]

/-! ## Packets -/

/-- Flags, then the horizontal and the vertical movement. -/
structure Packet where
  flags : BitVec 8
  x : BitVec 8
  y : BitVec 8
deriving DecidableEq, Repr

def Packet.bytes (p : Packet) : List (BitVec 8) := [p.flags, p.x, p.y]

section
variable {m : Mouse.Regs} (b : BitVec 8)

theorem take_x (h : m.counter = 0) : take m b = { m with byte3 := b, counter := 1 } := 
  Mouse.next_byteX (i := ⟨true, true, b⟩) rfl rfl h

theorem take_y (h : m.counter = 1) : take m b = { m with curX := m.nextX, byte2 := b, counter := 2 } :=
  Mouse.next_byteY (i := ⟨true, true, b⟩) rfl rfl h

theorem take_flags (h : m.counter = 2) : take m b = { m with curY := m.nextY, byte1 := b, counter := 0 } :=
  Mouse.next_flags (i := ⟨true, true, b⟩) rfl rfl (by simp [h]) (by simp [h])

end

/-- In step, a packet replaces all three bytes. -/
theorem take_packet {m : Mouse.Regs} (h : m.counter = 2) (p : Packet) :
    p.bytes.foldl take m =
      { byte1 := p.flags, byte2 := p.y, byte3 := p.x, counter := 2
        curX := { m with byte1 := p.flags, byte3 := p.x }.nextX, curY := m.nextY } := by
  simp only [Packet.bytes, List.foldl_cons, List.foldl_nil]
  rw [take_flags p.flags h, take_x p.x rfl, take_y p.y rfl]
  rfl

/-- The cursor and the vertical movement it has yet to make. -/
structure Pointer where
  x : ℤ
  y : ℤ
  dy : ℤ
deriving DecidableEq

def Pointer.move (q : Pointer) (p : Packet) : Pointer :=
  ⟨Mouse.clamp 5 635 (q.x + Mouse.delta (p.flags.getLsbD 4) p.x), Mouse.row q.y q.dy,
    Mouse.delta (p.flags.getLsbD 5) p.y⟩

/-- What the registers show in step. -/
def pointer (m : Mouse.Regs) : Pointer := ⟨m.curX.toNat, m.curY.toNat, Mouse.delta m.sY m.byte2⟩

/-- In step, a packet moves the pointer. -/
theorem pointer_packet {m : Mouse.Regs} (h : m.counter = 2) (hx : 5 ≤ m.curX.toNat) (hx' : m.curX.toNat ≤ 635)
    (p : Packet) : pointer (p.bytes.foldl take m) = (pointer m).move p := by
  have ex : ((p.bytes.foldl take m).curX.toNat : ℤ) = ((pointer m).move p).x := by
    rw [take_packet h]
    exact Mouse.nextX_clamp (r := { m with byte1 := p.flags, byte3 := p.x }) hx hx'
  have ey : ((p.bytes.foldl take m).curY.toNat : ℤ) = ((pointer m).move p).y := by
    rw [take_packet h]
    exact Mouse.nextY_row m
  have ed : Mouse.delta (p.bytes.foldl take m).sY (p.bytes.foldl take m).byte2 = ((pointer m).move p).dy := by
    rw [take_packet h]
    rfl
  unfold pointer at ex ey ed ⊢
  rw [ex, ey, ed]

theorem clamp_range {lo hi x : ℤ} (h : lo ≤ hi) : lo ≤ Mouse.clamp lo hi x ∧ Mouse.clamp lo hi x ≤ hi := by
  unfold Mouse.clamp
  omega

/-- Any number of packets. -/
theorem pointer_packets : ∀ (ps : List Packet) {m : Mouse.Regs}, m.counter = 2 → 5 ≤ m.curX.toNat → m.curX.toNat ≤ 635 →
    ((ps.flatMap Packet.bytes).foldl take m).counter = 2 ∧
    ((ps.flatMap Packet.bytes).foldl take m).byte1 = (ps.map Packet.flags).getLastD m.byte1 ∧
    pointer ((ps.flatMap Packet.bytes).foldl take m) = ps.foldl Pointer.move (pointer m)
  | [], m, h, _, _ => ⟨h, rfl, rfl⟩
  | p :: ps, m, h, hx, hx' => by
    have e := pointer_packet h hx hx' p
    have hm : (p.bytes.foldl take m).counter = 2 := by rw [take_packet h]
    have hb : (p.bytes.foldl take m).byte1 = p.flags := by rw [take_packet h]
    have hr : (5 : ℤ) ≤ ((pointer m).move p).x ∧ ((pointer m).move p).x ≤ 635 := clamp_range (by decide)
    have ex : ((p.bytes.foldl take m).curX.toNat : ℤ) = ((pointer m).move p).x := congrArg Pointer.x e
    obtain ⟨i1, i2, i3⟩ := pointer_packets ps hm (by omega) (by omega)
    rw [List.flatMap_cons, List.foldl_append]
    refine ⟨i1, ?_, ?_⟩
    · rw [i2, hb]
      cases ps <;> rfl
    · rw [i3, e]
      rfl

/-! ## Sessions -/

/-- A mouse answers the request, replies one byte, and reports packets. Parity and stop bits are its own, and so
is the timing, down to two samples for each level of the clock. -/
structure Session where
  answer : Answer
  reply : BitVec 8
  parity : Bool
  packets : List Packet
  frames : List (Framing.Frame 8 2)
  cells : List Cell
  bytes : frames.map (fun f => DataIn.byte f.data) = packets.flatMap Packet.bytes
  bits : cells.map Cell.bit = frame reply parity true ++ frames.flatMap Framing.Frame.bits

namespace Session

variable (e : Session)

/-- The levels of the two lines, and `KEY[0]` up. -/
def levels : List Ps2Controller.In := e.answer.wave ++ e.cells.flatMap Cell.wave

def wave : List In := e.levels.map fun i => ⟨true, i.clk, i.dat⟩

theorem wave_toPs2 : e.wave.map toPs2 = e.levels := by
  have h : ∀ i ∈ e.levels, ∃ clk dat, i = lines clk dat := by
    intro i hi
    rcases List.mem_append.1 hi with hi | hi
    · exact e.answer.mem_wave hi
    · obtain ⟨c, -, hc⟩ := List.mem_flatMap.1 hi
      exact c.mem_wave hc
  rw [wave, List.map_map]
  refine (List.map_congr_left fun i hi => ?_).trans (List.map_id _)
  obtain ⟨clk, dat, rfl⟩ := h i hi
  rfl

theorem key0_wave : ∀ i ∈ e.wave, i.key0 = true := List.forall_mem_map.2 fun _ _ => rfl

/-- The decoder gets the request back, the reply shifted, and the packets. -/
theorem decode_levels : (Framing.decode 8 2 (Ps2Controller.machine.log sampled init e.levels)).map DataIn.byte =
    [0xf4#8, e.reply <<< 1] ++ e.packets.flatMap Packet.bytes := by
  obtain ⟨h, hs, hl⟩ := e.answer.run_wave
  have hf := Framing.decode_frames (n := 8) (t := 2) (by decide) e.frames []
  rw [List.append_nil] at hf
  unfold levels
  rw [Machine.log_append, hl, run_silents e.cells h hs, e.bits, decode_conversation, hf, List.map_append, List.map_map]
  rw [← e.bytes]
  exact congrArg _ (congrArg _ (List.append_nil _))

/-- Any packets make a session. -/
def ofPackets (packets : List Packet) : Session where
  answer := .least
  reply := 0xfa
  parity := true
  packets := packets
  frames := (packets.flatMap Packet.bytes).map fun b => ⟨0, DataIn.bits b, [true, true], DataIn.length_bits b, rfl⟩
  cells := (frame 0xfa true true ++ ((packets.flatMap Packet.bytes).map fun b =>
    (⟨0, DataIn.bits b, [true, true], DataIn.length_bits b, rfl⟩ : Framing.Frame 8 2)).flatMap Framing.Frame.bits).map .least
  bytes := by
    rw [List.map_map]
    exact (List.map_congr_left fun b _ => DataIn.byte_bits b).trans (List.map_id _)
  bits := by
    rw [List.map_map]
    exact List.map_id _

end Session

/-- The decoder after the two bytes of the conversation. -/
def opened (m : Mouse.Regs) (reply : BitVec 8) : Mouse.Regs :=
  { m with byte2 := reply, byte3 := 0xf4, counter := 2, curX := Mouse.raise 635 m.curX 244 }

theorem take_opening {m : Mouse.Regs} (h : m.counter = 0) (hb : m.byte1 = 0) (reply : BitVec 8) :
    [0xf4#8, reply].foldl take m = opened m reply := by
  simp only [List.foldl_cons, List.foldl_nil]
  rw [take_x 0xf4#8 h, take_y reply rfl]
  simp [opened, Mouse.Regs.nextX, Mouse.Regs.sX, Mouse.Regs.magX, Mouse.magnitude, hb]

theorem opened_curX (m : Mouse.Regs) (reply : BitVec 8) :
    ((opened m reply).curX.toNat : ℤ) = min 635 ((m.curX.toNat : ℤ) + 244) := by
  have : (Mouse.raise 635 m.curX 244).toNat = min 635 (m.curX.toNat + 244) := Mouse.raise_toNat (by decide) (by decide)
  change ((Mouse.raise 635 m.curX 244).toNat : ℤ) = _
  omega

theorem pointer_opened {m : Mouse.Regs} (hb : m.byte1 = 0) (reply : BitVec 8) :
    pointer (opened m reply) =
      ⟨min 635 ((m.curX.toNat : ℤ) + 244), m.curY.toNat, Mouse.delta false reply⟩ := by
  have hs : (opened m reply).sY = false := by simp [opened, Mouse.Regs.sY, hb]
  unfold pointer
  rw [opened_curX, hs]
  rfl

/-- **End to end.** After a reset and an answer, the phases of the decoder fit the packets: every packet moves the
cursor by its own signed deltas, the vertical one with a packet's delay, and the buttons are those of the last packet.
`curX` starts where the request's echo has pushed it, and is clamped; `curY` starts anywhere, and is clamped from rows
5 to 475 (`Mouse.row`). -/
theorem session_tracks {r : Regs} (hr : machine.AfterReset reset r) (e : Session) {j : In} (hj : j.key0 = true) :
    let m := (machine.run r (e.wave ++ [j])).mouse
    m.counter = 2 ∧ m.byte1 = (e.packets.map Packet.flags).getLastD 0 ∧
    pointer m = e.packets.foldl Pointer.move
      ⟨min 635 (r.mouse.curX.toNat + 244), r.mouse.curY.toNat, Mouse.delta false (e.reply <<< 1)⟩ := by
  obtain ⟨r₀, i, hi, rfl⟩ := hr
  have hi : i.key0 = false := by simpa [reset] using hi
  have h0 : (machine.next r₀ i).ps2 = init := by simp [machine, next, Ps2Controller.next, toPs2, hi]
  have hc : (machine.next r₀ i).mouse.counter = 0 := by simp [machine, next, Mouse.ff, hi]
  have hb : (machine.next r₀ i).mouse.byte1 = 0 := by simp [machine, next, Mouse.ff, hi]
  generalize machine.next r₀ i = r at h0 hc hb
  intro m
  have hm : m = (e.packets.flatMap Packet.bytes).foldl take ([0xf4#8, e.reply <<< 1].foldl take r.mouse) := by
    have hd := run_decode h0 e.wave j e.key0_wave hj
    rwa [e.wave_toPs2, e.decode_levels, List.foldl_append] at hd
  rw [take_opening hc hb] at hm
  have hx := opened_curX r.mouse (e.reply <<< 1)
  have hb₀ : (opened r.mouse (e.reply <<< 1)).byte1 = 0 := hb
  obtain ⟨p1, p2, p3⟩ := pointer_packets e.packets (m := opened r.mouse (e.reply <<< 1)) rfl (by omega) (by omega)
  rw [pointer_opened hb] at p3
  rw [hb₀] at p2
  rw [hm]
  exact ⟨p1, p2, p3⟩

def powerUp : Regs := ⟨init, Mouse.powerUp⟩

/-- From power-up, 16 to the left and 30 up, then a button: the echo has put `curX` at 244, the reply takes `curY` from
0 past zero to 780, and the 30 follow with the second packet. -/
theorem session_tracks_left : pointer (machine.run (next powerUp ⟨false, true, true⟩)
      ((Session.ofPackets [⟨0x18, 0xf0, 30⟩, ⟨0x09, 0, 0⟩]).wave ++ [⟨true, true, true⟩])).mouse = ⟨228, 750, 0⟩ ∧
    (machine.run (next powerUp ⟨false, true, true⟩)
      ((Session.ofPackets [⟨0x18, 0xf0, 30⟩, ⟨0x09, 0, 0⟩]).wave ++ [⟨true, true, true⟩])).mouse.byte1 = 0x09 := by
  obtain ⟨-, hb, hp⟩ := session_tracks (r := next powerUp ⟨false, true, true⟩) ⟨powerUp, ⟨false, true, true⟩, rfl, rfl⟩
    (Session.ofPackets [⟨0x18, 0xf0, 30⟩, ⟨0x09, 0, 0⟩]) (j := ⟨true, true, true⟩) rfl
  exact ⟨hp.trans (by decide), hb⟩

end Lab8.MouseInterface
