import Lab8.Lib.Log
/-!
# Start-stop framing

A line idles high. A frame is a low start bit, `n` data bits and `t` trailing bits (parity and stop bits)
whose values the receiver does not look at. The receiver is a machine over the sampled bits; whatever the
trailers and the gaps hold, it gives back the data of the frames it was sent (`decode_frames`).
-/

namespace Framing

open Clocked

/-- `none` between two frames, else the bits after the start bit so far. -/
abbrev Rx := Option (List Bool)

section
variable (n t : ℕ)

def step : Rx → Bool → Rx
  | none, b => if b then none else some []
  | some bs, b => if bs.length + 1 = n + t then none else some (bs ++ [b])

/-- The data, when the last bit of a frame comes in. -/
def emit : Rx → Bool → List (List Bool)
  | none, _ => []
  | some bs, b => if bs.length + 1 = n + t then [(bs ++ [b]).take n] else []

def receiver : Machine Bool Rx := ⟨step n t⟩

def decode (bits : List Bool) : List (List Bool) := (receiver n t).log (emit n t) none bits

/-- A frame and the high bits sampled before it. -/
structure Frame where
  gap : ℕ
  data : List Bool
  trailer : List Bool
  data_length : data.length = n
  trailer_length : trailer.length = t

end

variable {n t : ℕ}

def Frame.bits (f : Frame n t) : List Bool := List.replicate f.gap true ++ false :: (f.data ++ f.trailer)

theorem run_gap (g : ℕ) : (receiver n t).run none (List.replicate g true) = none ∧
    (receiver n t).log (emit n t) none (List.replicate g true) = [] := by
  induction g with
  | zero => exact ⟨rfl, rfl⟩
  | succ g ih => exact ih

/-- Inside a frame the receiver collects, and it ends with the last bit. -/
theorem run_inside : ∀ (bs cs : List Bool), bs.length + cs.length = n + t → cs ≠ [] →
    (receiver n t).run (some bs) cs = none ∧ (receiver n t).log (emit n t) (some bs) cs = [(bs ++ cs).take n]
  | _, [], _, h => absurd rfl h
  | bs, [b], h, _ => by
    have h : bs.length + 1 = n + t := h
    simp [receiver, step, emit, h]
  | bs, b :: c :: cs, h, _ => by
    have hne : bs.length + 1 ≠ n + t := by simp at h; omega
    have ih := run_inside (bs ++ [b]) (c :: cs) (by simp at h ⊢; omega) (List.cons_ne_nil c cs)
    have hs : (receiver n t).next (some bs) b = some (bs ++ [b]) := if_neg hne
    have he : emit n t (some bs) b = [] := if_neg hne
    rw [Machine.run_cons, Machine.log_cons, hs, he, ih.1, ih.2]
    simp

/-- One frame: its data, and the receiver is between frames again. -/
theorem run_frame (h : 0 < n + t) (f : Frame n t) :
    (receiver n t).run none f.bits = none ∧ (receiver n t).log (emit n t) none f.bits = [f.data] := by
  have hl : (f.data ++ f.trailer).length = n + t := by
    rw [List.length_append, f.data_length, f.trailer_length]
  obtain ⟨g1, g2⟩ := run_gap (n := n) (t := t) f.gap
  obtain ⟨i1, i2⟩ := run_inside (n := n) (t := t) [] (f.data ++ f.trailer) (by simpa using hl)
    (List.ne_nil_of_length_pos (by omega))
  unfold Frame.bits
  rw [Machine.run_append, Machine.log_append, g1, g2, Machine.run_cons, Machine.log_cons]
  have hs : (receiver n t).next none false = some [] := rfl
  have he : emit n t none false = [] := rfl
  rw [hs, he, i1, i2]
  simp [← f.data_length]

theorem run_frames (h : 0 < n + t) : ∀ fs : List (Frame n t),
    (receiver n t).run none (fs.flatMap Frame.bits) = none ∧
    (receiver n t).log (emit n t) none (fs.flatMap Frame.bits) = fs.map Frame.data
  | [] => ⟨rfl, rfl⟩
  | f :: fs => by
    obtain ⟨f1, f2⟩ := run_frame h f
    obtain ⟨i1, i2⟩ := run_frames h fs
    rw [List.flatMap_cons, Machine.run_append, Machine.log_append, f1, f2, i1, i2]
    exact ⟨rfl, rfl⟩

/-- **Round trip.** Frames come back one by one, and what follows them is read on its own. -/
theorem decode_frames (h : 0 < n + t) (fs : List (Frame n t)) (bits : List Bool) :
    decode n t (fs.flatMap Frame.bits ++ bits) = fs.map Frame.data ++ decode n t bits := by
  obtain ⟨h1, h2⟩ := run_frames h fs
  unfold decode
  rw [Machine.log_append, h1, h2]

theorem decode_gap (g : ℕ) (bits : List Bool) : decode n t (List.replicate g true ++ bits) = decode n t bits := by
  obtain ⟨h1, h2⟩ := run_gap (n := n) (t := t) g
  unfold decode
  rw [Machine.log_append, h1, h2, List.nil_append]

end Framing
