import Mathlib.Data.Fintype.Card
import Lab8.BallRange
/-!
# The keyboard table

The `case` of ball.sv:192-452 lists sixteen keycodes, the two bytes of a key pair in both orders, and writes out the
same edge tests for each (`motionIn`). What they have in common: which of the four direction keys are held (`Held`),
that a single key first stops the other axis, and that an edge comes before the keys (`rule`). The table follows the
rule at every keycode, those it does not list included (`keyboard_uniform`).
-/

namespace Lab8.Ball

open Clocked

/-! ## Keys in a keycode -/

inductive Key
  | w | a | s | d
deriving DecidableEq, Repr

instance : Fintype Key := ⟨{.w, .a, .s, .d}, fun k => by cases k <;> decide⟩

def Key.code : Key → BitVec 8
  | .w => 0x1A
  | .a => 0x04
  | .s => 0x16
  | .d => 0x07

def Key.vertical : Key → Bool
  | .w | .s => true
  | .a | .d => false

/-- The bytes of the keycode are `p` and `q`, in either order. -/
def Bytes (k : BitVec 16) (p q : BitVec 8) : Prop := k = p ++ q ∨ k = q ++ p

instance (k : BitVec 16) (p q : BitVec 8) : Decidable (Bytes k p q) := inferInstanceAs (Decidable (_ ∨ _))

/-- The key alone. -/
def Single (k : BitVec 16) (x : Key) : Prop := Bytes k x.code 0

/-- Two perpendicular keys. -/
def Chord (k : BitVec 16) (x y : Key) : Prop := x.vertical ≠ y.vertical ∧ Bytes k x.code y.code

/-- The direction keys that count. -/
def Held (k : BitVec 16) (x : Key) : Prop := Single k x ∨ ∃ y, Chord k x y

instance (k : BitVec 16) (x : Key) : Decidable (Single k x) := inferInstanceAs (Decidable (Bytes _ _ _))
instance (k : BitVec 16) (x y : Key) : Decidable (Chord k x y) := inferInstanceAs (Decidable (_ ∧ _))
instance (k : BitVec 16) (x : Key) : Decidable (Held k x) := inferInstanceAs (Decidable (_ ∨ _))

/-- A key alone on one axis stops the other one. -/
def Stops (k : BitVec 16) (vertical : Bool) : Prop := ∃ x : Key, x.vertical = vertical ∧ Single k x

instance (k : BitVec 16) (v : Bool) : Decidable (Stops k v) := inferInstanceAs (Decidable (∃ _, _))

def swapBytes (k : BitVec 16) : BitVec 16 := k.extractLsb' 0 8 ++ k.extractLsb' 8 8

/-! ## The rule -/

inductive Edge
  | bottom | top | right | left
deriving DecidableEq, Repr

def Edge.At (r : Regs) : Edge → Prop
  | .bottom => bottomEdge r
  | .top => topEdge r
  | .right => rightEdge r
  | .left => leftEdge r

instance (r : Regs) : ∀ e : Edge, Decidable (e.At r)
  | .bottom => inferInstanceAs (Decidable (bottomEdge r))
  | .top => inferInstanceAs (Decidable (topEdge r))
  | .right => inferInstanceAs (Decidable (rightEdge r))
  | .left => inferInstanceAs (Decidable (leftEdge r))

/-- The edge that is served. -/
def firstEdge (r : Regs) : Option Edge := [Edge.bottom, .top, .right, .left].find? fun e => decide (e.At r)

/-- The motion of an axis when no edge holds: its keys, else what it had. -/
def keyed (up down : Prop) [Decidable up] [Decidable down] (step m : BitVec 10) : BitVec 10 :=
  if up then step else if down then -step else m

def rule (r : Regs) (k : BitVec 16) : Motion :=
  let m : Motion := ⟨if Stops k true then 0 else r.x.motion, if Stops k false then 0 else r.y.motion⟩
  match firstEdge r with
  | some .bottom => { m with y := -r.y.step }
  | some .top => { m with y := r.y.step }
  | some .right => { m with x := -r.x.step }
  | some .left => { m with x := r.x.step }
  | none => ⟨keyed (Held k .d) (Held k .a) r.x.step m.x, keyed (Held k .s) (Held k .w) r.y.step m.y⟩

/-! ## The table -/

/-- The keycodes that the `case` lists. -/
def listed : List (BitVec 16) :=
  [0x001A, 0x1A00, 0x0016, 0x1600, 0x0004, 0x0400, 0x0007, 0x0700,
    0x1A07, 0x071A, 0x041A, 0x1A04, 0x1604, 0x0416, 0x0716, 0x1607]

/-- What the keys of an axis drive. -/
def driven (up down : Prop) [Decidable up] [Decidable down] : Drive :=
  if up then .plus else if down then .minus else .keep

/-- The branch that the rule asks for. -/
def ruleBranch (k : BitVec 16) : KeyBranch :=
  ⟨decide (Stops k true), decide (Stops k false), driven (Held k .d) (Held k .a), driven (Held k .s) (Held k .w)⟩

theorem apply_driven (up down : Prop) [Decidable up] [Decidable down] (step m : BitVec 10) :
    (driven up down).apply step m = keyed up down step m := by
  unfold driven keyed
  split
  · rfl
  · split
    · exact Word.not_add_one step
    · rfl

/-- Keys make a listed keycode. -/
theorem listed_of_bytes {k : BitVec 16} {p q : BitVec 8} (h : Bytes k p q)
    (hl : p ++ q ∈ listed ∧ q ++ p ∈ listed) : k ∈ listed := by
  rcases h with rfl | rfl
  · exact hl.1
  · exact hl.2

theorem Single.listed {k : BitVec 16} {x : Key} (h : Single k x) : k ∈ listed := by
  refine listed_of_bytes h ?_
  cases x <;> decide

theorem Held.listed {k : BitVec 16} {x : Key} (h : Held k x) : k ∈ listed := by
  rcases h with h | ⟨y, hv, h⟩
  · exact h.listed
  · refine listed_of_bytes h ?_
    revert hv
    cases x <;> cases y <;> decide

/-- A keycode that is not listed holds no keys. -/
theorem ruleBranch_of_not_listed {k : BitVec 16} (h : k ∉ listed) : ruleBranch k = ⟨false, false, .keep, .keep⟩ := by
  have hs (v : Bool) : ¬ Stops k v := fun ⟨_, _, hs⟩ => h hs.listed
  have hh (x : Key) : ¬ Held k x := fun hx => h hx.listed
  simp [ruleBranch, driven, hs, hh]

theorem keyBranch_of_not_listed {k : BitVec 16} (h : k ∉ listed) : keyBranch k = ⟨false, false, .keep, .keep⟩ := by
  simp only [listed, List.mem_cons, List.not_mem_nil, or_false, not_or] at h
  unfold keyBranch
  simp only [h, if_false]

theorem keyBranch_of_listed {k : BitVec 16} (h : k ∈ listed) : keyBranch k = ruleBranch k := by
  have ha : listed.all (fun k => decide (keyBranch k = ruleBranch k)) = true := by decide
  exact of_decide_eq_true (List.all_eq_true.1 ha k h)

/-- The table is the rule. -/
theorem keyBranch_eq (k : BitVec 16) : keyBranch k = ruleBranch k := by
  by_cases h : k ∈ listed
  · exact keyBranch_of_listed h
  · rw [keyBranch_of_not_listed h, ruleBranch_of_not_listed h]

theorem edgeElse_eq (r : Regs) (m own : Motion) : edgeElse r m own =
    match firstEdge r with
    | some .bottom => { m with y := -r.y.step }
    | some .top => { m with y := r.y.step }
    | some .right => { m with x := -r.x.step }
    | some .left => { m with x := r.x.step }
    | none => own := by
  unfold edgeElse firstEdge
  by_cases hb : bottomEdge r
  · simp [hb, Edge.At, Word.not_add_one]
  by_cases ht : topEdge r
  · simp [hb, ht, Edge.At]
  by_cases hr : rightEdge r
  · simp [hb, ht, hr, Edge.At, Word.not_add_one]
  by_cases hl : leftEdge r
  · simp [hb, ht, hr, hl, Edge.At]
  · simp [hb, ht, hr, hl, Edge.At]

theorem motionIn_eq_rule (r : Regs) (k : BitVec 16) : motionIn r k = rule r k := by
  rw [motionIn_eq]
  unfold KeyBranch.motion rule
  simp only [keyBranch_eq, ruleBranch, apply_driven, decide_eq_true_eq]
  rw [edgeElse_eq]

/-! ## The order of the bytes -/

theorem swapBytes_append (p q : BitVec 8) : swapBytes (p ++ q) = q ++ p := by
  unfold swapBytes
  rw [BitVec.extractLsb'_append_eq_ite, BitVec.extractLsb'_append_eq_ite]
  simp

theorem swapBytes_swapBytes (k : BitVec 16) : swapBytes (swapBytes k) = k := by
  have e : swapBytes k = k.extractLsb' 0 8 ++ k.extractLsb' 8 8 := rfl
  rw [e, swapBytes_append]
  exact @BitVec.extractLsb'_append_extractLsb' 8 8 k

theorem bytes_swapBytes (k : BitVec 16) (p q : BitVec 8) : Bytes (swapBytes k) p q ↔ Bytes k p q := by
  have h (x y : BitVec 8) : swapBytes k = x ++ y ↔ k = y ++ x := by
    constructor
    · intro e
      rw [← swapBytes_swapBytes k, e, swapBytes_append]
    · intro e
      rw [e, swapBytes_append]
  unfold Bytes
  rw [h, h, or_comm]

theorem stops_swapBytes (k : BitVec 16) (v : Bool) : Stops (swapBytes k) v ↔ Stops k v := by
  simp only [Stops, Single, bytes_swapBytes]

theorem held_swapBytes (k : BitVec 16) (x : Key) : Held (swapBytes k) x ↔ Held k x := by
  simp only [Held, Single, Chord, bytes_swapBytes]

theorem rule_swapBytes (r : Regs) (k : BitVec 16) : rule r (swapBytes k) = rule r k := by
  simp only [rule, keyed, stops_swapBytes, held_swapBytes]

/-- **The keyboard.** At every register state and keycode the next motions follow the rule, and the order of
the two bytes makes no difference to the next state. -/
theorem keyboard_uniform (r : Regs) (k : BitVec 16) : motionIn r k = rule r k ∧
    ∀ (s : EdgeReg Regs) (i : In),
      machine.next s { i with keycode := swapBytes k } = machine.next s { i with keycode := k } := by
  refine ⟨motionIn_eq_rule r k, fun s i => ?_⟩
  have hm (r : Regs) : move r (swapBytes k) = move r k := by
    unfold move
    rw [motionIn_eq_rule, rule_swapBytes, ← motionIn_eq_rule]
  change (⟨ff _ _ _, _⟩ : EdgeReg Regs) = ⟨ff _ _ _, _⟩
  unfold ff
  simp only [hm]

end Lab8.Ball
