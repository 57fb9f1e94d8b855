import Lab8.FoodApart
/-!
# Sixteen copies of a food

`RandomBall` has one slot in sixteen copies; the source has no loop. Here is its text with every index as it is
typed: the contact blocks, the defaults before them and the four commit lists (random_ball.sv:143-593). Run as
what they are, assignments one after the other, they are the sixteen copies (`ffText_eq`), so only the foods
that are touched move (`only_touched_move`).

| here | there |
| --- | --- |
| `defaults` | `Ball_X_Pos_in[k] = Ball_X_Pos[k]` and so on (random_ball.sv:411-442) |
| `blocks` | the sixteen `if` (:451-593) |
| `commitGrow`, `commitShrink`, `commitStart`, `commitMove` | the commit lists (:145-176, :184-215, :223-254, :262-293) |
-/

namespace Lab8.RandomBall

open Clocked

/-! ## The text -/

local instance slots_neZero : NeZero 16 := ⟨by decide⟩

/-- `Ball_X_Pos[k]` and `Ball_Y_Pos[k]`. -/
inductive Ref
  | x (k : Slot)
  | y (k : Slot)
deriving DecidableEq, Repr

/-- The right sides that move a food: `{1'b0,randomx[8:0]}`, `{2'b0,randomy[7:0]}`, `randomx`, `randomy`. -/
inductive Rand
  | lowX | lowY | wordX | wordY
deriving DecidableEq, Repr

inductive Flag
  | isCollision1 | isCollision2
deriving DecidableEq, Repr

/-- `if((BallX - x1)*(BallX - x2) + (BallY - y1)*(BallY - y2) <= (4+bSize)*(4+bSize))`, two assignments and a flag. -/
structure Block where
  x1 : Ref
  x2 : Ref
  y1 : Ref
  y2 : Ref
  targetX : Ref
  valueX : Rand
  targetY : Ref
  valueY : Rand
  flag : Flag
deriving DecidableEq, Repr

def blocks : List Block :=
  [⟨.x 0, .x 0, .y 0, .y 0, .x 0, .lowX, .y 0, .lowY, .isCollision1⟩,
    ⟨.x 1, .x 1, .y 1, .y 1, .x 1, .lowX, .y 1, .lowY, .isCollision1⟩,
    ⟨.x 2, .x 2, .y 2, .y 2, .x 2, .lowX, .y 2, .lowY, .isCollision1⟩,
    ⟨.x 3, .x 3, .y 3, .y 3, .x 3, .lowX, .y 3, .lowY, .isCollision1⟩,
    ⟨.x 4, .x 4, .y 4, .y 4, .x 4, .lowX, .y 4, .lowY, .isCollision1⟩,
    ⟨.x 5, .x 5, .y 5, .y 5, .x 5, .lowX, .y 5, .lowY, .isCollision1⟩,
    ⟨.x 6, .x 6, .y 6, .y 6, .x 6, .lowX, .y 6, .lowY, .isCollision1⟩,
    ⟨.x 7, .x 7, .y 7, .y 7, .x 7, .lowX, .y 7, .lowY, .isCollision1⟩,
    ⟨.x 8, .x 8, .y 8, .y 8, .x 8, .lowX, .y 8, .lowY, .isCollision2⟩,
    ⟨.x 9, .x 9, .y 9, .y 9, .x 9, .lowX, .y 9, .lowY, .isCollision2⟩,
    ⟨.x 10, .x 10, .y 10, .y 10, .x 10, .lowX, .y 10, .lowY, .isCollision2⟩,
    ⟨.x 11, .x 11, .y 11, .y 11, .x 11, .lowX, .y 11, .lowY, .isCollision2⟩,
    ⟨.x 12, .x 12, .y 12, .y 12, .x 12, .lowX, .y 12, .lowY, .isCollision2⟩,
    ⟨.x 13, .x 13, .y 13, .y 13, .x 13, .lowX, .y 13, .lowY, .isCollision2⟩,
    ⟨.x 14, .x 14, .y 14, .y 14, .x 14, .lowX, .y 14, .lowY, .isCollision2⟩,
    ⟨.x 15, .x 15, .y 15, .y 15, .x 15, .wordX, .y 15, .wordY, .isCollision2⟩]

def defaults : List (Ref × Ref) :=
  [(.x 0, .x 0), (.y 0, .y 0), (.x 1, .x 1), (.y 1, .y 1), (.x 2, .x 2), (.y 2, .y 2), (.x 3, .x 3), (.y 3, .y 3),
    (.x 4, .x 4), (.y 4, .y 4), (.x 5, .x 5), (.y 5, .y 5), (.x 6, .x 6), (.y 6, .y 6), (.x 7, .x 7), (.y 7, .y 7),
    (.x 8, .x 8), (.y 8, .y 8), (.x 9, .x 9), (.y 9, .y 9), (.x 10, .x 10), (.y 10, .y 10), (.x 11, .x 11), (.y 11, .y 11),
    (.x 12, .x 12), (.y 12, .y 12), (.x 13, .x 13), (.y 13, .y 13), (.x 14, .x 14), (.y 14, .y 14), (.x 15, .x 15), (.y 15, .y 15)]

def commitGrow : List (Ref × Ref) :=
  [(.x 0, .x 0), (.y 0, .y 0), (.x 1, .x 1), (.y 1, .y 1), (.x 2, .x 2), (.y 2, .y 2), (.x 3, .x 3), (.y 3, .y 3),
    (.x 4, .x 4), (.y 4, .y 4), (.x 5, .x 5), (.y 5, .y 5), (.x 6, .x 6), (.y 6, .y 6), (.x 7, .x 7), (.y 7, .y 7),
    (.x 8, .x 8), (.y 8, .y 8), (.x 9, .x 9), (.y 9, .y 9), (.x 10, .x 10), (.y 10, .y 10), (.x 11, .x 11), (.y 11, .y 11),
    (.x 12, .x 12), (.y 12, .y 12), (.x 13, .x 13), (.y 13, .y 13), (.x 14, .x 14), (.y 14, .y 14), (.x 15, .x 15), (.y 15, .y 15)]

def commitShrink : List (Ref × Ref) :=
  [(.x 0, .x 0), (.y 0, .y 0), (.x 1, .x 1), (.y 1, .y 1), (.x 2, .x 2), (.y 2, .y 2), (.x 3, .x 3), (.y 3, .y 3),
    (.x 4, .x 4), (.y 4, .y 4), (.x 5, .x 5), (.y 5, .y 5), (.x 6, .x 6), (.y 6, .y 6), (.x 7, .x 7), (.y 7, .y 7),
    (.x 8, .x 8), (.y 8, .y 8), (.x 9, .x 9), (.y 9, .y 9), (.x 10, .x 10), (.y 10, .y 10), (.x 11, .x 11), (.y 11, .y 11),
    (.x 12, .x 12), (.y 12, .y 12), (.x 13, .x 13), (.y 13, .y 13), (.x 14, .x 14), (.y 14, .y 14), (.x 15, .x 15), (.y 15, .y 15)]

def commitStart : List (Ref × Ref) :=
  [(.x 0, .x 0), (.y 0, .y 0), (.x 1, .x 1), (.y 1, .y 1), (.x 2, .x 2), (.y 2, .y 2), (.x 3, .x 3), (.y 3, .y 3),
    (.x 4, .x 4), (.y 4, .y 4), (.x 5, .x 5), (.y 5, .y 5), (.x 6, .x 6), (.y 6, .y 6), (.x 7, .x 7), (.y 7, .y 7),
    (.x 8, .x 8), (.y 8, .y 8), (.x 9, .x 9), (.y 9, .y 9), (.x 10, .x 10), (.y 10, .y 10), (.x 11, .x 11), (.y 11, .y 11),
    (.x 12, .x 12), (.y 12, .y 12), (.x 13, .x 13), (.y 13, .y 13), (.x 14, .x 14), (.y 14, .y 14), (.x 15, .x 15), (.y 15, .y 15)]

def commitMove : List (Ref × Ref) :=
  [(.x 0, .x 0), (.y 0, .y 0), (.x 1, .x 1), (.y 1, .y 1), (.x 2, .x 2), (.y 2, .y 2), (.x 3, .x 3), (.y 3, .y 3),
    (.x 4, .x 4), (.y 4, .y 4), (.x 5, .x 5), (.y 5, .y 5), (.x 6, .x 6), (.y 6, .y 6), (.x 7, .x 7), (.y 7, .y 7),
    (.x 8, .x 8), (.y 8, .y 8), (.x 9, .x 9), (.y 9, .y 9), (.x 10, .x 10), (.y 10, .y 10), (.x 11, .x 11), (.y 11, .y 11),
    (.x 12, .x 12), (.y 12, .y 12), (.x 13, .x 13), (.y 13, .y 13), (.x 14, .x 14), (.y 14, .y 14), (.x 15, .x 15), (.y 15, .y 15)]

/-! ## Running it -/

def Regs.read (r : Regs) : Ref → BitVec 10
  | .x k => r.xPos k
  | .y k => r.yPos k

def Regs.write (r : Regs) (p : Ref → BitVec 10) : Regs := { r with xPos := fun k => p (.x k), yPos := fun k => p (.y k) }

def Rand.value (i : In) : Rand → BitVec 10
  | .lowX => (i.randomx.setWidth 9).setWidth 10
  | .lowY => (i.randomy.setWidth 8).setWidth 10
  | .wordX => i.randomx
  | .wordY => i.randomy

/-- Assignments `target = source`, the sources from one bank, the targets in another. -/
def assign (src : Ref → BitVec 10) (as : List (Ref × Ref)) (bank : Ref → BitVec 10) : Ref → BitVec 10 :=
  as.foldl (fun bank a => Function.update bank a.1 (src a.2)) bank

/-- What the `always_comb` drives: `Ball_X_Pos_in`, `Ball_Y_Pos_in` and the flags. -/
structure Wires where
  pos : Ref → BitVec 10
  isCollision1 : Bool
  isCollision2 : Bool

def Wires.raise (w : Wires) : Flag → Wires
  | .isCollision1 => { w with isCollision1 := true }
  | .isCollision2 => { w with isCollision2 := true }

def Wires.flag (w : Wires) : Flag → Bool
  | .isCollision1 => w.isCollision1
  | .isCollision2 => w.isCollision2

def Block.Test (b : Block) (r : Regs) (i : In) : Prop :=
  (i.ballX.setWidth 32 - (r.read b.x1).setWidth 32) * (i.ballX.setWidth 32 - (r.read b.x2).setWidth 32) +
      (i.ballY.setWidth 32 - (r.read b.y1).setWidth 32) * (i.ballY.setWidth 32 - (r.read b.y2).setWidth 32) ≤
    (BitVec.ofNat 32 4 + r.bSize.setWidth 32) * (BitVec.ofNat 32 4 + r.bSize.setWidth 32)

instance (b : Block) (r : Regs) (i : In) : Decidable (b.Test r i) := inferInstanceAs (Decidable (_ ≤ _))

/-- The assignments of a block are `<=` where the defaults are `=`: they come last. -/
def Block.run (r : Regs) (i : In) (w : Wires) (b : Block) : Wires :=
  if b.Test r i then
    { w with pos := Function.update (Function.update w.pos b.targetX (b.valueX.value i)) b.targetY (b.valueY.value i) }.raise
      b.flag
  else w

/-- The `always_comb` (:300-597); `held` is what `Ball_X_Pos_in` and `Ball_Y_Pos_in` were before. -/
def wires (held : Ref → BitVec 10) (r : Regs) (i : In) : Wires :=
  blocks.foldl (Block.run r i) ⟨assign r.read defaults held, false, false⟩

/-- The second `always_ff` (:98-297). -/
def ffText (held : Ref → BitVec 10) (rising : Bool) (i : In) (r : Regs) : Regs :=
  let w := wires held r i
  if i.reset then init
  else if rising && w.isCollision1 then
    { r.write (assign w.pos commitGrow r.read) with
      rscore := r.rscore + 1, bSize := if r.bSize ≠ 10 then r.bSize + 1 else r.bSize }
  else if rising && w.isCollision2 then
    { r.write (assign w.pos commitShrink r.read) with
      rscore := r.rscore + 1, bSize := if r.bSize ≠ 1 then r.bSize - 1 else r.bSize }
  else if rising && i.startSignal then { r.write (assign w.pos commitStart r.read) with rscore := 0 }
  else if rising then r.write (assign w.pos commitMove r.read)
  else r

def textMachine (held : Ref → BitVec 10) : Machine In (EdgeReg Regs) := EdgeReg.machine In.frameClk (ffText held)

/-! ## The lists -/

/-- Every assignment is to the place it reads, and every place is assigned. -/
def Complete (as : List (Ref × Ref)) : Prop :=
  (∀ a ∈ as, a.1 = a.2) ∧ ∀ k : Slot, Ref.x k ∈ as.map Prod.fst ∧ Ref.y k ∈ as.map Prod.fst

instance (as : List (Ref × Ref)) : Decidable (Complete as) := inferInstanceAs (Decidable (_ ∧ _))

theorem lists_complete : ∀ as ∈ [defaults, commitGrow, commitShrink, commitStart, commitMove], Complete as := by decide

theorem assign_apply {src : Ref → BitVec 10} {as : List (Ref × Ref)} (h : ∀ a ∈ as, a.1 = a.2) (bank : Ref → BitVec 10)
    (ref : Ref) : assign src as bank ref = if ref ∈ as.map Prod.fst then src ref else bank ref := by
  induction as generalizing bank with
  | nil => rfl
  | cons a as ih =>
    have ha := h a (by simp)
    change assign src as (Function.update bank a.1 (src a.2)) ref = _
    rw [ih fun b hb => h b (by simp [hb])]
    by_cases hm : ref ∈ as.map Prod.fst
    · rw [if_pos hm, if_pos (by simp [hm])]
    · rw [if_neg hm]
      by_cases he : ref = a.1
      · subst he
        simp [ha]
      · rw [Function.update_of_ne he, if_neg (by simp_all)]

/-- A complete list copies the bank. -/
theorem assign_complete {as : List (Ref × Ref)} (h : Complete as) (src bank : Ref → BitVec 10) : assign src as bank = src := by
  funext ref
  rw [assign_apply h.1, if_pos]
  cases ref with
  | x k => exact (h.2 k).1
  | y k => exact (h.2 k).2

/-! ## The blocks -/

/-- The block a loop over the slots would have as its body. -/
def slotBlock (k : Slot) : Block where
  x1 := .x k
  x2 := .x k
  y1 := .y k
  y2 := .y k
  targetX := .x k
  valueX := if k = unmasked then .wordX else .lowX
  targetY := .y k
  valueY := if k = unmasked then .wordY else .lowY
  flag := if k.val < 8 then .isCollision1 else .isCollision2

theorem blocks_eq : blocks = (List.finRange 16).map slotBlock := by decide

section
variable {r : Regs} {i : In}

theorem slotBlock_test {k : Slot} : (slotBlock k).Test r i ↔ contact r i.ballX i.ballY k := Iff.rfl

def Wires.point (w : Wires) (k : Slot) : Point := ⟨w.pos (.x k), w.pos (.y k)⟩

theorem Wires.raise_pos (w : Wires) (f : Flag) : (w.raise f).pos = w.pos := by cases f <;> rfl

theorem Wires.raise_flag (w : Wires) (f g : Flag) : (w.raise f).flag g = true ↔ f = g ∨ w.flag g = true := by
  cases f <;> cases g <;> simp [Wires.raise, Wires.flag]

theorem slotBlock_spawn (k : Slot) :
    (⟨(slotBlock k).valueX.value i, (slotBlock k).valueY.value i⟩ : Point) = spawn i.randomx i.randomy k := by
  unfold slotBlock spawn
  by_cases h : k = unmasked
  · simp only [if_pos h]
    rfl
  · simp only [if_neg h]
    rfl

/-- One block moves its slot and no other. -/
theorem run_point (w : Wires) (j k : Slot) : (Block.run r i w (slotBlock j)).point k =
    if k = j ∧ contact r i.ballX i.ballY k then spawn i.randomx i.randomy k else w.point k := by
  unfold Block.run
  by_cases hc : contact r i.ballX i.ballY j
  · rw [if_pos (slotBlock_test.2 hc)]
    by_cases hk : k = j
    · subst hk
      rw [if_pos ⟨rfl, hc⟩, ← slotBlock_spawn]
      simp [Wires.point, slotBlock, Wires.raise_pos]
    · rw [if_neg fun h => hk h.1]
      simp [Wires.point, slotBlock, Wires.raise_pos, hk]
  · rw [if_neg (mt slotBlock_test.1 hc), if_neg]
    rintro ⟨rfl, h⟩
    exact hc h

theorem run_flag (w : Wires) (j : Slot) (f : Flag) : (Block.run r i w (slotBlock j)).flag f = true ↔
    w.flag f = true ∨ ((slotBlock j).flag = f ∧ contact r i.ballX i.ballY j) := by
  unfold Block.run
  by_cases hc : contact r i.ballX i.ballY j
  · rw [if_pos (slotBlock_test.2 hc), Wires.raise_flag, or_comm, and_iff_left hc]
    cases f <;> rfl
  · rw [if_neg (mt slotBlock_test.1 hc)]
    simp [hc]

theorem fold_point (k : Slot) : ∀ (js : List Slot) (w : Wires), ((js.map slotBlock).foldl (Block.run r i) w).point k =
    if k ∈ js ∧ contact r i.ballX i.ballY k then spawn i.randomx i.randomy k else w.point k
  | [], w => by simp
  | j :: js, w => by
    rw [List.map_cons, List.foldl_cons, fold_point k js, run_point]
    by_cases hc : contact r i.ballX i.ballY k
    · by_cases hk : k ∈ js <;> simp [hc, hk]
    · simp [hc]

theorem fold_flag (f : Flag) : ∀ (js : List Slot) (w : Wires), ((js.map slotBlock).foldl (Block.run r i) w).flag f = true ↔
    w.flag f = true ∨ ∃ k ∈ js, (slotBlock k).flag = f ∧ contact r i.ballX i.ballY k
  | [], w => by simp
  | j :: js, w => by
    rw [List.map_cons, List.foldl_cons, fold_flag f js, run_flag, or_assoc]
    simp only [List.mem_cons, exists_eq_or_imp]

end

/-! ## What the text computes -/

section
variable (held : Ref → BitVec 10) (r : Regs) (i : In)

theorem wires_point (k : Slot) : (wires held r i).point k = posIn r i k := by
  unfold wires posIn
  rw [blocks_eq, fold_point, assign_complete (lists_complete _ (by simp))]
  simp only [List.mem_finRange, true_and]
  rfl

theorem wires_flag_iff (f : Flag) :
    (wires held r i).flag f = true ↔ ∃ k : Slot, (slotBlock k).flag = f ∧ contact r i.ballX i.ballY k := by
  unfold wires
  rw [blocks_eq, fold_flag]
  cases f <;> simp [Wires.flag]

theorem wires_isCollision1_iff : (wires held r i).isCollision1 = true ↔ ∃ k : Slot, k.val < 8 ∧ contact r i.ballX i.ballY k := by
  have h (k : Slot) : (slotBlock k).flag = .isCollision1 ↔ k.val < 8 := by simp [slotBlock]
  simp only [← h]
  exact wires_flag_iff held r i .isCollision1

theorem wires_isCollision2_iff : (wires held r i).isCollision2 = true ↔ ∃ k : Slot, 8 ≤ k.val ∧ contact r i.ballX i.ballY k := by
  have h (k : Slot) : (slotBlock k).flag = .isCollision2 ↔ 8 ≤ k.val := by simp [slotBlock]
  simp only [← h]
  exact wires_flag_iff held r i .isCollision2

/-- Any of the four lists commits all slots. -/
theorem write_assign {as : List (Ref × Ref)} (h : Complete as) :
    r.write (assign (wires held r i).pos as r.read) = commit r i := by
  rw [assign_complete h]
  unfold Regs.write commit
  congr 1
  · funext k
    exact congrArg Point.x (wires_point held r i k)
  · funext k
    exact congrArg Point.y (wires_point held r i k)

/-- The text is the machine with sixteen slots. -/
theorem ffText_eq (rising : Bool) : ffText held rising i r = ff rising i r := by
  have e1 : (wires held r i).isCollision1 = isCollision1 r i.ballX i.ballY := by
    rw [Bool.eq_iff_iff, wires_isCollision1_iff, isCollision1, decide_eq_true_eq]
  have e2 : (wires held r i).isCollision2 = isCollision2 r i.ballX i.ballY := by
    rw [Bool.eq_iff_iff, wires_isCollision2_iff, isCollision2, decide_eq_true_eq]
  unfold ffText ff
  simp only [e1, e2, write_assign held r i (lists_complete commitGrow (by simp)),
    write_assign held r i (lists_complete commitShrink (by simp)),
    write_assign held r i (lists_complete commitStart (by simp)),
    write_assign held r i (lists_complete commitMove (by simp))]

end

/-- **Only touched foods move.** From any state: at a frame edge without `Reset` the slots in contact take the random
pair of the edge and the others stay, the flags say which half of the slots is touched, and off the frame
edge no slot moves. -/
theorem only_touched_move (held : Ref → BitVec 10) (s : EdgeReg Regs) {i : In} (hr : i.reset = false) :
    (s.rising i.frameClk = true → ∀ k,
      (¬ contact s.regs i.ballX i.ballY k → ((textMachine held).next s i).regs.pos k = s.regs.pos k) ∧
      (contact s.regs i.ballX i.ballY k → ((textMachine held).next s i).regs.pos k = spawn i.randomx i.randomy k)) ∧
    ((wires held s.regs i).isCollision1 = true ↔ ∃ k : Slot, k.val < 8 ∧ contact s.regs i.ballX i.ballY k) ∧
    ((wires held s.regs i).isCollision2 = true ↔ ∃ k : Slot, 8 ≤ k.val ∧ contact s.regs i.ballX i.ballY k) ∧
    (s.rising i.frameClk = false → ∀ k, ((textMachine held).next s i).regs.pos k = s.regs.pos k) := by
  have e : ((textMachine held).next s i).regs = ff (s.rising i.frameClk) i s.regs := ffText_eq held s.regs i _
  refine ⟨fun hf k => ?_, wires_isCollision1_iff held s.regs i, wires_isCollision2_iff held s.regs i, fun hf k => ?_⟩
  · have hp := ff_relocates hr s.regs k
    rw [e, hf]
    refine ⟨fun hc => ?_, fun hc => ?_⟩
    · rwa [if_neg (mt mem_touched.1 hc)] at hp
    · rwa [if_pos (mem_touched.2 hc)] at hp
  · rw [e, hf, ff_hold hr]

/-- A frame edge with the player on the first food: the second stays. -/
theorem only_touched_move_first : ((textMachine fun _ => 0).next resetState ⟨false, true, 150, 300, 7, 9, false⟩).regs.pos 1 =
    ⟨400, 89⟩ :=
  ((only_touched_move (fun _ => 0) resetState (i := ⟨false, true, 150, 300, 7, 9, false⟩) rfl).1 (by decide) 1).1 (by decide)

end Lab8.RandomBall
