import Lab8.EnemyContact
/-!
# One enemy, three copies

`EnemyBall.ff` takes what the copies of `enemy_ball.sv` differ in from an `Enemy`. Here are the three texts
themselves, literals and all, and what they agree on: everything the combinational block drives is one
function of the radius, the starting place, the bounds and the speed at equal centres (`Params`), and so is
every register update but one. The `start_signal` branch clears the X motion in the first copy, both in the
second, the Y motion in the third, and that is not a matter of parameters (`copies_agree_iff`).

| here | there |
| --- | --- |
| `EnemyBall1`, `EnemyBall2`, `EnemyBall3` | the bodies of the three modules |
| `Params`, `Params.next` | the step function that the three would share |
-/

namespace Lab8.EnemyBall

/-! ## The three texts -/

namespace EnemyBall1

/-- The `always_comb` (enemy_ball.sv:114-246), the chase at :147-194, the flight at :195-241. -/
def comb (r : Regs) (X Y size : BitVec 10) : Comb :=
  let d : Comb := ⟨r.xPos + r.xMotion, r.yPos + r.yMotion, ⟨r.xMotion, r.yMotion⟩, false, false⟩
  if r.yPos + r.size ≥ 800 then { d with motionIn := ⟨r.xMotion, ~~~step + 1⟩ }
  else if r.yPos ≤ 0 + r.size then { d with motionIn := ⟨r.xMotion, step⟩ }
  else if r.xPos + r.size ≥ 1000 then { d with motionIn := ⟨~~~step + 1, r.yMotion⟩ }
  else if r.xPos ≤ 0 + r.size then { d with motionIn := ⟨step, r.yMotion⟩ }
  else if Word.sqDist32 r.xPos r.yPos X Y ≤ (6 + size.setWidth 32) * (6 + size.setWidth 32) then
    if size.toNat > 6 then { d with xPosIn := 511, yPosIn := 511, isCollision := true }
    else { d with gameover := true }
  else if size.toNat < 6 then
    { d with motionIn :=
      if X > r.xPos then
        if Y > r.yPos then ⟨step, step⟩
        else if Y < r.yPos then ⟨step, ~~~step + 1⟩
        else ⟨step, 0⟩
      else if X < r.xPos then
        if Y > r.yPos then ⟨~~~step + 1, step⟩
        else if Y < r.yPos then ⟨~~~step + 1, ~~~step + 1⟩
        else ⟨~~~step + 1, 0⟩
      else
        if Y > r.yPos then ⟨0, step⟩
        else if Y < r.yPos then ⟨0, ~~~step + 1⟩
        else ⟨4, 4⟩ }
  else if size.toNat ≥ 6 then
    { d with motionIn :=
      if X > r.xPos then
        if Y > r.yPos then ⟨~~~step + 1, ~~~step + 1⟩
        else if Y < r.yPos then ⟨~~~step + 1, step⟩
        else ⟨~~~step + 1, 0⟩
      else if X < r.xPos then
        if Y > r.yPos then ⟨step, ~~~step + 1⟩
        else if Y < r.yPos then ⟨step, step⟩
        else ⟨step, 0⟩
      else
        if Y > r.yPos then ⟨0, ~~~step + 1⟩
        else if Y < r.yPos then ⟨0, step⟩
        else ⟨4, 4⟩ }
  else d

/-- The second `always_ff` (enemy_ball.sv:68-110). -/
def ff (rising : Bool) (i : In) (r : Regs) : Regs :=
  let c := comb r i.X i.Y i.size
  if i.reset then ⟨2, 2, 0, 0, 6, 0⟩
  else if rising && c.isCollision then ⟨c.xPosIn, c.yPosIn, c.motionIn.x, c.motionIn.y, r.size, r.escore + 3⟩
  else if rising && i.startSignal then ⟨2, 2, 0, r.yMotion, r.size, 0⟩
  else if rising then ⟨c.xPosIn, c.yPosIn, c.motionIn.x, c.motionIn.y, r.size, r.escore⟩
  else r

/-- `is_eball` (:248-251). -/
def isEball (r : Regs) (drawX drawY : BitVec 10) : Bool :=
  (Word.sqDist32 drawX drawY r.xPos r.yPos).sle (r.size.setWidth 32 * r.size.setWidth 32)

end EnemyBall1

namespace EnemyBall2

/-- The `always_comb` (enemy_ball.sv:391-522), the chase at :423-470, the flight at :471-517. -/
def comb (r : Regs) (X Y size : BitVec 10) : Comb :=
  let d : Comb := ⟨r.xPos + r.xMotion, r.yPos + r.yMotion, ⟨r.xMotion, r.yMotion⟩, false, false⟩
  if r.yPos + r.size ≥ 800 then { d with motionIn := ⟨r.xMotion, ~~~step + 1⟩ }
  else if r.yPos ≤ 0 + r.size then { d with motionIn := ⟨r.xMotion, step⟩ }
  else if r.xPos + r.size ≥ 100 then { d with motionIn := ⟨~~~step + 1, r.yMotion⟩ }
  else if r.xPos ≤ 0 + r.size then { d with motionIn := ⟨step, r.yMotion⟩ }
  else if Word.sqDist32 r.xPos r.yPos X Y ≤ (7 + size.setWidth 32) * (7 + size.setWidth 32) then
    if size.toNat > 7 then { d with xPosIn := 511, yPosIn := 511, isCollision := true }
    else { d with gameover := true }
  else if size.toNat < 7 then
    { d with motionIn :=
      if X > r.xPos then
        if Y > r.yPos then ⟨step, step⟩
        else if Y < r.yPos then ⟨step, ~~~step + 1⟩
        else ⟨step, 0⟩
      else if X < r.xPos then
        if Y > r.yPos then ⟨~~~step + 1, step⟩
        else if Y < r.yPos then ⟨~~~step + 1, ~~~step + 1⟩
        else ⟨~~~step + 1, 0⟩
      else
        if Y > r.yPos then ⟨0, step⟩
        else if Y < r.yPos then ⟨0, ~~~step + 1⟩
        else ⟨3, 3⟩ }
  else if size.toNat ≥ 7 then
    { d with motionIn :=
      if X > r.xPos then
        if Y > r.yPos then ⟨~~~step + 1, ~~~step + 1⟩
        else if Y < r.yPos then ⟨~~~step + 1, step⟩
        else ⟨~~~step + 1, 0⟩
      else if X < r.xPos then
        if Y > r.yPos then ⟨step, ~~~step + 1⟩
        else if Y < r.yPos then ⟨step, step⟩
        else ⟨step, 0⟩
      else
        if Y > r.yPos then ⟨0, ~~~step + 1⟩
        else if Y < r.yPos then ⟨0, step⟩
        else ⟨3, 3⟩ }
  else d

/-- The second `always_ff` (enemy_ball.sv:346-387). -/
def ff (rising : Bool) (i : In) (r : Regs) : Regs :=
  let c := comb r i.X i.Y i.size
  if i.reset then ⟨600, 400, 0, 0, 7, 0⟩
  else if rising && c.isCollision then ⟨c.xPosIn, c.yPosIn, c.motionIn.x, c.motionIn.y, r.size, r.escore + 3⟩
  else if rising && i.startSignal then ⟨600, 400, 0, 0, r.size, 0⟩
  else if rising then ⟨c.xPosIn, c.yPosIn, c.motionIn.x, c.motionIn.y, r.size, r.escore⟩
  else r

/-- `is_eball` (:524-527). -/
def isEball (r : Regs) (drawX drawY : BitVec 10) : Bool :=
  (Word.sqDist32 drawX drawY r.xPos r.yPos).sle (r.size.setWidth 32 * r.size.setWidth 32)

end EnemyBall2

namespace EnemyBall3

/-- The `always_comb` (enemy_ball.sv:663-794), the chase at :695-742, the flight at :743-789. -/
def comb (r : Regs) (X Y size : BitVec 10) : Comb :=
  let d : Comb := ⟨r.xPos + r.xMotion, r.yPos + r.yMotion, ⟨r.xMotion, r.yMotion⟩, false, false⟩
  if r.yPos + r.size ≥ 800 then { d with motionIn := ⟨r.xMotion, ~~~step + 1⟩ }
  else if r.yPos ≤ 0 + r.size then { d with motionIn := ⟨r.xMotion, step⟩ }
  else if r.xPos + r.size ≥ 1000 then { d with motionIn := ⟨~~~step + 1, r.yMotion⟩ }
  else if r.xPos ≤ 0 + r.size then { d with motionIn := ⟨step, r.yMotion⟩ }
  else if Word.sqDist32 r.xPos r.yPos X Y ≤ (8 + size.setWidth 32) * (8 + size.setWidth 32) then
    if size.toNat > 8 then { d with xPosIn := 511, yPosIn := 511, isCollision := true }
    else { d with gameover := true }
  else if size.toNat < 8 then
    { d with motionIn :=
      if X > r.xPos then
        if Y > r.yPos then ⟨step, step⟩
        else if Y < r.yPos then ⟨step, ~~~step + 1⟩
        else ⟨step, 0⟩
      else if X < r.xPos then
        if Y > r.yPos then ⟨~~~step + 1, step⟩
        else if Y < r.yPos then ⟨~~~step + 1, ~~~step + 1⟩
        else ⟨~~~step + 1, 0⟩
      else
        if Y > r.yPos then ⟨0, step⟩
        else if Y < r.yPos then ⟨0, ~~~step + 1⟩
        else ⟨5, 5⟩ }
  else if size.toNat ≥ 8 then
    { d with motionIn :=
      if X > r.xPos then
        if Y > r.yPos then ⟨~~~step + 1, ~~~step + 1⟩
        else if Y < r.yPos then ⟨~~~step + 1, step⟩
        else ⟨~~~step + 1, 0⟩
      else if X < r.xPos then
        if Y > r.yPos then ⟨step, ~~~step + 1⟩
        else if Y < r.yPos then ⟨step, step⟩
        else ⟨step, 0⟩
      else
        if Y > r.yPos then ⟨0, ~~~step + 1⟩
        else if Y < r.yPos then ⟨0, step⟩
        else ⟨5, 5⟩ }
  else d

/-- The second `always_ff` (enemy_ball.sv:617-659). -/
def ff (rising : Bool) (i : In) (r : Regs) : Regs :=
  let c := comb r i.X i.Y i.size
  if i.reset then ⟨800, 0, 0, 0, 8, 0⟩
  else if rising && c.isCollision then ⟨c.xPosIn, c.yPosIn, c.motionIn.x, c.motionIn.y, r.size, r.escore + 3⟩
  else if rising && i.startSignal then ⟨800, 0, r.xMotion, 0, r.size, 0⟩
  else if rising then ⟨c.xPosIn, c.yPosIn, c.motionIn.x, c.motionIn.y, r.size, r.escore⟩
  else r

/-- `is_eball` (:796-799). -/
def isEball (r : Regs) (drawX drawY : BitVec 10) : Bool :=
  (Word.sqDist32 drawX drawY r.xPos r.yPos).sle (r.size.setWidth 32 * r.size.setWidth 32)

end EnemyBall3

/-! ## The parameters -/

/-- The parameters of a copy. -/
structure Params where
  radius : ℕ
  xCenter : BitVec 10
  yCenter : BitVec 10
  xMax : BitVec 10
  yMax : BitVec 10
  equalSpeed : BitVec 10

/-- The enemy with these parameters whose `start_signal` branch leaves the motions `m`. -/
def Params.enemy (p : Params) (m : Motion) : Enemy where
  radius := p.radius
  xMin := 0
  xMax := p.xMax
  yMin := 0
  yMax := p.yMax
  xCenter := p.xCenter
  yCenter := p.yCenter
  equalSpeed := p.equalSpeed
  startMotion := fun _ => m

/-- The next state; `m` is what the `start_signal` branch leaves in the motion registers. -/
def Params.next (p : Params) (m : Motion) (rising : Bool) (i : In) (r : Regs) : Regs :=
  ff (p.enemy m) rising i r

/-- The combinational outputs do not depend on the `start_signal` branch. -/
def Params.comb (p : Params) (r : Regs) (X Y size : BitVec 10) : Comb :=
  EnemyBall.comb (p.enemy ⟨0, 0⟩) r X Y size

/-- A module with the parameters it is written with. -/
structure Copy where
  params : Params
  ff : Bool → In → Regs → Regs
  comb : Regs → BitVec 10 → BitVec 10 → BitVec 10 → Comb
  isEball : Regs → BitVec 10 → BitVec 10 → Bool

def copy1 : Copy := ⟨⟨6, 2, 2, 1000, 800, 4⟩, EnemyBall1.ff, EnemyBall1.comb, EnemyBall1.isEball⟩
def copy2 : Copy := ⟨⟨7, 600, 400, 100, 800, 3⟩, EnemyBall2.ff, EnemyBall2.comb, EnemyBall2.isEball⟩
def copy3 : Copy := ⟨⟨8, 800, 0, 1000, 800, 5⟩, EnemyBall3.ff, EnemyBall3.comb, EnemyBall3.isEball⟩

def copies : List Copy := [copy1, copy2, copy3]

/-- At this clock the copy is the parametric machine, next state and outputs, if the `start_signal` branch
leaves `m`. -/
def Copy.Follows (c : Copy) (m : Motion) (rising : Bool) (i : In) (r : Regs) : Prop :=
  c.ff rising i r = c.params.next m rising i r ∧
    (c.comb r i.X i.Y i.size).gameover = (c.params.comb r i.X i.Y i.size).gameover ∧
    (c.comb r i.X i.Y i.size).isCollision = (c.params.comb r i.X i.Y i.size).isCollision ∧
    ∀ drawX drawY, c.isEball r drawX drawY = EnemyBall.isEball r drawX drawY

/-- The clock takes the `start_signal` branch of the copy. -/
def Copy.Starts (c : Copy) (rising : Bool) (i : In) (r : Regs) : Prop :=
  i.reset = false ∧ rising = true ∧ i.startSignal = true ∧ (c.comb r i.X i.Y i.size).isCollision = false

/-! ## Where they agree -/

/-- Replacing what the `start_signal` branch leaves is seen at the clocks that take it. -/
theorem ff_startMotion_iff (E : Enemy) (m : Motion) (b : Bool) (i : In) (r : Regs) :
    ff E b i r = ff { E with startMotion := fun _ => m } b i r ↔
      (i.reset = false ∧ b = true ∧ i.startSignal = true ∧ (comb E r i.X i.Y i.size).isCollision = false →
        E.startMotion ⟨r.xMotion, r.yMotion⟩ = m) := by
  have hc : comb { E with startMotion := fun _ => m } r i.X i.Y i.size = comb E r i.X i.Y i.size := rfl
  have hi : init { E with startMotion := fun _ => m } = init E := rfl
  unfold ff
  simp only [hc, hi]
  cases i.reset with
  | true => simp
  | false =>
    cases b with
    | false => simp
    | true =>
      cases (comb E r i.X i.Y i.size).isCollision with
      | true => simp
      | false =>
        cases i.startSignal with
        | false => simp
        | true =>
          obtain ⟨mx, my⟩ := m
          simp only [Bool.and_self, Bool.and_false, Bool.false_eq_true, if_false, if_true, and_self,
            true_imp_iff, recentre, Regs.mk.injEq, true_and, and_true]
          generalize E.startMotion ⟨r.xMotion, r.yMotion⟩ = n
          obtain ⟨nx, ny⟩ := n
          exact (Motion.mk.injEq nx ny mx my).symm.to_iff

section
variable (m : Motion) (b : Bool) (i : In) (r : Regs)

/-- `enemy_ball1` zeroes the X motion only (:94-95). -/
theorem copy1_follows_iff : copy1.Follows m b i r ↔ (copy1.Starts b i r → ⟨0, r.yMotion⟩ = m) :=
  have h := ff_startMotion_iff enemyBall1 m b i r
  ⟨fun hf => h.1 hf.1, fun hs => ⟨h.2 hs, rfl, rfl, fun _ _ => rfl⟩⟩

/-- `enemy_ball2` zeroes both (:371-372). -/
theorem copy2_follows_iff : copy2.Follows m b i r ↔ (copy2.Starts b i r → ⟨0, 0⟩ = m) :=
  have h := ff_startMotion_iff enemyBall2 m b i r
  ⟨fun hf => h.1 hf.1, fun hs => ⟨h.2 hs, rfl, rfl, fun _ _ => rfl⟩⟩

/-- `enemy_ball3` zeroes the Y motion only (:644-645). -/
theorem copy3_follows_iff : copy3.Follows m b i r ↔ (copy3.Starts b i r → ⟨r.xMotion, 0⟩ = m) :=
  have h := ff_startMotion_iff enemyBall3 m b i r
  ⟨fun hf => h.1 hf.1, fun hs => ⟨h.2 hs, rfl, rfl, fun _ _ => rfl⟩⟩

end

/-- No two copies take their `start_signal` branches with a motion that only one of them clears. -/
def StartsCompatible (b : Bool) (i : In) (r : Regs) : Prop :=
  (copy1.Starts b i r → copy2.Starts b i r → r.yMotion = 0) ∧
    (copy2.Starts b i r → copy3.Starts b i r → r.xMotion = 0) ∧
    (copy1.Starts b i r → copy3.Starts b i r → r.xMotion = 0 ∧ r.yMotion = 0)

theorem StartsCompatible.of_follows {m : Motion} {b : Bool} {i : In} {r : Regs}
    (h : ∀ c ∈ copies, c.Follows m b i r) : StartsCompatible b i r := by
  simp only [copies, List.forall_mem_cons, List.not_mem_nil, false_imp_iff, implies_true, and_true,
    copy1_follows_iff, copy2_follows_iff, copy3_follows_iff] at h
  obtain ⟨h1, h2, h3⟩ := h
  refine ⟨fun s1 s2 => ?_, fun s2 s3 => ?_, fun s1 s3 => ?_⟩
  · exact (Motion.mk.inj ((h1 s1).trans (h2 s2).symm)).2
  · exact (Motion.mk.inj ((h3 s3).trans (h2 s2).symm)).1
  · obtain ⟨hx, hy⟩ := Motion.mk.inj ((h1 s1).trans (h3 s3).symm)
    exact ⟨hx.symm, hy⟩

/-- **One machine.** At a clock the three copies are one step function at their own parameters, whatever its
`start_signal` branch does, exactly when no two of them restart with motions they do not both clear. -/
theorem copies_agree_iff (b : Bool) (i : In) (r : Regs) :
    (∃ m : Motion, ∀ c ∈ copies, c.Follows m b i r) ↔ StartsCompatible b i r := by
  refine ⟨fun ⟨m, h⟩ => StartsCompatible.of_follows h, ?_⟩
  simp only [copies, List.forall_mem_cons, List.not_mem_nil, false_imp_iff, implies_true, and_true,
    copy1_follows_iff, copy2_follows_iff, copy3_follows_iff]
  rintro ⟨h12, h23, h13⟩
  by_cases s1 : copy1.Starts b i r
  · refine ⟨⟨0, r.yMotion⟩, fun _ => rfl, fun s2 => ?_, fun s3 => ?_⟩
    · rw [h12 s1 s2]
    · rw [(h13 s1 s3).1, (h13 s1 s3).2]
  · by_cases s3 : copy3.Starts b i r
    · refine ⟨⟨r.xMotion, 0⟩, fun s => absurd s s1, fun s2 => ?_, fun _ => rfl⟩
      rw [h23 s2 s3]
    · exact ⟨⟨0, 0⟩, fun s => absurd s s1, fun _ => rfl, fun s => absurd s s3⟩

/-- A start pulse on a moving enemy: the first copy keeps the Y motion, the second clears it. -/
theorem copies_drift : ¬ ∃ f : Bool → In → Regs → Motion, ∀ c ∈ copies, ∀ b i r, c.Follows (f b i r) b i r := by
  rintro ⟨f, h⟩
  have hc := StartsCompatible.of_follows fun c hc =>
    h c hc true ⟨false, true, 0, 0, 5, true⟩ ⟨100, 100, 1, 1, 6, 0⟩
  have hy : (1 : BitVec 10) = 0 := hc.1 (by unfold Copy.Starts; decide) (by unfold Copy.Starts; decide)
  exact absurd hy (by decide)

end Lab8.EnemyBall
