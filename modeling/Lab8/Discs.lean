import Lab8.AIball
import Lab8.Ball
import Lab8.EnemyContact
import Lab8.Lib.Disc
import Lab8.RandomBall
/-!
# Discs and contact

A module that draws a disc compares a squared distance with a squared radius, and a module that looks for the
player compares one with the squared sum of two radii. Some of the comparisons are signed and some are not, and
the width comes from an `int` (the drawing) or from an unsized literal (the contact). All of them are
exact, so discs that overlap on the screen are in contact (`discs_exact`).
-/

namespace Lab8

/-- The disc of radius `r` round `(x, y)`. -/
def discAt (x y : BitVec 10) (r : ℕ) : Disc := ⟨x.toNat, y.toNat, r⟩

def Ball.disc (r : Ball.Regs) : Disc := discAt r.x.pos r.y.pos r.size.toNat
def AIball.disc (r : AIball.Regs) : Disc := discAt r.xPos r.yPos r.size.toNat
def EnemyBall.disc (r : EnemyBall.Regs) : Disc := discAt r.xPos r.yPos r.size.toNat
def RandomBall.disc (r : RandomBall.Regs) (k : RandomBall.Slot) : Disc :=
  discAt (r.xPos k) (r.yPos k) RandomBall.ballSize.toNat

/-! ## The drawn discs -/

theorem Ball.isBall_iff (r : Ball.Regs) (drawX drawY : BitVec 10) :
    Ball.isBall r drawX drawY = true ↔ (Ball.disc r).Covers drawX.toNat drawY.toNat :=
  Word.sqDist32_sle_sq_iff (by decide) _ _ _ _ _

theorem AIball.isAiball_iff (r : AIball.Regs) (drawX drawY : BitVec 10) :
    AIball.isAiball r drawX drawY = true ↔ (AIball.disc r).Covers drawX.toNat drawY.toNat := by
  unfold AIball.isAiball
  rw [decide_eq_true_eq]
  exact Word.sqDist32_le_sq_iff (by decide) _ _ _ _ _

theorem EnemyBall.isEball_iff (r : EnemyBall.Regs) (drawX drawY : BitVec 10) :
    EnemyBall.isEball r drawX drawY = true ↔ (EnemyBall.disc r).Covers drawX.toNat drawY.toNat :=
  Word.sqDist32_sle_sq_iff (by decide) _ _ _ _ _

theorem RandomBall.isRball_iff (r : RandomBall.Regs) (drawX drawY : BitVec 10) (k : RandomBall.Slot) :
    RandomBall.isRball r drawX drawY k = true ↔ (RandomBall.disc r k).Covers drawX.toNat drawY.toNat := by
  unfold RandomBall.isRball
  rw [decide_eq_true_eq]
  exact Word.sqDist32_le_sq_iff (by decide) _ _ _ _ _

/-! ## The contact tests -/

/-- A test with an unsized literal beside the size. -/
theorem meets_iff (k : ℕ) (hk : k < 2 ^ 10) (x y a b size : BitVec 10) :
    Word.sqDist32 x y a b ≤ (BitVec.ofNat 32 k + size.setWidth 32) * (BitVec.ofNat 32 k + size.setWidth 32) ↔
      (discAt x y size.toNat).Meets (discAt a b k) := by
  rw [Word.sqDist32_le_lit_iff (by decide) (by omega), Nat.add_comm]
  rfl

theorem AIball.contact_iff (r : AIball.Regs) (ballX ballY size : BitVec 10) :
    AIball.contact r ballX ballY size ↔ (discAt ballX ballY size.toNat).Meets (discAt r.xPos r.yPos 6) :=
  meets_iff 6 (by decide) _ _ _ _ _

theorem EnemyBall.contact_iff_meets {E : EnemyBall.Enemy} (hE : E ∈ EnemyBall.enemies) (r : EnemyBall.Regs)
    (X Y size : BitVec 10) :
    EnemyBall.contact E r X Y size ↔ (discAt r.xPos r.yPos E.radius).Meets (discAt X Y size.toNat) :=
  EnemyBall.contact_iff hE r X Y size

theorem RandomBall.contact_iff (r : RandomBall.Regs) (ballX ballY : BitVec 10) (k : RandomBall.Slot) :
    RandomBall.contact r ballX ballY k ↔ (discAt ballX ballY r.bSize.toNat).Meets (RandomBall.disc r k) :=
  meets_iff 4 (by decide) _ _ _ _ _

/-! ## Overlaps -/

section
variable {b : Ball.Regs} {x y : BitVec 10} (hb : Ball.isBall b x y = true)
include hb

theorem AIball.contact_of_overlap {r : AIball.Regs} (hs : r.size = 6) (h : AIball.isAiball r x y = true) :
    AIball.contact r b.x.pos b.y.pos b.size := by
  rw [AIball.contact_iff]
  rw [AIball.isAiball_iff, AIball.disc, hs] at h
  exact Disc.meets_of_covers ((Ball.isBall_iff b x y).1 hb) h

theorem EnemyBall.contact_of_overlap {E : EnemyBall.Enemy} (hE : E ∈ EnemyBall.enemies) {r : EnemyBall.Regs}
    (hs : r.size.toNat = E.radius) (h : EnemyBall.isEball r x y = true) :
    EnemyBall.contact E r b.x.pos b.y.pos b.size := by
  rw [EnemyBall.contact_iff_meets hE]
  rw [EnemyBall.isEball_iff, EnemyBall.disc, hs] at h
  exact Disc.meets_of_covers h ((Ball.isBall_iff b x y).1 hb)

theorem RandomBall.contact_of_overlap {r : RandomBall.Regs} {k : RandomBall.Slot} (hs : r.bSize = b.size)
    (h : RandomBall.isRball r x y k = true) : RandomBall.contact r b.x.pos b.y.pos k := by
  rw [RandomBall.contact_iff, hs]
  exact Disc.meets_of_covers ((Ball.isBall_iff b x y).1 hb) ((RandomBall.isRball_iff r x y k).1 h)

end

/-- **Discs and contact.** Every disc test covers exactly the pixels of its disc, every contact test holds exactly
when the two discs meet, and so it holds if the discs are drawn with those radii and share a pixel. -/
theorem discs_exact :
    ((∀ r x y, Ball.isBall r x y = true ↔ (Ball.disc r).Covers x.toNat y.toNat) ∧
      (∀ r x y, AIball.isAiball r x y = true ↔ (AIball.disc r).Covers x.toNat y.toNat) ∧
      (∀ r x y, EnemyBall.isEball r x y = true ↔ (EnemyBall.disc r).Covers x.toNat y.toNat) ∧
      (∀ r x y k, RandomBall.isRball r x y k = true ↔ (RandomBall.disc r k).Covers x.toNat y.toNat)) ∧
    ((∀ r X Y size, AIball.contact r X Y size ↔ (discAt X Y size.toNat).Meets (discAt r.xPos r.yPos 6)) ∧
      (∀ E ∈ EnemyBall.enemies, ∀ r X Y size,
        EnemyBall.contact E r X Y size ↔ (discAt r.xPos r.yPos E.radius).Meets (discAt X Y size.toNat)) ∧
      (∀ r X Y k, RandomBall.contact r X Y k ↔ (discAt X Y r.bSize.toNat).Meets (RandomBall.disc r k))) ∧
    (∀ (b : Ball.Regs) (x y : BitVec 10), Ball.isBall b x y = true →
      (∀ r, r.size = 6 → AIball.isAiball r x y = true → AIball.contact r b.x.pos b.y.pos b.size) ∧
      (∀ E ∈ EnemyBall.enemies, ∀ r, r.size.toNat = E.radius → EnemyBall.isEball r x y = true →
        EnemyBall.contact E r b.x.pos b.y.pos b.size) ∧
      (∀ r k, r.bSize = b.size → RandomBall.isRball r x y k = true → RandomBall.contact r b.x.pos b.y.pos k)) :=
  ⟨⟨Ball.isBall_iff, AIball.isAiball_iff, EnemyBall.isEball_iff, RandomBall.isRball_iff⟩,
    ⟨AIball.contact_iff, fun _ hE => EnemyBall.contact_iff_meets hE, RandomBall.contact_iff⟩,
    fun _ _ _ hb => ⟨fun _ => AIball.contact_of_overlap hb, fun _ hE _ => EnemyBall.contact_of_overlap hb hE,
      fun _ _ => RandomBall.contact_of_overlap hb⟩⟩

/-- Centres at a distance of 10, radii 5 and 6. -/
theorem discs_exact_touching : AIball.contact ⟨330, 240, 0, 1, 6⟩ Ball.init.x.pos Ball.init.y.pos Ball.init.size :=
  (discs_exact.2.2 Ball.init 324 240 (by decide)).1 ⟨330, 240, 0, 1, 6⟩ rfl (by decide)

end Lab8
