import Mathlib.Order.Fin.Basic
import Mathlib.Tactic.Ring
import Lab8.Gamestate
/-!
# The score display (lab8.sv:365-448)

`score` goes to four `HexDriver`s, a nibble each, so it has to be decimal in hexadecimal digits. A chain of
comparisons sees to that, one a value from 10 on. It is right up to 28; then `16'h001e` stands where `16'h001d`
belongs (lab8.sv:414), and after 39 it ends (`decimal_iff`).

| here | there |
| --- | --- |
| `decimal` | the chain (lab8.sv:376-437) |
| `score`   | `score` (lab8.sv:365-443), `escore` (:60) |
| `hex`     | `HEX0` to `HEX3` (lab8.sv:445-448) |
-/

namespace Lab8.Score

open Gamestate

def decimal (score : BitVec 16) : BitVec 16 :=
  if score = 0x000A then 0x0010
  else if score = 0x000B then 0x0011
  else if score = 0x000C then 0x0012
  else if score = 0x000D then 0x0013
  else if score = 0x000E then 0x0014
  else if score = 0x000F then 0x0015
  else if score = 0x0010 then 0x0016
  else if score = 0x0011 then 0x0017
  else if score = 0x0012 then 0x0018
  else if score = 0x0013 then 0x0019
  else if score = 0x0014 then 0x0020
  else if score = 0x0015 then 0x0021
  else if score = 0x0016 then 0x0022
  else if score = 0x0017 then 0x0023
  else if score = 0x0018 then 0x0024
  else if score = 0x0019 then 0x0025
  else if score = 0x001A then 0x0026
  else if score = 0x001B then 0x0027
  else if score = 0x001C then 0x0028
  else if score = 0x001E then 0x0029
  else if score = 0x001D then 0x0030
  else if score = 0x001E then 0x0031
  else if score = 0x001F then 0x0032
  else if score = 0x0020 then 0x0033
  else if score = 0x0021 then 0x0034
  else if score = 0x0022 then 0x0035
  else if score = 0x0023 then 0x0036
  else if score = 0x0024 then 0x0037
  else if score = 0x0025 then 0x0038
  else if score = 0x0026 then 0x0039
  else if score = 0x0027 then 0x0040
  else score

def escore (escore1 escore2 escore3 : BitVec 16) : BitVec 16 := escore1 + escore2 + escore3

def score (s : State) (escore1 escore2 escore3 rscore : BitVec 16) : BitVec 16 :=
  if startSignal s then 0
  else if ingameSignal s then decimal (escore escore1 escore2 escore3 + rscore)
  else 0x8888

/-- `HexDriver` (HexDriver.sv:7-24). -/
def hexDriver (in0 : BitVec 4) : BitVec 7 :=
  #v[0b1000000, 0b1111001, 0b0100100, 0b0110000, 0b0011001, 0b0010010, 0b0000010, 0b1111000,
    0b0000000, 0b0010000, 0b0001000, 0b0000011, 0b1000110, 0b0100001, 0b0000110, 0b0001110][in0.toFin]

/-- The nibble that `HEXk` shows, `HEX3` the most significant. -/
def nibble (score : BitVec 16) (k : Fin 4) : BitVec 4 := score.extractLsb' (4 * k) 4

def hex (score : BitVec 16) (k : Fin 4) : BitVec 7 := hexDriver (nibble score k)

def digit (t k : ℕ) : ℕ := t / 10 ^ k % 10

/-- The nibbles are the decimal digits of `t`. -/
def Decimal (score : BitVec 16) (t : ℕ) : Prop := ∀ k : Fin 4, (nibble score k).toNat = digit t k

instance (score : BitVec 16) (t : ℕ) : Decidable (Decimal score t) := inferInstanceAs (Decidable (∀ _, _))

/-! ## What is shown -/

theorem hexDriver_injective : Function.Injective hexDriver := by
  unfold Function.Injective
  decide

theorem digit_lt (t k : ℕ) : digit t k < 10 := Nat.mod_lt _ (by decide)

/-- The segments show the digits of `t` exactly when the nibbles are its digits. -/
theorem hex_iff (score : BitVec 16) (t : ℕ) :
    (∀ k : Fin 4, hex score k = hexDriver (BitVec.ofNat 4 (digit t k))) ↔ Decimal score t := by
  refine forall_congr' fun k => ?_
  have hd := digit_lt t k
  unfold hex
  rw [hexDriver_injective.eq_iff, ← BitVec.toNat_inj, BitVec.toNat_ofNat, Nat.mod_eq_of_lt (by omega)]

theorem toNat_nibble (score : BitVec 16) (k : Fin 4) : (nibble score k).toNat = score.toNat / 16 ^ k.val % 16 := by
  unfold nibble
  rw [BitVec.extractLsb'_toNat, Nat.shiftRight_eq_div_pow, pow_mul]
  rfl

/-- Past the end of the chain the sum goes out as it is. -/
theorem decimal_of_ge {score : BitVec 16} (h : 40 ≤ score.toNat) : decimal score = score := by
  have hne (c : BitVec 16) (hc : c.toNat < 40) : ¬ score = c := by
    rintro rfl
    omega
  unfold decimal
  simp (disch := decide) only [hne, if_false]

theorem sum_digits {t : ℕ} (h : t ≤ 9999) :
    digit t 0 + 10 * digit t 1 + 100 * digit t 2 + 1000 * digit t 3 = t := by
  change t / 1 % 10 + 10 * (t / 10 % 10) + 100 * (t / 100 % 10) + 1000 * (t / 1000 % 10) = t
  omega

theorem sum_nibbles (score : BitVec 16) : (nibble score 0).toNat + 16 * (nibble score 1).toNat +
    256 * (nibble score 2).toNat + 4096 * (nibble score 3).toNat = score.toNat := by
  have hs := score.isLt
  simp only [toNat_nibble]
  change score.toNat / 1 % 16 + 16 * (score.toNat / 16 % 16) + 256 * (score.toNat / 256 % 16) +
    4096 * (score.toNat / 4096 % 16) = score.toNat
  omega

/-- The hexadecimal digits of a number from 10 on are not its decimal digits: each has the smaller weight in
decimal. -/
theorem not_decimal_of_ge {score : BitVec 16} (h : 10 ≤ score.toNat) (h' : score.toNat ≤ 9999) :
    ¬ Decimal score score.toNat := by
  intro hd
  have hdec := sum_digits h'
  have hhex := sum_nibbles score
  have h0 := digit_lt score.toNat 0
  rw [hd 0, hd 1, hd 2, hd 3] at hhex
  change digit _ 0 + 16 * digit _ 1 + 256 * digit _ 2 + 4096 * digit _ 3 = _ at hhex
  omega

/-- The rows of the chain. -/
theorem decimal_row_iff {t : ℕ} (h : t < 40) : Decimal (decimal (BitVec.ofNat 16 t)) t ↔ t ≤ 28 := by
  revert t
  decide +kernel

theorem decimal_chain_iff (s : BitVec 16) (h : s.toNat ≤ 9999) : Decimal (decimal s) s.toNat ↔ s.toNat ≤ 28 := by
  by_cases hs : s.toNat < 40
  · have he := decimal_row_iff hs
    rwa [BitVec.ofNat_toNat, BitVec.setWidth_eq] at he
  · rw [decimal_of_ge (by omega)]
    exact iff_of_false (not_decimal_of_ge (by omega) h) (by omega)

/-- **The score display.** In a game the nibbles are the digits of the total exactly up to 28, and so are the digits on
the segments. -/
theorem decimal_iff (escore1 escore2 escore3 rscore : BitVec 16)
    (h : escore1.toNat + escore2.toNat + escore3.toNat + rscore.toNat ≤ 9999) :
    (Decimal (score .ingame escore1 escore2 escore3 rscore)
        (escore1.toNat + escore2.toNat + escore3.toNat + rscore.toNat) ↔
      escore1.toNat + escore2.toNat + escore3.toNat + rscore.toNat ≤ 28) ∧
    ((∀ k : Fin 4, hex (score .ingame escore1 escore2 escore3 rscore) k = hexDriver
        (BitVec.ofNat 4 (digit (escore1.toNat + escore2.toNat + escore3.toNat + rscore.toNat) k))) ↔
      escore1.toNat + escore2.toNat + escore3.toNat + rscore.toNat ≤ 28) := by
  have e : (escore escore1 escore2 escore3 + rscore).toNat =
      escore1.toNat + escore2.toNat + escore3.toNat + rscore.toNat := by
    unfold escore
    simp only [BitVec.toNat_add]
    omega
  have hs : score .ingame escore1 escore2 escore3 rscore = decimal (escore escore1 escore2 escore3 + rscore) := rfl
  rw [hex_iff, hs, ← e, and_self]
  exact decimal_chain_iff _ (by omega)

/-- A score of 29 is shown as 30. -/
theorem display_wrong : ¬ ∀ escore1 escore2 escore3 rscore : BitVec 16,
    escore1.toNat + escore2.toNat + escore3.toNat + rscore.toNat ≤ 9999 →
    Decimal (score .ingame escore1 escore2 escore3 rscore)
      (escore1.toNat + escore2.toNat + escore3.toNat + rscore.toNat) := by
  intro h
  have hd := h 0 0 0 29 (by decide)
  revert hd
  decide

theorem decimal_iff_twelve : (Decimal (score .ingame 3 6 0 3) 12 ↔ 12 ≤ 28) ∧
    ((∀ k : Fin 4, hex (score .ingame 3 6 0 3) k = hexDriver (BitVec.ofNat 4 (digit 12 k))) ↔ 12 ≤ 28) :=
  decimal_iff 3 6 0 3 (by decide)

end Lab8.Score
