/-
Numbers of two words, and what adding, doubling and negating them by words does.

The carry out of the low words is seen in their sum, which is then below each of them. Every
operation is a congruence modulo the square of the radix ([`value_add`], [`value_double`],
[`value_neg`]), and a double word is determined by its residue ([`value_lt`]).
-/
import Mathlib.Data.Nat.ModEq
import Mathlib.Algebra.Group.Nat.Defs
import Mathlib.Tactic.SplitIfs
import Mathlib.Tactic.Ring

set_option autoImplicit false

namespace LoadBalancer.DoubleWord

variable {w : ℕ}

/-- The number that a high and a low word stand for. -/
def value (hi lo : BitVec w) : ℕ := hi.toNat * 2 ^ w + lo.toNat

theorem value_lt (hi lo : BitVec w) : value hi lo < 2 ^ w * 2 ^ w := by
  have hhi := Nat.mul_le_mul_right (2 ^ w) (Nat.succ_le_of_lt hi.isLt)
  have hlo := lo.isLt
  rw [Nat.succ_mul] at hhi
  unfold value
  omega

@[simp] theorem value_zero : value 0#w 0#w = 0 := by
  rw [value, BitVec.toNat_zero, Nat.zero_mul]

/-- The two words in a row. -/
theorem toNat_append (hi lo : BitVec w) : (hi ++ lo).toNat = value hi lo := by
  rw [BitVec.toNat_append, ← Nat.shiftLeft_add_eq_or_of_lt lo.isLt, Nat.shiftLeft_eq]
  rfl

/-- What the high word overflows by does not count. -/
theorem high_modEq (n : ℕ) : n % 2 ^ w * 2 ^ w ≡ n * 2 ^ w [MOD 2 ^ w * 2 ^ w] :=
  (Nat.mod_modEq n (2 ^ w)).mul_right' (2 ^ w)

/-! ## Addition -/

/-- Addition: the low words, the carry, the high words. -/
def add (ahi alo bhi blo : BitVec w) : BitVec w × BitVec w :=
  let lo := alo + blo
  let hi := if lo < blo then ahi + 1#w else ahi
  (hi + bhi, lo)

/-- The sum of two words is below one of them exactly when there is a carry. -/
theorem carry_iff (a b : BitVec w) : a + b < b ↔ 2 ^ w ≤ a.toNat + b.toNat := by
  have ha := a.isLt
  have hb := b.isLt
  rw [BitVec.lt_def, BitVec.toNat_add]
  constructor
  · intro h
    by_contra hlt
    rw [Nat.mod_eq_of_lt (by omega)] at h
    omega
  · intro h
    rw [Nat.mod_eq_sub_mod h, Nat.mod_eq_of_lt (by omega)]
    omega

theorem value_add (ahi alo bhi blo : BitVec w) :
    value (add ahi alo bhi blo).1 (add ahi alo bhi blo).2
      ≡ value ahi alo + value bhi blo [MOD 2 ^ w * 2 ^ w] := by
  have halo := alo.isLt
  have hblo := blo.isLt
  unfold add value
  dsimp only
  by_cases hcarry : alo + blo < blo
  · have hge := (carry_iff alo blo).mp hcarry
    rw [if_pos hcarry, BitVec.toNat_add, BitVec.toNat_add, BitVec.toNat_add, Nat.mod_eq_sub_mod hge,
      Nat.mod_eq_of_lt (by omega : alo.toNat + blo.toNat - 2 ^ w < 2 ^ w)]
    have hone : ((ahi.toNat + (1#w).toNat) % 2 ^ w + bhi.toNat)
        ≡ ahi.toNat + 1 + bhi.toNat [MOD 2 ^ w] := by
      apply Nat.ModEq.add_right
      apply (Nat.mod_modEq _ _).trans
      apply Nat.ModEq.add_left
      rw [BitVec.toNat_ofNat]
      exact Nat.mod_modEq _ _
    calc (((ahi.toNat + (1#w).toNat) % 2 ^ w + bhi.toNat) % 2 ^ w) * 2 ^ w
            + (alo.toNat + blo.toNat - 2 ^ w)
        ≡ (ahi.toNat + 1 + bhi.toNat) * 2 ^ w + (alo.toNat + blo.toNat - 2 ^ w)
            [MOD 2 ^ w * 2 ^ w] :=
          ((high_modEq _).trans (hone.mul_right' _)).add_right _
      _ = ahi.toNat * 2 ^ w + alo.toNat + (bhi.toNat * 2 ^ w + blo.toNat) := by
          rw [Nat.add_mul, Nat.add_mul]
          omega
  · have hlt : alo.toNat + blo.toNat < 2 ^ w :=
      Nat.lt_of_not_le fun h => hcarry ((carry_iff alo blo).mpr h)
    rw [if_neg hcarry, BitVec.toNat_add, BitVec.toNat_add, Nat.mod_eq_of_lt hlt]
    calc ((ahi.toNat + bhi.toNat) % 2 ^ w) * 2 ^ w + (alo.toNat + blo.toNat)
        ≡ (ahi.toNat + bhi.toNat) * 2 ^ w + (alo.toNat + blo.toNat) [MOD 2 ^ w * 2 ^ w] :=
          (high_modEq _).add_right _
      _ = ahi.toNat * 2 ^ w + alo.toNat + (bhi.toNat * 2 ^ w + blo.toNat) := by
          rw [Nat.add_mul]
          omega

/-! ## Doubling -/

/-- Doubling: the bit that leaves the low word enters the high one. -/
def double (hi lo : BitVec w) : BitVec w × BitVec w :=
  let hi := hi <<< 1
  (if lo.msb then hi ||| 1#w else hi, lo <<< 1)

theorem toNat_shiftLeft_one_or (x : BitVec w) (hw : 0 < w) :
    ((x <<< 1) ||| 1#w).toNat = (x <<< 1).toNat + 1 := by
  have heven : (x <<< 1).toNat % 2 = 0 := by
    have hdvd : 2 ∣ 2 ^ w := dvd_pow_self 2 (by omega)
    rw [BitVec.toNat_shiftLeft, Nat.shiftLeft_eq, Nat.pow_one, Nat.mod_mod_of_dvd _ hdvd,
      Nat.mul_mod_left]
  have hone : (1#w).toNat = 1 := by
    rw [BitVec.toNat_ofNat, Nat.mod_eq_of_lt (Nat.one_lt_two_pow (by omega))]
  rw [BitVec.toNat_or, hone]
  have hdouble : (x <<< 1).toNat = ((x <<< 1).toNat / 2) <<< 1 := by
    rw [Nat.shiftLeft_eq, Nat.pow_one]
    omega
  rw [hdouble, ← Nat.shiftLeft_add_eq_or_of_lt (by decide : 1 < 2 ^ 1)]

theorem value_double (hi lo : BitVec w) (hw : 0 < w) :
    value (double hi lo).1 (double hi lo).2 ≡ 2 * value hi lo [MOD 2 ^ w * 2 ^ w] := by
  have hlo := lo.isLt
  have htwo : 2 ^ w = 2 * 2 ^ (w - 1) := by
    rw [← Nat.pow_succ', Nat.succ_eq_add_one, Nat.sub_add_cancel hw]
  have hhigh : (hi <<< 1).toNat * 2 ^ w ≡ 2 * hi.toNat * 2 ^ w [MOD 2 ^ w * 2 ^ w] := by
    rw [BitVec.toNat_shiftLeft, Nat.shiftLeft_eq, Nat.pow_one, Nat.mul_comm hi.toNat]
    exact high_modEq _
  have hlow : (lo <<< 1).toNat = 2 * lo.toNat % 2 ^ w := by
    rw [BitVec.toNat_shiftLeft, Nat.shiftLeft_eq, Nat.pow_one, Nat.mul_comm]
  unfold double value
  dsimp only
  by_cases hmsb : lo.msb = true
  · have hge : 2 ^ w ≤ 2 * lo.toNat := BitVec.msb_eq_true_iff_two_mul_ge.mp hmsb
    rw [if_pos hmsb, toNat_shiftLeft_one_or hi hw, hlow, Nat.mod_eq_sub_mod hge,
      Nat.mod_eq_of_lt (by omega), Nat.add_mul, Nat.one_mul, Nat.mul_add, ← Nat.mul_assoc]
    have hcancel : (hi <<< 1).toNat * 2 ^ w + 2 ^ w + (2 * lo.toNat - 2 ^ w)
        = (hi <<< 1).toNat * 2 ^ w + 2 * lo.toNat := by omega
    rw [hcancel]
    exact hhigh.add_right _
  · have hlt : 2 * lo.toNat < 2 ^ w :=
      BitVec.msb_eq_false_iff_two_mul_lt.mp (Bool.eq_false_iff.mpr hmsb)
    rw [if_neg hmsb, hlow, Nat.mod_eq_of_lt hlt, Nat.mul_add, ← Nat.mul_assoc]
    exact hhigh.add_right _

/-! ## Negation -/

/-- The two's complement: the carry of the low word reaches the high one when that word is
zero afterwards. -/
def neg (hi lo : BitVec w) : BitVec w × BitVec w :=
  let hi := ~~~hi
  let lo := ~~~lo + 1#w
  (if lo = 0#w then hi + 1#w else hi, lo)

theorem value_neg (hi lo : BitVec w) :
    value (neg hi lo).1 (neg hi lo).2 + value hi lo ≡ 0 [MOD 2 ^ w * 2 ^ w] := by
  have hhi := hi.isLt
  have hlo := lo.isLt
  have hpos : 0 < 2 ^ w := Nat.two_pow_pos w
  have hzero : ~~~lo + 1#w = 0#w ↔ lo.toNat = 0 := by
    rw [← BitVec.toNat_inj, ← BitVec.neg_eq_not_add, BitVec.toNat_neg, BitVec.toNat_zero]
    constructor
    · intro h
      by_contra hne
      rw [Nat.mod_eq_of_lt (by omega)] at h
      omega
    · intro h
      rw [h, Nat.sub_zero, Nat.mod_self]
  have hnot : (~~~hi).toNat = 2 ^ w - 1 - hi.toNat := BitVec.toNat_not
  have hlow : (~~~lo + 1#w).toNat = (2 ^ w - lo.toNat) % 2 ^ w := by
    rw [← BitVec.neg_eq_not_add, BitVec.toNat_neg]
  unfold neg value
  dsimp only
  by_cases h : lo.toNat = 0
  · rw [if_pos (hzero.mpr h), hlow, h, Nat.sub_zero, Nat.mod_self, Nat.add_zero, Nat.add_zero,
      ← BitVec.neg_eq_not_add, BitVec.toNat_neg]
    calc (2 ^ w - hi.toNat) % 2 ^ w * 2 ^ w + hi.toNat * 2 ^ w
        ≡ (2 ^ w - hi.toNat) * 2 ^ w + hi.toNat * 2 ^ w [MOD 2 ^ w * 2 ^ w] :=
          (high_modEq _).add_right _
      _ = 2 ^ w * 2 ^ w := by rw [← Nat.add_mul, Nat.sub_add_cancel (by omega)]
      _ ≡ 0 [MOD 2 ^ w * 2 ^ w] := Nat.modEq_zero_iff_dvd.mpr dvd_rfl
  · rw [if_neg fun hz => h (hzero.mp hz), hlow, hnot, Nat.mod_eq_of_lt (by omega)]
    have htotal : (2 ^ w - 1 - hi.toNat) * 2 ^ w + (2 ^ w - lo.toNat)
        + (hi.toNat * 2 ^ w + lo.toNat) = 2 ^ w * 2 ^ w := by
      have hsum : (2 ^ w - 1 - hi.toNat) * 2 ^ w + hi.toNat * 2 ^ w + 2 ^ w = 2 ^ w * 2 ^ w := by
        rw [← Nat.add_mul, Nat.sub_add_cancel (by omega), Nat.sub_mul, Nat.one_mul,
          Nat.sub_add_cancel (Nat.le_mul_of_pos_left _ hpos)]
      omega
    rw [htotal]
    exact Nat.modEq_zero_iff_dvd.mpr dvd_rfl

end LoadBalancer.DoubleWord
