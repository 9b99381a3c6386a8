/-
Words whose low bits are masked.

The low `n` bits of a word number what is inside a block of `2^n`, and the others the block.
[`block`] clears the low bits and [`last`] sets them; the last word of a block is the first one
plus `2^n - 1`, and no carry leaves the low bits ([`block_add_low`], [`toNat_block_add_lt`]).
-/
import Mathlib.Algebra.Group.Nat.Defs
import Mathlib.Tactic.SplitIfs

set_option autoImplicit false

namespace LoadBalancer.Mask

variable {w n : ℕ}

/-- The word with the low `n` bits set. -/
def low (w n : ℕ) : BitVec w := BitVec.ofNat w (2 ^ n - 1)

/-- A word with the low `n` bits cleared. -/
def block (x : BitVec w) (n : ℕ) : BitVec w := x &&& ~~~low w n

/-- A word with the low `n` bits set. -/
def last (x : BitVec w) (n : ℕ) : BitVec w := x ||| low w n

theorem getLsbD_low (w n i : ℕ) : (low w n).getLsbD i = (decide (i < w) && decide (i < n)) := by
  rw [low, BitVec.getLsbD_ofNat, Nat.testBit_two_pow_sub_one]

/-- The bits of the last word. -/
theorem getLsbD_last (x : BitVec w) (n : ℕ) {i : ℕ} (hi : i < w) :
    (last x n).getLsbD i = if i < n then true else x.getLsbD i := by
  rw [last, BitVec.getLsbD_or, getLsbD_low, decide_eq_true hi, Bool.true_and]
  split_ifs with hin
  · rw [decide_eq_true hin, Bool.or_true]
  · rw [decide_eq_false hin, Bool.or_false]

/-- The first word of a block has none of the low bits. -/
theorem block_and_low (x : BitVec w) (n : ℕ) : block x n &&& low w n = 0#w := by
  have hnone : ~~~low w n &&& low w n = 0#w := by
    rw [BitVec.and_comm]
    exact BitVec.and_not_self (low w n)
  rw [block, BitVec.and_assoc, hnone, BitVec.and_zero]

theorem block_or_low (x : BitVec w) (n : ℕ) : block x n ||| low w n = last x n := by
  apply BitVec.eq_of_getLsbD_eq
  intro i hi
  rw [last, block, BitVec.getLsbD_or, BitVec.getLsbD_or, BitVec.getLsbD_and, BitVec.getLsbD_not,
    decide_eq_true hi, Bool.true_and]
  cases (low w n).getLsbD i with
  | false => rw [Bool.not_false, Bool.and_true]
  | true => rw [Bool.or_true, Bool.or_true]

/-- **The last word of a block is the first one and the low bits.** -/
theorem block_add_low (x : BitVec w) (n : ℕ) : block x n + low w n = last x n := by
  rw [BitVec.add_eq_or_of_and_eq_zero _ _ (block_and_low x n), block_or_low]

/-- **There is no carry.** -/
theorem toNat_block_add_lt (x : BitVec w) (hn : n ≤ w) : (block x n).toNat + (2 ^ n - 1) < 2 ^ w := by
  have hpow : 2 ^ n ≤ 2 ^ w := Nat.pow_le_pow_right (by decide) hn
  have hpos : 0 < 2 ^ n := Nat.two_pow_pos n
  have hlow : (low w n).toNat = 2 ^ n - 1 := by
    rw [low, BitVec.toNat_ofNat, Nat.mod_eq_of_lt (by omega)]
  have hle : (block x n).toNat ≤ (~~~low w n).toNat := by
    rw [block, BitVec.toNat_and]
    exact Nat.and_le_right
  rw [BitVec.toNat_not, hlow] at hle
  omega

end LoadBalancer.Mask
