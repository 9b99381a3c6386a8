/-
`Mult` of `mipssim.cc` leaves the product in two words.

The loop adds `b`, doubled again and again, at the bits of `a`, and stops at the last of them.
Its sum is the product modulo `2^64` ([`value_multLoop`]), which the product of two words is below.
A signed product is that of the magnitudes, negated by words: also the magnitude of the least
`int`, which as an `int` is its own negative, is right as an `unsigned`.
-/
import LoadBalancer.Lib.DoubleWord
import LoadBalancer.NachOS.MipsSim

set_option autoImplicit false

namespace LoadBalancer.NachOS

open LoadBalancer.DoubleWord
open Function (update)

/-- The two words of a product, as one of 64 bits. -/
def joined (hiLo : Word × Word) : BitVec 64 := hiLo.1 ++ hiLo.2

theorem toNat_joined (hiLo : Word × Word) : (joined hiLo).toNat = value hiLo.1 hiLo.2 :=
  toNat_append hiLo.1 hiLo.2

/-! ## The bits of `a` -/

theorem and_one_ne_zero_iff (a : Word) : a &&& 1 ≠ 0 ↔ a.toNat % 2 = 1 := by
  have hand : (a &&& 1).toNat = a.toNat % 2 := by
    rw [BitVec.toNat_and]
    exact Nat.and_one_is_mod _
  rw [ne_eq, ← BitVec.toNat_inj, hand]
  show ¬ a.toNat % 2 = 0 ↔ _
  omega

/-- The sign of an `int` is its high bit. -/
theorem and_SIGN_BIT_eq_zero_iff (a : Word) : a &&& 0x80000000 = 0 ↔ a.msb = false := by
  have hand : a &&& 0x80000000 = if a.getLsbD 31 then 0x80000000 else 0 :=
    BitVec.and_twoPow a 31
  have hmsb : a.msb = a.getLsbD 31 := BitVec.msb_eq_getLsbD_last a
  rw [hand, hmsb]
  cases a.getLsbD 31 with
  | false => decide
  | true => decide

/-- No bit but the low one is left. -/
theorem and_rest_eq_zero_iff (a : Word) : a &&& 0xfffffffe = 0 ↔ a.toNat < 2 := by
  have hsplit : a = (a &&& 0xfffffffe) ||| (a &&& 1) := by
    rw [← BitVec.and_or_distrib_left]
    exact (BitVec.and_allOnes (x := a)).symm
  have hone : (a &&& 1).toNat < 2 := by
    rw [BitVec.toNat_and]
    exact Nat.lt_of_le_of_lt Nat.and_le_right (by decide)
  constructor
  · intro h
    rw [h] at hsplit
    rw [hsplit]
    exact (congrArg BitVec.toNat (BitVec.zero_or (x := a &&& 1))).trans_lt hone
  · intro h
    obtain rfl | rfl : a = 0 ∨ a = 1 := by
      rw [← BitVec.toNat_inj, ← BitVec.toNat_inj]
      show a.toNat = 0 ∨ a.toNat = 1
      omega
    · rfl
    · rfl

/-- The shift of an `int` moves its low bits down, whatever enters above them. -/
theorem toNat_sshiftRight_one_mod (a : Word) {n : ℕ} (hn : n ≤ 31) :
    (a.sshiftRight 1).toNat % 2 ^ n = a.toNat % 2 ^ (n + 1) / 2 := by
  have ha := a.isLt
  have hdvd : 2 ^ n ∣ 2147483648 := Nat.pow_dvd_pow 2 hn
  have hhalf : a.toNat % 2 ^ (n + 1) / 2 = a.toNat / 2 % 2 ^ n := by
    rw [Nat.pow_succ', Nat.mod_mul_right_div_self]
  rw [hhalf]
  cases hmsb : a.msb with
  | false => rw [BitVec.toNat_sshiftRight_of_msb_false hmsb, Nat.shiftRight_eq_div_pow, Nat.pow_one]
  | true =>
      have htop : 2 ^ 32 - 1 - (2 ^ 32 - 1 - a.toNat) >>> 1 = a.toNat / 2 + 2147483648 := by
        rw [Nat.shiftRight_eq_div_pow]
        omega
      rw [BitVec.toNat_sshiftRight_of_msb_true hmsb, htop]
      obtain ⟨k, hk⟩ := hdvd
      rw [hk, Nat.add_mul_mod_self_left]

/-! ## The loop -/

theorem double_eq (bHi bLo : Word) :
    double bHi bLo
      = (if bLo &&& 0x80000000 ≠ 0 then (bHi <<< 1) ||| 1 else bHi <<< 1, bLo <<< 1) := by
  unfold double
  cases hmsb : bLo.msb with
  | false =>
      rw [if_neg (not_not.mpr ((and_SIGN_BIT_eq_zero_iff bLo).mpr hmsb))]
      rfl
  | true =>
      have hne : bLo &&& 0x80000000 ≠ 0 := by
        rw [ne_eq, and_SIGN_BIT_eq_zero_iff, hmsb]
        decide
      rw [if_pos hne]
      rfl

/-- **The loop**: what it has added is the product of `b` with the bits of `a` that are left. -/
theorem value_multLoop (n : ℕ) (hn : n ≤ 32) (a bHi bLo hi lo : Word) :
    value (multLoop n a (bHi, bLo) (hi, lo)).1 (multLoop n a (bHi, bLo) (hi, lo)).2
      ≡ value hi lo + a.toNat % 2 ^ n * value bHi bLo [MOD 2 ^ 32 * 2 ^ 32] := by
  induction n generalizing a bHi bLo hi lo with
  | zero =>
      rw [multLoop, Nat.pow_zero, Nat.mod_one, Nat.zero_mul, Nat.add_zero]
  | succ n ih =>
      have hparity : a.toNat % 2 ^ (n + 1) % 2 = a.toNat % 2 :=
        Nat.mod_mod_of_dvd _ (Dvd.intro_left (2 ^ n) rfl)
      -- what the turns behind this one add to a sum
      have hrest (sum : Word × Word) :
          value (multLoop n (a.sshiftRight 1) (double bHi bLo) sum).1
              (multLoop n (a.sshiftRight 1) (double bHi bLo) sum).2
            ≡ value sum.1 sum.2 + a.toNat % 2 ^ (n + 1) / 2 * (2 * value bHi bLo)
              [MOD 2 ^ 32 * 2 ^ 32] := by
        obtain ⟨hi, lo⟩ := sum
        refine (ih (by omega) _ _ _ hi lo).trans (Nat.ModEq.add_left _ ?_)
        rw [toNat_sshiftRight_one_mod a (by omega)]
        exact (value_double bHi bLo (by decide)).mul_left _
      rw [double_eq] at hrest
      rw [multLoop]
      dsimp only
      by_cases hodd : a &&& 1 ≠ 0
      · have hone := (and_one_ne_zero_iff a).mp hodd
        have hsum : value (add hi lo bHi bLo).1 (add hi lo bHi bLo).2
            ≡ value hi lo + value bHi bLo [MOD 2 ^ 32 * 2 ^ 32] := value_add hi lo bHi bLo
        rw [if_pos hodd]
        by_cases hlast : a &&& 0xfffffffe = 0
        · have ha : a.toNat = 1 := by
            have := (and_rest_eq_zero_iff a).mp hlast
            omega
          rw [if_pos ⟨hodd, hlast⟩, ha, Nat.mod_eq_of_lt (Nat.one_lt_two_pow (Nat.succ_ne_zero n)),
            Nat.one_mul]
          exact hsum
        · rw [if_neg fun h => hlast h.2]
          refine (hrest (add hi lo bHi bLo)).trans ((hsum.add_right _).trans ?_)
          have hbits : a.toNat % 2 ^ (n + 1) = a.toNat % 2 ^ (n + 1) / 2 * 2 + 1 := by omega
          rw [Nat.add_assoc, ← Nat.mul_assoc, Nat.add_comm (value bHi bLo), ← Nat.succ_mul,
            Nat.succ_eq_add_one, ← hbits]
      · have heven : a.toNat % 2 = 0 := by
          have := mt (and_one_ne_zero_iff a).mpr hodd
          omega
        rw [if_neg hodd, if_neg fun h => hodd h.1]
        refine (hrest (hi, lo)).trans ?_
        have hbits : a.toNat % 2 ^ (n + 1) = a.toNat % 2 ^ (n + 1) / 2 * 2 := by omega
        rw [← Nat.mul_assoc, ← hbits]

/-- All 32 turns, from nothing. -/
theorem value_multLoop_start (a b : Word) :
    value (multLoop 32 a (0, b) (0, 0)).1 (multLoop 32 a (0, b) (0, 0)).2
      = a.toNat * b.toNat := by
  have hstart := value_multLoop 32 (Nat.le_refl 32) a 0 b 0 0
  have hb : value (0 : Word) b = b.toNat := by
    show 0 * 2 ^ 32 + b.toNat = b.toNat
    rw [Nat.zero_mul, Nat.zero_add]
  have hzero : value (0 : Word) 0 = 0 := value_zero
  rw [hb, hzero, Nat.zero_add, Nat.mod_eq_of_lt a.isLt] at hstart
  have hlt : a.toNat * b.toNat < 2 ^ 32 * 2 ^ 32 := Nat.mul_lt_mul'' a.isLt b.isLt
  exact Nat.ModEq.eq_of_lt_of_lt hstart (value_lt _ _) hlt

/-! ## The product -/

/-- **`Mult` without signs is exact.** -/
theorem toNat_Mult (a b : Word) : (joined (Mult a b false)).toNat = a.toNat * b.toNat := by
  rw [toNat_joined, Mult]
  by_cases hzero : a = 0 ∨ b = 0
  · rw [if_pos hzero]
    have hproduct : a.toNat * b.toNat = 0 := by
      rcases hzero with rfl | rfl
      · exact Nat.zero_mul _
      · exact Nat.mul_zero _
    rw [hproduct]
    exact value_zero
  · rw [if_neg hzero]
    exact value_multLoop_start a b

/-- The magnitude of an `int`, as an `unsigned`. -/
theorem toNat_magnitude (a : Word) : (if a.slt 0 then -a else a).toNat = a.toInt.natAbs := by
  have ha := a.isLt
  have hslt : a.slt 0 = a.msb := BitVec.slt_zero_eq_msb
  rw [hslt]
  cases hmsb : a.msb with
  | false =>
      rw [if_neg Bool.false_ne_true, BitVec.toInt_eq_toNat_of_msb hmsb, Int.natAbs_natCast]
  | true =>
      have hge : 2 ^ 32 ≤ 2 * a.toNat := BitVec.msb_eq_true_iff_two_mul_ge.mp hmsb
      rw [if_pos rfl, BitVec.toNat_neg, BitVec.toInt_eq_toNat_cond, if_neg (by omega)]
      omega

/-- An `int` and its sign. -/
theorem toInt_eq_magnitude (a : Word) :
    a.toInt = if a.slt 0 then -(a.toInt.natAbs : ℤ) else a.toInt.natAbs := by
  have hslt : a.slt 0 = decide (a.toInt < 0) := rfl
  rw [hslt]
  by_cases h : a.toInt < 0
  · rw [if_pos (decide_eq_true h)]
    omega
  · rw [if_neg (by rw [decide_eq_false h]; decide)]
    omega

theorem natAbs_toInt_le (a : Word) : a.toInt.natAbs ≤ 2147483648 := by
  have hlow := BitVec.le_toInt a
  have hhigh := BitVec.toInt_lt (x := a)
  omega

/-- The magnitudes of two `int`s have a product that an `int` of 64 bits can hold. -/
theorem magnitudes_le (a b : Word) :
    a.toInt.natAbs * b.toInt.natAbs ≤ 2147483648 * 2147483648 :=
  Nat.mul_le_mul (natAbs_toInt_le a) (natAbs_toInt_le b)

/-- The two words of a number below `2^63`, and of its negative. -/
theorem toInt_joined {hi lo : Word} {n : ℕ} (h : value hi lo = n) (hn : n < 2 ^ 63) :
    (joined (hi, lo)).toInt = n := by
  rw [BitVec.toInt_eq_toNat_cond, toNat_joined, h, if_pos (by omega)]

theorem toInt_joined_neg {hi lo : Word} {n : ℕ} (h : value hi lo = n) (hpos : 0 < n)
    (hn : n < 2 ^ 63) : (joined (neg hi lo)).toInt = -n := by
  have hvalue : value (neg hi lo).1 (neg hi lo).2 = 2 ^ 64 - n := by
    have hlt := value_lt (neg hi lo).1 (neg hi lo).2
    have hmod : (value (neg hi lo).1 (neg hi lo).2 + n) % (2 ^ 32 * 2 ^ 32) = 0 := by
      have := value_neg hi lo
      rwa [h] at this
    omega
  rw [BitVec.toInt_eq_toNat_cond, toNat_joined, hvalue, if_neg (by omega)]
  omega

/-- **`Mult` with signs is exact.** -/
theorem toInt_Mult (a b : Word) : (joined (Mult a b true)).toInt = a.toInt * b.toInt := by
  rw [Mult]
  by_cases hzero : a = 0 ∨ b = 0
  · rw [if_pos hzero]
    have hproduct : a.toInt * b.toInt = 0 := by
      rcases hzero with rfl | rfl
      · exact Int.zero_mul _
      · exact Int.mul_zero _
    rw [hproduct]
    rfl
  · rw [if_neg hzero, toInt_eq_magnitude a, toInt_eq_magnitude b]
    rw [not_or] at hzero
    have hpos : 0 < a.toInt.natAbs * b.toInt.natAbs := by
      apply Nat.mul_pos
      · exact Int.natAbs_pos.mpr fun h => hzero.1 (BitVec.toInt_inj.mp h)
      · exact Int.natAbs_pos.mpr fun h => hzero.2 (BitVec.toInt_inj.mp h)
    have hle := magnitudes_le a b
    have hvalue := value_multLoop_start (if a.slt 0 then -a else a) (if b.slt 0 then -b else b)
    rw [toNat_magnitude, toNat_magnitude] at hvalue
    dsimp only
    rw [Bool.true_and, Bool.true_and]
    -- the product is negated when exactly one of the operands is negative
    cases ha : a.slt 0 with
    | false =>
        rw [ha] at hvalue
        cases hb : b.slt 0 with
        | false =>
            rw [hb] at hvalue
            exact (toInt_joined hvalue (by omega)).trans (Int.natCast_mul _ _)
        | true =>
            rw [hb] at hvalue
            refine (toInt_joined_neg hvalue hpos (by omega)).trans ?_
            rw [Int.natCast_mul, ← Int.mul_neg]
            rfl
    | true =>
        rw [ha] at hvalue
        cases hb : b.slt 0 with
        | false =>
            rw [hb] at hvalue
            refine (toInt_joined_neg hvalue hpos (by omega)).trans ?_
            rw [Int.natCast_mul, ← Int.neg_mul]
            rfl
        | true =>
            rw [hb] at hvalue
            refine (toInt_joined hvalue (by omega)).trans ?_
            rw [Int.natCast_mul, ← Int.neg_mul_neg]
            rfl

/-- **`MULT` and `MULTU` leave the product of their operands in `HiReg` and `LoReg`**, all 64 bits
of it and for all operands, and no other register changes. The sum of the loop is the product modulo
`2^64`, and that is larger than any product of two words. -/
theorem Instruction.product_exact (rs rt rd : Fin 32) (extra : Word) (registers : Registers) :
    (∃ r, (Instruction.mk .OP_MULT rs rt rd extra).compute registers = .ok r
      ∧ (joined (r.registers HiReg, r.registers LoReg)).toInt
        = (registers rs).toInt * (registers rt).toInt
      ∧ ∀ n, n ≠ HiReg → n ≠ LoReg → r.registers n = registers n)
    ∧ ∃ r, (Instruction.mk .OP_MULTU rs rt rd extra).compute registers = .ok r
      ∧ (joined (r.registers HiReg, r.registers LoReg)).toNat
        = (registers rs).toNat * (registers rt).toNat
      ∧ ∀ n, n ≠ HiReg → n ≠ LoReg → r.registers n = registers n := by
  have hothers (hiLo : Word × Word) (n : ℕ) (hhi : n ≠ HiReg) (hlo : n ≠ LoReg) :
      update (update registers HiReg hiLo.1) LoReg hiLo.2 n = registers n := by
    rw [Function.update_of_ne hlo, Function.update_of_ne hhi]
  have hjoined (hiLo : Word × Word) :
      joined (update (update registers HiReg hiLo.1) LoReg hiLo.2 HiReg,
        update (update registers HiReg hiLo.1) LoReg hiLo.2 LoReg) = joined hiLo := by
    rw [Function.update_self, Function.update_of_ne (by decide), Function.update_self]
  refine ⟨⟨_, rfl, ?_, hothers _⟩, ⟨_, rfl, ?_, hothers _⟩⟩
  · exact (congrArg BitVec.toInt (hjoined _)).trans (toInt_Mult _ _)
  · exact (congrArg BitVec.toNat (hjoined _)).trans (toNat_Mult _ _)

end LoadBalancer.NachOS
