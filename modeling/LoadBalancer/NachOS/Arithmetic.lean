/-
What the arithmetic instructions of `mipssim.cc` compute, against what the architecture has them
compute.

[`Instruction.architecture`] says the latter in numbers: a sum that traps when it does not fit, a
shift as a product or a quotient by a power of two, a comparison of integers. The simulator agrees
for all operands but those of four instructions ([`Instruction.compute_iff`]): `OR` reads `rs`
twice, `SRL` and `SRLV` shift an `int`, and `DIV` leaves one quotient to the host.
-/
import Mathlib.Tactic.SplitIfs
import LoadBalancer.NachOS.Multiplication

set_option autoImplicit false

namespace LoadBalancer.NachOS

open Function (update)
open OpCode

namespace Instruction

/-! ## The architecture -/

/-- What an arithmetic instruction leaves: in one register a number that has to fit into an `int`,
or the low 32 bits of any number, or some bits; or numbers in `HiReg` and `LoReg`. -/
inductive Effect
  | exact (target : Fin 32) (value : ℤ)
  | modulo (target : Fin 32) (value : ℤ)
  | bits (target : Fin 32) (value : Word)
  | hiLo (hi lo : ℤ)

/-- The registers afterwards. -/
def Effect.compute (registers : Registers) : Effect → Except Fault Computed
  | .exact target value =>
      if -2147483648 ≤ value ∧ value < 2147483648 then
        .ok ⟨update registers target (BitVec.ofInt 32 value), registers NextPCReg + 4⟩
      else .error (.raise .OverflowException 0)
  | .modulo target value =>
      .ok ⟨update registers target (BitVec.ofInt 32 value), registers NextPCReg + 4⟩
  | .bits target value => .ok ⟨update registers target value, registers NextPCReg + 4⟩
  | .hiLo hi lo =>
      .ok ⟨update (update registers LoReg (BitVec.ofInt 32 lo)) HiReg (BitVec.ofInt 32 hi),
        registers NextPCReg + 4⟩

/-- The arithmetic instructions in numbers. A division by zero is none. -/
def architecture (instr : Instruction) (registers : Registers) : Option Effect :=
  let rs := registers instr.rs
  let rt := registers instr.rt
  let extra := instr.extra
  let low : Word := (extra.setWidth 16).setWidth 32
  match instr.opCode with
  | OP_ADD => some (.exact instr.rd (rs.toInt + rt.toInt))
  | OP_ADDI => some (.exact instr.rt (rs.toInt + extra.toInt))
  | OP_SUB => some (.exact instr.rd (rs.toInt - rt.toInt))
  | OP_ADDU => some (.modulo instr.rd (rs.toInt + rt.toInt))
  | OP_ADDIU => some (.modulo instr.rt (rs.toInt + extra.toInt))
  | OP_SUBU => some (.modulo instr.rd (rs.toInt - rt.toInt))
  | OP_AND => some (.bits instr.rd (rs &&& rt))
  | OP_OR => some (.bits instr.rd (rs ||| rt))
  | OP_XOR => some (.bits instr.rd (rs ^^^ rt))
  | OP_NOR => some (.bits instr.rd (~~~(rs ||| rt)))
  | OP_ANDI => some (.bits instr.rt (rs &&& low))
  | OP_ORI => some (.bits instr.rt (rs ||| low))
  | OP_XORI => some (.bits instr.rt (rs ^^^ low))
  | OP_LUI => some (.modulo instr.rt (extra.toInt * 65536))
  | OP_SLL => some (.modulo instr.rd (rt.toNat * 2 ^ extra.toNat : ℕ))
  | OP_SLLV => some (.modulo instr.rd (rt.toNat * 2 ^ (rs.toNat % 32) : ℕ))
  | OP_SRL => some (.modulo instr.rd (rt.toNat / 2 ^ extra.toNat : ℕ))
  | OP_SRLV => some (.modulo instr.rd (rt.toNat / 2 ^ (rs.toNat % 32) : ℕ))
  | OP_SRA => some (.modulo instr.rd (rt.toInt / (2 ^ extra.toNat : ℕ)))
  | OP_SRAV => some (.modulo instr.rd (rt.toInt / (2 ^ (rs.toNat % 32) : ℕ)))
  | OP_SLT => some (.modulo instr.rd (if rs.toInt < rt.toInt then 1 else 0))
  | OP_SLTI => some (.modulo instr.rt (if rs.toInt < extra.toInt then 1 else 0))
  | OP_SLTU => some (.modulo instr.rd (if rs.toNat < rt.toNat then 1 else 0))
  | OP_SLTIU => some (.modulo instr.rt (if rs.toNat < extra.toNat then 1 else 0))
  | OP_DIV =>
      if rt = 0 then none
      else some (.hiLo (rs.toInt.tmod rt.toInt) (rs.toInt.tdiv rt.toInt))
  | OP_DIVU =>
      if rt = 0 then none else some (.hiLo (rs.toNat % rt.toNat : ℕ) (rs.toNat / rt.toNat : ℕ))
  | _ => none

/-- The operands for which the simulator computes the same. -/
def Conforms (instr : Instruction) (registers : Registers) : Prop :=
  let rs := registers instr.rs
  let rt := registers instr.rt
  match instr.opCode with
  | OP_OR => rt &&& ~~~rs = 0
  | OP_SRL => instr.extra = 0 ∨ 0 ≤ rt.toInt
  | OP_SRLV => rs.toNat % 32 = 0 ∨ 0 ≤ rt.toInt
  | OP_DIV => ¬ (rs.toInt = -2147483648 ∧ rt.toInt = -1)
  | _ => True

end Instruction

/-! ## Sums -/

theorem and_SIGN_BIT_ne_zero_iff (a : Word) : a &&& SIGN_BIT ≠ 0 ↔ a.msb = true := by
  rw [ne_eq, show SIGN_BIT = 0x80000000 from rfl, and_SIGN_BIT_eq_zero_iff]
  rw [Bool.not_eq_false]

/-- The check of `OP_ADD`, and with the operands the other way round that of `OP_ADDI`. -/
theorem add_check_iff (a b : Word) :
    (a ^^^ b) &&& SIGN_BIT = 0 ∧ (a ^^^ (a + b)) &&& SIGN_BIT ≠ 0
      ↔ ¬ (-2147483648 ≤ a.toInt + b.toInt ∧ a.toInt + b.toInt < 2147483648) := by
  have hoverflow : a.saddOverflow b = true
      ↔ ¬ (-2147483648 ≤ a.toInt + b.toInt ∧ a.toInt + b.toInt < 2147483648) := by
    rw [BitVec.saddOverflow, Bool.or_eq_true, decide_eq_true_iff, decide_eq_true_iff]
    omega
  rw [← hoverflow, BitVec.saddOverflow_eq, and_SIGN_BIT_ne_zero_iff,
    show SIGN_BIT = 0x80000000 from rfl, and_SIGN_BIT_eq_zero_iff, BitVec.msb_xor, BitVec.msb_xor]
  cases a.msb <;> cases b.msb <;> cases (a + b).msb <;> decide

/-- The check of `OP_SUB`. -/
theorem sub_check_iff (a b : Word) :
    (a ^^^ b) &&& SIGN_BIT ≠ 0 ∧ (a ^^^ (a - b)) &&& SIGN_BIT ≠ 0
      ↔ ¬ (-2147483648 ≤ a.toInt - b.toInt ∧ a.toInt - b.toInt < 2147483648) := by
  have hoverflow : a.ssubOverflow b = true
      ↔ ¬ (-2147483648 ≤ a.toInt - b.toInt ∧ a.toInt - b.toInt < 2147483648) := by
    rw [BitVec.ssubOverflow, Bool.or_eq_true, decide_eq_true_iff, decide_eq_true_iff]
    omega
  rw [← hoverflow, BitVec.ssubOverflow_eq, and_SIGN_BIT_ne_zero_iff, and_SIGN_BIT_ne_zero_iff,
    BitVec.msb_xor, BitVec.msb_xor]
  cases a.msb <;> cases b.msb <;> cases (a - b).msb <;> decide

theorem ofInt_add (a b : Word) : BitVec.ofInt 32 (a.toInt + b.toInt) = a + b := by
  rw [BitVec.ofInt_add, BitVec.ofInt_toInt, BitVec.ofInt_toInt]

theorem ofInt_sub (a b : Word) : BitVec.ofInt 32 (a.toInt - b.toInt) = a - b := by
  apply BitVec.eq_of_toInt_eq
  rw [BitVec.toInt_ofInt, BitVec.toInt_sub]

/-! ## Shifts -/

theorem toNat_and_31 (a : Word) : (a &&& 0x1f).toNat = a.toNat % 32 := by
  rw [BitVec.toNat_and]
  exact Nat.and_two_pow_sub_one_eq_mod a.toNat 5

theorem and_low (a : Word) : a &&& 0xffff = (a.setWidth 16).setWidth 32 := by
  apply BitVec.eq_of_toNat_eq
  rw [BitVec.toNat_and, BitVec.toNat_setWidth, BitVec.toNat_setWidth]
  have hand := Nat.and_two_pow_sub_one_eq_mod a.toNat 16
  rw [Nat.mod_eq_of_lt (a := a.toNat % 2 ^ 16) (by omega)]
  exact hand

theorem ofInt_shiftLeft (a : Word) (n : ℕ) :
    BitVec.ofInt 32 (a.toNat * 2 ^ n : ℕ) = a <<< n := by
  apply BitVec.eq_of_toNat_eq
  rw [BitVec.ofInt_natCast, BitVec.toNat_ofNat, BitVec.toNat_shiftLeft, Nat.shiftLeft_eq]

theorem ofInt_mul_65536 (a : Word) : BitVec.ofInt 32 (a.toInt * 65536) = a <<< 16 := by
  rw [← ofInt_shiftLeft]
  apply BitVec.eq_of_toInt_eq
  rw [BitVec.toInt_ofInt, BitVec.toInt_ofInt, BitVec.toInt_eq_toNat_bmod]
  push_cast
  exact Int.bmod_mul_bmod

theorem ofInt_sshiftRight (a : Word) (n : ℕ) :
    BitVec.ofInt 32 (a.toInt / (2 ^ n : ℕ)) = a.sshiftRight n := by
  rw [BitVec.sshiftRight, Int.shiftRight_eq_div_pow]

/-- **A shift of an `int` where one of an `unsigned` is meant**: the same exactly when nothing is
shifted or there is no sign. -/
theorem sshiftRight_eq_iff (a : Word) (n : ℕ) :
    a.sshiftRight n = BitVec.ofInt 32 (a.toNat / 2 ^ n : ℕ) ↔ n = 0 ∨ 0 ≤ a.toInt := by
  have hdiv : (BitVec.ofInt 32 (a.toNat / 2 ^ n : ℕ)).toNat = a.toNat / 2 ^ n := by
    rw [BitVec.ofInt_natCast, BitVec.toNat_ofNat]
    exact Nat.mod_eq_of_lt (Nat.lt_of_le_of_lt (Nat.div_le_self _ _) a.isLt)
  have hsign : 0 ≤ a.toInt ↔ a.msb = false := by
    rw [← BitVec.slt_zero_eq_msb, BitVec.slt]
    show _ ↔ decide (a.toInt < 0) = false
    rw [decide_eq_false_iff_not, Int.not_lt]
  rw [← BitVec.toNat_inj, hdiv, hsign]
  cases hmsb : a.msb with
  | false =>
      rw [BitVec.toNat_sshiftRight_of_msb_false hmsb, Nat.shiftRight_eq_div_pow]
      exact iff_of_true rfl (.inr rfl)
  | true =>
      have hge : 2 ^ 32 ≤ 2 * a.toNat := BitVec.msb_eq_true_iff_two_mul_ge.mp hmsb
      have hlt := a.isLt
      rw [BitVec.toNat_sshiftRight_of_msb_true hmsb, Nat.shiftRight_eq_div_pow]
      constructor
      · intro h
        by_contra hn
        rw [not_or] at hn
        -- a sign that is kept is still there, and a quotient by two is below it
        have hquotient : a.toNat / 2 ^ n ≤ a.toNat / 2 :=
          Nat.div_le_div_left (Nat.le_self_pow hn.1 2) (by decide)
        have hrest : (2 ^ 32 - 1 - a.toNat) / 2 ^ n ≤ 2 ^ 32 - 1 - a.toNat := Nat.div_le_self _ _
        omega
      · rintro (rfl | h)
        · rw [Nat.pow_zero, Nat.div_one, Nat.div_one]
          omega
        · exact absurd h (by decide)

/-! ## The rest -/

theorem or_self_eq_or_iff (a b : Word) : a ||| a = a ||| b ↔ b &&& ~~~a = 0 := by
  rw [BitVec.or_self]
  constructor
  · intro h
    apply BitVec.eq_of_getLsbD_eq
    intro i hi
    have hbit := congrArg (fun x : Word => x.getLsbD i) h
    simp only [BitVec.getLsbD_or] at hbit
    rw [BitVec.getLsbD_and, BitVec.getLsbD_not, decide_eq_true hi, Bool.true_and]
    show _ = (0 : Word).getLsbD i
    rw [show (0 : Word) = 0#32 from rfl, BitVec.getLsbD_zero]
    revert hbit
    cases a.getLsbD i <;> cases b.getLsbD i <;> decide
  · intro h
    apply BitVec.eq_of_getLsbD_eq
    intro i hi
    have hbit := congrArg (fun x : Word => x.getLsbD i) h
    simp only [BitVec.getLsbD_and, BitVec.getLsbD_not, decide_eq_true hi, Bool.true_and] at hbit
    rw [show (0 : Word) = 0#32 from rfl, BitVec.getLsbD_zero] at hbit
    rw [BitVec.getLsbD_or]
    revert hbit
    cases a.getLsbD i <;> cases b.getLsbD i <;> decide

/-- The quotient of two `int`s, which only one pair of them lacks. -/
theorem ofInt_tdiv (a b : Word) : BitVec.ofInt 32 (a.toInt.tdiv b.toInt) = a.sdiv b := by
  apply BitVec.eq_of_toInt_eq
  rw [BitVec.toInt_ofInt, BitVec.toInt_sdiv]

theorem ofInt_tmod (a b : Word) : BitVec.ofInt 32 (a.toInt.tmod b.toInt) = a.srem b := by
  apply BitVec.eq_of_toInt_eq
  rw [BitVec.toInt_ofInt, ← BitVec.toInt_srem]
  exact BitVec.toInt_bmod_cancel _

theorem toInt_eq_min_iff (a : Word) : a.toInt = -2147483648 ↔ a = SIGN_BIT := by
  rw [← BitVec.toInt_inj]
  exact Iff.rfl

theorem toInt_eq_neg_one_iff (a : Word) : a.toInt = -1 ↔ a = -1 := by
  rw [← BitVec.toInt_inj]
  exact Iff.rfl

namespace Instruction

variable {registers : Registers} {effect : Effect}

/-- An exact sum: the simulator's check is the one for a number that does not fit. -/
theorem checked_eq_exact {check : Prop} [Decidable check] {target : Fin 32} {sum : Word} {z : ℤ}
    (hcheck : check ↔ ¬ (-2147483648 ≤ z ∧ z < 2147483648)) (hsum : BitVec.ofInt 32 z = sum) :
    (if check then .error (.raise .OverflowException 0)
      else .ok ⟨update registers target sum, registers NextPCReg + 4⟩)
      = (Effect.exact target z).compute registers := by
  rw [Effect.compute, hsum]
  by_cases h : check
  · rw [if_pos h, if_neg (hcheck.mp h)]
  · rw [if_neg h, if_pos (not_not.mp fun hz => h (hcheck.mpr hz))]

theorem modulo_eq {target : Fin 32} {value : Word} {z : ℤ} (h : BitVec.ofInt 32 z = value) :
    .ok ⟨update registers target value, registers NextPCReg + 4⟩
      = (Effect.modulo target z).compute registers := by
  rw [Effect.compute, h]

/-- Two values of one register. -/
theorem written_eq_iff {target : ℕ} {value value' pcAfter : Word} :
    (Except.ok ⟨update registers target value, pcAfter⟩ : Except Fault Computed)
      = .ok ⟨update registers target value', pcAfter⟩ ↔ value = value' := by
  rw [Except.ok.injEq, Computed.mk.injEq]
  constructor
  · intro heq
    exact Function.update_injective registers _ heq.1
  · intro heq
    exact ⟨by rw [heq], rfl⟩

/-- A comparison. -/
theorem ofInt_ite {p q : Prop} [Decidable p] [Decidable q] (h : p ↔ q) :
    BitVec.ofInt 32 (if p then 1 else 0) = if q then (1 : Word) else 0 := by
  by_cases hq : q
  · rw [if_pos hq, if_pos (h.mpr hq)]
    rfl
  · rw [if_neg hq, if_neg fun hp => hq (h.mp hp)]
    rfl

/-- **The simulator's arithmetic is the architecture's, for exactly these operands.** -/
theorem compute_iff (instr : Instruction) (registers : Registers) (effect : Effect)
    (h : instr.architecture registers = some effect) :
    instr.compute registers = effect.compute registers ↔ instr.Conforms registers := by
  obtain ⟨opCode, rs, rt, rd, extra⟩ := instr
  cases opCode with
  | OP_ADD =>
      cases h
      exact iff_of_true (checked_eq_exact (add_check_iff _ _) (ofInt_add _ _)) trivial
  | OP_ADDI =>
      cases h
      refine iff_of_true (checked_eq_exact ?_ (ofInt_add _ _)) trivial
      rw [BitVec.xor_comm, BitVec.add_comm, Int.add_comm]
      exact add_check_iff _ _
  | OP_SUB =>
      cases h
      exact iff_of_true (checked_eq_exact (sub_check_iff _ _) (ofInt_sub _ _)) trivial
  | OP_ADDU =>
      cases h
      exact iff_of_true (modulo_eq (ofInt_add _ _)) trivial
  | OP_ADDIU =>
      cases h
      exact iff_of_true (modulo_eq (ofInt_add _ _)) trivial
  | OP_SUBU =>
      cases h
      exact iff_of_true (modulo_eq (ofInt_sub _ _)) trivial
  | OP_AND | OP_XOR | OP_NOR =>
      cases h
      exact iff_of_true rfl trivial
  | OP_OR =>
      cases h
      exact written_eq_iff.trans (or_self_eq_or_iff _ _)
  | OP_ANDI | OP_ORI | OP_XORI =>
      cases h
      refine iff_of_true ?_ trivial
      rw [Effect.compute, ← and_low]
      rfl
  | OP_LUI =>
      cases h
      exact iff_of_true (modulo_eq (ofInt_mul_65536 _)) trivial
  | OP_SLL =>
      cases h
      exact iff_of_true (modulo_eq (ofInt_shiftLeft _ _)) trivial
  | OP_SLLV =>
      cases h
      refine iff_of_true (modulo_eq ?_) trivial
      rw [toNat_and_31]
      exact ofInt_shiftLeft _ _
  | OP_SRL =>
      cases h
      refine written_eq_iff.trans ((sshiftRight_eq_iff _ _).trans (or_congr_left ?_))
      exact (BitVec.toNat_inj (x := extra) (y := 0))
  | OP_SRLV =>
      cases h
      refine written_eq_iff.trans ?_
      rw [toNat_and_31]
      exact sshiftRight_eq_iff _ _
  | OP_SRA =>
      cases h
      exact iff_of_true (modulo_eq (ofInt_sshiftRight _ _)) trivial
  | OP_SRAV =>
      cases h
      refine iff_of_true (modulo_eq ?_) trivial
      rw [toNat_and_31]
      exact ofInt_sshiftRight _ _
  | OP_SLT | OP_SLTI =>
      cases h
      exact iff_of_true (modulo_eq (ofInt_ite BitVec.slt_iff_toInt_lt.symm)) trivial
  | OP_SLTU | OP_SLTIU =>
      cases h
      exact iff_of_true (modulo_eq (ofInt_ite BitVec.lt_def.symm)) trivial
  | OP_DIV =>
      obtain ⟨hzero, heq⟩ := Option.ite_none_left_eq_some.mp h
      cases heq
      dsimp only at hzero
      unfold compute Conforms Effect.compute
      dsimp only
      rw [if_neg hzero, toInt_eq_min_iff, toInt_eq_neg_one_iff, ofInt_tdiv, ofInt_tmod]
      by_cases hlast : registers rs = SIGN_BIT ∧ registers rt = -1
      · rw [if_pos hlast]
        refine iff_of_false ?_ (not_not.mpr hlast)
        intro heq
        cases heq
      · rw [if_neg hlast]
        exact iff_of_true rfl hlast
  | OP_DIVU =>
      obtain ⟨hzero, heq⟩ := Option.ite_none_left_eq_some.mp h
      cases heq
      dsimp only at hzero
      refine iff_of_true ?_ trivial
      unfold compute Effect.compute
      dsimp only
      rw [if_neg hzero, BitVec.ofInt_natCast, BitVec.ofInt_natCast, ← BitVec.toNat_udiv,
        ← BitVec.toNat_umod, BitVec.ofNat_toNat, BitVec.ofNat_toNat, BitVec.setWidth_eq,
        BitVec.setWidth_eq]
  | _ => cases h

/-- A negative number shifted right by `SRL`, which leaves `0xc0000000`. -/
theorem compute_srl :
    (Instruction.mk OP_SRL 0 1 2 1).compute (fun _ => 0x80000000)
      ≠ (Effect.modulo 2 0x40000000).compute fun _ => 0x80000000 := by
  have h := compute_iff (Instruction.mk OP_SRL 0 1 2 1) (fun _ => 0x80000000)
    (.modulo 2 0x40000000) rfl
  intro heq
  rcases h.mp heq with hextra | hsign
  · exact absurd hextra (by decide)
  · exact absurd hsign (by decide)

end Instruction

end LoadBalancer.NachOS
