/-
The instructions of the simulated processor and how a word is decoded into one (`mipssim.h`,
`Instruction::Decode` of `mipssim.cc`).

The two tables are those of the header, row by row. A decoded instruction has three register
numbers of five bits and one extra operand, which is an immediate with its sign extended, a shift
amount or a jump target.
-/
import Mathlib.Data.Nat.Notation
import Mathlib.Tactic.SplitIfs

set_option autoImplicit false

namespace LoadBalancer.NachOS

/-- `int` and `unsigned int`, as the 32 bits that they are. -/
abbrev Word := BitVec 32

/-- The `OP_` values. -/
inductive OpCode
  | OP_ADD | OP_ADDI | OP_ADDIU | OP_ADDU | OP_AND | OP_ANDI
  | OP_BEQ | OP_BGEZ | OP_BGEZAL | OP_BGTZ | OP_BLEZ | OP_BLTZ | OP_BLTZAL | OP_BNE
  | OP_DIV | OP_DIVU | OP_J | OP_JAL | OP_JALR | OP_JR
  | OP_LB | OP_LBU | OP_LH | OP_LHU | OP_LUI | OP_LW | OP_LWL | OP_LWR
  | OP_MFHI | OP_MFLO | OP_MTHI | OP_MTLO | OP_MULT | OP_MULTU
  | OP_NOR | OP_OR | OP_ORI | OP_RFE | OP_SB | OP_SH
  | OP_SLL | OP_SLLV | OP_SLT | OP_SLTI | OP_SLTIU | OP_SLTU
  | OP_SRA | OP_SRAV | OP_SRL | OP_SRLV | OP_SUB | OP_SUBU
  | OP_SW | OP_SWL | OP_SWR | OP_XOR | OP_XORI | OP_SYSCALL
  | OP_UNIMP | OP_RES
deriving DecidableEq, Repr

/-- What a row of `opTable` says about bits 31:26. -/
inductive OpField
  | SPECIAL
  | BCOND
  | op (opCode : OpCode)
deriving DecidableEq, Repr

/-- The format of an instruction. -/
inductive Format
  | IFMT
  | JFMT
  | RFMT
deriving DecidableEq, Repr

open OpCode OpField Format

/-- `opTable`. -/
def opTable : List (OpField × Format) :=
  [(SPECIAL, RFMT), (BCOND, IFMT), (op OP_J, JFMT), (op OP_JAL, JFMT),
   (op OP_BEQ, IFMT), (op OP_BNE, IFMT), (op OP_BLEZ, IFMT), (op OP_BGTZ, IFMT),
   (op OP_ADDI, IFMT), (op OP_ADDIU, IFMT), (op OP_SLTI, IFMT), (op OP_SLTIU, IFMT),
   (op OP_ANDI, IFMT), (op OP_ORI, IFMT), (op OP_XORI, IFMT), (op OP_LUI, IFMT),
   (op OP_UNIMP, IFMT), (op OP_UNIMP, IFMT), (op OP_UNIMP, IFMT), (op OP_UNIMP, IFMT),
   (op OP_RES, IFMT), (op OP_RES, IFMT), (op OP_RES, IFMT), (op OP_RES, IFMT),
   (op OP_RES, IFMT), (op OP_RES, IFMT), (op OP_RES, IFMT), (op OP_RES, IFMT),
   (op OP_RES, IFMT), (op OP_RES, IFMT), (op OP_RES, IFMT), (op OP_RES, IFMT),
   (op OP_LB, IFMT), (op OP_LH, IFMT), (op OP_LWL, IFMT), (op OP_LW, IFMT),
   (op OP_LBU, IFMT), (op OP_LHU, IFMT), (op OP_LWR, IFMT), (op OP_RES, IFMT),
   (op OP_SB, IFMT), (op OP_SH, IFMT), (op OP_SWL, IFMT), (op OP_SW, IFMT),
   (op OP_RES, IFMT), (op OP_RES, IFMT), (op OP_SWR, IFMT), (op OP_RES, IFMT),
   (op OP_UNIMP, IFMT), (op OP_UNIMP, IFMT), (op OP_UNIMP, IFMT), (op OP_UNIMP, IFMT),
   (op OP_RES, IFMT), (op OP_RES, IFMT), (op OP_RES, IFMT), (op OP_RES, IFMT),
   (op OP_UNIMP, IFMT), (op OP_UNIMP, IFMT), (op OP_UNIMP, IFMT), (op OP_UNIMP, IFMT),
   (op OP_RES, IFMT), (op OP_RES, IFMT), (op OP_RES, IFMT), (op OP_RES, IFMT)]

/-- `specialTable`. -/
def specialTable : List OpCode :=
  [OP_SLL, OP_RES, OP_SRL, OP_SRA, OP_SLLV, OP_RES, OP_SRLV, OP_SRAV,
   OP_JR, OP_JALR, OP_RES, OP_RES, OP_SYSCALL, OP_UNIMP, OP_RES, OP_RES,
   OP_MFHI, OP_MTHI, OP_MFLO, OP_MTLO, OP_RES, OP_RES, OP_RES, OP_RES,
   OP_MULT, OP_MULTU, OP_DIV, OP_DIVU, OP_RES, OP_RES, OP_RES, OP_RES,
   OP_ADD, OP_ADDU, OP_SUB, OP_SUBU, OP_AND, OP_OR, OP_XOR, OP_NOR,
   OP_RES, OP_RES, OP_SLT, OP_SLTU, OP_RES, OP_RES, OP_RES, OP_RES,
   OP_RES, OP_RES, OP_RES, OP_RES, OP_RES, OP_RES, OP_RES, OP_RES,
   OP_RES, OP_RES, OP_RES, OP_RES, OP_RES, OP_RES, OP_RES, OP_RES]

/-- `Instruction`, decoded. -/
structure Instruction where
  opCode : OpCode
  rs : Fin 32
  rt : Fin 32
  rd : Fin 32
  extra : Word
deriving DecidableEq, Repr

/-- A register number: five bits from `lowBit` on. -/
def registerField (value : Word) (lowBit : ℕ) : Fin 32 :=
  Fin.ofNat 32 ((value >>> lowBit) &&& 0x1f).toNat

/-- The extra operand of a format. -/
def extraField (value : Word) : Format → Word
  | IFMT =>
      let extra := value &&& 0xffff
      if extra &&& 0x8000 ≠ 0 then extra ||| 0xffff0000 else extra
  | RFMT => (value >>> 6) &&& 0x1f
  | JFMT => value &&& 0x3ffffff

/-- The branches that are told apart by their `rt` bits. -/
def bcondOpCode (value : Word) : OpCode :=
  let i := value &&& 0x1f0000
  if i = 0 then OP_BLTZ
  else if i = 0x10000 then OP_BGEZ
  else if i = 0x100000 then OP_BLTZAL
  else if i = 0x110000 then OP_BGEZAL
  else OP_UNIMP

/-- `Instruction::Decode`. Neither index is ever outside its table. -/
def Instruction.Decode (value : Word) : Instruction :=
  let opPtr := opTable.getD ((value >>> 26) &&& 0x3f).toNat (op OP_RES, IFMT)
  { opCode := match opPtr.1 with
      | SPECIAL => specialTable.getD (value &&& 0x3f).toNat OP_RES
      | BCOND => bcondOpCode value
      | op opCode => opCode
    rs := registerField value 21
    rt := registerField value 16
    rd := registerField value 11
    extra := extraField value opPtr.2 }

theorem length_opTable : opTable.length = 64 := rfl

theorem length_specialTable : specialTable.length = 64 := rfl

/-- What a default table access answers is in the table, or the default. -/
theorem getD_mem_or {α : Type} (table : List α) (n : ℕ) (d : α) :
    table.getD n d ∈ table ∨ table.getD n d = d := by
  rw [List.getD_eq_getElem?_getD]
  cases h : table[n]? with
  | none => exact .inr rfl
  | some a => exact .inl (List.mem_of_getElem? h)

theorem bcondOpCode_ne (value : Word) : bcondOpCode value ≠ OP_RFE := by
  unfold bcondOpCode
  dsimp only
  split_ifs
  all_goals decide

/-- No word is decoded as an `RFE`. -/
theorem Instruction.opCode_Decode_ne (value : Word) : (Decode value).opCode ≠ OP_RFE := by
  have hop : ∀ row ∈ opTable, row.1 ≠ op OP_RFE := by decide
  have hspecial : ∀ opCode ∈ specialTable, opCode ≠ OP_RFE := by decide
  unfold Decode
  dsimp only
  split
  · rcases getD_mem_or specialTable (value &&& 0x3f).toNat OP_RES with hmem | hdefault
    · exact hspecial _ hmem
    · rw [hdefault]
      decide
  · exact bcondOpCode_ne value
  · next opCode heq =>
      rcases getD_mem_or opTable ((value >>> 26) &&& 0x3f).toNat (op OP_RES, IFMT)
        with hmem | hdefault
      · intro hrfe
        exact hop _ hmem (by rw [heq, hrfe])
      · rw [hdefault] at heq
        cases heq
        decide

end LoadBalancer.NachOS
