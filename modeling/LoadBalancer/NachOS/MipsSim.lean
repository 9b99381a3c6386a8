/-
One instruction of a user program (`mipssim.cc`; `ReadMem`, `WriteMem` of `translate.cc`;
`RaiseException` of `machine.cc`; `InitRegisters` of `addrspace.cc`).

`OneInstruction` fetches, decodes, executes, applies the load that the previous instruction left
pending, and moves the program counters. The arms of its `switch` that touch no memory are
[`Instruction.compute`], the others [`Instruction.execute`]. What the memory does with an access is
a parameter ([`UserMemory`]): `Machine`, through its page table, and later a plain row of bytes.

`int`s are their 32 bits: sums and shifts drop what does not fit, as the compiled simulator does.
The quotient of the least `int` by `-1` is a signal of the host, and like a failed `ASSERT` it is
the end of Nachos.
-/
import Mathlib.Logic.Function.Basic
import LoadBalancer.NachOS.Instruction
import LoadBalancer.NachOS.Machine

set_option autoImplicit false

namespace LoadBalancer.NachOS

open Function (update)
open OpCode

/-! ## The registers -/

/-- `registers`, of which there are `NumTotalRegs`. -/
abbrev Registers := ℕ → Word

def StackReg : ℕ := 29
def R31 : ℕ := 31
def HiReg : ℕ := 32
def LoReg : ℕ := 33
def PCReg : ℕ := 34
def NextPCReg : ℕ := 35
def PrevPCReg : ℕ := 36
def LoadReg : ℕ := 37
def LoadValueReg : ℕ := 38
def BadVAddrReg : ℕ := 39
def NumTotalRegs : ℕ := 40

/-- `SIGN_BIT`. -/
def SIGN_BIT : Word := 0x80000000

/-- `IndexToAddr`. -/
def IndexToAddr (x : Word) : Word := x <<< 2

/-- `AddrSpace::InitRegisters`. -/
def InitRegisters (numPages : ℕ) : Registers :=
  update (update (update (fun _ => 0) PCReg 0) NextPCReg 4) StackReg
    (BitVec.ofNat 32 (numPages * PageSize) - 16)

/-- `DelayedLoad`. The pending register is an index like any other: outside the registers the
write is not one of theirs. -/
def DelayedLoad (nextReg nextValue : Word) (registers : Registers) : Option Registers :=
  if (registers LoadReg).toNat < NumTotalRegs then
    let registers := update registers (registers LoadReg).toNat (registers LoadValueReg)
    let registers := update registers LoadReg nextReg
    let registers := update registers LoadValueReg nextValue
    some (update registers 0 0)
  else none

/-! ## The memory -/

/-- The sizes that `ReadMem` and `WriteMem` are called with. -/
inductive Size
  | byte
  | half
  | word
deriving DecidableEq, Repr

/-- How many bytes. -/
def Size.bytes : Size → ℕ
  | byte => 1
  | half => 2
  | word => 4

/-- The value of the bytes at an address, the low one first; one byte is a `char`, with a sign. -/
def fetch (size : Size) (mem : ℕ → Byte) (a : ℕ) : Word :=
  match size with
  | .byte => (mem a).signExtend 32
  | .half => (mem (a + 1) ++ mem a).setWidth 32
  | .word => (mem (a + 3) ++ mem (a + 2) ++ mem (a + 1) ++ mem a).setWidth 32

/-- The bytes of a value, the low one first. -/
def bytesOf (size : Size) (value : Word) : List Byte :=
  match size with
  | .byte => [value.setWidth 8]
  | .half => [value.setWidth 8, (value >>> 8).setWidth 8]
  | .word =>
      [value.setWidth 8, (value >>> 8).setWidth 8, (value >>> 16).setWidth 8,
        (value >>> 24).setWidth 8]

/-- What an instruction asks of the memory. An access that is refused leaves it as it was. -/
class UserMemory (μ : Type) where
  ReadMem : Word → Size → μ → Except ExceptionType (Word × μ)
  WriteMem : Word → Size → Word → μ → Except ExceptionType μ

open UserMemory

/-- `ReadMem` and `WriteMem` of the machine. -/
instance instUserMemoryMachine : UserMemory Machine where
  ReadMem addr size m :=
    match m.Translate addr.toInt size.bytes false with
    | .error exception => .error exception
    | .ok (physicalAddress, m) => .ok (fetch size m.mainMemory physicalAddress, m)
  WriteMem addr size value m :=
    match m.Translate addr.toInt size.bytes true with
    | .error exception => .error exception
    | .ok (physicalAddress, m) =>
        .ok { m with
              mainMemory := Memory.store m.mainMemory physicalAddress (bytesOf size value) }

/-! ## Multiplication -/

/-- The loop of `Mult` from its last `n` turns on: `a` loses its low bit, `bHi` and `bLo` are
doubled, and `hi` and `lo` are the sum. -/
def multLoop : ℕ → Word → Word × Word → Word × Word → Word × Word
  | 0, _, _, (hi, lo) => (hi, lo)
  | n + 1, a, (bHi, bLo), (hi, lo) =>
      let sum :=
        if a &&& 1 ≠ 0 then
          let lo := lo + bLo
          let hi := if lo < bLo then hi + 1 else hi
          (hi + bHi, lo)
        else (hi, lo)
      if a &&& 1 ≠ 0 ∧ a &&& 0xfffffffe = 0 then sum
      else
        let bHi := bHi <<< 1
        let bHi := if bLo &&& 0x80000000 ≠ 0 then bHi ||| 1 else bHi
        multLoop n (a.sshiftRight 1) (bHi, bLo <<< 1) sum

/-- `Mult`: the high and the low word. -/
def Mult (a b : Word) (signedArith : Bool) : Word × Word :=
  if a = 0 ∨ b = 0 then (0, 0)
  else
    let aNegative := signedArith && a.slt 0
    let bNegative := signedArith && b.slt 0
    let negative := aNegative ^^ bNegative
    let a := if aNegative then -a else a
    let b := if bNegative then -b else b
    let (hi, lo) := multLoop 32 a (0, b) (0, 0)
    if negative then
      let hi := ~~~hi
      let lo := ~~~lo + 1
      (if lo = 0 then hi + 1 else hi, lo)
    else (hi, lo)

/-! ## The arms that touch no memory -/

/-- What `RaiseException` is called with by the processor. -/
inductive Trap
  | Access (exception : ExceptionType)
  | SyscallException
  | OverflowException
  | IllegalInstrException
deriving DecidableEq, Repr

/-- Why an instruction is not completed. -/
inductive Fault
  | raise (which : Trap) (badVAddr : Word)
  | abort
deriving DecidableEq, Repr

/-- The registers, and where the program goes on behind the delay slot. -/
structure Computed where
  registers : Registers
  pcAfter : Word

namespace Instruction

/-- The arms of the `switch` that touch no memory. -/
def compute (instr : Instruction) (registers : Registers) : Except Fault Computed :=
  let pcAfter := registers NextPCReg + 4
  let target := registers NextPCReg + IndexToAddr instr.extra
  let rs := registers instr.rs
  let rt := registers instr.rt
  let extra := instr.extra
  match instr.opCode with
  | OP_ADD =>
      let sum := rs + rt
      if (rs ^^^ rt) &&& SIGN_BIT = 0 ∧ (rs ^^^ sum) &&& SIGN_BIT ≠ 0 then
        .error (.raise .OverflowException 0)
      else .ok ⟨update registers instr.rd sum, pcAfter⟩
  | OP_ADDI =>
      let sum := rs + extra
      if (rs ^^^ extra) &&& SIGN_BIT = 0 ∧ (extra ^^^ sum) &&& SIGN_BIT ≠ 0 then
        .error (.raise .OverflowException 0)
      else .ok ⟨update registers instr.rt sum, pcAfter⟩
  | OP_ADDIU => .ok ⟨update registers instr.rt (rs + extra), pcAfter⟩
  | OP_ADDU => .ok ⟨update registers instr.rd (rs + rt), pcAfter⟩
  | OP_AND => .ok ⟨update registers instr.rd (rs &&& rt), pcAfter⟩
  | OP_ANDI => .ok ⟨update registers instr.rt (rs &&& (extra &&& 0xffff)), pcAfter⟩
  | OP_BEQ => .ok ⟨registers, if rs = rt then target else pcAfter⟩
  | OP_BGEZAL =>
      -- the link is written first, and `rs` may be `R31`
      let registers := update registers R31 (registers NextPCReg + 4)
      .ok ⟨registers, if registers instr.rs &&& SIGN_BIT = 0 then target else pcAfter⟩
  | OP_BGEZ => .ok ⟨registers, if rs &&& SIGN_BIT = 0 then target else pcAfter⟩
  | OP_BGTZ => .ok ⟨registers, if BitVec.slt 0 rs then target else pcAfter⟩
  | OP_BLEZ => .ok ⟨registers, if BitVec.sle rs 0 then target else pcAfter⟩
  | OP_BLTZAL =>
      let registers := update registers R31 (registers NextPCReg + 4)
      .ok ⟨registers, if registers instr.rs &&& SIGN_BIT ≠ 0 then target else pcAfter⟩
  | OP_BLTZ => .ok ⟨registers, if rs &&& SIGN_BIT ≠ 0 then target else pcAfter⟩
  | OP_BNE => .ok ⟨registers, if rs ≠ rt then target else pcAfter⟩
  | OP_DIV =>
      if rt = 0 then .ok ⟨update (update registers LoReg 0) HiReg 0, pcAfter⟩
      else if rs = SIGN_BIT ∧ rt = -1 then .error .abort
      else .ok ⟨update (update registers LoReg (rs.sdiv rt)) HiReg (rs.srem rt), pcAfter⟩
  | OP_DIVU =>
      if rt = 0 then .ok ⟨update (update registers LoReg 0) HiReg 0, pcAfter⟩
      else .ok ⟨update (update registers LoReg (rs / rt)) HiReg (rs % rt), pcAfter⟩
  | OP_JAL =>
      .ok ⟨update registers R31 (registers NextPCReg + 4),
        (pcAfter &&& 0xf0000000) ||| IndexToAddr extra⟩
  | OP_J => .ok ⟨registers, (pcAfter &&& 0xf0000000) ||| IndexToAddr extra⟩
  | OP_JALR =>
      -- the link is written first, and `rs` may be `rd`
      let registers := update registers instr.rd (registers NextPCReg + 4)
      .ok ⟨registers, registers instr.rs⟩
  | OP_JR => .ok ⟨registers, rs⟩
  | OP_LUI => .ok ⟨update registers instr.rt (extra <<< 16), pcAfter⟩
  | OP_MFHI => .ok ⟨update registers instr.rd (registers HiReg), pcAfter⟩
  | OP_MFLO => .ok ⟨update registers instr.rd (registers LoReg), pcAfter⟩
  | OP_MTHI => .ok ⟨update registers HiReg rs, pcAfter⟩
  | OP_MTLO => .ok ⟨update registers LoReg rs, pcAfter⟩
  | OP_MULT =>
      let product := Mult rs rt true
      .ok ⟨update (update registers HiReg product.1) LoReg product.2, pcAfter⟩
  | OP_MULTU =>
      let product := Mult rs rt false
      .ok ⟨update (update registers HiReg product.1) LoReg product.2, pcAfter⟩
  | OP_NOR => .ok ⟨update registers instr.rd (~~~(rs ||| rt)), pcAfter⟩
  -- both operands are `rs`
  | OP_OR => .ok ⟨update registers instr.rd (rs ||| rs), pcAfter⟩
  | OP_ORI => .ok ⟨update registers instr.rt (rs ||| (extra &&& 0xffff)), pcAfter⟩
  | OP_SLL => .ok ⟨update registers instr.rd (rt <<< extra.toNat), pcAfter⟩
  | OP_SLLV => .ok ⟨update registers instr.rd (rt <<< (rs &&& 0x1f).toNat), pcAfter⟩
  | OP_SLT => .ok ⟨update registers instr.rd (if rs.slt rt then 1 else 0), pcAfter⟩
  | OP_SLTI => .ok ⟨update registers instr.rt (if rs.slt extra then 1 else 0), pcAfter⟩
  | OP_SLTIU => .ok ⟨update registers instr.rt (if rs < extra then 1 else 0), pcAfter⟩
  | OP_SLTU => .ok ⟨update registers instr.rd (if rs < rt then 1 else 0), pcAfter⟩
  | OP_SRA => .ok ⟨update registers instr.rd (rt.sshiftRight extra.toNat), pcAfter⟩
  | OP_SRAV => .ok ⟨update registers instr.rd (rt.sshiftRight (rs &&& 0x1f).toNat), pcAfter⟩
  -- `tmp` is an `int`, and the shift keeps its sign
  | OP_SRL => .ok ⟨update registers instr.rd (rt.sshiftRight extra.toNat), pcAfter⟩
  | OP_SRLV => .ok ⟨update registers instr.rd (rt.sshiftRight (rs &&& 0x1f).toNat), pcAfter⟩
  | OP_SUB =>
      let diff := rs - rt
      if (rs ^^^ rt) &&& SIGN_BIT ≠ 0 ∧ (rs ^^^ diff) &&& SIGN_BIT ≠ 0 then
        .error (.raise .OverflowException 0)
      else .ok ⟨update registers instr.rd diff, pcAfter⟩
  | OP_SUBU => .ok ⟨update registers instr.rd (rs - rt), pcAfter⟩
  | OP_SYSCALL => .error (.raise .SyscallException 0)
  | OP_XOR => .ok ⟨update registers instr.rd (rs ^^^ rt), pcAfter⟩
  | OP_XORI => .ok ⟨update registers instr.rt (rs ^^^ (extra &&& 0xffff)), pcAfter⟩
  | OP_RES | OP_UNIMP => .error (.raise .IllegalInstrException 0)
  -- `default`, which the arms below never come to
  | OP_RFE | OP_LB | OP_LBU | OP_LH | OP_LHU | OP_LW | OP_LWL | OP_LWR | OP_SB | OP_SH | OP_SW
  | OP_SWL | OP_SWR => .error .abort

end Instruction

/-! ## The arms that do -/

/-- What an instruction leaves behind: also the load that is now pending. -/
structure Executed (μ : Type) where
  registers : Registers
  pcAfter : Word
  nextLoadReg : Word
  nextLoadValue : Word
  memory : μ

section

variable {μ : Type} [UserMemory μ]

/-- A read of the `switch`, after which the instruction goes on, or a trap. -/
def readOr {α : Type} (addr : Word) (size : Size) (memory : μ)
    (rest : Word → μ → Except (Fault × μ) α) : Except (Fault × μ) α :=
  match ReadMem addr size memory with
  | .error exception => .error (.raise (.Access exception) addr, memory)
  | .ok (value, memory) => rest value memory

/-- A write of the `switch`, after which the instruction goes on, or a trap. -/
def writeOr {α : Type} (addr : Word) (size : Size) (value : Word) (memory : μ)
    (rest : μ → Except (Fault × μ) α) : Except (Fault × μ) α :=
  match WriteMem addr size value memory with
  | .error exception => .error (.raise (.Access exception) addr, memory)
  | .ok memory => rest memory

/-- An arm that touches no memory. -/
def onlyRegisters (r : Except Fault Computed) (memory : μ) : Except (Fault × μ) (Executed μ) :=
  match r with
  | .error fault => .error (fault, memory)
  | .ok r => .ok ⟨r.registers, r.pcAfter, 0, 0, memory⟩

namespace Instruction

/-- The `switch`. -/
def execute (instr : Instruction) (registers : Registers) (memory : μ) :
    Except (Fault × μ) (Executed μ) :=
  let pcAfter := registers NextPCReg + 4
  let tmp := registers instr.rs + instr.extra
  let rt := registers instr.rt
  let rtReg := BitVec.ofNat 32 instr.rt
  match instr.opCode with
  | OP_LB | OP_LBU =>
      readOr tmp .byte memory fun value memory =>
        let value :=
          if value &&& 0x80 ≠ 0 ∧ instr.opCode = OP_LB then value ||| 0xffffff00
          else value &&& 0xff
        .ok ⟨registers, pcAfter, rtReg, value, memory⟩
  | OP_LH | OP_LHU =>
      if tmp &&& 1 ≠ 0 then .error (.raise (.Access .AddressErrorException) tmp, memory)
      else
        readOr tmp .half memory fun value memory =>
          let value :=
            if value &&& 0x8000 ≠ 0 ∧ instr.opCode = OP_LH then value ||| 0xffff0000
            else value &&& 0xffff
          .ok ⟨registers, pcAfter, rtReg, value, memory⟩
  | OP_LW =>
      if tmp &&& 3 ≠ 0 then .error (.raise (.Access .AddressErrorException) tmp, memory)
      else
        readOr tmp .word memory fun value memory =>
          .ok ⟨registers, pcAfter, rtReg, value, memory⟩
  | OP_LWL =>
      -- of the four cases of the inner `switch` the `ASSERT` leaves the first
      if tmp &&& 3 ≠ 0 then .error (.abort, memory)
      else
        readOr tmp .word memory fun value memory =>
          .ok ⟨registers, pcAfter, rtReg, value, memory⟩
  | OP_LWR =>
      if tmp &&& 3 ≠ 0 then .error (.abort, memory)
      else
        readOr tmp .word memory fun value memory =>
          let nextLoadValue :=
            if registers LoadReg = rtReg then registers LoadValueReg else rt
          .ok ⟨registers, pcAfter, rtReg,
            (nextLoadValue &&& 0xffffff00) ||| ((value.sshiftRight 24) &&& 0xff), memory⟩
  | OP_SB =>
      writeOr tmp .byte rt memory fun memory => .ok ⟨registers, pcAfter, 0, 0, memory⟩
  | OP_SH =>
      writeOr tmp .half rt memory fun memory => .ok ⟨registers, pcAfter, 0, 0, memory⟩
  | OP_SW =>
      writeOr tmp .word rt memory fun memory => .ok ⟨registers, pcAfter, 0, 0, memory⟩
  | OP_SWL =>
      if tmp &&& 3 ≠ 0 then .error (.abort, memory)
      else
        readOr tmp .word memory fun _ memory =>
          writeOr tmp .word rt memory fun memory => .ok ⟨registers, pcAfter, 0, 0, memory⟩
  | OP_SWR =>
      if tmp &&& 3 ≠ 0 then .error (.abort, memory)
      else
        readOr tmp .word memory fun value memory =>
          writeOr tmp .word ((value &&& 0xffffff) ||| (rt <<< 24)) memory fun memory =>
            .ok ⟨registers, pcAfter, 0, 0, memory⟩
  | _ => onlyRegisters (instr.compute registers) memory

end Instruction

end

/-! ## One instruction -/

/-- The registers and the memory of a user program. -/
structure Processor (μ : Type) where
  registers : Registers
  memory : μ

/-- What `OneInstruction` comes to: the next state, a call of `ExceptionHandler` with the state in
which it finds the program, or the end of Nachos. -/
inductive Outcome (μ : Type)
  | next (p : Processor μ)
  | exception (which : Trap) (p : Processor μ)
  | abort

/-- `RaiseException`, up to `ExceptionHandler`: the pending load is finished. -/
def RaiseException {μ : Type} (which : Trap) (badVAddr : Word) (p : Processor μ) : Outcome μ :=
  match DelayedLoad 0 0 (update p.registers BadVAddrReg badVAddr) with
  | none => .abort
  | some registers => .exception which ⟨registers, p.memory⟩

/-- The program counters of the next instruction. -/
def advance (pcAfter : Word) (registers : Registers) : Registers :=
  let registers := update registers PrevPCReg (registers PCReg)
  let registers := update registers PCReg (registers NextPCReg)
  update registers NextPCReg pcAfter

section

variable {μ : Type} [UserMemory μ]

/-- The instruction that a program counter points to. -/
def fetchDecode (p : Processor μ) : Except (Fault × μ) (Instruction × μ) :=
  readOr (p.registers PCReg) .word p.memory fun raw memory => .ok (.Decode raw, memory)

/-- An instruction that is not completed. -/
def onFault (registers : Registers) : Fault × μ → Outcome μ
  | (.abort, _) => .abort
  | (.raise which badVAddr, memory) => RaiseException which badVAddr ⟨registers, memory⟩

/-- The end of an instruction that is. -/
def complete (e : Executed μ) : Outcome μ :=
  match DelayedLoad e.nextLoadReg e.nextLoadValue e.registers with
  | none => .abort
  | some registers => .next ⟨advance e.pcAfter registers, e.memory⟩

/-- `OneInstruction`. -/
def OneInstruction (p : Processor μ) : Outcome μ :=
  match fetchDecode p >>= fun r => r.1.execute p.registers r.2 with
  | .error fault => onFault p.registers fault
  | .ok e => complete e

end

end LoadBalancer.NachOS
