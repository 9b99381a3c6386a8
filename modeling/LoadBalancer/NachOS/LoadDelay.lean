/-
The load delay slot of `mipssim.cc`.

A value that is loaded is in its register behind the next instruction (`DelayedLoad`), and a value
that this instruction writes there itself is overwritten. [`OneInstructionAtOnce`] is a processor
without the delay. Programs whose instructions neither read nor write the register that the
instruction before them loads cannot tell the two apart, in any run and with any answers of the
kernel in between ([`run_settled`]).
-/
import LoadBalancer.Lib.Lockstep
import LoadBalancer.NachOS.MipsSim

set_option autoImplicit false

namespace LoadBalancer.NachOS

open LoadBalancer.Transition LoadBalancer.Lockstep
open Function (update update_self update_of_ne update_comm)
open OpCode

/-! ## What an instruction reads and writes -/

namespace Instruction

/-- The general registers whose values an instruction uses. `LWR` also uses that of `rt`, but with
a pending load in it. -/
def reads (instr : Instruction) : List ℕ :=
  match instr.opCode with
  | OP_ADD | OP_ADDU | OP_AND | OP_BEQ | OP_BNE | OP_DIV | OP_DIVU | OP_MULT | OP_MULTU | OP_NOR
  | OP_SLLV | OP_SLT | OP_SLTU | OP_SRAV | OP_SRLV | OP_SUB | OP_SUBU | OP_XOR
  | OP_SB | OP_SH | OP_SW | OP_SWL | OP_SWR => [instr.rs, instr.rt]
  | OP_ADDI | OP_ADDIU | OP_ANDI | OP_ORI | OP_XORI | OP_SLTI | OP_SLTIU | OP_OR
  | OP_BGEZ | OP_BGEZAL | OP_BGTZ | OP_BLEZ | OP_BLTZ | OP_BLTZAL | OP_JR | OP_JALR
  | OP_MTHI | OP_MTLO
  | OP_LB | OP_LBU | OP_LH | OP_LHU | OP_LW | OP_LWL | OP_LWR => [instr.rs]
  | OP_SLL | OP_SRA | OP_SRL => [instr.rt]
  | OP_J | OP_JAL | OP_LUI | OP_MFHI | OP_MFLO | OP_RFE | OP_SYSCALL | OP_UNIMP | OP_RES => []

/-- The general registers that an instruction writes itself, without a delay. -/
def writes (instr : Instruction) : List ℕ :=
  match instr.opCode with
  | OP_ADD | OP_ADDU | OP_AND | OP_NOR | OP_OR | OP_XOR | OP_SUB | OP_SUBU | OP_SLT | OP_SLTU
  | OP_SLL | OP_SLLV | OP_SRA | OP_SRAV | OP_SRL | OP_SRLV | OP_MFHI | OP_MFLO | OP_JALR =>
      [instr.rd]
  | OP_ADDI | OP_ADDIU | OP_ANDI | OP_ORI | OP_XORI | OP_SLTI | OP_SLTIU | OP_LUI => [instr.rt]
  | OP_BGEZAL | OP_BLTZAL | OP_JAL => [R31]
  | _ => []

end Instruction

/-- A register with another value. -/
def Computed.update (k : ℕ) (v : Word) (c : Computed) : Computed :=
  ⟨Function.update c.registers k v, c.pcAfter⟩

section

variable {k : ℕ} {registers : Registers} {v : Word}

/-- A register written behind an update of another one. -/
theorem written_update {n : ℕ} (hn : k ≠ n) (x pcAfter : Word) :
    (Except.ok ⟨update (update registers k v) n x, pcAfter⟩ : Except Fault Computed)
      = (Except.ok ⟨update registers n x, pcAfter⟩).map (Computed.update k v) := by
  rw [update_comm hn]
  rfl

/-- Two registers. -/
theorem written_update_two {n n' : ℕ} (hn : k ≠ n) (hn' : k ≠ n') (x x' pcAfter : Word) :
    (Except.ok ⟨update (update (update registers k v) n x) n' x', pcAfter⟩ : Except Fault Computed)
      = (Except.ok ⟨update (update registers n x) n' x', pcAfter⟩).map (Computed.update k v) := by
  rw [update_comm hn, update_comm hn']
  rfl

/-- A check in front of it. -/
theorem ite_map {p : Prop} [Decidable p] {x x' y y' : Except Fault Computed}
    (hx : x = x'.map (Computed.update k v)) (hy : y = y'.map (Computed.update k v)) :
    (if p then x else y) = (if p then x' else y').map (Computed.update k v) := by
  rw [apply_ite (Except.map _), ← hx, ← hy]

end

namespace Instruction

variable {k : ℕ}

/-- **What an instruction neither reads nor writes it carries along.** -/
theorem compute_update (instr : Instruction) (registers : Registers) (v : Word)
    (hk : k < 32 ∨ k = LoadReg ∨ k = LoadValueReg) (hreads : k ∉ instr.reads)
    (hwrites : k ∉ instr.writes) :
    instr.compute (update registers k v) = (instr.compute registers).map (Computed.update k v) := by
  have hnext : NextPCReg ≠ k := by rintro rfl; revert hk; decide
  have hhi : HiReg ≠ k := by rintro rfl; revert hk; decide
  have hlo : LoReg ≠ k := by rintro rfl; revert hk; decide
  obtain ⟨opCode, rs, rt, rd, extra⟩ := instr
  cases opCode with
  | OP_ADDU | OP_AND | OP_NOR | OP_XOR | OP_SUBU | OP_SLT | OP_SLTU | OP_SLLV | OP_SRAV | OP_SRLV =>
      simp only [reads, writes, List.mem_cons, List.not_mem_nil, or_false, not_or] at hreads hwrites
      simp only [compute, update_of_ne hnext, update_of_ne (Ne.symm hreads.1),
        update_of_ne (Ne.symm hreads.2)]
      exact written_update hwrites _ _
  | OP_ADD | OP_SUB =>
      simp only [reads, writes, List.mem_cons, List.not_mem_nil, or_false, not_or] at hreads hwrites
      simp only [compute, update_of_ne hnext, update_of_ne (Ne.symm hreads.1),
        update_of_ne (Ne.symm hreads.2)]
      exact ite_map rfl (written_update hwrites _ _)
  | OP_ADDI =>
      simp only [reads, writes, List.mem_cons, List.not_mem_nil, or_false] at hreads hwrites
      simp only [compute, update_of_ne hnext, update_of_ne (Ne.symm hreads)]
      exact ite_map rfl (written_update hwrites _ _)
  | OP_ADDIU | OP_ANDI | OP_ORI | OP_XORI | OP_SLTI | OP_SLTIU | OP_OR | OP_SLL | OP_SRA | OP_SRL =>
      simp only [reads, writes, List.mem_cons, List.not_mem_nil, or_false] at hreads hwrites
      simp only [compute, update_of_ne hnext, update_of_ne (Ne.symm hreads)]
      exact written_update hwrites _ _
  | OP_LUI =>
      simp only [writes, List.mem_cons, List.not_mem_nil, or_false] at hwrites
      simp only [compute, update_of_ne hnext]
      exact written_update hwrites _ _
  | OP_MFHI | OP_MFLO =>
      simp only [writes, List.mem_cons, List.not_mem_nil, or_false] at hwrites
      simp only [compute, update_of_ne hnext, update_of_ne hhi, update_of_ne hlo]
      exact written_update hwrites _ _
  | OP_MTHI =>
      simp only [reads, List.mem_cons, List.not_mem_nil, or_false] at hreads
      simp only [compute, update_of_ne hnext, update_of_ne (Ne.symm hreads)]
      exact written_update hhi.symm _ _
  | OP_MTLO =>
      simp only [reads, List.mem_cons, List.not_mem_nil, or_false] at hreads
      simp only [compute, update_of_ne hnext, update_of_ne (Ne.symm hreads)]
      exact written_update hlo.symm _ _
  | OP_BEQ | OP_BNE =>
      simp only [reads, List.mem_cons, List.not_mem_nil, or_false, not_or] at hreads
      simp only [compute, update_of_ne hnext, update_of_ne (Ne.symm hreads.1),
        update_of_ne (Ne.symm hreads.2)]
      rfl
  | OP_BGEZ | OP_BGTZ | OP_BLEZ | OP_BLTZ | OP_JR =>
      simp only [reads, List.mem_cons, List.not_mem_nil, or_false] at hreads
      simp only [compute, update_of_ne hnext, update_of_ne (Ne.symm hreads)]
      rfl
  | OP_BGEZAL | OP_BLTZAL | OP_JALR =>
      simp only [reads, writes, List.mem_cons, List.not_mem_nil, or_false] at hreads hwrites
      simp only [compute, update_of_ne hnext, update_comm hwrites, update_of_ne (Ne.symm hreads)]
      rfl
  | OP_JAL =>
      simp only [writes, List.mem_cons, List.not_mem_nil, or_false] at hwrites
      simp only [compute, update_of_ne hnext]
      exact written_update hwrites _ _
  | OP_J =>
      simp only [compute, update_of_ne hnext]
      rfl
  | OP_DIV =>
      simp only [reads, List.mem_cons, List.not_mem_nil, or_false, not_or] at hreads
      simp only [compute, update_of_ne hnext, update_of_ne (Ne.symm hreads.1),
        update_of_ne (Ne.symm hreads.2)]
      exact ite_map (written_update_two hlo.symm hhi.symm _ _ _)
        (ite_map rfl (written_update_two hlo.symm hhi.symm _ _ _))
  | OP_DIVU =>
      simp only [reads, List.mem_cons, List.not_mem_nil, or_false, not_or] at hreads
      simp only [compute, update_of_ne hnext, update_of_ne (Ne.symm hreads.1),
        update_of_ne (Ne.symm hreads.2)]
      exact ite_map (written_update_two hlo.symm hhi.symm _ _ _)
        (written_update_two hlo.symm hhi.symm _ _ _)
  | OP_MULT | OP_MULTU =>
      simp only [reads, List.mem_cons, List.not_mem_nil, or_false, not_or] at hreads
      simp only [compute, update_of_ne hnext, update_of_ne (Ne.symm hreads.1),
        update_of_ne (Ne.symm hreads.2)]
      exact written_update_two hhi.symm hlo.symm _ _ _
  | _ => rfl

/-- General registers. -/
theorem reads_lt (instr : Instruction) : ∀ n ∈ instr.reads, n < 32 := by
  intro n hn
  have hrs := instr.rs.isLt
  have hrt := instr.rt.isLt
  unfold reads at hn
  split at hn <;> simp only [List.mem_cons, List.not_mem_nil, or_false] at hn <;> omega

theorem writes_lt (instr : Instruction) : ∀ n ∈ instr.writes, n < 32 := by
  intro n hn
  have hrt := instr.rt.isLt
  have hrd := instr.rd.isLt
  unfold writes R31 at hn
  split at hn <;> simp only [List.mem_cons, List.not_mem_nil, or_false] at hn <;> omega

/-- The pending load is none of them. -/
theorem loadReg_not_mem (hk : k = LoadReg ∨ k = LoadValueReg) (instr : Instruction) :
    k ∉ instr.reads ∧ k ∉ instr.writes := by
  have hge : ¬ k < 32 := by
    rcases hk with rfl | rfl
    · decide
    · decide
  exact ⟨fun h => hge (instr.reads_lt k h), fun h => hge (instr.writes_lt k h)⟩

/-- No instruction touches the pending load. -/
theorem compute_registers {instr : Instruction} {registers : Registers} {r : Computed}
    (h : instr.compute registers = .ok r) (hk : k = LoadReg ∨ k = LoadValueReg) :
    r.registers k = registers k := by
  obtain ⟨hreads, hwrites⟩ := loadReg_not_mem hk instr
  have hsame := instr.compute_update registers (registers k) (.inr hk) hreads hwrites
  rw [Function.update_eq_self, h] at hsame
  have hregisters := congrArg Computed.registers (Except.ok.inj hsame)
  exact (congrFun hregisters k).trans (update_self ..)

end Instruction

/-! ## The pending load -/

/-- No load is pending. -/
def noneArriving (registers : Registers) : Registers :=
  update (update registers LoadReg 0) LoadValueReg 0

/-- The registers when the pending load has arrived. -/
def landed (registers : Registers) : Registers :=
  noneArriving (update registers (registers LoadReg).toNat (registers LoadValueReg))

/-- And `R0` is zero. -/
def settled (registers : Registers) : Registers := update (landed registers) 0 0

/-- `R0` is zero and the pending load is for a general register. -/
structure Sound (registers : Registers) : Prop where
  zero : registers 0 = 0
  pending : (registers LoadReg).toNat < 32

theorem delayedLoad_eq {registers : Registers} (h : (registers LoadReg).toNat < 32)
    (nextReg nextValue : Word) :
    DelayedLoad nextReg nextValue registers
      = some (update (update (update (update registers (registers LoadReg).toNat
        (registers LoadValueReg)) LoadReg nextReg) LoadValueReg nextValue) 0 0) := by
  rw [DelayedLoad, if_pos (Nat.lt_trans h (by decide))]

/-- The new load is pending, and `R0` is zero. -/
theorem sound_delayedLoad {registers loaded : Registers} (h : (registers LoadReg).toNat < 32)
    {nextReg nextValue : Word} (hnext : nextReg.toNat < 32)
    (hloaded : DelayedLoad nextReg nextValue registers = some loaded) : Sound loaded := by
  rw [delayedLoad_eq h] at hloaded
  cases hloaded
  refine ⟨update_self .., ?_⟩
  rw [update_of_ne (by decide), update_of_ne (by decide), update_self]
  exact hnext

/-- The pending load is finished. -/
theorem delayedLoad_zero {registers : Registers} (h : (registers LoadReg).toNat < 32) :
    DelayedLoad 0 0 registers = some (settled registers) := delayedLoad_eq h 0 0

/-- With a new load pending, and that one settled, too. -/
theorem settled_delayedLoad {registers : Registers} (h : (registers LoadReg).toNat < 32)
    {nextReg nextValue : Word} (hnext : nextReg.toNat < 32) {loaded : Registers}
    (hloaded : DelayedLoad nextReg nextValue registers = some loaded) :
    settled loaded = update (update (landed registers) nextReg.toNat nextValue) 0 0 := by
  rw [delayedLoad_eq h] at hloaded
  cases hloaded
  have hload : nextReg.toNat ≠ LoadReg ∧ nextReg.toNat ≠ LoadValueReg := by
    unfold LoadReg LoadValueReg
    omega
  funext n
  by_cases hzero : n = 0
  · rw [hzero, settled, update_self, update_self]
  · rw [settled, update_of_ne hzero, update_of_ne hzero, landed, noneArriving,
      update_of_ne (by decide : LoadReg ≠ 0), update_of_ne (by decide : LoadReg ≠ LoadValueReg),
      update_self, update_of_ne (by decide : LoadValueReg ≠ 0), update_self]
    by_cases hnext' : n = nextReg.toNat
    · rw [hnext', update_of_ne hload.2, update_of_ne hload.1, update_self, update_self]
    · rw [update_of_ne hnext', landed, noneArriving]
      by_cases hvalue : n = LoadValueReg
      · rw [hvalue, update_self, update_self]
      · rw [update_of_ne hvalue, update_of_ne hvalue]
        by_cases hreg : n = LoadReg
        · rw [hreg, update_self, update_self]
        · rw [update_of_ne hreg, update_of_ne hreg, update_of_ne hnext', update_of_ne hzero,
            update_of_ne hvalue, update_of_ne hreg]

/-- The registers `r'` are `r` with the pending load arrived, whatever is in `R0`. -/
def Lands (r r' : Registers) : Prop := ∀ n, n ≠ 0 → r' n = landed r n

theorem lands_settled (r : Registers) : Lands r (settled r) := fun _ hn => update_of_ne hn ..

/-- Registers that have landed, with one load more. -/
theorem Lands.load {r r' : Registers} (h : Lands r r') (n : ℕ) (v : Word) :
    update (update r' n v) 0 0 = update (update (landed r) n v) 0 0 := by
  funext i
  by_cases hi : i = 0
  · rw [hi, update_self, update_self]
  · rw [update_of_ne hi, update_of_ne hi, Function.update_apply, Function.update_apply, h i hi]

theorem noneArriving_of_ne {r : Registers} {n : ℕ} (h : n ≠ LoadReg) (h' : n ≠ LoadValueReg) :
    noneArriving r n = r n := by
  rw [noneArriving, update_of_ne h', update_of_ne h]

/-- Registers with nothing for them pending. -/
theorem landed_zero {r : Registers} (h : (r LoadReg).toNat = 0) {n : ℕ} (hn : n ≠ 0) :
    landed r n = noneArriving r n := by
  rw [landed, h, noneArriving, noneArriving]
  by_cases hvalue : n = LoadValueReg
  · rw [hvalue, update_self, update_self]
  · rw [update_of_ne hvalue, update_of_ne hvalue]
    by_cases hreg : n = LoadReg
    · rw [hreg, update_self, update_self]
    · rw [update_of_ne hreg, update_of_ne hreg, update_of_ne hn]

namespace Sound

variable {r : Registers}

/-- Nothing is pending, or something for another register than `R0`. -/
theorem settled_eq (h : Sound r) :
    settled r = if (r LoadReg).toNat = 0 then noneArriving r else landed r := by
  have hzero : noneArriving r 0 = 0 := by
    rw [noneArriving_of_ne (by decide) (by decide)]
    exact h.zero
  funext n
  split_ifs with ht
  · by_cases hn : n = 0
    · rw [hn, hzero]
      exact update_self ..
    · rw [lands_settled r n hn, landed_zero ht hn]
  · by_cases hn : n = 0
    · rw [hn, landed, noneArriving_of_ne (by decide) (by decide), update_of_ne (Ne.symm ht), h.zero]
      exact update_self ..
    · exact lands_settled r n hn

end Sound

/-- The instruction neither reads nor writes the register for which a load is pending. -/
def Instruction.Independent (instr : Instruction) (r : Registers) : Prop :=
  (r LoadReg).toNat = 0 ∨ (r LoadReg).toNat ∉ instr.reads ∧ (r LoadReg).toNat ∉ instr.writes

namespace Instruction

variable {instr : Instruction} {r : Registers}

theorem compute_noneArriving (instr : Instruction) (r : Registers) :
    instr.compute (noneArriving r)
      = (instr.compute r).map fun c => ⟨noneArriving c.registers, c.pcAfter⟩ := by
  obtain ⟨hreads, hwrites⟩ := loadReg_not_mem (.inl rfl) instr
  obtain ⟨hreads', hwrites'⟩ := loadReg_not_mem (.inr rfl) instr
  rw [noneArriving, compute_update _ _ _ (.inr (.inr rfl)) hreads' hwrites',
    compute_update _ _ _ (.inr (.inl rfl)) hreads hwrites]
  cases instr.compute r with
  | error fault => rfl
  | ok c => rfl

/-- **An instruction that is independent of the pending load** computes the same when the load has
arrived. -/
theorem compute_settled (hr : Sound r) (hind : instr.Independent r) :
    ExceptRel Eq (fun c c' => Lands c.registers c'.registers ∧ c.pcAfter = c'.pcAfter)
      (instr.compute r) (instr.compute (settled r)) := by
  rw [hr.settled_eq]
  split_ifs with ht
  · rw [compute_noneArriving]
    cases hc : instr.compute r with
    | error fault => exact .error rfl
    | ok c =>
        refine .ok ⟨fun n hn => ?_, rfl⟩
        rw [landed_zero (by rw [compute_registers hc (.inl rfl), ht]) hn]
  · obtain ⟨hreads, hwrites⟩ := hind.resolve_left ht
    rw [landed, compute_noneArriving, compute_update _ _ _ (.inl hr.pending) hreads hwrites]
    cases hc : instr.compute r with
    | error fault => exact .error rfl
    | ok c =>
        refine .ok ⟨fun n _ => ?_, rfl⟩
        rw [landed, compute_registers hc (.inl rfl), compute_registers hc (.inr rfl)]
        rfl

end Instruction

theorem Sound.settled_of_ne {r : Registers} (h : Sound r) {n : ℕ}
    (hn : n ≠ LoadReg ∧ n ≠ LoadValueReg) (hind : (r LoadReg).toNat = 0 ∨ (r LoadReg).toNat ≠ n) :
    settled r n = r n := by
  rw [h.settled_eq]
  split_ifs with ht
  · exact noneArriving_of_ne hn.1 hn.2
  · rw [landed, noneArriving_of_ne hn.1 hn.2, update_of_ne (Ne.symm (hind.resolve_left ht))]

/-- The same, once the load has arrived. What is loaded into `R0` does not count. -/
structure LandsExecuted {μ : Type} (e e' : Executed μ) : Prop where
  registers : Lands e.registers e'.registers
  pcAfter : e.pcAfter = e'.pcAfter
  nextLoadReg : e.nextLoadReg = e'.nextLoadReg
  nextLoadValue : e.nextLoadReg = 0 ∨ e.nextLoadValue = e'.nextLoadValue
  memory : e.memory = e'.memory

section

variable {μ : Type} [UserMemory μ]

theorem readOr_same {α : Type} {A : α → α → Prop} (addr : Word) (size : Size) (memory : μ)
    {rest rest' : Word → μ → Except (Fault × μ) α}
    (h : ∀ value memory, ExceptRel Eq A (rest value memory) (rest' value memory)) :
    ExceptRel Eq A (readOr addr size memory rest) (readOr addr size memory rest') := by
  unfold readOr
  split
  · exact .error rfl
  · exact h _ _

/-- Behind a read the instruction went on. -/
theorem of_readOr {α : Type} {addr : Word} {size : Size} {memory : μ}
    {rest : Word → μ → Except (Fault × μ) α} {a : α} (h : readOr addr size memory rest = .ok a) :
    ∃ value memory', rest value memory' = .ok a := by
  unfold readOr at h
  split at h
  · cases h
  · exact ⟨_, _, h⟩

theorem of_writeOr {α : Type} {addr : Word} {size : Size} {value : Word} {memory : μ}
    {rest : μ → Except (Fault × μ) α} {a : α} (h : writeOr addr size value memory rest = .ok a) :
    ∃ memory', rest memory' = .ok a := by
  unfold writeOr at h
  split at h
  · cases h
  · exact ⟨_, h⟩

/-- A read does not end Nachos. -/
theorem abort_of_readOr {α : Type} {addr : Word} {size : Size} {memory memory' : μ}
    {rest : Word → μ → Except (Fault × μ) α}
    (h : readOr addr size memory rest = .error (.abort, memory')) :
    ∃ value memory, rest value memory = .error (.abort, memory') := by
  unfold readOr at h
  split at h
  · cases h
  · exact ⟨_, _, h⟩

theorem abort_of_writeOr {α : Type} {addr : Word} {size : Size} {value : Word} {memory memory' : μ}
    {rest : μ → Except (Fault × μ) α}
    (h : writeOr addr size value memory rest = .error (.abort, memory')) :
    ∃ memory, rest memory = .error (.abort, memory') := by
  unfold writeOr at h
  split at h
  · cases h
  · exact ⟨_, h⟩

omit [UserMemory μ] in
theorem abort_of_onlyRegisters {x : Except Fault Computed} {memory memory' : μ}
    (h : onlyRegisters x memory = .error (.abort, memory')) : x = .error .abort := by
  cases x with
  | error fault =>
      cases h
      rfl
  | ok c => cases h

omit [UserMemory μ] in
theorem of_onlyRegisters {x : Except Fault Computed} {memory : μ} {e : Executed μ}
    (h : onlyRegisters x memory = .ok e) :
    ∃ c, x = .ok c ∧ e = ⟨c.registers, c.pcAfter, 0, 0, memory⟩ := by
  cases x with
  | error fault => cases h
  | ok c =>
      cases h
      exact ⟨c, rfl, rfl⟩

theorem writeOr_same {α : Type} {A : α → α → Prop} (addr : Word) (size : Size) (value : Word)
    (memory : μ) {rest rest' : μ → Except (Fault × μ) α}
    (h : ∀ memory, ExceptRel Eq A (rest memory) (rest' memory)) :
    ExceptRel Eq A (writeOr addr size value memory rest)
      (writeOr addr size value memory rest') := by
  unfold writeOr
  split
  · exact .error rfl
  · exact h _

omit [UserMemory μ] in
theorem onlyRegisters_lands {x x' : Except Fault Computed}
    (h : ExceptRel Eq (fun c c' => Lands c.registers c'.registers ∧ c.pcAfter = c'.pcAfter) x x')
    (memory : μ) :
    ExceptRel Eq LandsExecuted (onlyRegisters x memory) (onlyRegisters x' memory) := by
  cases h with
  | error hf => exact .error (by rw [hf])
  | ok hc => exact .ok ⟨hc.1, hc.2, rfl, .inl rfl, rfl⟩

namespace Instruction

/-- The register that `LWR` completes, with a load for it pending or arrived. -/
theorem merged_settled {r : Registers} (hr : Sound r) (rt : Fin 32) (hrt : rt ≠ 0) :
    (if r LoadReg = BitVec.ofNat 32 rt then r LoadValueReg else r rt)
      = if settled r LoadReg = BitVec.ofNat 32 rt then settled r LoadValueReg
        else settled r rt := by
  have hlt := rt.isLt
  have hne : (rt : ℕ) ≠ 0 := fun h => hrt (Fin.ext h)
  have hnumber : (BitVec.ofNat 32 rt).toNat = rt :=
    (BitVec.toNat_ofNat _ _).trans (Nat.mod_eq_of_lt (by omega))
  have hnone : settled r LoadReg = 0 := by
    rw [lands_settled r _ (by decide), landed, noneArriving, update_of_ne (by decide), update_self]
  have hother : ¬ (0 : Word) = BitVec.ofNat 32 rt := by
    intro h
    rw [← h] at hnumber
    exact hne hnumber.symm
  rw [hnone, if_neg hother]
  by_cases hpending : r LoadReg = BitVec.ofNat 32 rt
  · rw [if_pos hpending, lands_settled r _ hne, landed, hpending, hnumber,
      noneArriving_of_ne (by unfold LoadReg; omega) (by unfold LoadValueReg; omega), update_self]
  · rw [if_neg hpending, hr.settled_of_ne ⟨by unfold LoadReg; omega, by unfold LoadValueReg; omega⟩]
    right
    intro heq
    apply hpending
    apply BitVec.eq_of_toNat_eq
    rw [heq, hnumber]

/-- **The `switch`**, on registers in which the pending load has arrived. -/
theorem execute_settled {instr : Instruction} {r : Registers} (hr : Sound r)
    (hind : instr.Independent r) (memory : μ) :
    ExceptRel Eq LandsExecuted (instr.execute r memory) (instr.execute (settled r) memory) := by
  have hreg {n : ℕ} (hn : n ∈ instr.reads) : settled r n = r n := by
    have hlt := instr.reads_lt n hn
    refine hr.settled_of_ne ⟨by unfold LoadReg; omega, by unfold LoadValueReg; omega⟩ ?_
    exact hind.imp id fun h heq => h.1 (heq ▸ hn)
  have hnext : settled r NextPCReg = r NextPCReg := by
    refine hr.settled_of_ne ⟨by decide, by decide⟩ (.inr ?_)
    have := hr.pending
    unfold NextPCReg
    omega
  have hregisters := compute_settled hr hind
  obtain ⟨opCode, rs, rt, rd, extra⟩ := instr
  unfold execute
  cases opCode with
  | OP_LB | OP_LBU =>
      dsimp only
      rw [hreg (List.mem_singleton_self _), hnext]
      exact readOr_same _ _ _ fun value memory => .ok ⟨lands_settled r, rfl, rfl, .inr rfl, rfl⟩
  | OP_LH | OP_LHU | OP_LW | OP_LWL =>
      dsimp only
      rw [hreg (List.mem_singleton_self _), hnext]
      split_ifs
      · exact .error rfl
      · exact readOr_same _ _ _ fun value memory => .ok ⟨lands_settled r, rfl, rfl, .inr rfl, rfl⟩
  | OP_LWR =>
      dsimp only
      rw [hreg (List.mem_singleton_self _), hnext]
      by_cases haddr : (r rs + extra) &&& 3 ≠ 0
      · rw [if_pos haddr, if_pos haddr]
        exact .error rfl
      · rw [if_neg haddr, if_neg haddr]
        refine readOr_same _ _ _ fun value memory => .ok ⟨lands_settled r, rfl, rfl, ?_, rfl⟩
        by_cases hrt : rt = 0
        · exact .inl (by rw [hrt]; rfl)
        · dsimp only
          rw [merged_settled hr rt hrt]
          exact .inr rfl
  | OP_SB | OP_SH | OP_SW =>
      dsimp only
      rw [hreg (List.mem_cons_self ..), hreg (List.mem_cons_of_mem _ (List.mem_cons_self ..)),
        hnext]
      exact writeOr_same _ _ _ _ fun memory => .ok ⟨lands_settled r, rfl, rfl, .inr rfl, rfl⟩
  | OP_SWL | OP_SWR =>
      dsimp only
      rw [hreg (List.mem_cons_self ..), hreg (List.mem_cons_of_mem _ (List.mem_cons_self ..)),
        hnext]
      split_ifs
      · exact .error rfl
      · refine readOr_same _ _ _ fun value memory => ?_
        exact writeOr_same _ _ _ _ fun memory => .ok ⟨lands_settled r, rfl, rfl, .inr rfl, rfl⟩
  | _ => exact onlyRegisters_lands hregisters memory

/-- What is pending is not touched, and what is left pending is for a general register. -/
theorem execute_pending {instr : Instruction} {r : Registers} {memory : μ} {e : Executed μ}
    (h : instr.execute r memory = .ok e) :
    e.registers LoadReg = r LoadReg ∧ e.nextLoadReg.toNat < 32 := by
  obtain ⟨opCode, rs, rt, rd, extra⟩ := instr
  have hrt : (BitVec.ofNat 32 rt).toNat < 32 := by
    have hlt := rt.isLt
    rw [BitVec.toNat_ofNat]
    omega
  unfold execute at h
  cases opCode with
  | OP_LB | OP_LBU =>
      obtain ⟨value, memory, h⟩ := of_readOr h
      cases h
      exact ⟨rfl, hrt⟩
  | OP_LH | OP_LHU | OP_LW | OP_LWL | OP_LWR =>
      dsimp only at h
      split_ifs at h
      all_goals
        obtain ⟨value, memory, h⟩ := of_readOr h
        cases h
        exact ⟨rfl, hrt⟩
  | OP_SB | OP_SH | OP_SW =>
      obtain ⟨memory, h⟩ := of_writeOr h
      cases h
      exact ⟨rfl, Nat.zero_lt_succ 31⟩
  | OP_SWL | OP_SWR =>
      dsimp only at h
      split_ifs at h
      obtain ⟨value, memory, h⟩ := of_readOr h
      obtain ⟨memory, h⟩ := of_writeOr h
      cases h
      exact ⟨rfl, Nat.zero_lt_succ 31⟩
  | _ =>
      obtain ⟨c, hc, rfl⟩ := of_onlyRegisters h
      exact ⟨compute_registers hc (.inl rfl), Nat.zero_lt_succ 31⟩

/-- The instructions at which Nachos ends. -/
def Ends (instr : Instruction) (r : Registers) : Prop :=
  match instr.opCode with
  | OP_LWL | OP_LWR | OP_SWL | OP_SWR => (r instr.rs + instr.extra) &&& 3 ≠ 0
  | OP_DIV => r instr.rs = SIGN_BIT ∧ r instr.rt = -1
  | _ => False

/-- The arms that touch no memory. -/
theorem compute_abort {opCode : OpCode} {rs rt rd : Fin 32} {extra : Word} {r : Registers}
    (h : (Instruction.mk opCode rs rt rd extra).compute r = .error .abort)
    (hop : opCode ∉ [OP_RFE, OP_LB, OP_LBU, OP_LH, OP_LHU, OP_LW, OP_LWL, OP_LWR, OP_SB, OP_SH,
      OP_SW, OP_SWL, OP_SWR]) : (Instruction.mk opCode rs rt rd extra).Ends r := by
  unfold compute at h
  cases opCode with
  | OP_DIV =>
      dsimp only at h
      split_ifs at h with hzero hlast
      exact hlast
  | OP_ADD | OP_ADDI | OP_SUB =>
      dsimp only at h
      split_ifs at h
      cases h
  | OP_DIVU =>
      dsimp only at h
      split_ifs at h
  | OP_RFE | OP_LB | OP_LBU | OP_LH | OP_LHU | OP_LW | OP_LWL | OP_LWR | OP_SB | OP_SH | OP_SW
  | OP_SWL | OP_SWR => exact absurd (by decide) hop
  | _ => cases h

/-- **Nachos ends at these and at no others.** -/
theorem execute_abort_iff (instr : Instruction) (r : Registers) (memory : μ)
    (hdecoded : instr.opCode ≠ OP_RFE) :
    (∃ memory', instr.execute r memory = .error (.abort, memory')) ↔ instr.Ends r := by
  constructor
  · rintro ⟨memory', h⟩
    obtain ⟨opCode, rs, rt, rd, extra⟩ := instr
    unfold execute at h
    cases opCode with
    | OP_LB | OP_LBU =>
        obtain ⟨value, memory, h⟩ := abort_of_readOr h
        cases h
    | OP_LH | OP_LHU | OP_LW =>
        dsimp only at h
        split_ifs at h
        · cases h
        · obtain ⟨value, memory, h⟩ := abort_of_readOr h
          cases h
    | OP_LWL | OP_LWR =>
        dsimp only at h
        by_cases haddr : (r rs + extra) &&& 3 ≠ 0
        · exact haddr
        · rw [if_neg haddr] at h
          obtain ⟨value, memory, h⟩ := abort_of_readOr h
          cases h
    | OP_SB | OP_SH | OP_SW =>
        obtain ⟨memory, h⟩ := abort_of_writeOr h
        cases h
    | OP_SWL | OP_SWR =>
        dsimp only at h
        split_ifs at h with haddr
        · exact haddr
        · obtain ⟨value, memory, h⟩ := abort_of_readOr h
          obtain ⟨memory, h⟩ := abort_of_writeOr h
          cases h
    | OP_RFE => exact absurd rfl hdecoded
    | _ => exact compute_abort (abort_of_onlyRegisters h) (by decide)
  · intro h
    obtain ⟨opCode, rs, rt, rd, extra⟩ := instr
    cases opCode with
    | OP_LWL | OP_LWR | OP_SWL | OP_SWR => exact ⟨memory, if_pos h⟩
    | OP_DIV =>
        have hlast : r rs = SIGN_BIT ∧ r rt = -1 := h
        have hzero : ¬ r rt = 0 := by
          rw [hlast.2]
          decide
        have hcompute : (Instruction.mk OP_DIV rs rt rd extra).compute r = .error .abort := by
          unfold compute
          dsimp only
          rw [if_neg hzero, if_pos hlast]
        refine ⟨memory, ?_⟩
        show onlyRegisters _ memory = _
        rw [hcompute]
        rfl
    | _ => exact absurd h id

end Instruction

end

end LoadBalancer.NachOS
