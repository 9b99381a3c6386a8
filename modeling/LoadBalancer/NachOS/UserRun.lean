/-
Runs of a user program (`Machine::Run`, `RaiseException` of `machine.cc`, `ExceptionHandler` and
`returnFromSystemCall` of `exception.cc`, `CheckIfDue` of `interrupt.cc`).

What a system call does with the program is its answer: a value for register 2, if any, and the
memory that it leaves. A page fault is handled by doing nothing, and every other exception ends
Nachos. Behind an instruction an interrupt may be due, and its handler finds no load pending. The
registers stay what the processor takes them for ([`sound_run`]), and only programs that use a
register too early see that loads are delayed ([`run_settled`]).
-/
import LoadBalancer.NachOS.LoadDelay
import LoadBalancer.NachOS.PlainMemory

set_option autoImplicit false

namespace LoadBalancer.NachOS

open LoadBalancer.Transition LoadBalancer.Lockstep
open Function (update update_self update_of_ne update_comm)
open OpCode

/-! ## The kernel's part -/

/-- `returnFromSystemCall`. -/
def returnFromSystemCall (registers : Registers) : Registers :=
  let pc := registers PCReg
  let npc := registers NextPCReg
  let registers := update registers PrevPCReg pc
  let registers := update registers PCReg npc
  update registers NextPCReg (npc + 4)

/-- The answer of a system call: what it writes into register 2, and the memory afterwards; and
whether an interrupt is due behind the instruction. -/
structure Service (μ : Type) where
  result : Option Word
  memory : μ
  interrupted : Bool

section

variable {μ : Type}

/-- `ExceptionHandler`, when it returns. -/
def ExceptionHandler (which : Trap) (service : Service μ) (p : Processor μ) :
    Option (Processor μ) :=
  match which with
  | .SyscallException =>
      let registers := match service.result with
        | none => p.registers
        | some value => update p.registers 2 value
      some ⟨returnFromSystemCall registers, service.memory⟩
  | .Access .PageFaultException => some p
  | .Access _ | .OverflowException | .IllegalInstrException => none

/-- The processor when the kernel has done its part. -/
def handled (service : Service μ) : Outcome μ → Option (Processor μ)
  | .next p => some p
  | .exception which p => ExceptionHandler which service p
  | .abort => none

/-- `CheckIfDue`, as far as it concerns the processor. -/
def CheckIfDue (interrupted : Bool) (p : Processor μ) : Option (Processor μ) :=
  if interrupted then (DelayedLoad 0 0 p.registers).map fun registers => ⟨registers, p.memory⟩
  else some p

variable [UserMemory μ]

/-- One turn of the loop of `Machine::Run`. -/
def runStep (p : Processor μ) (service : Service μ) : Option (Processor μ) :=
  (handled service (OneInstruction p)).bind (CheckIfDue service.interrupted)

/-! ## A processor without the delay -/

/-- An instruction that is not completed. -/
def onFaultAtOnce (registers : Registers) : Fault × μ → Outcome μ
  | (.abort, _) => .abort
  | (.raise which badVAddr, memory) =>
      .exception which ⟨update registers BadVAddrReg badVAddr, memory⟩

/-- What is loaded is there at once. -/
def completeAtOnce (e : Executed μ) : Outcome μ :=
  .next ⟨advance e.pcAfter (update (update e.registers e.nextLoadReg.toNat e.nextLoadValue) 0 0),
    e.memory⟩

/-- `OneInstruction` without the load delay slot. -/
def OneInstructionAtOnce (p : Processor μ) : Outcome μ :=
  match fetchDecode p >>= fun r => r.1.execute p.registers r.2 with
  | .error fault => onFaultAtOnce p.registers fault
  | .ok e => completeAtOnce e

/-- One turn of the loop on such a processor, which has nothing to do with interrupts. -/
def runStepAtOnce (p : Processor μ) (service : Service μ) : Option (Processor μ) :=
  handled service (OneInstructionAtOnce p)

end

/-! ## Settled registers -/

section

variable {r : Registers} {n : ℕ} {x : Word}

/-- Nothing is pending. -/
theorem settled_eq_self (hzero : r 0 = 0) (hload : r LoadReg = 0) (hvalue : r LoadValueReg = 0) :
    settled r = r := by
  have hsound : Sound r := ⟨hzero, by rw [hload]; decide⟩
  rw [hsound.settled_eq, if_pos (by rw [hload]; rfl), noneArriving]
  have hreg : update r LoadReg 0 = r := by rw [← hload, Function.update_eq_self]
  rw [hreg, ← hvalue, Function.update_eq_self]

theorem settled_zero (r : Registers) : settled r 0 = 0 := update_self ..

theorem settled_loadReg (r : Registers) : settled r LoadReg = 0 := by
  rw [lands_settled r _ (by decide), landed, noneArriving, update_of_ne (by decide), update_self]

theorem settled_loadValueReg (r : Registers) : settled r LoadValueReg = 0 := by
  rw [lands_settled r _ (by decide), landed, noneArriving, update_self]

theorem settled_settled (r : Registers) : settled (settled r) = settled r :=
  settled_eq_self (settled_zero r) (settled_loadReg r) (settled_loadValueReg r)

theorem sound_settled (r : Registers) : Sound (settled r) :=
  ⟨settled_zero r, by rw [settled_loadReg]; decide⟩

/-- A register that has nothing to do with loads. -/
theorem settled_update (hzero : n ≠ 0) (hload : n ≠ LoadReg) (hvalue : n ≠ LoadValueReg)
    (hpending : (r LoadReg).toNat ≠ n) : settled (update r n x) = update (settled r) n x := by
  rw [settled, landed, noneArriving, update_of_ne (Ne.symm hload), update_of_ne (Ne.symm hvalue),
    update_comm (Ne.symm hpending), update_comm hload, update_comm hvalue, update_comm hzero]
  rfl

end

/-- The program counters are no targets of loads. -/
theorem settled_advance {r : Registers} (h : (r LoadReg).toNat < 32) (pcAfter : Word) :
    settled (advance pcAfter r) = advance pcAfter (settled r) := by
  have hne {n : ℕ} (hn : 32 ≤ n) : (r LoadReg).toNat ≠ n := by omega
  have hpc : settled r PCReg = r PCReg := by
    rw [lands_settled r _ (by decide), landed, noneArriving_of_ne (by decide) (by decide),
      update_of_ne (hne (by decide)).symm]
  have hnext : settled r NextPCReg = r NextPCReg := by
    rw [lands_settled r _ (by decide), landed, noneArriving_of_ne (by decide) (by decide),
      update_of_ne (hne (by decide)).symm]
  unfold advance
  dsimp only
  rw [settled_update (by decide) (by decide) (by decide), settled_update (by decide) (by decide)
      (by decide), settled_update (by decide) (by decide) (by decide), hpc]
  · rw [update_of_ne (by decide : NextPCReg ≠ PrevPCReg),
      update_of_ne (by decide : NextPCReg ≠ PrevPCReg), hnext]
  · exact hne (by decide)
  · rw [update_of_ne (by decide)]
    exact hne (by decide)
  · rw [update_of_ne (by decide), update_of_ne (by decide)]
    exact hne (by decide)

/-- The processor when the pending load has arrived. -/
def Processor.settled {μ : Type} (p : Processor μ) : Processor μ :=
  ⟨NachOS.settled p.registers, p.memory⟩

/-- The outcome with every pending load arrived. -/
def Outcome.settled {μ : Type} : Outcome μ → Outcome μ
  | .next p => .next p.settled
  | .exception which p => .exception which p.settled
  | .abort => .abort

section

variable {μ : Type}

/-- **An instruction that is not completed** finishes the pending load. -/
theorem onFault_settled {r : Registers} (hr : Sound r) (fault : Fault × μ) :
    onFaultAtOnce (settled r) fault = (onFault r fault).settled := by
  obtain ⟨fault, memory⟩ := fault
  cases fault with
  | abort => rfl
  | raise which badVAddr =>
      have hpending := hr.pending
      have hload : update r BadVAddrReg badVAddr LoadReg = r LoadReg := update_of_ne (by decide) ..
      have hsettled : settled (update r BadVAddrReg badVAddr)
          = update (settled r) BadVAddrReg badVAddr := by
        apply settled_update (by decide) (by decide) (by decide)
        unfold BadVAddrReg
        omega
      rw [onFault, RaiseException]
      dsimp only
      rw [delayedLoad_zero (by rw [hload]; exact hpending), hsettled]
      show _ = Outcome.exception which
        ⟨settled (update (settled r) BadVAddrReg badVAddr), memory⟩
      rw [← hsettled, settled_settled, hsettled]
      rfl

/-- **An instruction that is.** -/
theorem complete_settled {e e' : Executed μ} (h : LandsExecuted e e')
    (hpending : (e.registers LoadReg).toNat < 32) (hnext : e.nextLoadReg.toNat < 32) :
    completeAtOnce e' = (complete e).settled := by
  obtain ⟨loaded, hloaded⟩ : ∃ loaded,
      DelayedLoad e.nextLoadReg e.nextLoadValue e.registers = some loaded :=
    ⟨_, delayedLoad_eq hpending _ _⟩
  have hload := (sound_delayedLoad hpending hnext hloaded).pending
  -- what is loaded into `R0` does not count
  have hvalue : update (update (landed e.registers) e.nextLoadReg.toNat e'.nextLoadValue) 0 0
      = update (update (landed e.registers) e.nextLoadReg.toNat e.nextLoadValue) 0 0 := by
    rcases h.nextLoadValue with hzero | heq
    · rw [hzero]
      exact (Function.update_idem ..).trans (Function.update_idem ..).symm
    · rw [heq]
  rw [completeAtOnce, complete, hloaded]
  show _ = Outcome.next ⟨settled (advance e.pcAfter loaded), e.memory⟩
  rw [settled_advance hload, settled_delayedLoad hpending hnext hloaded, ← hvalue, h.pcAfter,
    h.memory, h.nextLoadReg, h.registers.load]

variable [UserMemory μ]

/-- The next instruction is independent of the pending load. -/
def Processor.Independent (p : Processor μ) : Prop :=
  ∀ instr memory, fetchDecode p = .ok (instr, memory) → instr.Independent p.registers

/-- **One instruction.** -/
theorem oneInstructionAtOnce_settled {p : Processor μ} (hp : Sound p.registers)
    (hind : p.Independent) : OneInstructionAtOnce p.settled = (OneInstruction p).settled := by
  have hpc : settled p.registers PCReg = p.registers PCReg := by
    refine hp.settled_of_ne ⟨by decide, by decide⟩ (.inr ?_)
    have := hp.pending
    unfold PCReg
    omega
  have hfetch : fetchDecode p.settled = fetchDecode p := by
    unfold fetchDecode Processor.settled
    dsimp only
    rw [hpc]
  rw [OneInstructionAtOnce, OneInstruction, hfetch]
  cases hdecoded : fetchDecode p with
  | error fault => exact onFault_settled hp fault
  | ok decoded =>
      obtain ⟨instr, memory⟩ := decoded
      have hexecute := Instruction.execute_settled hp (hind instr memory hdecoded) memory
      show (match instr.execute (settled p.registers) memory with
        | .error fault => onFaultAtOnce (settled p.registers) fault
        | .ok e => completeAtOnce e)
        = Outcome.settled (match instr.execute p.registers memory with
          | .error fault => onFault p.registers fault
          | .ok e => complete e)
      cases he : instr.execute p.registers memory with
      | error fault =>
          rw [he] at hexecute
          revert hexecute
          generalize instr.execute (settled p.registers) memory = y
          intro hexecute
          cases hexecute with
          | error heq =>
              rw [← heq]
              exact onFault_settled hp fault
      | ok e =>
          obtain ⟨hload, hnext⟩ := Instruction.execute_pending he
          rw [he] at hexecute
          revert hexecute
          generalize instr.execute (settled p.registers) memory = y
          intro hexecute
          cases hexecute with
          | ok hlands => exact complete_settled hlands (by rw [hload]; exact hp.pending) hnext

/-! ## The registers along a run -/

/-- What an instruction leaves is sound; and settled, if the kernel is to see it. -/
def Outcome.Sound : Outcome μ → Prop
  | .next p => NachOS.Sound p.registers
  | .exception _ p => p.settled = p
  | .abort => True

omit [UserMemory μ] in
/-- A trap is one, and leaves settled registers. -/
theorem onFault_raise {r : Registers} (hr : Sound r) (which : Trap) (badVAddr : Word) (memory : μ) :
    ∃ p, onFault r (.raise which badVAddr, memory) = .exception which p ∧ p.settled = p := by
  have hpending : (update r BadVAddrReg badVAddr LoadReg).toNat < 32 := by
    rw [update_of_ne (by decide)]
    exact hr.pending
  refine ⟨⟨settled (update r BadVAddrReg badVAddr), memory⟩, ?_, ?_⟩
  · rw [onFault, RaiseException]
    dsimp only
    rw [delayedLoad_zero hpending]
  · rw [Processor.settled, settled_settled]

omit [UserMemory μ] in
/-- An instruction that is executed is completed. -/
theorem complete_next {e : Executed μ} (hpending : (e.registers LoadReg).toNat < 32)
    (hnext : e.nextLoadReg.toNat < 32) :
    ∃ p, complete e = .next p ∧ Sound p.registers := by
  obtain ⟨loaded, hloaded⟩ : ∃ loaded,
      DelayedLoad e.nextLoadReg e.nextLoadValue e.registers = some loaded :=
    ⟨_, delayedLoad_eq hpending _ _⟩
  have hsound := sound_delayedLoad hpending hnext hloaded
  refine ⟨⟨advance e.pcAfter loaded, e.memory⟩, by rw [complete, hloaded], ?_⟩
  constructor
  · show advance e.pcAfter loaded 0 = 0
    rw [advance, update_of_ne (by decide), update_of_ne (by decide), update_of_ne (by decide)]
    exact hsound.zero
  · show (advance e.pcAfter loaded LoadReg).toNat < 32
    rw [advance, update_of_ne (by decide), update_of_ne (by decide), update_of_ne (by decide)]
    exact hsound.pending

/-- What is fetched is a decoded word, or there is a trap. -/
theorem fetchDecode_cases (p : Processor μ) :
    (∃ which badVAddr, fetchDecode p = .error (.raise which badVAddr, p.memory))
      ∨ ∃ value memory, fetchDecode p = .ok (.Decode value, memory) := by
  unfold fetchDecode readOr
  split
  · exact .inl ⟨_, _, rfl⟩
  · exact .inr ⟨_, _, rfl⟩

/-- **What can come of an instruction**: a trap, the next instruction, or the end of Nachos. -/
theorem oneInstruction_cases {p : Processor μ} (hp : Sound p.registers) :
    (OneInstruction p).Sound
      ∧ (OneInstruction p = .abort ↔ ∃ instr memory,
        fetchDecode p = .ok (instr, memory) ∧ instr.Ends p.registers) := by
  unfold OneInstruction
  rcases fetchDecode_cases p with ⟨which, badVAddr, hfetch⟩ | ⟨value, memory, hfetch⟩
  · obtain ⟨q, hq, hsettled⟩ := onFault_raise hp which badVAddr p.memory
    rw [hfetch]
    show (onFault p.registers (.raise which badVAddr, p.memory)).Sound ∧ _
    rw [hq]
    refine ⟨hsettled, iff_of_false ?_ ?_⟩
    · show onFault p.registers (.raise which badVAddr, p.memory) ≠ .abort
      rw [hq]
      exact fun h => by cases h
    · rintro ⟨instr, memory, h, -⟩
      cases h
  · rw [hfetch]
    have hends := Instruction.execute_abort_iff (.Decode value) p.registers memory
      (Instruction.opCode_Decode_ne value)
    have hsame : (∃ instr memory', (Except.ok (Instruction.Decode value, memory)
        : Except (Fault × μ) (Instruction × μ)) = .ok (instr, memory')
        ∧ instr.Ends p.registers) ↔ (Instruction.Decode value).Ends p.registers := by
      constructor
      · rintro ⟨instr, memory', h, hinstr⟩
        cases h
        exact hinstr
      · exact fun h => ⟨_, _, rfl, h⟩
    rw [hsame, ← hends]
    show Outcome.Sound (match (Instruction.Decode value).execute p.registers memory with
        | .error fault => onFault p.registers fault
        | .ok e => complete e)
      ∧ ((match (Instruction.Decode value).execute p.registers memory with
        | .error fault => onFault p.registers fault
        | .ok e => complete e) = .abort ↔ _)
    cases he : (Instruction.Decode value).execute p.registers memory with
    | error fault =>
        obtain ⟨fault, memory'⟩ := fault
        cases fault with
        | abort => exact ⟨trivial, iff_of_true rfl ⟨memory', rfl⟩⟩
        | raise which badVAddr =>
            obtain ⟨q, hq, hsettled⟩ := onFault_raise hp which badVAddr memory'
            dsimp only
            rw [hq]
            refine ⟨hsettled, iff_of_false (fun h => by cases h) ?_⟩
            rintro ⟨memory'', h⟩
            cases h
    | ok e =>
        obtain ⟨hload, hnext⟩ := Instruction.execute_pending he
        obtain ⟨q, hq, hsound⟩ := complete_next (by rw [hload]; exact hp.pending) hnext
        dsimp only
        rw [hq]
        refine ⟨hsound, iff_of_false (fun h => by cases h) ?_⟩
        rintro ⟨memory'', h⟩
        cases h

/-! ## Runs -/

omit [UserMemory μ] in
/-- Registers that the kernel writes are none of the pending load. -/
theorem settled_written {r : Registers} (h : settled r = r) {n : ℕ} (x : Word) (hzero : n ≠ 0)
    (hload : n ≠ LoadReg) (hvalue : n ≠ LoadValueReg) :
    settled (update r n x) = update r n x := by
  have hpending : (r LoadReg).toNat ≠ n := by
    rw [← h, settled_loadReg]
    exact Ne.symm hzero
  rw [settled_update hzero hload hvalue hpending, h]

omit [UserMemory μ] in
/-- **The kernel leaves no load pending.** -/
theorem settled_exceptionHandler {which : Trap} {service : Service μ} {p q : Processor μ}
    (hp : p.settled = p) (h : ExceptionHandler which service p = some q) : q.settled = q := by
  have hregisters : settled p.registers = p.registers := congrArg Processor.registers hp
  have hreturn {r : Registers} (hr : settled r = r) :
      settled (returnFromSystemCall r) = returnFromSystemCall r := by
    unfold returnFromSystemCall
    exact settled_written (settled_written (settled_written hr _ (by decide) (by decide)
      (by decide)) _ (by decide) (by decide) (by decide)) _ (by decide) (by decide) (by decide)
  cases which with
  | SyscallException =>
      cases h
      rw [Processor.settled]
      cases service.result with
      | none => dsimp only; rw [hreturn hregisters]
      | some value =>
          dsimp only
          rw [hreturn (settled_written hregisters _ (by decide) (by decide) (by decide))]
  | Access exception =>
      cases exception with
      | PageFaultException =>
          cases h
          exact hp
      | ReadOnlyException | BusErrorException | AddressErrorException => cases h
  | OverflowException | IllegalInstrException => cases h

omit [UserMemory μ] in
/-- **An interrupt** only finishes the pending load. -/
theorem checkIfDue_settled {p : Processor μ} (hp : Sound p.registers) (interrupted : Bool) :
    ∃ q, CheckIfDue interrupted p = some q ∧ Sound q.registers ∧ q.settled = p.settled := by
  cases interrupted with
  | false => exact ⟨p, rfl, hp, rfl⟩
  | true =>
      refine ⟨p.settled, ?_, sound_settled _, ?_⟩
      · rw [CheckIfDue, if_pos rfl, delayedLoad_zero hp.pending]
        rfl
      · unfold Processor.settled
        dsimp only
        rw [settled_settled]

/-- What the kernel leaves. -/
theorem sound_handled {p q : Processor μ} {service : Service μ} (hp : Sound p.registers)
    (h : handled service (OneInstruction p) = some q) : Sound q.registers := by
  have hcases := (oneInstruction_cases hp).1
  cases hone : OneInstruction p with
  | next p' =>
      rw [hone] at hcases h
      cases h
      exact hcases
  | exception which p' =>
      rw [hone] at hcases h
      rw [← settled_exceptionHandler hcases h]
      exact sound_settled _
  | abort =>
      rw [hone] at h
      cases h

/-- **What a turn keeps.** -/
theorem sound_runStep {p q : Processor μ} {service : Service μ} (hp : Sound p.registers)
    (h : runStep p service = some q) : Sound q.registers := by
  obtain ⟨p', hhandled, hdue⟩ := Option.bind_eq_some_iff.mp h
  obtain ⟨q', hq, hsound, -⟩ := checkIfDue_settled (sound_handled hp hhandled) service.interrupted
  rw [hdue] at hq
  cases hq
  exact hsound

/-- **The registers stay what the processor takes them for**, in every run from the start of a
program: `R0` is zero, the pending load is for a general register, so that every access to
`registers` is inside of it; and what ends Nachos from within the processor is exactly an
instruction that [`Instruction.Ends`] names. The number of that register is a field of five bits of
the load, and no other instruction writes it. -/
theorem sound_run (start p : Processor μ) (hzero : start.registers 0 = 0)
    (hload : start.registers LoadReg = 0) (h : Reach runStep always start p) :
    p.registers 0 = 0 ∧ (p.registers LoadReg).toNat < 32
      ∧ (OneInstruction p = .abort ↔ ∃ instr memory,
        fetchDecode p = .ok (instr, memory) ∧ instr.Ends p.registers) := by
  have hsound : Sound p.registers :=
    h.invariant (fun p => Sound p.registers) ⟨hzero, by rw [hload]; decide⟩
      fun _ _ _ hp _ hq => sound_runStep hp hq
  exact ⟨hsound.zero, hsound.pending, (oneInstruction_cases hsound).2⟩

/-- The instruction and the kernel's part. -/
theorem handled_settled {p : Processor μ} (hp : Sound p.registers) (hind : p.Independent)
    (service : Service μ) :
    handled service (OneInstructionAtOnce p.settled)
      = (handled service (OneInstruction p)).map Processor.settled := by
  have hcases := (oneInstruction_cases hp).1
  rw [oneInstructionAtOnce_settled hp hind]
  cases hone : OneInstruction p with
  | next p' => rfl
  | exception which p' =>
      rw [hone] at hcases
      show ExceptionHandler which service p'.settled
        = (ExceptionHandler which service p').map Processor.settled
      rw [hcases]
      cases hq : ExceptionHandler which service p' with
      | none => rfl
      | some q => rw [Option.map_some, settled_exceptionHandler hcases hq]
  | abort => rfl

/-- One turn. -/
theorem runStepAtOnce_settled {p : Processor μ} (hp : Sound p.registers) (hind : p.Independent)
    (service : Service μ) :
    runStepAtOnce p.settled service = (runStep p service).map Processor.settled := by
  rw [runStepAtOnce, runStep, handled_settled hp hind]
  cases hhandled : handled service (OneInstruction p) with
  | none => rfl
  | some p' =>
      obtain ⟨q, hq, -, hsettled⟩ :=
        checkIfDue_settled (sound_handled hp hhandled) service.interrupted
      rw [Option.bind_some, hq, Option.map_some, Option.map_some, hsettled]

/-- **Only programs that use a register too early see the delay.** In every run in which no
instruction reads or writes the register for which a load is pending, a processor without the
delay does the same, instruction by instruction and with the same answers of the kernel, wherever
the interrupts come. With the load finished early the two processors differ in that register only,
and nobody looks at it. -/
theorem run_settled (p : Processor μ) (hp : Sound p.registers) (services : List (Service μ))
    (hind : AllOk runStep (fun p _ => p.Independent) p services) :
    exec runStepAtOnce p.settled services = (exec runStep p services).map Processor.settled := by
  induction services generalizing p with
  | nil => rfl
  | cons service services ih =>
      obtain ⟨hfirst, hrest⟩ := hind
      rw [exec, exec, runStepAtOnce_settled hp hfirst]
      cases hq : runStep p service with
      | none => rfl
      | some q =>
          rw [hq] at hrest
          exact ih q (sound_runStep hp hq) hrest

end

/-! ## A program -/

instance Instruction.Independent.decidable (instr : Instruction) (r : Registers) :
    Decidable (instr.Independent r) :=
  inferInstanceAs (Decidable (_ ∨ _ ∉ _ ∧ _ ∉ _))

instance Processor.Independent.decidable {μ : Type} [UserMemory μ] (p : Processor μ) :
    Decidable p.Independent :=
  match h : fetchDecode p with
  | .error fault => isTrue fun instr memory hok => by
      rw [h] at hok
      cases hok
  | .ok (instr, memory) =>
      decidable_of_iff (instr.Independent p.registers) (by
        constructor
        · intro hind instr' memory' hok
          rw [h] at hok
          cases hok
          exact hind
        · exact fun hall => hall instr memory h)

/-- `LW r1,16(r0)`, `ADDIU r2,r0,5`, `ADDU r3,r1,r2` and `SYSCALL`, and the number 7 behind them. -/
def shortProgram : Processor PlainMemory where
  registers := InitRegisters 1
  memory :=
    { size := PageSize
      bytes := Memory.store (fun _ => 0) 0 [0x10, 0, 0x01, 0x8c, 0x05, 0, 0x02, 0x24, 0x21, 0x18,
        0x22, 0, 0x0c, 0, 0, 0, 7] }

/-- The answers that it gets. -/
def shortServices (interrupted : Bool) : List (Service PlainMemory) :=
  List.replicate 3 ⟨some 1, shortProgram.memory, interrupted⟩

/-- The loaded value arrives behind the second instruction, or the first if there is an interrupt,
and is used in the third. -/
theorem run_settled_shortProgram :
    ∃ q, exec runStep shortProgram (shortServices true) = some q
      ∧ exec runStepAtOnce shortProgram.settled (shortServices true) = some q.settled
      ∧ q.registers 3 = 12 := by
  have hind : AllOk runStep (fun p _ => p.Independent) shortProgram (shortServices true) := by
    decide +kernel
  have hvalue : (exec runStep shortProgram (shortServices true)).map
      (fun q => q.registers 3) = some 12 := by decide +kernel
  obtain ⟨q, hq, hregister⟩ := Option.map_eq_some_iff.mp hvalue
  have hsettled := run_settled shortProgram ⟨rfl, by decide⟩ _ hind
  rw [hq] at hsettled
  exact ⟨q, hq, hsettled, hregister⟩

/-- At the system call behind them. -/
theorem sound_run_shortProgram :
    ∃ q, exec runStep shortProgram (shortServices false) = some q
      ∧ q.registers 0 = 0 ∧ (q.registers LoadReg).toNat < 32 := by
  have hruns : (exec runStep shortProgram (shortServices false)).isSome = true := by decide +kernel
  obtain ⟨q, hq⟩ := Option.isSome_iff_exists.mp hruns
  obtain ⟨hzero, hload, -⟩ := sound_run shortProgram q rfl rfl (.of_exec (allOk_always _ _) hq)
  exact ⟨q, hq, hzero, hload⟩

end LoadBalancer.NachOS
