/-
User programs do not see each other (`Machine::Run`, `Scheduler::Run`, `SaveUserState`,
`RestoreUserState` of `thread.cc`, `SaveState`, `RestoreState` of `addrspace.cc`).

There is one processor and one `mainMemory`. The programs take turns instruction by instruction, and
between two turns the registers of one are saved and those of the next restored, with its page
table. A program that has called the kernel goes on with its answer, which the kernel writes through
the page table as well. If its frames are in no other page table, a turn of another thread changes
nothing that it sees, and every run leaves it where its own instructions, and the answers that it
got, would have left it on a memory of its own ([`System.exec_seen`]).

A copy shares frames with its source, because threads of one program have their code and data in
common. What comes of one executable by copies is a family, and no frame is in two of them, after
any creations, copies and destructions ([`Kernel.apart`]). Hence the isolation of a program that is
the only one of its family ([`System.programs_isolated`]). No address space is created during the
run: the constructors zero frames that need not be their own.
-/
import Mathlib.Data.List.Pairwise
import LoadBalancer.NachOS.Loader
import LoadBalancer.NachOS.PlainMemory
import LoadBalancer.NachOS.UserRun

set_option autoImplicit false

namespace LoadBalancer.NachOS

open LoadBalancer.Transition LoadBalancer.Lockstep LoadBalancer.FirstFit LoadBalancer.Memory
open Function (update update_self update_of_ne)
open UserMemory

/-! ## The kernel's answer -/

/-- The loop of `nachosToSystem`, on the memory of a program. A page fault is passed over, and any
other exception ends Nachos, because that is what the handler does with them. -/
def copyOut {μ : Type} [UserMemory μ] (virtual_address : Word) : List Byte → μ → Option μ
  | [], m => some m
  | b :: buffer, m =>
      match WriteMem virtual_address .byte (b.setWidth 32) m with
      | .ok m => copyOut (virtual_address + 1) buffer m
      | .error .PageFaultException => copyOut (virtual_address + 1) buffer m
      | .error _ => none

/-- What the kernel does for a program that has called it: the value for register 2, if there is
one, and the buffers that it copies into the program's memory. -/
structure Answer where
  result : Option Word
  copied : List (Word × List Byte)
deriving DecidableEq, Repr

/-- The memory with the buffers copied into it. -/
def Answer.write {μ : Type} [UserMemory μ] (answer : Answer) (m : μ) : Option μ :=
  answer.copied.foldlM (fun m (virtual_address, buffer) => copyOut virtual_address buffer m) m

/-- The next address, as an `int`. -/
theorem toInt_succ {x : Word} (h : x.toInt + 1 < 2147483648) : (x + 1).toInt = x.toInt + 1 := by
  have hlow := BitVec.le_toInt x
  have hone : (1 : Word).toInt = 1 := rfl
  rw [BitVec.toInt_add, hone, Int.bmod_def]
  split_ifs <;> omega

/-- On the machine this is the loop, as long as the addresses are `int`s. -/
theorem copyOut_machine {virtual_address : Word} {buffer : List Byte}
    (h : virtual_address.toInt + buffer.length ≤ 2147483648) (m : Machine) :
    copyOut virtual_address buffer m = m.writeBytes virtual_address.toInt buffer := by
  induction buffer generalizing virtual_address m with
  | nil => rfl
  | cons b buffer ih =>
      rw [List.length_cons] at h
      have hnext (m : Machine) : copyOut (virtual_address + 1) buffer m
          = m.writeBytes (virtual_address.toInt + 1) buffer := by
        cases buffer with
        | nil => rfl
        | cons c buffer =>
            have hlen : ((c :: buffer).length : ℤ) = buffer.length + 1 := rfl
            have hsum := @toInt_succ virtual_address (by omega)
            rw [← hsum]
            exact ih (by omega) m
      have hbyte : (b.setWidth 32).setWidth 8 = b := by
        apply BitVec.eq_of_toNat_eq
        have := b.isLt
        rw [BitVec.toNat_setWidth, BitVec.toNat_setWidth]
        omega
      unfold copyOut Machine.writeBytes Machine.WriteMem
      dsimp only [WriteMem]
      rw [show Size.byte.bytes = 1 from rfl]
      cases m.Translate virtual_address.toInt 1 true with
      | error exception =>
          cases exception with
          | PageFaultException => exact hnext m
          | _ => rfl
      | ok access =>
          obtain ⟨physicalAddress, m⟩ := access
          dsimp only [bytesOf]
          rw [hbyte, store_cons, store_nil, BitVec.ofInt_toInt, Option.bind_some]
          exact hnext _

/-! ## One program -/

/-- A user program: in user mode, or in the kernel because of a trap. -/
structure Thread (μ : Type) where
  processor : Processor μ
  kernel : Option Trap

/-- What happens to the current program. -/
inductive Turn
  | OneInstruction
  | Interrupt
  | Return (answer : Answer)
deriving DecidableEq, Repr

/-- One turn of a program: an instruction, in user mode; the pending load that is finished before an
interrupt handler is called; or the return from the kernel, behind a system call to the next
instruction, and behind a page fault to the same one. -/
def Thread.turn {μ : Type} [UserMemory μ] (t : Thread μ) : Turn → Option (Thread μ)
  | .OneInstruction =>
      match t.kernel with
      | some _ => none
      | none =>
          match NachOS.OneInstruction t.processor with
          | .next p => some ⟨p, none⟩
          | .exception which p => some ⟨p, some which⟩
          | .abort => none
  | .Interrupt =>
      (DelayedLoad 0 0 t.processor.registers).map fun registers =>
        ⟨⟨registers, t.processor.memory⟩, t.kernel⟩
  | .Return answer =>
      match t.kernel with
      | none => none
      | some which =>
          (answer.write t.processor.memory).bind fun memory =>
            (ExceptionHandler which ⟨answer.result, memory, false⟩ t.processor).map fun p =>
              ⟨p, none⟩

section

variable {μ ν : Type} [UserMemory μ] [UserMemory ν] {R : μ → ν → Prop} {m m' : μ} {p : ν}

/-- What the kernel copies goes into related memories alike. -/
theorem Simulates.copyOut (hR : Simulates R) (h : R m p) {virtual_address : Word}
    {buffer : List Byte} (hcopy : copyOut virtual_address buffer m = some m') :
    ∃ p', NachOS.copyOut virtual_address buffer p = some p' ∧ R m' p' := by
  induction buffer generalizing virtual_address m p with
  | nil =>
      cases hcopy
      exact ⟨p, rfl, h⟩
  | cons b buffer ih =>
      unfold NachOS.copyOut at hcopy ⊢
      have hwrite := hR.write h virtual_address .byte (b.setWidth 32)
      revert hwrite hcopy
      generalize WriteMem virtual_address .byte (b.setWidth 32) m = x,
        WriteMem virtual_address .byte (b.setWidth 32) p = y
      intro hcopy hwrite
      cases hwrite with
      | ok hm => exact ih hm hcopy
      | @error exception _ heq =>
          subst heq
          cases exception with
          | PageFaultException => exact ih h hcopy
          | _ => cases hcopy

theorem Simulates.answer (hR : Simulates R) (h : R m p) {answer : Answer}
    (hwrite : answer.write m = some m') : ∃ p', answer.write p = some p' ∧ R m' p' := by
  obtain ⟨result, copied⟩ := answer
  unfold Answer.write at hwrite ⊢
  induction copied generalizing m p with
  | nil =>
      cases hwrite
      exact ⟨p, rfl, h⟩
  | cons copy copied ih =>
      obtain ⟨m₁, hfirst, hrest⟩ := Option.bind_eq_some_iff.mp hwrite
      obtain ⟨p₁, hfirst', hp₁⟩ := hR.copyOut h hfirst
      obtain ⟨p', hrest', hp'⟩ := ih hp₁ hrest
      exact ⟨p', Option.bind_eq_some_iff.mpr ⟨p₁, hfirst', hrest'⟩, hp'⟩

omit [UserMemory μ] [UserMemory ν] in
/-- What the handler makes of a trap it makes of the same trap on a related memory: it looks at
nothing but the registers. -/
theorem ProcessorRel.exceptionHandler {q q' : Processor μ} {r : Processor ν}
    (h : ProcessorRel R q r) (hmemory : R m p) {which : Trap} {result : Option Word}
    (hq : ExceptionHandler which ⟨result, m, false⟩ q = some q') :
    ∃ r', ExceptionHandler which ⟨result, p, false⟩ r = some r' ∧ ProcessorRel R q' r' := by
  cases which with
  | SyscallException =>
      cases hq
      refine ⟨_, rfl, ⟨?_, hmemory⟩⟩
      dsimp only
      rw [h.registers]
  | Access exception =>
      cases exception with
      | PageFaultException =>
          cases hq
          exact ⟨_, rfl, h⟩
      | _ => cases hq
  | _ => cases hq

/-- A turn on memories that answer alike. -/
theorem Simulates.turn (hR : Simulates R) {t u : Thread μ} {t' : Thread ν}
    (h : ProcessorRel R t.processor t'.processor) (hkernel : t.kernel = t'.kernel) {a : Turn}
    (hturn : t.turn a = some u) :
    ∃ u', t'.turn a = some u' ∧ ProcessorRel R u.processor u'.processor
      ∧ u.kernel = u'.kernel := by
  cases a with
  | OneInstruction =>
      unfold Thread.turn at hturn ⊢
      rw [← hkernel]
      cases hk : t.kernel with
      | some which =>
          rw [hk] at hturn
          cases hturn
      | none =>
          rw [hk] at hturn
          dsimp only at hturn ⊢
          have hone := hR.oneInstruction h
          revert hone hturn
          generalize OneInstruction t.processor = x, OneInstruction t'.processor = y
          intro hturn hone
          cases hone with
          | next hp =>
              cases hturn
              exact ⟨_, rfl, hp, rfl⟩
          | exception hp =>
              cases hturn
              exact ⟨_, rfl, hp, rfl⟩
          | abort => cases hturn
  | Interrupt =>
      obtain ⟨registers, hload, rfl⟩ := Option.map_eq_some_iff.mp hturn
      refine ⟨⟨⟨registers, t'.processor.memory⟩, t'.kernel⟩, ?_, ⟨rfl, h.memory⟩, hkernel⟩
      rw [Thread.turn, ← h.registers, hload, Option.map_some]
  | Return answer =>
      unfold Thread.turn at hturn ⊢
      rw [← hkernel]
      cases hk : t.kernel with
      | none =>
          rw [hk] at hturn
          cases hturn
      | some which =>
          rw [hk] at hturn
          obtain ⟨memory, hwrite, hreturn⟩ := Option.bind_eq_some_iff.mp hturn
          obtain ⟨memory', hwrite', hmemory⟩ := hR.answer h.memory hwrite
          obtain ⟨q, hq, rfl⟩ := Option.map_eq_some_iff.mp hreturn
          obtain ⟨r, hr, hqr⟩ := h.exceptionHandler hmemory hq
          dsimp only
          rw [hwrite', Option.bind_some, hr, Option.map_some]
          exact ⟨_, rfl, hqr, rfl⟩

end

/-! ## The system -/

/-- The machine and the threads that run user programs. The page table that the machine uses is the
one of the space of a thread. -/
structure System (ι : Type) where
  registers : Registers
  mainMemory : ℕ → Byte
  space : ι
  currentThread : ι
  userRegisters : ι → Registers
  pageTable : ι → List TranslationEntry
  kernel : ι → Option Trap

namespace System

variable {ι : Type} [DecidableEq ι]

/-- A turn of the current thread, or a context switch. -/
inductive Action (ι : Type)
  | Turn (turn : Turn)
  | Run (nextThread : ι)

/-- The memory, through the page table of a thread. -/
def machine (s : System ι) (i : ι) : Machine := ⟨s.mainMemory, s.pageTable i⟩

/-- `SaveUserState` and `SaveState`. -/
def SaveUserState (s : System ι) : System ι :=
  { s with userRegisters := update s.userRegisters s.currentThread s.registers }

/-- `RestoreUserState` and `RestoreState`. -/
def RestoreUserState (s : System ι) : System ι :=
  { s with
    registers := s.userRegisters s.currentThread
    space := s.currentThread }

/-- One action. -/
def step (s : System ι) : Action ι → Option (System ι)
  | .Turn turn =>
      let t : Thread Machine := ⟨⟨s.registers, s.machine s.space⟩, s.kernel s.currentThread⟩
      (t.turn turn).map fun t =>
        { s with
          registers := t.processor.registers
          mainMemory := t.processor.memory.mainMemory
          pageTable := update s.pageTable s.space t.processor.memory.pageTable
          kernel := update s.kernel s.currentThread t.kernel }
  | .Run nextThread =>
      some { s.SaveUserState with currentThread := nextThread }.RestoreUserState

/-- The registers of a thread, wherever they are. -/
def registersOf (s : System ι) (i : ι) : Registers :=
  if i = s.currentThread then s.registers else s.userRegisters i

/-- Whose turn a step is, and which. -/
def actor (s : System ι) (a : Action ι) (_ : System ι) : Option (ι × Turn) :=
  match a with
  | .Turn turn => some (s.currentThread, turn)
  | .Run _ => none

/-- The program of a thread, on the memory that it sees. -/
def alone (s : System ι) (i : ι) : Thread PlainMemory where
  processor :=
    { registers := s.registersOf i
      memory :=
        { size := (s.pageTable i).length * PageSize
          bytes := fun v => s.mainMemory (physical (s.machine i).frames v) } }
  kernel := s.kernel i

/-- A program is where `t` is, which has a memory of its own. -/
structure Shown (i : ι) (s : System ι) (t : Thread PlainMemory) : Prop where
  registers : s.registersOf i = t.processor.registers
  kernel : s.kernel i = t.kernel
  memory : Sees (s.machine i) t.processor.memory.size t.processor.memory.bytes

theorem shown_alone {s : System ι} {i : ι} (h : Mapped (s.pageTable i)) : s.Shown i (s.alone i) :=
  ⟨rfl, rfl, h, rfl, fun _ _ => rfl⟩

/-- What a turn of the current thread leaves. -/
structure Keeps (s s' : System ι) : Prop where
  space : s'.space = s.space
  currentThread : s'.currentThread = s.currentThread
  registers : ∀ j, j ≠ s.currentThread → s'.registersOf j = s.registersOf j
  kernel : ∀ j, j ≠ s.currentThread → s'.kernel j = s.kernel j
  pageTable : ∀ j, j ≠ s.currentThread → s'.pageTable j = s.pageTable j
  confined : Confined (s.machine s.currentThread) (s'.machine s.currentThread)

variable {s s' : System ι} {t : Thread PlainMemory} {i : ι}

/-- **A turn** of the current thread. -/
theorem Shown.turn (h : s.Shown s.currentThread t) (hspace : s.space = s.currentThread) {a : Turn}
    (hs : s.step (.Turn a) = some s') :
    ∃ t', t.turn a = some t' ∧ s'.Shown s.currentThread t' ∧ s.Keeps s' := by
  obtain ⟨u, hturn, rfl⟩ := Option.map_eq_some_iff.mp hs
  obtain ⟨registers, mainMemory, space, i, userRegisters, pageTable, kernel⟩ := s
  obtain rfl : space = i := hspace
  have hregisters : registers = t.processor.registers := by
    rw [← h.registers, registersOf, if_pos rfl]
  have hshows : Shows ⟨mainMemory, pageTable space⟩ ⟨mainMemory, pageTable space⟩
      t.processor.memory := ⟨h.memory, .refl _⟩
  obtain ⟨t', halone, hprocessor, hkernel⟩ :=
    (simulates_shows _).turn (t := ⟨⟨registers, _⟩, _⟩) ⟨hregisters, hshows⟩ h.kernel hturn
  have hmachine : Machine.mk u.processor.memory.mainMemory
      (update pageTable space u.processor.memory.pageTable space) = u.processor.memory := by
    rw [update_self]
  refine ⟨t', halone, ⟨?_, ?_, ?_⟩, rfl, rfl, fun j hj => ?_, fun j hj => update_of_ne hj ..,
    fun j hj => update_of_ne hj .., ?_⟩
  · rw [registersOf, if_pos rfl, hprocessor.registers]
  · exact (update_self ..).trans hkernel
  · rw [machine, hmachine]
    exact hprocessor.memory.sees
  · rw [registersOf, registersOf, if_neg hj, if_neg hj]
  · rw [machine, machine, hmachine]
    exact hprocessor.memory.confined

/-- A program is where `t` is, and its frames are in no other page table. -/
structure Seen (i : ι) (s : System ι) (t : Thread PlainMemory) : Prop where
  space : s.space = s.currentThread
  shown : s.Shown i t
  mapped : ∀ j, Mapped (s.pageTable j)
  separate : ∀ j, j ≠ i → ∀ f ∈ (s.machine i).frames, f ∉ (s.machine j).frames

/-- The page tables of all threads are as usable as they were, and name the frames that they
named. -/
theorem Seen.of_keeps (h : s.Seen i t) (hkeeps : s.Keeps s') {t' : Thread PlainMemory}
    (hmapped : Mapped (s'.pageTable s.currentThread)) (hshown : s'.Shown i t') : s'.Seen i t' := by
  have hframes (j : ι) : (s'.machine j).frames = (s.machine j).frames := by
    by_cases hj : j = s.currentThread
    · rw [hj]
      exact hkeeps.confined.frames
    · exact congrArg (List.map (·.physicalPage)) (hkeeps.pageTable j hj)
  refine ⟨?_, hshown, fun j => ?_, fun j hj f hf => ?_⟩
  · rw [hkeeps.space, hkeeps.currentThread, h.space]
  · by_cases hj : j = s.currentThread
    · rwa [hj]
    · rw [hkeeps.pageTable j hj]
      exact h.mapped j
  · rw [hframes] at hf ⊢
    exact h.separate j hj f hf

/-- **A turn of the program.** -/
theorem Seen.turn (h : s.Seen s.currentThread t) {a : Turn} (hs : s.step (.Turn a) = some s') :
    ∃ t', t.turn a = some t' ∧ s'.Seen s.currentThread t' := by
  obtain ⟨t', halone, hshown, hkeeps⟩ := h.shown.turn h.space hs
  exact ⟨t', halone, h.of_keeps hkeeps hshown.memory.mapped hshown⟩

/-- **A turn of another thread.** -/
theorem Seen.turn_other (h : s.Seen i t) (hi : s.currentThread ≠ i) {a : Turn}
    (hs : s.step (.Turn a) = some s') : s'.Seen i t := by
  obtain ⟨t', -, hshown, hkeeps⟩ := (shown_alone (h.mapped s.currentThread)).turn h.space hs
  refine h.of_keeps hkeeps hshown.memory.mapped ⟨?_, ?_, ?_⟩
  · rw [hkeeps.registers i hi.symm, h.shown.registers]
  · rw [hkeeps.kernel i hi.symm, h.shown.kernel]
  · rw [machine, hkeeps.pageTable i hi.symm]
    exact hkeeps.confined.sees_other h.shown.memory (h.separate _ hi)

/-- **A context switch.** -/
theorem Seen.run (h : s.Seen i t) {nextThread : ι} (hs : s.step (.Run nextThread) = some s') :
    s'.Seen i t := by
  cases hs
  refine ⟨rfl, ⟨?_, h.shown.kernel, h.shown.memory⟩, h.mapped, h.separate⟩
  rw [← h.shown.registers]
  show (if i = nextThread then update s.userRegisters s.currentThread s.registers nextThread
    else update s.userRegisters s.currentThread s.registers i) = _
  have hsame : (if i = nextThread then update s.userRegisters s.currentThread s.registers nextThread
      else update s.userRegisters s.currentThread s.registers i)
      = update s.userRegisters s.currentThread s.registers i := by
    split_ifs with hi
    · rw [hi]
    · rfl
  rw [hsame, registersOf, Function.update_apply]

/-- **Every run.** -/
theorem exec_seen (h : s.Seen i t) {as : List (Action ι)} (hrun : exec step s as = some s') :
    ∃ t', s'.Seen i t' ∧ exec Thread.turn t (turnsOf i (observed step actor s as)) = some t' := by
  refine exec_component i (Seen i) ?_ ?_ h hrun
  · intro s a s' t b hseen hstep hactor
    cases a with
    | Turn turn =>
        obtain ⟨rfl, rfl⟩ := Prod.mk.inj (Option.some.inj hactor)
        exact hseen.turn hstep
    | Run nextThread => cases hactor
  · intro s a s' t hseen hstep hactor
    cases a with
    | Turn turn =>
        refine hseen.turn_other (fun hi => hactor turn ?_) hstep
        rw [actor, hi]
    | Run nextThread => exact hseen.run hstep

end System

/-! ## The address spaces -/

/-- What is taken out of two lists at one place is taken out of their pairs. -/
theorem zip_eraseIdx_sublist {α β : Type} (l : List α) (l' : List β) (i : ℕ) :
    ((l.eraseIdx i).zip (l'.eraseIdx i)).Sublist (l.zip l') := by
  induction l generalizing l' i with
  | nil => exact List.Sublist.refl _
  | cons x l ih =>
      cases l' with
      | nil =>
          rw [List.eraseIdx_nil, List.zip_nil_right]
          exact List.nil_sublist _
      | cons y l' =>
          cases i with
          | zero => exact List.sublist_cons_self _ _
          | succ i => exact (ih l' i).cons_cons _

/-- Shared entries and new ones make a page table that a program can use. -/
theorem Mapped.take_append {pageTable : List TranslationEntry} (h : Mapped pageTable) (c i : ℕ)
    {n : ℕ} {k : Frames} {taken : List ℕ} (htaken : serve n k.memoryBitMap.free = some taken)
    (hnew : ∀ p ∈ taken.map fun p : ℕ => (p : ℤ), p ∉ pageTable.map (·.physicalPage)) :
    Mapped (pageTable.take c ++ entriesFrom i taken) := by
  refine ⟨fun e he => ?_, fun e he => ?_, ?_⟩
  · rcases List.mem_append.mp he with he | he
    · exact h.access e (List.mem_of_mem_take he)
    · exact access_entriesFrom he
  · rcases List.mem_append.mp he with he | he
    · exact h.inside e (List.mem_of_mem_take he)
    · have hmem : e.physicalPage ∈ (entriesFrom i taken).map (·.physicalPage) :=
        List.mem_map_of_mem he
      rw [entriesFrom_frames] at hmem
      obtain ⟨p, hp, heq⟩ := List.mem_map.mp hmem
      rw [← heq]
      exact ⟨Int.natCast_nonneg p, Int.ofNat_lt.mpr (Kernel.lt_of_serve htaken p hp)⟩
  · rw [List.map_append, entriesFrom_frames, List.map_take]
    refine (h.distinct.sublist (List.take_sublist _ _)).append
      ((nodup_of_serve htaken).map fun _ _ => Int.ofNat_inj.mp) fun p hp hp' => ?_
    exact hnew p hp' (List.mem_of_mem_take hp)

namespace Kernel

/-- To which family each live address space belongs, in their order. A family has the number of the
creation that it began with. -/
structure Families where
  next : ℕ
  live : List ℕ
deriving DecidableEq, Repr

/-- A copy belongs to the family of its source. -/
def Families.step (f : Families) : Action → Families
  | .create _ => ⟨f.next + 1, f.live ++ [f.next]⟩
  | .copy i => ⟨f.next, f.live ++ (f.live[i]?).toList⟩
  | .destroy i => ⟨f.next, f.live.eraseIdx i⟩

/-- The families after a run. -/
def families (as : List Action) : Families := as.foldl Families.step ⟨0, []⟩

/-- Every page table is one that a program can use, and no frame is in two families. -/
structure Apart (s : Kernel) (f : Families) : Prop where
  length : f.live.length = s.spaces.length
  below : ∀ n ∈ f.live, n < f.next
  mapped : ∀ space ∈ s.spaces, Mapped space.pageTable
  disjoint : ∀ x ∈ f.live.zip s.spaces, ∀ y ∈ f.live.zip s.spaces, x.1 ≠ y.1 →
    ∀ p ∈ x.2.frames, p ∉ y.2.frames

variable {counters : ℕ} {s s' : Kernel} {f : Families}

/-- The family of a live address space. -/
theorem Apart.exists_family (h : s.Apart f) {i : ℕ} {space : AddrSpace}
    (hspace : s.spaces[i]? = some space) :
    ∃ n, f.live[i]? = some n ∧ (n, space) ∈ f.live.zip s.spaces := by
  have hlt := (List.getElem?_eq_some_iff.mp hspace).1
  rw [← h.length] at hlt
  have hn := List.getElem?_eq_getElem hlt
  refine ⟨f.live[i], hn, List.mem_of_getElem? (i := i) ?_⟩
  rw [List.getElem?_zip_eq_some]
  exact ⟨hn, hspace⟩

/-- One more address space, which has no frame of another family. -/
theorem Apart.append (h : s.Apart f) (k' : Frames) {space : AddrSpace} {n next : ℕ}
    (hnext : f.next ≤ next) (hn : n < next) (hmapped : Mapped space.pageTable)
    (hother : ∀ y ∈ f.live.zip s.spaces, y.1 ≠ n → ∀ p ∈ space.frames, p ∉ y.2.frames) :
    (⟨k', s.spaces ++ [space]⟩ : Kernel).Apart ⟨next, f.live ++ [n]⟩ where
  length := by
    rw [List.length_append, List.length_append, h.length]
    rfl
  below m hm := by
    rcases List.mem_append.mp hm with hm | hm
    · exact (h.below m hm).trans_le hnext
    · rwa [List.mem_singleton.mp hm]
  mapped x hx := by
    rcases List.mem_append.mp hx with hx | hx
    · exact h.mapped x hx
    · rwa [List.mem_singleton.mp hx]
  disjoint := by
    dsimp only
    rw [List.zip_append h.length]
    intro x hx y hy hne p hpx hpy
    rcases List.mem_append.mp hx with hx | hx
    · rcases List.mem_append.mp hy with hy | hy
      · exact h.disjoint x hx y hy hne p hpx hpy
      · obtain rfl := List.mem_singleton.mp hy
        exact hother x hx hne p hpy hpx
    · obtain rfl := List.mem_singleton.mp hx
      rcases List.mem_append.mp hy with hy | hy
      · exact hother y hy (Ne.symm hne) p hpx hpy
      · obtain rfl := List.mem_singleton.mp hy
        exact hne rfl

/-- What a first fit takes belongs to nobody. -/
theorem Sound.not_mem_of_serve (h : s.Sound counters) {n : ℕ} {taken : List ℕ}
    (htaken : serve n s.frames.memoryBitMap.free = some taken) {p : ℤ}
    (hp : p ∈ taken.map fun p : ℕ => (p : ℤ)) : p ∉ s.references := by
  obtain ⟨x, hx, rfl⟩ := List.mem_map.mp hp
  have hfree := Frames.mem_free_iff.mp (mem_of_serve htaken x hx)
  exact fun hmem => hfree.2 ((h.counts.used_iff_mem _).mpr hmem)

theorem mem_references_of_zip {y : ℕ × AddrSpace} (hy : y ∈ f.live.zip s.spaces) {p : ℤ}
    (hp : p ∈ y.2.frames) : p ∈ s.references :=
  List.mem_flatMap_of_mem (List.of_mem_zip hy).2 hp

/-- **What every action keeps.** -/
theorem Apart.step (h : s.Apart f) (hsound : s.Sound counters) {a : Action}
    (hs : Kernel.step counters s a = some s') : s'.Apart (f.step a) := by
  cases a with
  | create noffH =>
      obtain ⟨⟨k', space⟩, hc, rfl⟩ := Option.map_eq_some_iff.mp hs
      obtain ⟨hheader, taken, htaken, -, -, htable, hnoffH⟩ := AddrSpace.create_eq_some_iff.mp hc
      have hpages := And.intro space.pos space.copyable_le
      rw [hnoffH] at hpages
      have hmapped : Mapped space.pageTable := by
        rw [htable]
        exact (Accepted.mk hheader hpages htaken).mapped 0
      refine h.append k' (Nat.le_succ _) (Nat.lt_succ_self _) hmapped fun y hy _ p hp hmem => ?_
      rw [AddrSpace.frames, htable, entriesFrom_frames] at hp
      exact hsound.not_mem_of_serve htaken hp (mem_references_of_zip hy hmem)
  | copy i =>
      obtain ⟨source, hsource, hd⟩ := Option.bind_eq_some_iff.mp hs
      obtain ⟨⟨k', space⟩, hdup, rfl⟩ := Option.map_eq_some_iff.mp hd
      obtain ⟨taken, htaken, -, -, htable, -⟩ := (hsound.duplicate_iff hsource).mp hdup
      obtain ⟨n, hfamily, hzip⟩ := h.exists_family hsource
      have hmapped : Mapped space.pageTable := by
        rw [htable]
        refine (h.mapped source (List.mem_of_getElem? hsource)).take_append _ _ htaken
          fun p hp hmem => ?_
        exact hsound.not_mem_of_serve htaken hp (mem_references_of_zip hzip hmem)
      rw [Families.step, hfamily]
      refine h.append k' (Nat.le_refl _) (h.below n (List.mem_of_getElem? hfamily)) hmapped
        fun y hy hne p hp hmem => ?_
      rw [AddrSpace.frames, htable, List.map_append, entriesFrom_frames, List.map_take] at hp
      rcases List.mem_append.mp hp with hp | hp
      · -- a shared frame is one of the source
        exact h.disjoint _ hzip y hy (Ne.symm hne) p (List.mem_of_mem_take hp) hmem
      · exact hsound.not_mem_of_serve htaken hp (mem_references_of_zip hy hmem)
  | destroy i =>
      obtain ⟨space, hspace, hd⟩ := Option.bind_eq_some_iff.mp hs
      obtain ⟨k', -, rfl⟩ := Option.map_eq_some_iff.mp hd
      have hsub := zip_eraseIdx_sublist f.live s.spaces i
      refine ⟨?_, fun n hn => h.below n ((List.eraseIdx_sublist _ _).subset hn),
        fun x hx => h.mapped x ((List.eraseIdx_sublist _ _).subset hx),
        fun x hx y hy => h.disjoint x (hsub.subset hx) y (hsub.subset hy)⟩
      show (f.live.eraseIdx i).length = (s.spaces.eraseIdx i).length
      rw [List.length_eraseIdx, List.length_eraseIdx, h.length]

theorem apart_initial : initial.Apart (families []) where
  length := rfl
  below _ hn := absurd hn List.not_mem_nil
  mapped _ hspace := absurd hspace List.not_mem_nil
  disjoint _ hx := absurd hx List.not_mem_nil

/-- **Every run of creations, copies and destructions.** -/
theorem apart {as : List Action} (h : exec (Kernel.step counters) initial as = some s) :
    s.Apart (families as) := by
  have hboth : s.Sound counters ∧ s.Apart (families as) := by
    refine exec_history (fun as s => s.Sound counters ∧ s.Apart (families as))
      ⟨sound_initial counters, apart_initial⟩ (fun as s a s' hinv hs => ?_) h
    refine ⟨hinv.1.step hs, ?_⟩
    rw [families, List.foldl_append]
    exact hinv.2.step hinv.1 hs
  exact hboth.2

/-- Address spaces of different families have no frame in common. -/
theorem Apart.disjoint_of_ne (h : s.Apart f) {i j : ℕ} {space space' : AddrSpace}
    (hi : s.spaces[i]? = some space) (hj : s.spaces[j]? = some space')
    (hne : f.live[i]? ≠ f.live[j]?) : ∀ p ∈ space.frames, p ∉ space'.frames := by
  obtain ⟨n, hn, hx⟩ := h.exists_family hi
  obtain ⟨m, hm, hy⟩ := h.exists_family hj
  refine h.disjoint _ hx _ hy fun heq => hne ?_
  rw [hn, hm, show n = m from heq]

end Kernel

/-- What a page is mapped to: an entry without the bits that accesses set. -/
def TranslationEntry.mapping (e : TranslationEntry) : ℤ × Bool × Bool :=
  (e.physicalPage, e.valid, e.readOnly)

theorem frames_of_mapping {pageTable pageTable' : List TranslationEntry}
    (h : pageTable.map (·.mapping) = pageTable'.map (·.mapping)) :
    pageTable.map (·.physicalPage) = pageTable'.map (·.physicalPage) := by
  have := congrArg (List.map Prod.fst) h
  rwa [List.map_map, List.map_map] at this

theorem Mapped.of_mapping {pageTable pageTable' : List TranslationEntry}
    (h : pageTable.map (·.mapping) = pageTable'.map (·.mapping)) (hmapped : Mapped pageTable') :
    Mapped pageTable := by
  have hback : ∀ e ∈ pageTable, ∃ e' ∈ pageTable', e'.mapping = e.mapping := by
    intro e he
    have hmem := List.mem_map_of_mem (f := fun e : TranslationEntry => e.mapping) he
    rw [h] at hmem
    exact List.mem_map.mp hmem
  refine ⟨fun e he => ?_, fun e he => ?_, ?_⟩
  · obtain ⟨e', he', heq⟩ := hback e he
    have haccess := hmapped.access e' he'
    simp only [TranslationEntry.mapping, Prod.mk.injEq] at heq
    rwa [heq.2.1, heq.2.2] at haccess
  · obtain ⟨e', he', heq⟩ := hback e he
    have hinside := hmapped.inside e' he'
    simp only [TranslationEntry.mapping, Prod.mk.injEq] at heq
    rwa [heq.1] at hinside
  · rw [frames_of_mapping h]
    exact hmapped.distinct

namespace System

/-- **User programs are isolated.** The address spaces are those that any creations, copies and
destructions have left. The threads have any of them, and one thread has one of a family that no
other thread is of, since the threads of one family have their code and data in common. The
registers and the memory are arbitrary, and so is the run: the program is where its own
instructions, and the kernel's answers to it, bring it on a memory of its own. -/
theorem programs_isolated {ι : Type} [DecidableEq ι] (counters : ℕ) (kas : List Kernel.Action)
    (k : Kernel) (h : exec (Kernel.step counters) Kernel.initial kas = some k) (place : ι → ℕ)
    (s s' : System ι) (hcurrent : s.space = s.currentThread)
    (hspaces : ∀ j, ∃ space, k.spaces[place j]? = some space
      ∧ (s.pageTable j).map (·.mapping) = space.pageTable.map (·.mapping))
    (i : ι) (hfamily : ∀ j, j ≠ i →
      (Kernel.families kas).live[place i]? ≠ (Kernel.families kas).live[place j]?)
    (as : List (Action ι)) (hrun : exec step s as = some s') :
    ∃ t, exec Thread.turn (s.alone i) (turnsOf i (observed step actor s as)) = some t
      ∧ s'.registersOf i = t.processor.registers
      ∧ s'.kernel i = t.kernel
      ∧ Sees (s'.machine i) t.processor.memory.size t.processor.memory.bytes := by
  have hapart := Kernel.apart h
  have hmapped (j : ι) : Mapped (s.pageTable j) := by
    obtain ⟨space, hspace, hj⟩ := hspaces j
    exact .of_mapping hj (hapart.mapped space (List.mem_of_getElem? hspace))
  have hseen : s.Seen i (s.alone i) := by
    refine ⟨hcurrent, shown_alone (hmapped i), hmapped, fun j hj f hf => ?_⟩
    obtain ⟨space, hspace, hi⟩ := hspaces i
    obtain ⟨space', hspace', hj'⟩ := hspaces j
    have hframes : (s.machine i).frames = space.frames := frames_of_mapping hi
    have hframes' : (s.machine j).frames = space'.frames := frames_of_mapping hj'
    rw [hframes] at hf
    rw [hframes']
    exact hapart.disjoint_of_ne hspace hspace' (hfamily j hj) f hf
  obtain ⟨t, hseen', hturns⟩ := exec_seen hseen hrun
  exact ⟨t, hturns, hseen'.shown.registers, hseen'.shown.kernel, hseen'.shown.memory⟩

/-- A program of one page, in frame 0, with a copy of it, and another program of one page, in frame
1. The first stores a byte of register 29 at address 64. The other one executes `SYSCALL` and loads
the byte of this address into register 3. -/
def twoPrograms : System (Fin 3) where
  registers := InitRegisters 1
  mainMemory := store (store (fun _ => 0) 0 [0x40, 0, 0x1d, 0xa0]) PageSize
    [0x0c, 0, 0, 0, 0x40, 0, 0x03, 0x90]
  space := 2
  currentThread := 2
  userRegisters _ := InitRegisters 1
  pageTable i := entriesFrom 0 [if i = 2 then 1 else 0]
  kernel _ := none

/-- The program in frame 1 calls the kernel, the one in frame 0 and its copy store their byte, and
the kernel answers with the number 7 and copies the byte 9 to address 64. -/
def twoProgramsRun : List (Action (Fin 3)) :=
  [.Turn .OneInstruction, .Run 0, .Turn .OneInstruction, .Turn .Interrupt, .Run 1,
    .Turn .OneInstruction, .Run 2, .Turn (.Return ⟨some 7, [(64, [9])]⟩), .Turn .OneInstruction,
    .Turn .Interrupt]

/-- It finds the byte that it was given, as it does alone. -/
theorem programs_isolated_twoPrograms :
    ∃ s', exec step twoPrograms twoProgramsRun = some s'
      ∧ s'.registersOf 2 2 = 7 ∧ s'.registersOf 2 3 = 9
      ∧ ∃ t, exec Thread.turn (twoPrograms.alone 2)
          [.OneInstruction, .Return ⟨some 7, [(64, [9])]⟩, .OneInstruction, .Interrupt] = some t
        ∧ s'.registersOf 2 = t.processor.registers := by
  have hkernel : (exec (Kernel.step Kernel.threadsOnPhyPageLength) Kernel.initial
      [.create onePageHeader, .copy 0, .create onePageHeader]).map
        (fun k => k.spaces.map fun space => space.pageTable.map (·.mapping))
      = some [[(0, true, false)], [(0, true, false)], [(1, true, false)]] := by decide +kernel
  obtain ⟨k, hk, htables⟩ := Option.map_eq_some_iff.mp hkernel
  have hruns : (exec step twoPrograms twoProgramsRun).map
      (fun s => (s.registersOf 2 2, s.registersOf 2 3)) = some (7, 9) := by decide +kernel
  obtain ⟨s', hs', hloaded⟩ := Option.map_eq_some_iff.mp hruns
  have hspaces : ∀ j : Fin 3, ∃ space, k.spaces[(j : ℕ)]? = some space
      ∧ (twoPrograms.pageTable j).map (·.mapping) = space.pageTable.map (·.mapping) := by
    intro j
    have hentry : (k.spaces[(j : ℕ)]?).map (fun space => space.pageTable.map (·.mapping))
        = some ((twoPrograms.pageTable j).map (·.mapping)) := by
      rw [← List.getElem?_map, htables]
      revert j
      decide +kernel
    obtain ⟨space, hspace, htable⟩ := Option.map_eq_some_iff.mp hentry
    exact ⟨space, hspace, htable.symm⟩
  obtain ⟨t, hturns, hregisters, -, -⟩ :=
    programs_isolated Kernel.threadsOnPhyPageLength _ k hk (fun j : Fin 3 => j) twoPrograms s' rfl
      hspaces 2 (by decide +kernel) _ hs'
  have hown : turnsOf 2 (observed step actor twoPrograms twoProgramsRun)
      = [.OneInstruction, .Return ⟨some 7, [(64, [9])]⟩, .OneInstruction, .Interrupt] := by
    decide +kernel
  rw [hown] at hturns
  obtain ⟨htwo, hthree⟩ := Prod.mk.inj hloaded
  exact ⟨s', hs', htwo, hthree, t, hturns, hregisters⟩

end System

end LoadBalancer.NachOS
