/-
A user program on a memory of its own.

[`PlainMemory`] is a row of bytes from `0` on, without pages. A machine whose page table names
different frames does with every access of 1, 2 or 4 bytes what the plain memory does that the
program sees ([`simulates_shows`]), and stays in the frames of the page table meanwhile. Whatever
two memories answer alike, the processor does alike on them ([`OutcomeRel.oneInstruction`]).
-/
import LoadBalancer.Lib.Lockstep
import LoadBalancer.NachOS.Copy
import LoadBalancer.NachOS.MipsSim

set_option autoImplicit false

namespace LoadBalancer.NachOS

open LoadBalancer.Memory LoadBalancer.Lockstep
open Function (update)
open UserMemory

/-! ## Plain memories -/

/-- `size` bytes. -/
structure PlainMemory where
  size : ℕ
  bytes : ℕ → Byte

/-- The address is a multiple of the size. -/
def Aligned (addr : Word) (size : Size) : Prop := addr.toNat % size.bytes = 0

instance Aligned.decidable (addr : Word) (size : Size) : Decidable (Aligned addr size) :=
  inferInstanceAs (Decidable (addr.toNat % size.bytes = 0))

instance instUserMemoryPlainMemory : UserMemory PlainMemory where
  ReadMem addr size m :=
    if Aligned addr size ∧ addr.toNat < m.size then
      .ok (fetch size m.bytes addr.toNat, m)
    else .error .AddressErrorException
  WriteMem addr size value m :=
    if Aligned addr size ∧ addr.toNat < m.size then
      .ok { m with bytes := store m.bytes addr.toNat (bytesOf size value) }
    else .error .AddressErrorException

/-! ## Translation -/

theorem bytesOf_length (size : Size) (value : Word) : (bytesOf size value).length = size.bytes := by
  cases size <;> rfl

/-- The check of `Translate`. -/
theorem misaligned_iff (addr : Word) (size : Size) :
    ((size.bytes = 4 ∧ addr.toInt % 4 ≠ 0) ∨ (size.bytes = 2 ∧ addr.toInt % 2 ≠ 0))
      ↔ ¬ Aligned addr size := by
  have htoInt := BitVec.toInt_eq_toNat_cond addr
  have hfour : addr.toInt % 4 = (addr.toNat % 4 : ℕ) := by split_ifs at htoInt <;> omega
  have htwo : addr.toInt % 2 = (addr.toNat % 2 : ℕ) := by split_ifs at htoInt <;> omega
  unfold Aligned
  rw [hfour, htwo]
  cases size with
  | byte => show (1 = 4 ∧ _ ∨ 1 = 2 ∧ _) ↔ ¬ addr.toNat % 1 = 0; omega
  | half => show (2 = 4 ∧ _ ∨ 2 = 2 ∧ _) ↔ ¬ addr.toNat % 2 = 0; omega
  | word => show (4 = 4 ∧ _ ∨ 4 = 2 ∧ _) ↔ ¬ addr.toNat % 4 = 0; omega

theorem toUnsigned_toInt (addr : Word) : toUnsigned addr.toInt = addr.toNat := by
  have := addr.isLt
  unfold toUnsigned
  rw [BitVec.toInt_eq_toNat_cond]
  split_ifs <;> omega

/-- **The translation of any address** through a page table that names different frames. -/
theorem Machine.translate_word {m : Machine} (h : Mapped m.pageTable) (addr : Word) (size : Size)
    (writing : Bool) :
    m.Translate addr.toInt size.bytes writing
      = if Aligned addr size ∧ addr.toNat < m.pageTable.length * PageSize then
          .ok (physical m.frames addr.toNat, m.touch (addr.toNat / PageSize) writing)
        else .error .AddressErrorException := by
  by_cases haligned : Aligned addr size
  · by_cases hrange : addr.toNat < m.pageTable.length * PageSize
    · have hbyte := Machine.translate_eq h hrange writing
      have hone : ¬ ((1 = 4 ∧ (addr.toNat : ℤ) % 4 ≠ 0) ∨ (1 = 2 ∧ (addr.toNat : ℤ) % 2 ≠ 0)) := by
        omega
      have hlt : addr.toNat < 4294967296 := addr.isLt
      rw [if_pos ⟨haligned, hrange⟩, Machine.frames, ← hbyte, Machine.Translate,
        Machine.Translate, if_neg ((misaligned_iff addr size).not_left.mpr haligned), if_neg hone,
        toUnsigned_toInt, toUnsigned_natCast hlt]
    · have hnone : m.pageTable[addr.toNat / PageSize]? = none := by
        rw [List.getElem?_eq_none_iff, Nat.le_div_iff_mul_le (by decide)]
        exact Nat.le_of_not_lt hrange
      rw [if_neg fun h => hrange h.2, Machine.Translate,
        if_neg ((misaligned_iff addr size).not_left.mpr haligned), toUnsigned_toInt]
      dsimp only
      rw [hnone]
  · rw [if_neg fun h => haligned h.1, Machine.Translate,
      if_pos ((misaligned_iff addr size).mpr haligned)]

/-- The bytes of an access are in one page. -/
theorem Aligned.page {addr : Word} {size : Size} (h : Aligned addr size) {k : ℕ}
    (hk : k < size.bytes) : addr.toNat % PageSize + k < PageSize := by
  unfold Aligned at h
  unfold PageSize
  cases size with
  | byte => simp only [Size.bytes] at h hk; omega
  | half => simp only [Size.bytes] at h hk; omega
  | word => simp only [Size.bytes] at h hk; omega

/-- Within a page physical addresses follow each other. -/
theorem physical_add {frames : List ℤ} {v k : ℕ} (h : v % PageSize + k < PageSize) :
    physical frames (v + k) = physical frames v + k := by
  have hpos : 0 < PageSize := by decide
  have hv := Nat.div_add_mod v PageSize
  have hsum : v + k = v % PageSize + k + PageSize * (v / PageSize) := by omega
  have hdiv : (v + k) / PageSize = v / PageSize := by
    rw [hsum, Nat.add_mul_div_left _ _ hpos, Nat.div_eq_of_lt h, Nat.zero_add]
  have hmod : (v + k) % PageSize = v % PageSize + k := by
    rw [hsum, Nat.add_mul_mod_self_left, Nat.mod_eq_of_lt h]
  rw [physical, physical, hdiv, hmod, Nat.add_assoc]

/-- A page that begins in the memory ends in it. -/
theorem add_lt_of_page {length v k : ℕ} (hv : v < length * PageSize)
    (hk : v % PageSize + k < PageSize) : v + k < length * PageSize := by
  have hsplit := Nat.div_add_mod v PageSize
  have hpage : v / PageSize < length := Nat.div_lt_of_lt_mul (by rwa [Nat.mul_comm] at hv)
  have hend := Nat.mul_le_mul_right PageSize hpage
  rw [Nat.succ_mul, Nat.mul_comm] at hend
  omega

/-! ## What the program sees -/

theorem fetch_congr {size : Size} {mem mem' : ℕ → Byte} {a b : ℕ}
    (h : ∀ k < size.bytes, mem (a + k) = mem' (b + k)) : fetch size mem a = fetch size mem' b := by
  cases size with
  | byte => exact congrArg (BitVec.signExtend 32) (h 0 (by decide))
  | half =>
      have h0 : mem a = mem' b := h 0 (by decide)
      unfold fetch
      rw [h0, h 1 (by decide)]
  | word =>
      have h0 : mem a = mem' b := h 0 (by decide)
      unfold fetch
      rw [h0, h 1 (by decide), h 2 (by decide), h 3 (by decide)]

/-- Different addresses of a program are different physical ones. -/
theorem Mapped.physical_inj {m : Machine} (h : Mapped m.pageTable) {v w : ℕ}
    (hv : v < m.pageTable.length * PageSize) (hw : w < m.pageTable.length * PageSize)
    (heq : physical m.frames v = physical m.frames w) : v = w := by
  have hlen : m.frames.length = m.pageTable.length := List.length_map _
  refine NachOS.physical_inj h.distinct ?_ (hlen ▸ hv) (hlen ▸ hw) heq
  intro f hf
  obtain ⟨e, he, rfl⟩ := List.mem_map.mp hf
  exact (h.inside e he).1

namespace Sees

variable {m : Machine} {n : ℕ} {mem : ℕ → Byte} {addr : Word} {size : Size}

/-- The value of an access. -/
theorem fetch_physical (h : Sees m n mem) (haligned : Aligned addr size) (hlt : addr.toNat < n) :
    fetch size m.mainMemory (physical m.frames addr.toNat) = fetch size mem addr.toNat := by
  apply fetch_congr
  intro k hk
  have hpage := haligned.page hk
  have hin : addr.toNat + k < n := by
    rw [← h.size] at hlt ⊢
    exact add_lt_of_page hlt hpage
  rw [← physical_add hpage]
  exact h.bytes _ hin

/-- **Bytes that are stored in one page.** -/
theorem store_physical (h : Sees m n mem) {v : ℕ} (hv : v < n) {row : List Byte}
    (hrow : v % PageSize + row.length ≤ PageSize) :
    Sees { m with mainMemory := store m.mainMemory (physical m.frames v) row } n
      (store mem v row) where
  mapped := h.mapped
  size := h.size
  bytes w hw := by
    show store m.mainMemory (physical m.frames v) row (physical m.frames w) = store mem v row w
    have hnext {k : ℕ} (hk : k < row.length) :
        physical m.frames (v + k) = physical m.frames v + k :=
      physical_add (by omega)
    by_cases hrange : v ≤ w ∧ w < v + row.length
    · obtain ⟨k, rfl⟩ := Nat.exists_eq_add_of_le hrange.1
      have hk : k < row.length := by omega
      rw [hnext hk, store_add hk, store_add hk]
    · have hother : ∀ k < row.length, physical m.frames w ≠ physical m.frames v + k := by
        intro k hk heq
        rw [← hnext hk] at heq
        have hin : v + k < m.pageTable.length * PageSize :=
          add_lt_of_page (h.size ▸ hv) (by omega)
        have := h.mapped.physical_inj (h.size ▸ hw) hin heq
        omega
      have hleft : store m.mainMemory (physical m.frames v) row (physical m.frames w)
          = m.mainMemory (physical m.frames w) := by
        rcases Nat.lt_or_ge (physical m.frames w) (physical m.frames v) with hlt | hge
        · exact store_of_lt hlt
        · apply store_of_le
          by_contra hlen
          exact hother (physical m.frames w - physical m.frames v) (by omega) (by omega)
      have hright : store mem v row w = mem w := by
        rcases Nat.lt_or_ge w v with hlt | hge
        · exact store_of_lt hlt
        · exact store_of_le (by omega)
      rw [hleft, hright]
      exact h.bytes w hw

/-- They are in the frames of the page table. -/
theorem confined_store (h : Sees m n mem) {v : ℕ} (hv : v < n) {row : List Byte}
    (hrow : v % PageSize + row.length ≤ PageSize) :
    Confined m { m with mainMemory := store m.mainMemory (physical m.frames v) row } where
  frames := rfl
  others a ha := by
    have houtside : ¬ (physical m.frames v ≤ a ∧ a < physical m.frames v + row.length) := by
      rintro ⟨hle, hlt⟩
      obtain ⟨k, rfl⟩ := Nat.exists_eq_add_of_le hle
      have hpage : v % PageSize + k < PageSize := by omega
      apply ha
      rw [← physical_add hpage]
      exact h.mapped.physical_mem (add_lt_of_page (h.size ▸ hv) hpage)
    rcases Nat.lt_or_ge a (physical m.frames v) with hlt | hge
    · exact store_of_lt hlt
    · exact store_of_le (by omega)

end Sees

/-- What is done in the frames of one page table is not seen through another without them. -/
theorem Confined.sees_other {m m' : Machine} {pageTable : List TranslationEntry} {n : ℕ}
    {mem : ℕ → Byte} (hconfined : Confined m m') (h : Sees ⟨m.mainMemory, pageTable⟩ n mem)
    (hseparate : ∀ f ∈ (Machine.mk m.mainMemory pageTable).frames, f ∉ m.frames) :
    Sees ⟨m'.mainMemory, pageTable⟩ n mem where
  mapped := h.mapped
  size := h.size
  bytes v hv := by
    have hframe := h.mapped.physical_mem (h.size ▸ hv)
    exact (hconfined.others _ (hseparate _ hframe)).trans (h.bytes v hv)

/-! ## Memories that answer alike -/

/-- Every access is answered alike, and leaves memories that are related. -/
structure Simulates {μ ν : Type} [UserMemory μ] [UserMemory ν] (R : μ → ν → Prop) : Prop where
  read : ∀ {m p}, R m p → ∀ addr size,
    ExceptRel Eq (fun a a' => a.1 = a'.1 ∧ R a.2 a'.2) (ReadMem addr size m) (ReadMem addr size p)
  write : ∀ {m p}, R m p → ∀ addr size value,
    ExceptRel Eq R (WriteMem addr size value m) (WriteMem addr size value p)

/-- The plain memory is the one that the program sees, and since `start` no byte outside the
frames of the page table has changed. -/
structure Shows (start m : Machine) (p : PlainMemory) : Prop where
  sees : Sees m p.size p.bytes
  confined : Confined start m

/-- **Every access of 1, 2 or 4 bytes** goes through the page table as on the plain memory. -/
theorem simulates_shows (start : Machine) : Simulates (Shows start) where
  read {m p} h addr size := by
    dsimp only [ReadMem]
    rw [Machine.translate_word h.sees.mapped, h.sees.size]
    by_cases haccess : Aligned addr size ∧ addr.toNat < p.size
    · rw [if_pos haccess, if_pos haccess]
      refine .ok ⟨?_, h.sees.touch _ _, h.confined.trans (.touch _ _ _)⟩
      exact h.sees.fetch_physical haccess.1 haccess.2
    · rw [if_neg haccess, if_neg haccess]
      exact .error rfl
  write {m p} h addr size value := by
    dsimp only [WriteMem]
    rw [Machine.translate_word h.sees.mapped, h.sees.size]
    by_cases haccess : Aligned addr size ∧ addr.toNat < p.size
    · rw [if_pos haccess, if_pos haccess]
      have htouch := h.sees.touch (addr.toNat / PageSize) true
      have hrow : addr.toNat % PageSize + (bytesOf size value).length ≤ PageSize := by
        have hlast := haccess.1.page (k := size.bytes - 1) (by cases size <;> decide)
        have hpos : 0 < size.bytes := by cases size <;> decide
        rw [bytesOf_length]
        omega
      have hsees := htouch.store_physical haccess.2 hrow
      have hconfined := htouch.confined_store haccess.2 hrow
      rw [Machine.frames, Machine.frames_touch] at hsees hconfined
      exact .ok ⟨hsees, (h.confined.trans (.touch _ _ _)).trans hconfined⟩
    · rw [if_neg haccess, if_neg haccess]
      exact .error rfl

/-! ## One instruction on two memories -/

section

variable {μ ν : Type}

/-- The same fault, with related memories. -/
def FaultRel (R : μ → ν → Prop) (f : Fault × μ) (f' : Fault × ν) : Prop := f.1 = f'.1 ∧ R f.2 f'.2

/-- The same registers, with related memories. -/
structure ExecutedRel (R : μ → ν → Prop) (e : Executed μ) (e' : Executed ν) : Prop where
  registers : e.registers = e'.registers
  pcAfter : e.pcAfter = e'.pcAfter
  nextLoadReg : e.nextLoadReg = e'.nextLoadReg
  nextLoadValue : e.nextLoadValue = e'.nextLoadValue
  memory : R e.memory e'.memory

/-- The same registers, with related memories. -/
structure ProcessorRel (R : μ → ν → Prop) (p : Processor μ) (q : Processor ν) : Prop where
  registers : p.registers = q.registers
  memory : R p.memory q.memory

/-- The same outcome. -/
inductive OutcomeRel (R : μ → ν → Prop) : Outcome μ → Outcome ν → Prop
  | next {p : Processor μ} {q : Processor ν} (h : ProcessorRel R p q) :
      OutcomeRel R (.next p) (.next q)
  | exception {which : Trap} {p : Processor μ} {q : Processor ν} (h : ProcessorRel R p q) :
      OutcomeRel R (.exception which p) (.exception which q)
  | abort : OutcomeRel R .abort .abort

variable [UserMemory μ] [UserMemory ν] {R : μ → ν → Prop} {m : μ} {p : ν}

theorem Simulates.readOr (hR : Simulates R) (h : R m p) (addr : Word) (size : Size) {α α' : Type}
    {A : α → α' → Prop} {rest : Word → μ → Except (Fault × μ) α}
    {rest' : Word → ν → Except (Fault × ν) α'}
    (hrest : ∀ value m p, R m p → ExceptRel (FaultRel R) A (rest value m) (rest' value p)) :
    ExceptRel (FaultRel R) A (readOr addr size m rest) (readOr addr size p rest') := by
  unfold NachOS.readOr
  have hread := hR.read h addr size
  revert hread
  generalize ReadMem addr size m = x, ReadMem addr size p = y
  intro hread
  cases hread with
  | error he => exact .error ⟨by rw [he], h⟩
  | @ok a a' ha =>
      obtain ⟨value, m'⟩ := a
      obtain ⟨value', p'⟩ := a'
      obtain ⟨rfl, hm⟩ := ha
      exact hrest value m' p' hm

theorem Simulates.writeOr (hR : Simulates R) (h : R m p) (addr : Word) (size : Size) (value : Word)
    {α α' : Type} {A : α → α' → Prop} {rest : μ → Except (Fault × μ) α}
    {rest' : ν → Except (Fault × ν) α'}
    (hrest : ∀ m p, R m p → ExceptRel (FaultRel R) A (rest m) (rest' p)) :
    ExceptRel (FaultRel R) A (writeOr addr size value m rest)
      (writeOr addr size value p rest') := by
  unfold NachOS.writeOr
  have hwrite := hR.write h addr size value
  revert hwrite
  generalize WriteMem addr size value m = x, WriteMem addr size value p = y
  intro hwrite
  cases hwrite with
  | error he => exact .error ⟨by rw [he], h⟩
  | ok hm => exact hrest _ _ hm

omit [UserMemory μ] [UserMemory ν] in
theorem onlyRegisters_rel (h : R m p) (r : Except Fault Computed) :
    ExceptRel (FaultRel R) (ExecutedRel R) (onlyRegisters r m) (onlyRegisters r p) := by
  cases r with
  | error fault => exact .error ⟨rfl, h⟩
  | ok r => exact .ok ⟨rfl, rfl, rfl, rfl, h⟩

/-- **The `switch`.** Only thirteen of its arms touch the memory. -/
theorem Simulates.execute (hR : Simulates R) (h : R m p) (instr : Instruction)
    (registers : Registers) :
    ExceptRel (FaultRel R) (ExecutedRel R) (instr.execute registers m)
      (instr.execute registers p) := by
  obtain ⟨opCode, rs, rt, rd, extra⟩ := instr
  unfold Instruction.execute
  dsimp only
  cases opCode with
  | OP_LB | OP_LBU =>
      refine hR.readOr h _ _ fun value m p hm => ?_
      exact .ok ⟨rfl, rfl, rfl, rfl, hm⟩
  | OP_LH | OP_LHU =>
      dsimp only
      by_cases haddr : (registers rs + extra) &&& 1 ≠ 0
      · rw [if_pos haddr, if_pos haddr]
        exact .error ⟨rfl, h⟩
      · rw [if_neg haddr, if_neg haddr]
        refine hR.readOr h _ _ fun value m p hm => ?_
        exact .ok ⟨rfl, rfl, rfl, rfl, hm⟩
  | OP_LW | OP_LWL | OP_LWR =>
      dsimp only
      by_cases haddr : (registers rs + extra) &&& 3 ≠ 0
      · rw [if_pos haddr, if_pos haddr]
        exact .error ⟨rfl, h⟩
      · rw [if_neg haddr, if_neg haddr]
        refine hR.readOr h _ _ fun value m p hm => ?_
        exact .ok ⟨rfl, rfl, rfl, rfl, hm⟩
  | OP_SB | OP_SH | OP_SW =>
      refine hR.writeOr h _ _ _ fun m p hm => ?_
      exact .ok ⟨rfl, rfl, rfl, rfl, hm⟩
  | OP_SWL | OP_SWR =>
      dsimp only
      by_cases haddr : (registers rs + extra) &&& 3 ≠ 0
      · rw [if_pos haddr, if_pos haddr]
        exact .error ⟨rfl, h⟩
      · rw [if_neg haddr, if_neg haddr]
        refine hR.readOr h _ _ fun value m p hm => ?_
        refine hR.writeOr hm _ _ _ fun m p hm => ?_
        exact .ok ⟨rfl, rfl, rfl, rfl, hm⟩
  | _ => exact onlyRegisters_rel h _

omit [UserMemory μ] [UserMemory ν] in
theorem FaultRel.onFault {f : Fault × μ} {f' : Fault × ν} (h : FaultRel R f f')
    (registers : Registers) : OutcomeRel R (onFault registers f) (onFault registers f') := by
  obtain ⟨fault, m⟩ := f
  obtain ⟨fault', p⟩ := f'
  obtain ⟨rfl, hm⟩ := h
  cases fault with
  | abort => exact .abort
  | raise which badVAddr =>
      unfold NachOS.onFault RaiseException
      dsimp only
      cases DelayedLoad 0 0 (update registers BadVAddrReg badVAddr) with
      | none => exact .abort
      | some registers => exact .exception ⟨rfl, hm⟩

omit [UserMemory μ] [UserMemory ν] in
theorem ExecutedRel.complete {e : Executed μ} {e' : Executed ν} (h : ExecutedRel R e e') :
    OutcomeRel R (complete e) (complete e') := by
  unfold NachOS.complete
  rw [h.registers, h.nextLoadReg, h.nextLoadValue]
  cases DelayedLoad e'.nextLoadReg e'.nextLoadValue e'.registers with
  | none => exact .abort
  | some registers =>
      dsimp only
      rw [h.pcAfter]
      exact .next ⟨rfl, h.memory⟩

/-- **`OneInstruction` on memories that answer alike.** -/
theorem Simulates.oneInstruction (hR : Simulates R) {p : Processor μ} {q : Processor ν}
    (h : ProcessorRel R p q) : OutcomeRel R (OneInstruction p) (OneInstruction q) := by
  have hexecute : ExceptRel (FaultRel R) (ExecutedRel R)
      (fetchDecode p >>= fun r => r.1.execute p.registers r.2)
      (fetchDecode q >>= fun r => r.1.execute q.registers r.2) := by
    have hfetch : ExceptRel (FaultRel R) (fun r r' => r.1 = r'.1 ∧ R r.2 r'.2) (fetchDecode p)
        (fetchDecode q) := by
      unfold fetchDecode
      rw [h.registers]
      exact hR.readOr h.memory _ _ fun value m p hm => .ok ⟨rfl, hm⟩
    refine hfetch.bind fun r r' hr => ?_
    rw [h.registers, hr.1]
    exact hR.execute hr.2 _ _
  unfold OneInstruction
  revert hexecute
  generalize (fetchDecode p >>= fun r => r.1.execute p.registers r.2) = x,
    (fetchDecode q >>= fun r => r.1.execute q.registers r.2) = y
  intro hexecute
  cases hexecute with
  | error hfault =>
      rw [h.registers]
      exact hfault.onFault _
  | ok hexecuted => exact hexecuted.complete

end

end LoadBalancer.NachOS
