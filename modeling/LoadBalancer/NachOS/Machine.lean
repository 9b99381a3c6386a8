/-
The memory of `Machine`, and the translation of virtual addresses (`machine.h`, `translate.cc`),
with the two functions of `exception.cc` that copy bytes between a user program and the kernel.

A page table whose entries are valid and name different frames shows a user program a memory of
its own, addressed from `0` ([`Sees`]). Reading a byte, writing one, and copying a row of them
are, seen that way, the operations of a plain memory ([`Sees.readMem`], [`Sees.writeMem`],
[`Sees.systemToNachos`], [`Sees.nachosToSystem`]).
-/
import Mathlib.Order.Interval.Finset.Nat
import Mathlib.Order.Interval.Finset.Basic
import Mathlib.Data.Int.Interval
import Mathlib.Data.List.GetD
import LoadBalancer.Lib.Memory

set_option autoImplicit false

namespace LoadBalancer.NachOS

open LoadBalancer.Memory

/-! ## The machine -/

/-- `char`. -/
abbrev Byte := BitVec 8

/-- `PageSize`, which is `SectorSize`. -/
def PageSize : ℕ := 4096

/-- `NumPhysPages`. -/
def NumPhysPages : ℕ := 1024

/-- `MemorySize`. -/
def MemorySize : ℕ := NumPhysPages * PageSize

/-- `TranslationEntry`. -/
structure TranslationEntry where
  virtualPage : ℤ
  physicalPage : ℤ
  valid : Bool
  readOnly : Bool
  use : Bool
  dirty : Bool
deriving DecidableEq, Repr

/-- What `Translate` can find wrong. -/
inductive ExceptionType
  | PageFaultException
  | ReadOnlyException
  | BusErrorException
  | AddressErrorException
deriving DecidableEq, Repr

/-- `Machine`: `mainMemory[a]` for the `MemorySize` addresses that there are, and the page table,
`pageTableSize` entries long. There is no TLB. -/
structure Machine where
  mainMemory : ℕ → Byte
  pageTable : List TranslationEntry

/-- The conversion of an `int` to `unsigned`. -/
def toUnsigned (n : ℤ) : ℕ := (n % 4294967296).toNat

/-- The conversion of an `unsigned` to `int`. -/
def toSigned (n : ℕ) : ℤ := if n < 2147483648 then n else (n : ℤ) - 4294967296

theorem toSigned_of_lt {n : ℕ} (h : n < 2147483648) : toSigned n = n := if_pos h

theorem toSigned_toUnsigned {z : ℤ} (hlow : -2147483648 ≤ z) (hhigh : z < 2147483648) :
    toSigned (toUnsigned z) = z := by
  unfold toSigned toUnsigned
  split_ifs <;> omega

theorem toUnsigned_lt (z : ℤ) : toUnsigned z < 4294967296 := by
  unfold toUnsigned
  omega

theorem toSigned_bounds {n : ℕ} (h : n < 4294967296) :
    -2147483648 ≤ toSigned n ∧ toSigned n < 2147483648 := by
  unfold toSigned
  split_ifs <;> omega

theorem toUnsigned_natCast {n : ℕ} (h : n < 4294967296) : toUnsigned n = n := by
  unfold toUnsigned
  omega

namespace Machine

/-- `Translate`: the physical address, and the machine with the entry's `use` and `dirty` set. -/
def Translate (virtAddr : ℤ) (size : ℕ) (writing : Bool) (m : Machine) :
    Except ExceptionType (ℕ × Machine) :=
  if (size = 4 ∧ virtAddr % 4 ≠ 0) ∨ (size = 2 ∧ virtAddr % 2 ≠ 0) then
    .error .AddressErrorException
  else
    let vpn := toUnsigned virtAddr / PageSize
    let offset := toUnsigned virtAddr % PageSize
    match m.pageTable[vpn]? with
    | none => .error .AddressErrorException
    | some entry =>
        if entry.valid = false then .error .PageFaultException
        else if entry.readOnly && writing then .error .ReadOnlyException
        else
          let pageFrame := toUnsigned entry.physicalPage
          if pageFrame ≥ NumPhysPages then .error .BusErrorException
          else
            .ok (pageFrame * PageSize + offset,
              { m with
                pageTable := m.pageTable.set vpn
                  { entry with use := true, dirty := entry.dirty || writing } })

/-- `ReadMem` of one byte: `*value`, as an `int`, if that is set, which is what the function returns.
`ExceptionHandler` does nothing about a page fault and comes back; any other exception fails its
`ASSERT`, and Nachos ends. -/
def ReadMem (addr : ℤ) (m : Machine) : Option (Option ℤ × Machine) :=
  match m.Translate addr 1 false with
  | .ok (physicalAddress, m) => some (some (m.mainMemory physicalAddress).toInt, m)
  | .error .PageFaultException => some (none, m)
  | .error _ => none

/-- `WriteMem` of one byte, the low one of `value`, and what it returns. -/
def WriteMem (addr value : ℤ) (m : Machine) : Option (Bool × Machine) :=
  match m.Translate addr 1 true with
  | .ok (physicalAddress, m) =>
      some (true,
        { m with
          mainMemory := Function.update m.mainMemory physicalAddress (BitVec.ofInt 8 value) })
  | .error .PageFaultException => some (false, m)
  | .error _ => none

/-- The loop of `systemToNachos`. A page fault leaves in `buffer_local` the byte before, and what it
holds before it is set has no defined value. -/
def readBytes (virtual_address : ℤ) : ℕ → Option ℤ → Machine → Option (List Byte × Machine)
  | 0, _, m => some ([], m)
  | n + 1, buffer_local, m =>
      (m.ReadMem virtual_address).bind fun (value, m) =>
        (value.or buffer_local).bind fun buffer_local =>
          (readBytes (virtual_address + 1) n (some buffer_local) m).map fun (buffer, m) =>
            (BitVec.ofInt 8 buffer_local :: buffer, m)

/-- `systemToNachos`: the bytes and a NUL behind them. -/
def systemToNachos (virtual_address size : ℤ) (m : Machine) : Option (List Byte × Machine) :=
  if size < 0 then none
  else (m.readBytes virtual_address size.toNat none).map fun (buffer, m) => (buffer ++ [0], m)

/-- The loop of `nachosToSystem`, which does not look at what `WriteMem` returns. -/
def writeBytes (virtual_address : ℤ) : List Byte → Machine → Option Machine
  | [], m => some m
  | b :: buffer, m =>
      (m.WriteMem virtual_address b.toInt).bind fun (_, m) =>
        writeBytes (virtual_address + 1) buffer m

/-- `nachosToSystem`, which has to stay inside the buffer: the machine afterwards and how many
bytes were copied. -/
def nachosToSystem (virtual_address : ℤ) (buffer : List Byte) (size : ℤ) (m : Machine) :
    Option (Machine × ℤ) :=
  if size < 0 then some (m, -1)
  else if size = 0 then some (m, size)
  else if size ≤ buffer.length then
    (m.writeBytes virtual_address (buffer.take size.toNat)).map fun m => (m, size)
  else none

end Machine

/-! ## What a user program sees -/

/-- A page table whose entries are valid, writable, and name different frames. -/
structure Mapped (pageTable : List TranslationEntry) : Prop where
  access : ∀ e ∈ pageTable, e.valid = true ∧ e.readOnly = false
  inside : ∀ e ∈ pageTable, 0 ≤ e.physicalPage ∧ e.physicalPage < NumPhysPages
  distinct : (pageTable.map (·.physicalPage)).Nodup

/-- The physical address of a virtual one, for a list of frames. -/
def physical (frames : List ℤ) (v : ℕ) : ℕ :=
  (frames.getD (v / PageSize) 0).toNat * PageSize + v % PageSize

/-- The memory of `n` bytes that a user program sees through its page table. -/
structure Sees (m : Machine) (n : ℕ) (mem : ℕ → Byte) : Prop where
  mapped : Mapped m.pageTable
  size : m.pageTable.length * PageSize = n
  bytes : ∀ v < n, m.mainMemory (physical (m.pageTable.map (·.physicalPage)) v) = mem v

/-- There are no more pages than frames. -/
theorem Mapped.length_le {pageTable : List TranslationEntry} (h : Mapped pageTable) :
    pageTable.length ≤ NumPhysPages := by
  have hsub : (pageTable.map (·.physicalPage)).toFinset ⊆ Finset.Ico (0 : ℤ) NumPhysPages := by
    intro f hf
    obtain ⟨e, he, rfl⟩ := List.mem_map.mp (List.mem_toFinset.mp hf)
    exact Finset.mem_Ico.mpr (h.inside e he)
  have hcard := Finset.card_le_card hsub
  rw [List.toFinset_card_of_nodup h.distinct, List.length_map, Int.card_Ico] at hcard
  simpa using hcard

/-- The entry after an access: the same page, used. -/
def TranslationEntry.touch (e : TranslationEntry) (writing : Bool) : TranslationEntry :=
  { e with use := true, dirty := e.dirty || writing }

/-- The machine after an access to a page. -/
def Machine.touch (m : Machine) (vpn : ℕ) (writing : Bool) : Machine :=
  { m with pageTable := m.pageTable.modify vpn (·.touch writing) }

@[simp] theorem Machine.touch_mainMemory (m : Machine) (vpn : ℕ) (writing : Bool) :
    (m.touch vpn writing).mainMemory = m.mainMemory := rfl

@[simp] theorem Machine.touch_length (m : Machine) (vpn : ℕ) (writing : Bool) :
    (m.touch vpn writing).pageTable.length = m.pageTable.length := List.length_modify _ _ _

/-- An access leaves what the entries map. -/
theorem Machine.map_touch {γ : Type} {g : TranslationEntry → γ} (hg : ∀ e w, g (e.touch w) = g e)
    (m : Machine) (vpn : ℕ) (writing : Bool) :
    (m.touch vpn writing).pageTable.map g = m.pageTable.map g := by
  apply List.ext_getElem?
  intro i
  rw [Machine.touch]
  dsimp only
  rw [List.getElem?_map, List.getElem?_map, List.getElem?_modify]
  cases m.pageTable[i]? with
  | none => rfl
  | some e =>
      rw [Option.map_eq_map, Option.map_some, Option.map_some, Option.map_some]
      split_ifs
      · rw [hg]
      · rfl

@[simp] theorem Machine.frames_touch (m : Machine) (vpn : ℕ) (writing : Bool) :
    (m.touch vpn writing).pageTable.map (·.physicalPage) = m.pageTable.map (·.physicalPage) :=
  m.map_touch (fun _ _ => rfl) vpn writing

theorem Mapped.touch {m : Machine} (h : Mapped m.pageTable) (vpn : ℕ) (writing : Bool) :
    Mapped (m.touch vpn writing).pageTable := by
  have hback : ∀ e ∈ (m.touch vpn writing).pageTable, ∃ e' ∈ m.pageTable,
      e'.valid = e.valid ∧ e'.readOnly = e.readOnly ∧ e'.physicalPage = e.physicalPage := by
    intro e he
    have hkey := m.map_touch (g := fun e => (e.valid, e.readOnly, e.physicalPage))
      (fun _ _ => rfl) vpn writing
    have hmem := List.mem_map_of_mem (f := fun e : TranslationEntry =>
      (e.valid, e.readOnly, e.physicalPage)) he
    rw [hkey] at hmem
    obtain ⟨e', he', heq⟩ := List.mem_map.mp hmem
    simp only [Prod.mk.injEq] at heq
    exact ⟨e', he', heq⟩
  refine ⟨fun e he => ?_, fun e he => ?_, ?_⟩
  · obtain ⟨e', he', hvalid, hread, -⟩ := hback e he
    rw [← hvalid, ← hread]
    exact h.access e' he'
  · obtain ⟨e', he', -, -, hpage⟩ := hback e he
    rw [← hpage]
    exact h.inside e' he'
  · rw [Machine.frames_touch]
    exact h.distinct

/-! ## Addresses -/

theorem physical_div (frames : List ℤ) (v : ℕ) :
    physical frames v / PageSize = (frames.getD (v / PageSize) 0).toNat := by
  have hpos : 0 < PageSize := by decide
  rw [physical, Nat.mul_comm, Nat.mul_add_div hpos, Nat.div_eq_of_lt (Nat.mod_lt v hpos),
    Nat.add_zero]

theorem physical_mod (frames : List ℤ) (v : ℕ) : physical frames v % PageSize = v % PageSize := by
  rw [physical, Nat.mul_comm, Nat.mul_add_mod, Nat.mod_mod]

/-- Different virtual addresses are different physical ones. -/
theorem physical_inj {frames : List ℤ} (hnodup : frames.Nodup) (hpos : ∀ f ∈ frames, 0 ≤ f)
    {v w : ℕ} (hv : v < frames.length * PageSize) (hw : w < frames.length * PageSize)
    (h : physical frames v = physical frames w) : v = w := by
  have hvp : v / PageSize < frames.length := Nat.div_lt_of_lt_mul (by rwa [Nat.mul_comm] at hv)
  have hwp : w / PageSize < frames.length := Nat.div_lt_of_lt_mul (by rwa [Nat.mul_comm] at hw)
  have hframe := congrArg (· / PageSize) h
  have hoffset := congrArg (· % PageSize) h
  simp only [physical_div, physical_mod, List.getD_eq_getElem _ _ hvp,
    List.getD_eq_getElem _ _ hwp] at hframe hoffset
  have hv0 := hpos _ (List.getElem_mem hvp)
  have hw0 := hpos _ (List.getElem_mem hwp)
  have hpage : v / PageSize = w / PageSize := (hnodup.getElem_inj_iff).mp (by omega)
  rw [← Nat.div_add_mod v PageSize, hpage, hoffset, Nat.div_add_mod]

/-- **The translation of a mapped address.** -/
theorem Machine.translate_eq {m : Machine} (h : Mapped m.pageTable) {v : ℕ}
    (hv : v < m.pageTable.length * PageSize) (writing : Bool) :
    m.Translate v 1 writing
      = .ok (physical (m.pageTable.map (·.physicalPage)) v, m.touch (v / PageSize) writing) := by
  have hpage : v / PageSize < m.pageTable.length :=
    Nat.div_lt_of_lt_mul (by rwa [Nat.mul_comm] at hv)
  have hvlt : v < 4294967296 := by
    have := Nat.mul_le_mul_right PageSize h.length_le
    have hsize : NumPhysPages * PageSize = 4194304 := rfl
    omega
  have hmem := List.getElem_mem hpage
  obtain ⟨hvalid, hread⟩ := h.access _ hmem
  obtain ⟨hlow, hhigh⟩ := h.inside _ hmem
  have hframe : toUnsigned (m.pageTable[v / PageSize]).physicalPage
      = (m.pageTable[v / PageSize]).physicalPage.toNat := by
    have hpages : NumPhysPages = 1024 := rfl
    unfold toUnsigned
    omega
  have hset : m.pageTable.set (v / PageSize) ((m.pageTable[v / PageSize]).touch writing)
      = m.pageTable.modify (v / PageSize) (·.touch writing) := by
    rw [List.modify_eq_set_getElem?, List.getElem?_eq_getElem hpage]
    rfl
  have hsize : ¬ ((1 = 4 ∧ (v : ℤ) % 4 ≠ 0) ∨ (1 = 2 ∧ (v : ℤ) % 2 ≠ 0)) := by
    rintro (⟨h1, -⟩ | ⟨h1, -⟩)
    · exact absurd h1 (by decide)
    · exact absurd h1 (by decide)
  have haddr : physical (m.pageTable.map (·.physicalPage)) v
      = (m.pageTable[v / PageSize]).physicalPage.toNat * PageSize + v % PageSize := by
    rw [physical, List.getD_eq_getElem _ _ (by rwa [List.length_map]), List.getElem_map]
  unfold Translate
  rw [if_neg hsize]
  dsimp only
  rw [toUnsigned_natCast hvlt, List.getElem?_eq_getElem hpage]
  dsimp only
  rw [if_neg (by rw [hvalid]; decide), if_neg (by rw [hread, Bool.false_and]; decide), hframe,
    if_neg (by omega), haddr, Machine.touch, ← hset]
  rfl

/-! ## The memory of a user program -/

namespace Sees

variable {m : Machine} {n : ℕ} {mem : ℕ → Byte}

theorem touch (h : Sees m n mem) (vpn : ℕ) (writing : Bool) : Sees (m.touch vpn writing) n mem where
  mapped := h.mapped.touch vpn writing
  size := by
    rw [Machine.touch_length]
    exact h.size
  bytes := by
    rw [Machine.frames_touch]
    exact h.bytes

/-- **Reading a byte.** -/
theorem readMem (h : Sees m n mem) {v : ℕ} (hv : v < n) :
    ∃ m', m.ReadMem v = some (some (mem v).toInt, m') ∧ Sees m' n mem := by
  refine ⟨m.touch (v / PageSize) false, ?_, h.touch _ _⟩
  have hv' : v < m.pageTable.length * PageSize := h.size ▸ hv
  rw [Machine.ReadMem, Machine.translate_eq h.mapped hv']
  dsimp only
  rw [Machine.touch_mainMemory, h.bytes v hv]

/-- **Writing a byte.** -/
theorem writeMem (h : Sees m n mem) {v : ℕ} (hv : v < n) (value : ℤ) :
    ∃ m', m.WriteMem v value = some (true, m')
      ∧ Sees m' n (Function.update mem v (BitVec.ofInt 8 value)) := by
  have hv' : v < m.pageTable.length * PageSize := h.size ▸ hv
  rw [Machine.WriteMem, Machine.translate_eq h.mapped hv']
  have htouch := h.touch (v / PageSize) true
  refine ⟨_, rfl, htouch.mapped, htouch.size, fun w hw => ?_⟩
  have hw' : w < m.pageTable.length * PageSize := h.size ▸ hw
  dsimp only
  rw [Machine.frames_touch, Machine.touch_mainMemory]
  by_cases hwv : w = v
  · rw [hwv, Function.update_self, Function.update_self]
  · have hne : physical (m.pageTable.map (·.physicalPage)) w
        ≠ physical (m.pageTable.map (·.physicalPage)) v := by
      intro heq
      refine hwv (physical_inj h.mapped.distinct ?_ ?_ ?_ heq)
      · intro f hf
        obtain ⟨e, he, rfl⟩ := List.mem_map.mp hf
        exact (h.mapped.inside e he).1
      · rwa [List.length_map]
      · rwa [List.length_map]
    rw [Function.update_of_ne hwv, Function.update_of_ne hne, h.bytes w hw]

/-- A row of bytes is read through `int`s unchanged. -/
theorem readBytes (h : Sees m n mem) {v k : ℕ} (hv : v + k ≤ n) (buffer_local : Option ℤ) :
    ∃ m', m.readBytes v k buffer_local = some (load mem v k, m') ∧ Sees m' n mem := by
  induction k generalizing m v buffer_local with
  | zero => exact ⟨m, rfl, h⟩
  | succ k ih =>
      obtain ⟨m₁, hread, h₁⟩ := h.readMem (v := v) (by omega)
      obtain ⟨m₂, hrest, h₂⟩ := ih h₁ (v := v + 1) (by omega) (some (mem v).toInt)
      refine ⟨m₂, ?_, h₂⟩
      rw [Machine.readBytes, hread, Option.bind_some]
      dsimp only
      rw [Option.some_or, Option.bind_some, ← Int.natCast_succ, hrest, Option.map_some,
        BitVec.ofInt_toInt, load]

/-- And written. -/
theorem writeBytes (h : Sees m n mem) {v : ℕ} {row : List Byte} (hv : v + row.length ≤ n) :
    ∃ m', m.writeBytes v row = some m' ∧ Sees m' n (store mem v row) := by
  induction row generalizing m mem v with
  | nil =>
      rw [store_nil]
      exact ⟨m, rfl, h⟩
  | cons b row ih =>
      rw [List.length_cons] at hv
      obtain ⟨m₁, hwrite, h₁⟩ := h.writeMem (v := v) (by omega) b.toInt
      rw [BitVec.ofInt_toInt] at h₁
      obtain ⟨m₂, hrest, h₂⟩ := ih h₁ (v := v + 1) (by omega)
      refine ⟨m₂, ?_, ?_⟩
      · rw [Machine.writeBytes, hwrite, Option.bind_some, ← Int.natCast_succ]
        exact hrest
      · rw [store_cons]
        exact h₂

/-- **`systemToNachos` reads the row at its address.** -/
theorem systemToNachos (h : Sees m n mem) {v k : ℕ} (hv : v + k ≤ n) :
    ∃ m', m.systemToNachos v k = some (load mem v k ++ [0], m') ∧ Sees m' n mem := by
  obtain ⟨m', hread, h'⟩ := h.readBytes hv none
  refine ⟨m', ?_, h'⟩
  rw [Machine.systemToNachos, if_neg (by omega), Int.toNat_natCast, hread, Option.map_some]

/-- **`nachosToSystem` stores the first bytes of the buffer at its address.** -/
theorem nachosToSystem (h : Sees m n mem) {v k : ℕ} {buffer : List Byte} (hk : k ≤ buffer.length)
    (hv : v + k ≤ n) :
    ∃ m', m.nachosToSystem v buffer k = some (m', (k : ℤ))
      ∧ Sees m' n (store mem v (buffer.take k)) := by
  rw [Machine.nachosToSystem, if_neg (by omega)]
  by_cases hzero : (k : ℤ) = 0
  · obtain rfl : k = 0 := by omega
    rw [if_pos hzero, List.take_zero, store_nil]
    exact ⟨m, rfl, h⟩
  · have hlen : (buffer.take k).length = k := List.length_take_of_le hk
    obtain ⟨m', hwrite, h'⟩ := h.writeBytes (by rwa [hlen] : v + (buffer.take k).length ≤ n)
    refine ⟨m', ?_, h'⟩
    rw [if_neg hzero, if_pos (by omega), Int.toNat_natCast, hwrite, Option.map_some]

end Sees

end LoadBalancer.NachOS
