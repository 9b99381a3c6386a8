/-
A row of bytes copied out to a user program and copied in again (`exception.cc`, `translate.cc`).

`nachosToSystem` widens each byte to an `int`, and `WriteMem` cuts it down to its low eight bits;
`ReadMem` extends the sign of what is there, and `systemToNachos` narrows it again. On a page table
whose entries name different frames both go, byte by byte, through the same translation, and
what comes back is what was sent ([`Machine.nachosToSystem_systemToNachos`]).

That nothing else changes is said of one access first: it stays in the frames of the page table
([`Confined`]), and so does a row of accesses.
-/
import LoadBalancer.NachOS.Machine

set_option autoImplicit false

namespace LoadBalancer.NachOS

open LoadBalancer.Memory

/-- The frames that the page table names. -/
def Machine.frames (m : Machine) : List ℤ := m.pageTable.map (·.physicalPage)

/-- The page table names the same frames, and the bytes of all other frames are as they were. -/
structure Confined (m m' : Machine) : Prop where
  frames : m'.frames = m.frames
  others : ∀ a : ℕ, ((a / PageSize : ℕ) : ℤ) ∉ m.frames → m'.mainMemory a = m.mainMemory a

namespace Confined

variable {m m₁ m₂ : Machine}

theorem refl (m : Machine) : Confined m m := ⟨rfl, fun _ _ => rfl⟩

theorem trans (h₁ : Confined m m₁) (h₂ : Confined m₁ m₂) : Confined m m₂ where
  frames := h₂.frames.trans h₁.frames
  others a ha := (h₂.others a (by rwa [h₁.frames])).trans (h₁.others a ha)

/-- An access to a page. -/
theorem touch (m : Machine) (vpn : ℕ) (writing : Bool) : Confined m (m.touch vpn writing) where
  frames := m.frames_touch vpn writing
  others _ _ := rfl

/-- A byte that is written at an address of one of the frames. -/
theorem update (m : Machine) {a : ℕ} (ha : ((a / PageSize : ℕ) : ℤ) ∈ m.frames) (b : Byte) :
    Confined m { m with mainMemory := Function.update m.mainMemory a b } where
  frames := rfl
  others i hi := by
    apply Function.update_of_ne
    rintro rfl
    exact hi ha

end Confined

/-- A virtual address is in one of the frames. -/
theorem Mapped.physical_mem {m : Machine} (h : Mapped m.pageTable) {v : ℕ}
    (hv : v < m.pageTable.length * PageSize) :
    ((physical m.frames v / PageSize : ℕ) : ℤ) ∈ m.frames := by
  have hpage : v / PageSize < m.frames.length := by
    rw [Machine.frames, List.length_map]
    exact Nat.div_lt_of_lt_mul (by rwa [Nat.mul_comm] at hv)
  have hmem := List.getElem_mem hpage
  rw [physical_div, List.getD_eq_getElem _ _ hpage, Int.toNat_of_nonneg]
  · exact hmem
  · obtain ⟨e, he, heq⟩ := List.mem_map.mp hmem
    rw [← heq]
    exact (h.inside e he).1

namespace Sees

variable {m m' : Machine} {n v : ℕ} {mem : ℕ → Byte}

/-- **Reading a byte changes no memory.** -/
theorem confined_readMem (h : Sees m n mem) (hv : v < n) {value : Option ℤ}
    (hread : m.ReadMem v = some (value, m')) : Confined m m' := by
  rw [Machine.ReadMem, Machine.translate_eq h.mapped (h.size ▸ hv)] at hread
  cases hread
  exact .touch m _ _

/-- **Writing a byte changes one frame of the page table.** -/
theorem confined_writeMem (h : Sees m n mem) (hv : v < n) {value : ℤ} {done : Bool}
    (hwrite : m.WriteMem v value = some (done, m')) : Confined m m' := by
  have hv' : v < m.pageTable.length * PageSize := h.size ▸ hv
  rw [Machine.WriteMem, Machine.translate_eq h.mapped hv'] at hwrite
  cases hwrite
  apply (Confined.touch m (v / PageSize) true).trans
  apply Confined.update
  rw [Machine.frames, Machine.frames_touch]
  exact h.mapped.physical_mem hv'

theorem confined_readBytes (h : Sees m n mem) {k : ℕ} (hv : v + k ≤ n) {row : List Byte}
    {buffer_local : Option ℤ} (hread : m.readBytes v k buffer_local = some (row, m')) :
    Confined m m' := by
  induction k generalizing m v row buffer_local with
  | zero =>
      cases hread
      exact .refl _
  | succ k ih =>
      obtain ⟨m₁, hone, h₁⟩ := h.readMem (v := v) (by omega)
      rw [Machine.readBytes, hone, Option.bind_some] at hread
      dsimp only at hread
      rw [Option.some_or, Option.bind_some] at hread
      obtain ⟨⟨rest, m₂⟩, hrest, heq⟩ := Option.map_eq_some_iff.mp hread
      cases heq
      rw [← Int.natCast_succ] at hrest
      exact (h.confined_readMem (by omega) hone).trans (ih h₁ (by omega) hrest)

theorem confined_writeBytes (h : Sees m n mem) {row : List Byte} (hv : v + row.length ≤ n)
    (hwrite : m.writeBytes v row = some m') : Confined m m' := by
  induction row generalizing m mem v with
  | nil =>
      cases hwrite
      exact .refl _
  | cons b row ih =>
      rw [List.length_cons] at hv
      obtain ⟨m₁, hone, h₁⟩ := h.writeMem (v := v) (by omega) b.toInt
      rw [Machine.writeBytes, hone, Option.bind_some, ← Int.natCast_succ] at hwrite
      exact (h.confined_writeMem (by omega) hone).trans (ih h₁ (by omega) hwrite)

theorem confined_systemToNachos (h : Sees m n mem) {k : ℕ} (hv : v + k ≤ n) {buffer : List Byte}
    (hread : m.systemToNachos v k = some (buffer, m')) : Confined m m' := by
  rw [Machine.systemToNachos, if_neg (by omega), Int.toNat_natCast] at hread
  obtain ⟨⟨row, m₁⟩, hrow, heq⟩ := Option.map_eq_some_iff.mp hread
  cases heq
  exact h.confined_readBytes hv hrow

theorem confined_nachosToSystem (h : Sees m n mem) {k : ℕ} {buffer : List Byte}
    (hk : k ≤ buffer.length) (hv : v + k ≤ n) {count : ℤ}
    (hwrite : m.nachosToSystem v buffer k = some (m', count)) : Confined m m' := by
  rw [Machine.nachosToSystem, if_neg (by omega)] at hwrite
  by_cases hzero : (k : ℤ) = 0
  · rw [if_pos hzero] at hwrite
    cases hwrite
    exact .refl _
  · rw [if_neg hzero, if_pos (by omega), Int.toNat_natCast] at hwrite
    obtain ⟨m₁, hrow, heq⟩ := Option.map_eq_some_iff.mp hwrite
    cases heq
    exact h.confined_writeBytes (by rwa [List.length_take_of_le hk]) hrow

end Sees

namespace Machine

/-- The byte at a virtual address, as `ReadMem` returns it. -/
def peek (m : Machine) (v : ℤ) : Option ℤ := (m.ReadMem v).bind Prod.fst

theorem peek_eq {m : Machine} {n v : ℕ} {mem : ℕ → Byte} (h : Sees m n mem) (hv : v < n) :
    m.peek v = some (mem v).toInt := by
  obtain ⟨m', hread, -⟩ := h.readMem hv
  rw [peek, hread, Option.bind_some]

/-- **What is copied out comes back**, followed by a NUL, and nothing else has changed: no other
virtual address, and no frame that the page table does not name. The entries name different frames,
so that no two virtual addresses are one physical. -/
theorem nachosToSystem_systemToNachos {m : Machine} (hmapped : Mapped m.pageTable)
    {addr size : ℤ} {buffer : List Byte} (haddr : 0 ≤ addr) (hsize : 0 ≤ size)
    (hrange : addr + size ≤ (m.pageTable.length * PageSize : ℕ))
    (hbuffer : size ≤ buffer.length) :
    ∃ m₁ m₂, m.nachosToSystem addr buffer size = some (m₁, size)
      ∧ m₁.systemToNachos addr size = some (buffer.take size.toNat ++ [0], m₂)
      ∧ (∀ v : ℕ, v < m.pageTable.length * PageSize → (v < addr ∨ addr + size ≤ v) →
        m₁.peek v = m.peek v ∧ m₂.peek v = m.peek v)
      ∧ (∀ a : ℕ, ((a / PageSize : ℕ) : ℤ) ∉ m.frames →
        m₁.mainMemory a = m.mainMemory a ∧ m₂.mainMemory a = m.mainMemory a) := by
  obtain ⟨v, rfl⟩ := Int.eq_ofNat_of_zero_le haddr
  obtain ⟨k, rfl⟩ := Int.eq_ofNat_of_zero_le hsize
  have hk : k ≤ buffer.length := Int.ofNat_le.mp hbuffer
  have hv : v + k ≤ m.pageTable.length * PageSize := by omega
  have hlen : (buffer.take k).length = k := List.length_take_of_le hk
  have hsees : Sees m (m.pageTable.length * PageSize) fun v => m.mainMemory (physical m.frames v) :=
    ⟨hmapped, rfl, fun _ _ => rfl⟩
  obtain ⟨m₁, hout, h₁⟩ := hsees.nachosToSystem hk hv
  obtain ⟨m₂, hin, h₂⟩ := h₁.systemToNachos hv
  have hback : load (store (fun v => m.mainMemory (physical m.frames v)) v (buffer.take k)) v k
      = buffer.take k := by
    have hload := load_store (fun v => m.mainMemory (physical m.frames v)) v (buffer.take k)
    rwa [hlen] at hload
  rw [hback] at hin
  refine ⟨m₁, m₂, hout, hin, fun w hw hother => ?_, fun a ha => ?_⟩
  · have hsame : store (fun v => m.mainMemory (physical m.frames v)) v (buffer.take k) w
        = m.mainMemory (physical m.frames w) := by
      rcases hother with hlt | hge
      · exact store_of_lt (Int.ofNat_lt.mp hlt)
      · exact store_of_le (by rw [hlen]; omega)
    rw [peek_eq h₁ hw, peek_eq h₂ hw, peek_eq hsees hw, hsame]
    exact ⟨rfl, rfl⟩
  · have hc₁ : Confined m m₁ := hsees.confined_nachosToSystem hk hv hout
    have hc₂ : Confined m₁ m₂ := h₁.confined_systemToNachos hv hin
    exact ⟨hc₁.others a ha, (hc₁.trans hc₂).others a ha⟩

/-- Four bytes over the end of page `0`, which is in a frame behind that of page `1`. -/
theorem nachosToSystem_systemToNachos_two_pages :
    let m : Machine :=
      ⟨fun _ => 7, [⟨0, 5, true, false, false, false⟩, ⟨1, 2, true, false, false, false⟩]⟩
    Mapped m.pageTable
      ∧ ∃ m₁ m₂, m.nachosToSystem 4094 [1, 0x80, 0xff, 0, 9] 4 = some (m₁, 4)
        ∧ m₁.systemToNachos 4094 4 = some ([1, 0x80, 0xff, 0, 0], m₂) := by
  intro m
  have hmapped : Mapped m.pageTable := ⟨by decide, by decide, by decide⟩
  obtain ⟨m₁, m₂, hout, hin, -, -⟩ := @nachosToSystem_systemToNachos m hmapped 4094 4
    [1, 0x80, 0xff, 0, 9] (by decide) (by decide) (by decide) (by decide)
  exact ⟨hmapped, m₁, m₂, hout, hin⟩

end Machine

end LoadBalancer.NachOS
