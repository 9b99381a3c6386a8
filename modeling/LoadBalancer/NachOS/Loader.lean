/-
The constructor of an address space from an executable, with the memory (`addrspace.cc`).

After the page table is made, the constructor zeroes a row of bytes of the size of the program,
at that size times the first frame, and for every page of code and initialised data it copies a
page of the file, at a position that it computes from the page's frame and not from the page.
[`loadFrom_eq_some_iff`] says what is in the memory afterwards.

With the first frames of the memory all of this is as it should be, since the frame of a page is
its number. [`loads_iff`] says exactly when the program that was loaded is the one in the file, and
[`isolated_iff`] when nothing outside the new frames was changed.
-/
import LoadBalancer.NachOS.Frames

set_option autoImplicit false

namespace LoadBalancer.NachOS

open LoadBalancer.FirstFit LoadBalancer.Memory LoadBalancer.Transition

/-! ## Files -/

/-- `OpenFile::ReadAt`: at most `numBytes` bytes from the position on, which is an `int` and which
`Lseek` asserts not to be negative. -/
def ReadAt (file : List Byte) (numBytes : ℕ) (position : ℤ) : Option (List Byte) :=
  if 0 ≤ position ∧ position < 2147483648 then some ((file.drop position.toNat).take numBytes)
  else none

/-- The `int` at an address, the low byte first. -/
def word (mem : ℕ → Byte) (a : ℕ) : ℤ :=
  (mem (a + 3) ++ mem (a + 2) ++ mem (a + 1) ++ mem a : BitVec 32).toInt

/-- The `Segment` at an address. -/
def Segment.ofBytes (mem : ℕ → Byte) (a : ℕ) : Segment where
  virtualAddr := word mem a
  inFileAddr := word mem (a + 4)
  size := word mem (a + 8)

/-- The `NoffHeader` at address 0. -/
def NoffHeader.ofBytes (mem : ℕ → Byte) : NoffHeader where
  noffMagic := word mem 0
  code := .ofBytes mem 4
  initData := .ofBytes mem 16
  uninitData := .ofBytes mem 28

/-- `executable->ReadAt((char *)&noffH, sizeof(noffH), 0)`, into an object that holds anything.
The host is little endian, so `SwapHeader` changes nothing. -/
def readHeader (file : List Byte) (noffH : ℕ → Byte) : NoffHeader :=
  .ofBytes (store noffH 0 (file.take 40))

/-! ## The constructor -/

/-- `bzero(machine->mainMemory + a, n)`. -/
def bzero (a n : ℕ) (mainMemory : ℕ → Byte) : Option (ℕ → Byte) :=
  if a + n ≤ MemorySize then some (store mainMemory a (List.replicate n 0)) else none

namespace NoffHeader

/-- `size_segment`. -/
def size_segment (noffH : NoffHeader) : ℕ := toUnsigned (noffH.numPages * PageSize : ℕ)

/-- `posToWrite`. -/
def posToWrite (noffH : NoffHeader) (physicalPage : ℤ) : ℤ :=
  noffH.code.virtualAddr + physicalPage * PageSize

/-- `posToRead`. -/
def posToRead (noffH : NoffHeader) (physicalPage : ℤ) : ℤ :=
  noffH.code.inFileAddr + physicalPage * PageSize

end NoffHeader

/-- The loop that copies in code and initialised data, over the frames of their pages. -/
def copyIn (noffH : NoffHeader) (file : List Byte) : List ℤ → (ℕ → Byte) → Option (ℕ → Byte)
  | [], mainMemory => some mainMemory
  | physicalPage :: frames, mainMemory =>
      (ReadAt file PageSize (noffH.posToRead physicalPage)).bind fun row =>
        if 0 ≤ noffH.posToWrite physicalPage
            ∧ noffH.posToWrite physicalPage + row.length ≤ MemorySize then
          copyIn noffH file frames
            (store mainMemory (noffH.posToWrite physicalPage).toNat row)
        else none

/-- `AddrSpace(OpenFile *)`: the frames, the address space and the memory afterwards. -/
def loadFrom (counters : ℕ) (file : List Byte) (memory : ℕ → Byte) (k : Frames)
    (mainMemory : ℕ → Byte) : Option (Frames × AddrSpace × (ℕ → Byte)) :=
  let noffH := readHeader file memory
  (AddrSpace.create counters noffH k).bind fun (k, space) =>
    (bzero (toUnsigned (noffH.size_segment * space.frames.getD 0 0)) noffH.size_segment
        mainMemory).bind fun mainMemory =>
      (copyIn noffH file (space.frames.take noffH.numPagesCopyable) mainMemory).map
        fun mainMemory => (k, space, mainMemory)

/-! ## What is in the memory afterwards -/

section Copy

variable {noffH : NoffHeader} {file : List Byte} {f : ℤ} {mem mem' : ℕ → Byte}

/-- The page is at a position in the file that is a non-negative `int`, and what is read of it fits
into the memory. -/
def Fits (noffH : NoffHeader) (file : List Byte) (f : ℤ) : Prop :=
  0 ≤ noffH.posToRead f ∧ noffH.posToRead f < 2147483648 ∧ 0 ≤ noffH.posToWrite f
    ∧ noffH.posToWrite f + ((file.drop (noffH.posToRead f).toNat).take PageSize).length
      ≤ MemorySize

/-- The page for this frame is copied to a row of addresses with this one among them. -/
def Covers (noffH : NoffHeader) (f : ℤ) (p : ℕ) : Prop :=
  noffH.posToWrite f ≤ p ∧ p < noffH.posToWrite f + PageSize

instance (f : ℤ) (p : ℕ) : Decidable (Covers noffH f p) := inferInstanceAs (Decidable (_ ∧ _))

/-- The byte of the file that lands on an address, if one does. Whichever copy brings it, it comes
from the same place. -/
def landing (noffH : NoffHeader) (file : List Byte) : List ℤ → ℕ → Option Byte
  | [], _ => none
  | f :: frames, p =>
      if Covers noffH f p then file[(noffH.code.inFileAddr + (p - noffH.code.virtualAddr)).toNat]?
      else landing noffH file frames p

/-- The place in the file does not depend on the copies. -/
theorem landing_eq_or (noffH : NoffHeader) (file : List Byte) (frames : List ℤ) (p : ℕ) :
    landing noffH file frames p = none
      ∨ landing noffH file frames p
        = file[(noffH.code.inFileAddr + (p - noffH.code.virtualAddr)).toNat]? := by
  induction frames with
  | nil => exact .inl rfl
  | cons f frames ih =>
      rw [landing]
      split_ifs
      · exact .inr rfl
      · exact ih

/-- One copy. -/
theorem store_row_apply (h : Fits noffH file f) (p : ℕ) :
    store mem (noffH.posToWrite f).toNat ((file.drop (noffH.posToRead f).toNat).take PageSize) p
      = (landing noffH file [f] p).getD (mem p) := by
  obtain ⟨hread, -, hwrite, -⟩ := h
  have hsame : noffH.posToRead f - noffH.code.inFileAddr
      = noffH.posToWrite f - noffH.code.virtualAddr := by
    unfold NoffHeader.posToRead NoffHeader.posToWrite
    omega
  rw [store, landing, landing]
  by_cases hp : Covers noffH f p
  · obtain ⟨hlow, hhigh⟩ := id hp
    have hindex : (noffH.posToRead f).toNat + (p - (noffH.posToWrite f).toNat)
        = (noffH.code.inFileAddr + (p - noffH.code.virtualAddr)).toNat := by omega
    rw [if_pos hp, if_pos (by omega), List.getElem?_take_of_lt (by omega), List.getElem?_drop,
      hindex]
  · rw [if_neg hp, Option.getD_none]
    split_ifs with hle
    · unfold Covers at hp
      rw [List.getElem?_take, if_neg (by omega), Option.getD_none]
    · rfl

/-- **What the copies leave**: the file's bytes where they land, and the old ones elsewhere. -/
theorem copyIn_eq_some_iff {frames : List ℤ} :
    copyIn noffH file frames mem = some mem'
      ↔ (∀ f ∈ frames, Fits noffH file f)
        ∧ mem' = fun p => (landing noffH file frames p).getD (mem p) := by
  induction frames generalizing mem with
  | nil =>
      rw [copyIn, Option.some.injEq]
      exact ⟨fun h => ⟨fun f hf => absurd hf List.not_mem_nil, h.symm⟩, fun h => h.2.symm⟩
  | cons f frames ih =>
      rw [List.forall_mem_cons, and_assoc]
      by_cases hfits : Fits noffH file f
      · obtain ⟨hread, hint, hwrite⟩ := id hfits
        have hmem : ∀ p, (landing noffH file frames p).getD
            (store mem (noffH.posToWrite f).toNat
              ((file.drop (noffH.posToRead f).toNat).take PageSize) p)
            = (landing noffH file (f :: frames) p).getD (mem p) := by
          intro p
          rw [store_row_apply hfits, landing, landing, landing]
          split_ifs with hcovers
          · -- a later copy to the same address brings the same byte
            rcases landing_eq_or noffH file frames p with h | h
            · rw [h, Option.getD_none]
            · rw [h]
              cases file[(noffH.code.inFileAddr + (p - noffH.code.virtualAddr)).toNat]? with
              | none => rfl
              | some b => rfl
          · rfl
        rw [copyIn, ReadAt, if_pos ⟨hread, hint⟩, Option.bind_some, if_pos hwrite, ih,
          and_iff_right hfits]
        simp only [hmem]
      · refine iff_of_false (fun h => hfits ?_) fun h => hfits h.1
        rw [copyIn] at h
        obtain ⟨row, hrow, h⟩ := Option.bind_eq_some_iff.mp h
        unfold ReadAt at hrow
        split_ifs at hrow with hpos
        cases hrow
        split_ifs at h with hwrite
        exact ⟨hpos.1, hpos.2, hwrite⟩

end Copy

/-- The header is accepted, and there are enough frames: those are `taken`. -/
structure Accepted (noffH : NoffHeader) (k : Frames) (taken : List ℕ) : Prop where
  header : noffH.noffMagic = NOFFMAGIC ∧ noffH.SumDefined ∧ noffH.numPages ≤ NumPhysPages
  pages : 0 < noffH.numPages ∧ noffH.numPagesCopyable ≤ noffH.numPages
  served : serve noffH.numPages k.memoryBitMap.free = some taken

/-- The byte at an address after the constructor has zeroed and copied. -/
def afterLoad (noffH : NoffHeader) (file : List Byte) (frames : List ℤ) (mem : ℕ → Byte) (p : ℕ) :
    Byte :=
  (landing noffH file (frames.take noffH.numPagesCopyable) p).getD
    (store mem (noffH.numPages * PageSize * (frames.getD 0 0).toNat)
      (List.replicate (noffH.numPages * PageSize) 0) p)

section Accepted

variable {noffH : NoffHeader} {k : Frames} {taken : List ℕ}

theorem Accepted.length (h : Accepted noffH k taken) : taken.length = noffH.numPages :=
  length_of_serve h.served

theorem Accepted.lt (h : Accepted noffH k taken) : ∀ p ∈ taken, p < NumPhysPages :=
  Kernel.lt_of_serve h.served

theorem Accepted.size_segment (h : Accepted noffH k taken) :
    noffH.size_segment = noffH.numPages * PageSize := by
  have hpages := Nat.mul_le_mul_right PageSize h.header.2.2
  have hmemory : NumPhysPages * PageSize = 4194304 := rfl
  exact toUnsigned_natCast (by omega)

/-- The first byte that is zeroed: nothing overflows. -/
theorem Accepted.start (h : Accepted noffH k taken) :
    toUnsigned (noffH.size_segment * (taken.map fun p : ℕ => (p : ℤ)).getD 0 0)
      = noffH.numPages * PageSize * ((taken.map fun p : ℕ => (p : ℤ)).getD 0 0).toNat := by
  cases htaken : taken with
  | nil =>
      have hlen := h.length
      have hpos := h.pages.1
      rw [htaken, List.length_nil] at hlen
      omega
  | cons f rest =>
      have hf : f < NumPhysPages := h.lt f (by rw [htaken]; exact List.mem_cons_self)
      have hpages := Nat.mul_le_mul_right PageSize h.header.2.2
      have hproduct := Nat.mul_le_mul hpages (Nat.le_of_lt_succ (show f < 1023 + 1 from hf))
      have hmemory : NumPhysPages * PageSize * 1023 = 4290772992 := rfl
      rw [List.map_cons, List.getD_cons_zero, Int.toNat_natCast, h.size_segment,
        ← Int.natCast_mul]
      exact toUnsigned_natCast (by omega)

/-- **What the constructor does.** -/
theorem loadFrom_eq_some_iff {counters : ℕ} {file : List Byte} {memory mem mem' : ℕ → Byte}
    {k' : Frames} {space : AddrSpace} (h : Accepted (readHeader file memory) k taken) :
    loadFrom counters file memory k mem = some (k', space, mem')
      ↔ (∀ p ∈ taken, p < counters)
        ∧ (readHeader file memory).numPages * PageSize
            * ((taken.map fun p : ℕ => (p : ℤ)).getD 0 0).toNat
          + (readHeader file memory).numPages * PageSize ≤ MemorySize
        ∧ (∀ f ∈ (taken.map fun p : ℕ => (p : ℤ)).take (readHeader file memory).numPagesCopyable,
          Fits (readHeader file memory) file f)
        ∧ k' = taken.foldl Frames.acquire k ∧ space.pageTable = entriesFrom 0 taken
        ∧ space.noffH = readHeader file memory
        ∧ mem' = afterLoad (readHeader file memory) file (taken.map fun p : ℕ => (p : ℤ)) mem := by
  unfold loadFrom
  dsimp only
  generalize readHeader file memory = noffH at h ⊢
  constructor
  · intro hload
    obtain ⟨⟨k₁, space₁⟩, hcreate, hload⟩ := Option.bind_eq_some_iff.mp hload
    obtain ⟨mem₁, hzero, hload⟩ := Option.bind_eq_some_iff.mp hload
    obtain ⟨mem₂, hcopy, heq⟩ := Option.map_eq_some_iff.mp hload
    cases heq
    obtain ⟨-, taken', htaken, hlt, rfl, htable, hheader⟩ :=
      AddrSpace.create_eq_some_iff.mp hcreate
    obtain rfl : taken = taken' := Option.some.inj (h.served.symm.trans htaken)
    have hframes : space₁.frames = taken.map fun p : ℕ => (p : ℤ) := by
      rw [AddrSpace.frames, htable, entriesFrom_frames]
    dsimp only at hzero hcopy
    rw [hframes, h.start, h.size_segment] at hzero
    unfold bzero at hzero
    split_ifs at hzero with hinside
    cases hzero
    rw [hframes] at hcopy
    obtain ⟨hfits, rfl⟩ := copyIn_eq_some_iff.mp hcopy
    exact ⟨hlt, hinside, hfits, rfl, htable, hheader, rfl⟩
  · rintro ⟨hlt, hinside, hfits, rfl, htable, hheader, rfl⟩
    have hframes : space.frames = taken.map fun p : ℕ => (p : ℤ) := by
      rw [AddrSpace.frames, htable, entriesFrom_frames]
    have hcreate : AddrSpace.create counters noffH k = some (taken.foldl Frames.acquire k, space) :=
      AddrSpace.create_eq_some_iff.mpr ⟨h.header, taken, h.served, hlt, rfl, htable, hheader⟩
    rw [hcreate, Option.bind_some]
    dsimp only
    rw [hframes, h.start, h.size_segment, bzero, if_pos hinside, Option.bind_some,
      copyIn_eq_some_iff.mpr ⟨hfits, rfl⟩, Option.map_some]
    rfl

/-- The page table that was made is one that a user program can use. -/
theorem Accepted.mapped (h : Accepted noffH k taken) (i : ℕ) : Mapped (entriesFrom i taken) where
  access e he := access_entriesFrom he
  inside e he := by
    have hmem : e.physicalPage ∈ (entriesFrom i taken).map (·.physicalPage) :=
      List.mem_map_of_mem he
    rw [entriesFrom_frames] at hmem
    obtain ⟨p, hp, heq⟩ := List.mem_map.mp hmem
    rw [← heq]
    exact ⟨Int.natCast_nonneg p, Int.ofNat_lt.mpr (h.lt p hp)⟩
  distinct := by
    rw [entriesFrom_frames]
    exact (nodup_of_serve h.served).map fun _ _ => Int.ofNat_inj.mp

end Accepted

/-! ## Executables -/

/-- An executable whose sizes are sizes. -/
structure Executable (noffH : NoffHeader) : Prop where
  magic : noffH.noffMagic = NOFFMAGIC
  code : 0 ≤ noffH.code.size
  initData : 0 ≤ noffH.initData.size
  uninitData : 0 ≤ noffH.uninitData.size

/-- The free frames are enough for the program and its stack. -/
def Room (noffH : NoffHeader) (k : Frames) : Prop :=
  noffH.code.size + noffH.initData.size + noffH.uninitData.size + UserStackSize
    ≤ k.memoryBitMap.free.card * PageSize

instance (noffH : NoffHeader) (k : Frames) : Decidable (Room noffH k) :=
  inferInstanceAs (Decidable (_ ≤ _))

section Executable

variable {noffH : NoffHeader} {k : Frames}

/-- The sizes of an executable that there is room for, without overflow. -/
theorem Executable.sizes (h : Executable noffH) (hroom : Room noffH k) :
    (noffH.size_copyable : ℤ) = noffH.code.size + noffH.initData.size
      ∧ (noffH.size_real : ℤ) = noffH.code.size + noffH.initData.size + noffH.uninitData.size
        + UserStackSize
      ∧ noffH.NoOverflow ∧ noffH.numPages ≤ k.memoryBitMap.free.card := by
  obtain ⟨-, hcode, hinit, huninit⟩ := h
  have hcard : k.memoryBitMap.free.card ≤ NumPhysPages := BitMap.card_free_le _
  have hpages : NumPhysPages = 1024 := rfl
  have hsize : PageSize = 4096 := rfl
  have hstack : UserStackSize = 1024 := rfl
  rw [Room, hsize] at hroom
  have hcopyable : (noffH.size_copyable : ℤ) = noffH.code.size + noffH.initData.size := by
    unfold NoffHeader.size_copyable toUnsigned
    omega
  have hreal : (noffH.size_real : ℤ) = noffH.code.size + noffH.initData.size
      + noffH.uninitData.size + UserStackSize := by
    unfold NoffHeader.size_real toUnsigned
    omega
  refine ⟨hcopyable, hreal, ⟨⟨by omega, by omega⟩, ?_⟩, ?_⟩
  · unfold toUnsigned
    omega
  · rw [NoffHeader.numPages, pages_eq (by omega), hsize]
    omega

/-- There are frames for it. -/
theorem Executable.accepted (h : Executable noffH) (hroom : Room noffH k) :
    ∃ taken, Accepted noffH k taken := by
  obtain ⟨-, -, hsum, hpages⟩ := h.sizes hroom
  obtain ⟨taken, htaken⟩ := BitMap.exists_serve_of_le hpages
  exact ⟨taken, ⟨h.magic, hsum.1, hpages.trans (BitMap.card_free_le _)⟩, hsum.pages, htaken⟩

end Executable

/-! ## The program that was loaded -/

/-- The byte of a segment at a virtual address. -/
def Segment.byte (s : Segment) (file : List Byte) (v : ℕ) : Option Byte :=
  if s.virtualAddr ≤ v ∧ v < s.virtualAddr + s.size then
    file[(s.inFileAddr + (v - s.virtualAddr)).toNat]?
  else none

/-- The memory that the program in a file is to see: its segments, and zeros. -/
def image (noffH : NoffHeader) (file : List Byte) (v : ℕ) : Byte :=
  ((noffH.code.byte file v).or (noffH.initData.byte file v)).getD 0

/-- The segments follow each other, in the space from address 0 on and in the file. -/
structure Contiguous (noffH : NoffHeader) (file : List Byte) : Prop extends Executable noffH where
  start : noffH.code.virtualAddr = 0
  next : noffH.initData.virtualAddr = noffH.code.size
  inFile : 0 ≤ noffH.code.inFileAddr
  nextInFile : noffH.initData.inFileAddr = noffH.code.inFileAddr + noffH.code.size
  inside : noffH.code.inFileAddr + noffH.code.size + noffH.initData.size ≤ file.length

/-- **The loaded program sees the one in the file.** -/
def Loads (counters : ℕ) (file : List Byte) (memory : ℕ → Byte) (k : Frames)
    (mem : ℕ → Byte) : Prop :=
  ∃ k' space mem', loadFrom counters file memory k mem = some (k', space, mem')
    ∧ Sees ⟨mem', space.pageTable⟩ ((readHeader file memory).numPages * PageSize)
      (image (readHeader file memory) file)

theorem exists_byte_ne (b : Byte) : ∃ b' : Byte, b' ≠ b := ⟨b + 1, by bv_omega⟩

/-- The frame of a virtual address. -/
def frameOf (frames : List ℤ) (v : ℕ) : ℕ := (frames.getD (v / PageSize) 0).toNat

/-- The frame is one of those that are zeroed. -/
def Zeroed (noffH : NoffHeader) (frames : List ℤ) (f : ℕ) : Prop :=
  noffH.numPages * frameOf frames 0 ≤ f ∧ f < noffH.numPages * frameOf frames 0 + noffH.numPages

instance (noffH : NoffHeader) (frames : List ℤ) (f : ℕ) : Decidable (Zeroed noffH frames f) :=
  inferInstanceAs (Decidable (_ ∧ _))

/-- The frames have counters, the region that is zeroed is inside the memory, the positions in the
file are `int`s; and at every address, either the byte of the file at the position of its physical
address is the right one, or there is none, zero is right, and the frame is zeroed. -/
structure LoadsWhen (noffH : NoffHeader) (file : List Byte) (frames : List ℤ) : Prop where
  counted : ∀ f ∈ frames, f < Kernel.threadsOnPhyPageLength
  inside : noffH.numPages * frameOf frames 0 + noffH.numPages ≤ NumPhysPages
  readable : ∀ f ∈ frames.take noffH.numPagesCopyable, noffH.posToRead f < 2147483648
  right : ∀ v < noffH.numPages * PageSize,
    match if v / PageSize < noffH.numPagesCopyable then
        file[noffH.code.inFileAddr.toNat + physical frames v]? else none with
    | some b => b = image noffH file v
    | none => image noffH file v = 0 ∧ Zeroed noffH frames (frameOf frames v)

/-- A row of zeros over whole pages. -/
theorem store_zeros (mem : ℕ → Byte) (a n p : ℕ) :
    store mem (a * PageSize) (List.replicate (n * PageSize) 0) p
      = if a ≤ p / PageSize ∧ p / PageSize < a + n then 0 else mem p := by
  have hsize : PageSize = 4096 := rfl
  rw [store_replicate, ← Nat.add_mul, hsize]
  by_cases hp : a ≤ p / 4096 ∧ p / 4096 < a + n
  · rw [if_pos hp, if_pos ⟨by omega, by omega⟩]
  · rw [if_neg hp, if_neg fun h => hp ⟨by omega, by omega⟩]

/-- Where a byte of the file lands, for a program that starts at address 0. -/
theorem landing_of_start {noffH : NoffHeader} {file : List Byte} (hstart : noffH.code.virtualAddr = 0)
    (hfile : 0 ≤ noffH.code.inFileAddr) (taken : List ℕ) (p : ℕ) :
    landing noffH file (taken.map fun f : ℕ => (f : ℤ)) p
      = if p / PageSize ∈ taken then file[noffH.code.inFileAddr.toNat + p]? else none := by
  have hsize : PageSize = 4096 := rfl
  have hindex : (noffH.code.inFileAddr + (p - noffH.code.virtualAddr)).toNat
      = noffH.code.inFileAddr.toNat + p := by omega
  induction taken with
  | nil => exact (if_neg List.not_mem_nil).symm
  | cons f taken ih =>
      have hcovers : Covers noffH f p ↔ p / PageSize = f := by
        rw [Covers, NoffHeader.posToWrite, hstart, hsize]
        omega
      rw [List.map_cons, landing, ih, hindex]
      by_cases h : p / PageSize = f
      · rw [if_pos (hcovers.mpr h), if_pos (List.mem_cons.mpr (.inl h))]
      · rw [if_neg (hcovers.not.mpr h)]
        simp only [List.mem_cons, h, false_or]

section Loads

variable {noffH : NoffHeader} {file : List Byte} {k : Frames} {taken : List ℕ}

/-- The frame of an address of the space. -/
theorem frameOf_eq {v : ℕ} (hv : v / PageSize < taken.length) :
    frameOf (taken.map fun p : ℕ => (p : ℤ)) v = taken[v / PageSize] := by
  rw [frameOf, List.getD_eq_getElem _ _ (by rwa [List.length_map]), List.getElem_map,
    Int.toNat_natCast]

/-- **What is in a loaded program**, at an address of the space. -/
theorem afterLoad_physical (h : Accepted noffH k taken) (hstart : noffH.code.virtualAddr = 0)
    (hfile : 0 ≤ noffH.code.inFileAddr) (mem : ℕ → Byte) {v : ℕ}
    (hv : v < noffH.numPages * PageSize) :
    afterLoad noffH file (taken.map fun p : ℕ => (p : ℤ)) mem
        (physical (taken.map fun p : ℕ => (p : ℤ)) v)
      = (if v / PageSize < noffH.numPagesCopyable then
          file[noffH.code.inFileAddr.toNat + physical (taken.map fun p : ℕ => (p : ℤ)) v]?
        else none).getD
          (if Zeroed noffH (taken.map fun p : ℕ => (p : ℤ))
              (frameOf (taken.map fun p : ℕ => (p : ℤ)) v) then 0
            else mem (physical (taken.map fun p : ℕ => (p : ℤ)) v)) := by
  have hpage : v / PageSize < taken.length := by
    rw [h.length]
    exact Nat.div_lt_of_lt_mul (by rwa [Nat.mul_comm])
  have hframe : physical (taken.map fun p : ℕ => (p : ℤ)) v / PageSize
      = frameOf (taken.map fun p : ℕ => (p : ℤ)) v := physical_div _ v
  have hmem : taken[v / PageSize] ∈ taken.take noffH.numPagesCopyable
      ↔ v / PageSize < noffH.numPagesCopyable := by
    rw [List.mem_take_iff_getElem]
    constructor
    · rintro ⟨i, hi, heq⟩
      have hsame := ((nodup_of_serve h.served).getElem_inj_iff).mp heq
      omega
    · exact fun hlt => ⟨v / PageSize, by omega, rfl⟩
  have hzero : noffH.numPages * PageSize * ((taken.map fun p : ℕ => (p : ℤ)).getD 0 0).toNat
      = noffH.numPages * frameOf (taken.map fun p : ℕ => (p : ℤ)) 0 * PageSize :=
    Nat.mul_right_comm _ _ _
  rw [afterLoad, ← List.map_take, landing_of_start hstart hfile, hzero, store_zeros, hframe,
    frameOf_eq hpage]
  simp only [hmem]
  rfl

/-- A program that starts at address 0 fits into the memory wherever its frames are. -/
theorem fits_iff_of_start (hstart : noffH.code.virtualAddr = 0)
    (hfile : 0 ≤ noffH.code.inFileAddr) {f : ℕ} (hf : f < NumPhysPages) :
    Fits noffH file f ↔ noffH.posToRead f < 2147483648 := by
  have hlen := List.length_take_le PageSize (file.drop (noffH.posToRead f).toNat)
  have hpages : NumPhysPages = 1024 := rfl
  have hsize : PageSize = 4096 := rfl
  have hmemory : MemorySize = 4194304 := rfl
  have hwrite : noffH.posToWrite f = f * 4096 := by
    rw [NoffHeader.posToWrite, hstart, Int.zero_add, hsize]
    rfl
  have hread : 0 ≤ noffH.posToRead f := by
    rw [NoffHeader.posToRead, hsize]
    omega
  unfold Fits
  constructor
  · exact fun h => h.2.1
  · intro h
    exact ⟨hread, h, by omega, by omega⟩

/-- The region that is zeroed is inside the memory, in pages. -/
theorem region_inside_iff (n f : ℕ) :
    n * PageSize * f + n * PageSize ≤ MemorySize ↔ n * f + n ≤ NumPhysPages := by
  rw [Nat.mul_right_comm, ← Nat.add_mul, MemorySize]
  exact Nat.mul_le_mul_right_iff (by decide)

/-- A new address space, for the frames that were taken. -/
def Accepted.space (h : Accepted noffH k taken) : AddrSpace where
  pageTable := entriesFrom 0 taken
  noffH := noffH
  length_eq := by rw [length_entriesFrom, h.length]
  pos := h.pages.1
  copyable_le := h.pages.2

end Loads

section LoadsIff

variable {file : List Byte} {memory mem : ℕ → Byte} {k : Frames} {taken : List ℕ} {counters : ℕ}

/-- What it takes to load a program, with the memory afterwards byte by byte. -/
theorem loads_iff_bytes (hacc : Accepted (readHeader file memory) k taken) :
    Loads counters file memory k mem
      ↔ (∀ p ∈ taken, p < counters)
        ∧ (readHeader file memory).numPages * frameOf (taken.map fun p : ℕ => (p : ℤ)) 0
          + (readHeader file memory).numPages ≤ NumPhysPages
        ∧ (∀ f ∈ (taken.map fun p : ℕ => (p : ℤ)).take (readHeader file memory).numPagesCopyable,
          Fits (readHeader file memory) file f)
        ∧ ∀ v < (readHeader file memory).numPages * PageSize,
          afterLoad (readHeader file memory) file (taken.map fun p : ℕ => (p : ℤ)) mem
              (physical (taken.map fun p : ℕ => (p : ℤ)) v)
            = image (readHeader file memory) file v := by
  constructor
  · rintro ⟨k', space, mem', hload, hsees⟩
    obtain ⟨hlt, hinside, hfits, -, htable, -, rfl⟩ := (loadFrom_eq_some_iff hacc).mp hload
    refine ⟨hlt, (region_inside_iff _ _).mp hinside, hfits, fun v hv => ?_⟩
    have hbyte := hsees.bytes v hv
    dsimp only at hbyte
    rwa [htable, entriesFrom_frames] at hbyte
  · rintro ⟨hlt, hinside, hfits, hbytes⟩
    refine ⟨_, hacc.space, _, (loadFrom_eq_some_iff hacc).mpr
      ⟨hlt, (region_inside_iff _ _).mpr hinside, hfits, rfl, rfl, rfl, rfl⟩, hacc.mapped 0, ?_, ?_⟩
    · change (entriesFrom 0 taken).length * PageSize = _
      rw [length_entriesFrom, hacc.length]
    · intro v hv
      dsimp only [Accepted.space]
      rw [entriesFrom_frames]
      exact hbytes v hv

theorem LoadsWhen.of_loads (h : Contiguous (readHeader file memory) file)
    (hacc : Accepted (readHeader file memory) k taken)
    (hall : ∀ mem, Loads Kernel.threadsOnPhyPageLength file memory k mem) :
    LoadsWhen (readHeader file memory) file (taken.map fun p : ℕ => (p : ℤ)) := by
  obtain ⟨hlt, hinside, hfits, -⟩ := (loads_iff_bytes hacc).mp (hall fun _ => 0)
  refine ⟨?_, hinside, fun f hf => (hfits f hf).2.1, fun v hv => ?_⟩
  · rw [List.forall_mem_map]
    exact fun p hp => Int.ofNat_lt.mpr (hlt p hp)
  · -- over a memory that holds something wrong everywhere
    obtain ⟨wrong, hwrong⟩ := exists_byte_ne (image (readHeader file memory) file v)
    obtain ⟨-, -, -, hbytes⟩ := (loads_iff_bytes hacc).mp (hall fun _ => wrong)
    have hbyte := hbytes v hv
    rw [afterLoad_physical hacc h.start h.inFile _ hv] at hbyte
    split
    · rename_i b hb
      rwa [hb, Option.getD_some] at hbyte
    · rename_i hnone
      rw [hnone, Option.getD_none] at hbyte
      split_ifs at hbyte with hzeroed
      · exact ⟨hbyte.symm, hzeroed⟩
      · exact absurd hbyte hwrong

theorem LoadsWhen.loads (h : Contiguous (readHeader file memory) file)
    (hacc : Accepted (readHeader file memory) k taken)
    (hwhen : LoadsWhen (readHeader file memory) file (taken.map fun p : ℕ => (p : ℤ)))
    (mem : ℕ → Byte) : Loads Kernel.threadsOnPhyPageLength file memory k mem := by
  obtain ⟨hcounted, hinside, hreadable, hright⟩ := hwhen
  refine (loads_iff_bytes hacc).mpr ⟨?_, hinside, ?_, ?_⟩
  · exact fun p hp => Int.ofNat_lt.mp (hcounted p (List.mem_map_of_mem hp))
  · intro f hf
    obtain ⟨p, hp, rfl⟩ := List.mem_map.mp (List.mem_of_mem_take hf)
    exact (fits_iff_of_start h.start h.inFile (hacc.lt p hp)).mpr (hreadable _ hf)
  · intro v hv
    have hbyte := hright v hv
    rw [afterLoad_physical hacc h.start h.inFile _ hv]
    split at hbyte
    · rename_i b hb
      rw [hb, Option.getD_some, hbyte]
    · rename_i hnone
      rw [hnone, Option.getD_none, if_pos hbyte.2, hbyte.1]

end LoadsIff

/-- **When a program is loaded as it is in the file.** For every executable whose segments follow
each other, over every state of the frames with room for it: whatever the memory held before, the
program sees its segments and zeros behind them exactly when, at every address, what lies in the
file at the position of the physical address belongs there, or nothing lies there and the frame is
zeroed. The constructor takes the position in the file from the frame of a page, where it should be
that of the page. -/
theorem loads_iff (file : List Byte) (memory : ℕ → Byte) (k : Frames)
    (h : Contiguous (readHeader file memory) file) (hroom : Room (readHeader file memory) k) :
    (∀ mem, Loads Kernel.threadsOnPhyPageLength file memory k mem)
      ↔ LoadsWhen (readHeader file memory) file
        (k.memoryBitMap.finds (readHeader file memory).numPages) := by
  obtain ⟨taken, hacc⟩ := h.toExecutable.accepted hroom
  rw [BitMap.finds_of_serve hacc.served]
  exact ⟨.of_loads h hacc, fun hwhen => hwhen.loads h hacc⟩

/-! ### In the first frames, and behind another program -/

/-- The segments of an executable, in one row. -/
theorem Contiguous.image_eq {noffH : NoffHeader} {file : List Byte} (h : Contiguous noffH file)
    (v : ℕ) :
    image noffH file v
      = if (v : ℤ) < noffH.code.size + noffH.initData.size then
          (file[noffH.code.inFileAddr.toNat + v]?).getD 0
        else 0 := by
  obtain ⟨⟨-, hcode, hinit, -⟩, hstart, hnext, hfile, hnextFile, hinside⟩ := h
  unfold image Segment.byte
  rw [hstart, hnext, hnextFile]
  by_cases hv : (v : ℤ) < noffH.code.size
  · have hindex : (noffH.code.inFileAddr + (v - 0)).toNat = noffH.code.inFileAddr.toNat + v := by
      omega
    rw [if_pos ⟨by omega, by omega⟩, if_neg (by omega), if_pos (by omega), Option.or_none, hindex]
  · rw [if_neg (by omega), Option.none_or]
    by_cases hv' : (v : ℤ) < noffH.code.size + noffH.initData.size
    · have hindex : (noffH.code.inFileAddr + noffH.code.size + (v - noffH.code.size)).toNat
          = noffH.code.inFileAddr.toNat + v := by omega
      rw [if_pos ⟨by omega, hv'⟩, if_pos hv', hindex]
    · rw [if_neg (by omega), if_neg hv', Option.getD_none]

/-- In the first frames of the memory every page is in the frame of its number. -/
theorem frameOf_range {n v : ℕ} (hv : v < n * PageSize) :
    frameOf ((List.range n).map fun p : ℕ => (p : ℤ)) v = v / PageSize := by
  have hlt : v / PageSize < (List.range n).length := by
    rw [List.length_range]
    exact Nat.div_lt_of_lt_mul (by rwa [Nat.mul_comm])
  rw [frameOf_eq hlt, List.getElem_range]

/-- And every address is its own physical one. -/
theorem physical_range {n v : ℕ} (hv : v < n * PageSize) :
    physical ((List.range n).map fun p : ℕ => (p : ℤ)) v = v := by
  change frameOf _ v * PageSize + v % PageSize = v
  rw [frameOf_range hv, Nat.div_add_mod']

/-- In the first frames of the memory a program is loaded as it is in the file, if nothing but
zeros follows the segments there. -/
theorem Contiguous.loadsWhen {noffH : NoffHeader} {file : List Byte} (h : Contiguous noffH file)
    (hsize : (noffH.size_copyable : ℤ) = noffH.code.size + noffH.initData.size)
    (hsum : noffH.SumDefined) (hcounted : noffH.numPages ≤ Kernel.threadsOnPhyPageLength)
    (hint : noffH.code.inFileAddr + NumPhysPages * PageSize < 2147483648)
    (htail : ∀ v : ℕ, noffH.code.size + noffH.initData.size ≤ v →
      (file[noffH.code.inFileAddr.toNat + v]?).getD 0 = 0) :
    LoadsWhen noffH file ((List.range noffH.numPages).map fun p : ℕ => (p : ℤ)) := by
  have hlimit : Kernel.threadsOnPhyPageLength = 32 := rfl
  have hpages : NumPhysPages = 1024 := rfl
  have hpage : PageSize = 4096 := rfl
  have hzero : noffH.numPages * frameOf ((List.range noffH.numPages).map fun p : ℕ => (p : ℤ)) 0
      = 0 := by
    rcases Nat.eq_zero_or_pos noffH.numPages with hn | hn
    · rw [hn, Nat.zero_mul]
    · rw [frameOf_range (Nat.mul_pos hn (by decide)), Nat.zero_div, Nat.mul_zero]
  refine ⟨?_, ?_, ?_, fun v hv => ?_⟩
  · rw [List.forall_mem_map]
    intro p hp
    have := List.mem_range.mp hp
    omega
  · rw [hzero]
    omega
  · intro f hf
    obtain ⟨p, hp, rfl⟩ := List.mem_map.mp (List.mem_of_mem_take hf)
    have := List.mem_range.mp hp
    rw [NoffHeader.posToRead, hpage]
    rw [hpage, hpages] at hint
    omega
  · have hlt : v / PageSize < noffH.numPages := Nat.div_lt_of_lt_mul (by rwa [Nat.mul_comm])
    rw [physical_range hv, h.image_eq, frameOf_range hv, Zeroed, hzero]
    split
    · rename_i b hb
      split_ifs at hb with hk
      split_ifs with hv'
      · rw [hb, Option.getD_some]
      · have := htail v (by omega)
        rwa [hb, Option.getD_some] at this
    · rename_i hnone
      refine ⟨?_, Nat.zero_le _, by omega⟩
      split_ifs with hv'
      · -- an address of the segments is on a copied page and in the file
        have hk : v / PageSize < noffH.numPagesCopyable := by
          rw [NoffHeader.numPagesCopyable, pages_eq (by have := hsum.2; omega), hpage]
          omega
        rw [if_pos hk] at hnone
        rw [hnone, Option.getD_none]
      · rfl

/-- The header of a program of one page. -/
def onePageHeader : NoffHeader := ⟨NOFFMAGIC, ⟨0, 40, 4⟩, ⟨4, 44, 4⟩, ⟨8, 0, 0⟩⟩

/-- An executable of one page: four bytes of code and four of initialised data. -/
def onePage : List Byte :=
  [173, 223, 186, 0, 0, 0, 0, 0, 40, 0, 0, 0, 4, 0, 0, 0, 4, 0, 0, 0, 44, 0, 0, 0, 4, 0, 0, 0,
    8, 0, 0, 0, 0, 0, 0, 0, 0, 0, 0, 0, 17, 18, 19, 20, 21, 22, 23, 24]

theorem onePage_header : readHeader onePage (fun _ => 0) = onePageHeader := by decide +kernel

theorem onePage_contiguous : Contiguous (readHeader onePage fun _ => 0) onePage := by
  rw [onePage_header]
  exact ⟨⟨rfl, by decide, by decide, by decide⟩, rfl, rfl, by decide, rfl, by decide⟩

/-- The first program of all is loaded as it is in its file. -/
theorem loads_onePage :
    image (readHeader onePage fun _ => 0) onePage 0 = 17
      ∧ ∀ mem, Loads Kernel.threadsOnPhyPageLength onePage (fun _ => 0) Frames.initial mem := by
  refine ⟨by decide +kernel, ?_⟩
  have hfinds : Frames.initial.memoryBitMap.finds (readHeader onePage fun _ => 0).numPages
      = (List.range (readHeader onePage fun _ => 0).numPages).map fun p : ℕ => (p : ℤ) := by
    decide +kernel
  refine (loads_iff onePage (fun _ => 0) Frames.initial onePage_contiguous
    (by decide +kernel)).mpr ?_
  rw [hfinds]
  refine onePage_contiguous.loadsWhen ?_ ?_ ?_ ?_ fun v hv => ?_
  · decide +kernel
  · decide +kernel
  · decide +kernel
  · decide +kernel
  · rw [onePage_header] at hv ⊢
    dsimp only [onePageHeader] at hv ⊢
    have hlen : onePage.length = 48 := rfl
    rw [List.getElem?_eq_none (by omega), Option.getD_none]

/-- The same program again, with the first frame taken: the constructor reads from behind the end
of the file, and there is nothing but zeros where the code should be. -/
theorem not_loads_again :
    Contiguous (readHeader onePage fun _ => 0) onePage
      ∧ Room (readHeader onePage fun _ => 0) (Frames.initial.acquire 0)
      ∧ image (readHeader onePage fun _ => 0) onePage 0 = 17
      ∧ ∀ mem, ¬ Loads Kernel.threadsOnPhyPageLength onePage (fun _ => 0)
        (Frames.initial.acquire 0) mem := by
  have hroom : Room (readHeader onePage fun _ => 0) (Frames.initial.acquire 0) := by decide +kernel
  have himage : image (readHeader onePage fun _ => 0) onePage 0 = 17 := by decide +kernel
  refine ⟨onePage_contiguous, hroom, himage, fun mem h => ?_⟩
  obtain ⟨taken, hacc⟩ := onePage_contiguous.toExecutable.accepted hroom
  have htaken : (taken.map fun p : ℕ => (p : ℤ)) = [1] := by
    rw [← BitMap.finds_of_serve hacc.served]
    decide +kernel
  obtain ⟨-, -, -, hbytes⟩ := (loads_iff_bytes hacc).mp h
  have hpos : 0 < (readHeader onePage fun _ => 0).numPages * PageSize := by decide +kernel
  have hbyte := hbytes 0 hpos
  rw [afterLoad_physical hacc onePage_contiguous.start onePage_contiguous.inFile mem hpos, htaken,
    himage] at hbyte
  have hzeroed : Zeroed (readHeader onePage fun _ => 0) [1] (frameOf [1] 0) := by decide +kernel
  have hnone : onePage[(readHeader onePage fun _ => 0).code.inFileAddr.toNat + physical [1] 0]?
      = none := by decide +kernel
  rw [hnone, if_pos hzeroed, ite_self, Option.getD_none] at hbyte
  exact absurd hbyte (by decide)

/-! ## Isolation -/

/-- **Nothing outside the new frames changes.** -/
def Isolated (counters : ℕ) (file : List Byte) (memory : ℕ → Byte) (k : Frames)
    (mem : ℕ → Byte) : Prop :=
  ∃ k' space mem', loadFrom counters file memory k mem = some (k', space, mem')
    ∧ ∀ p < MemorySize, ((p / PageSize : ℕ) : ℤ) ∉ space.frames → mem' p = mem p

/-- The frames have counters; there is one page only, or the frames are the first ones of the
memory; and the pages that are copied fit, and the bytes that there are of them in the file land in
the new frames. -/
structure IsolatedWhen (noffH : NoffHeader) (file : List Byte) (frames : List ℤ) : Prop where
  counted : ∀ f ∈ frames, f < Kernel.threadsOnPhyPageLength
  first : noffH.numPages = 1 ∨ ∀ f ∈ frames, f < noffH.numPages
  fits : ∀ f ∈ frames.take noffH.numPagesCopyable, Fits noffH file f
  lands : ∀ p : ℕ, landing noffH file (frames.take noffH.numPagesCopyable) p ≠ none →
    ((p / PageSize : ℕ) : ℤ) ∈ frames

section Isolation

variable {noffH : NoffHeader} {file : List Byte} {k : Frames} {taken : List ℕ}

/-- **When the region that is zeroed is that of the new frames.** -/
theorem Accepted.region_iff (h : Accepted noffH k taken) :
    (∀ i < noffH.numPages,
        noffH.numPages * frameOf (taken.map fun p : ℕ => (p : ℤ)) 0 + i ∈ taken)
      ↔ noffH.numPages = 1 ∨ ∀ p ∈ taken, p < noffH.numPages := by
  obtain ⟨-, ⟨hpos, -⟩, hserve⟩ := h
  have hlen := length_of_serve hserve
  generalize noffH.numPages = n at *
  cases taken with
  | nil =>
      rw [List.length_nil] at hlen
      omega
  | cons f rest =>
      change (∀ i < n, n * f + i ∈ f :: rest) ↔ _
      have hleast := head_le_of_serve hserve
      rw [range_taken_iff hserve]
      constructor
      · intro hregion
        -- the first frame itself is in the region
        have hfirst := (hregion f List.mem_cons_self).1
        rcases Nat.lt_or_ge 1 n with hn | hn
        · right
          obtain rfl : f = 0 := by
            have htwo := Nat.mul_le_mul_right f hn
            omega
          intro p hp
          have := (hregion p hp).2
          omega
        · exact .inl (by omega)
      · rintro (rfl | hlow)
        · obtain rfl : rest = [] := List.length_eq_zero_iff.mp (by simpa using hlen)
          intro p hp
          obtain rfl := List.mem_singleton.mp hp
          omega
        · have hall := (range_taken_iff hserve 0).mpr fun p hp =>
            ⟨Nat.zero_le p, by rw [Nat.zero_add]; exact hlow p hp⟩
          obtain rfl : f = 0 := by
            have := hleast _ (hall 0 hpos)
            omega
          intro p hp
          have := hlow p hp
          omega

/-- What lands is inside the memory, when the copies fit. -/
theorem landing_lt {frames : List ℤ} {p : ℕ} {b : Byte} (hfits : ∀ f ∈ frames, Fits noffH file f)
    (h : landing noffH file frames p = some b) : p < MemorySize := by
  induction frames with
  | nil => cases h
  | cons f frames ih =>
      obtain ⟨hf, hfits⟩ := List.forall_mem_cons.mp hfits
      rw [landing] at h
      split_ifs at h with hcovers
      · obtain ⟨hindex, -⟩ := List.getElem?_eq_some_iff.mp h
        obtain ⟨hread, -, hwrite, hinside⟩ := hf
        obtain ⟨hlow, hhigh⟩ := hcovers
        have hsame : noffH.posToRead f - noffH.code.inFileAddr
            = noffH.posToWrite f - noffH.code.virtualAddr := by
          unfold NoffHeader.posToRead NoffHeader.posToWrite
          omega
        rw [List.length_take, List.length_drop] at hinside
        omega
      · exact ih hfits h

/-- A byte outside the region and where nothing lands is left alone. -/
theorem afterLoad_of_none {frames : List ℤ} {mem : ℕ → Byte} {p : ℕ}
    (hlanding : landing noffH file (frames.take noffH.numPagesCopyable) p = none) :
    afterLoad noffH file frames mem p
      = if Zeroed noffH frames (p / PageSize) then 0 else mem p := by
  have hzero : noffH.numPages * PageSize * (frames.getD 0 0).toNat
      = noffH.numPages * frameOf frames 0 * PageSize := Nat.mul_right_comm _ _ _
  rw [afterLoad, hlanding, Option.getD_none, hzero, store_zeros]
  rfl

end Isolation

section IsolatedIff

variable {file : List Byte} {memory mem : ℕ → Byte} {k : Frames} {taken : List ℕ} {counters : ℕ}

theorem mem_map_natCast (p : ℕ) : (p : ℤ) ∈ (taken.map fun p : ℕ => (p : ℤ)) ↔ p ∈ taken :=
  List.mem_map_of_injective fun _ _ => Int.ofNat_inj.mp

/-- What it takes to leave the other frames alone, byte by byte. -/
theorem isolated_iff_bytes (hacc : Accepted (readHeader file memory) k taken) :
    Isolated counters file memory k mem
      ↔ (∀ p ∈ taken, p < counters)
        ∧ (readHeader file memory).numPages * frameOf (taken.map fun p : ℕ => (p : ℤ)) 0
          + (readHeader file memory).numPages ≤ NumPhysPages
        ∧ (∀ f ∈ (taken.map fun p : ℕ => (p : ℤ)).take (readHeader file memory).numPagesCopyable,
          Fits (readHeader file memory) file f)
        ∧ ∀ p < MemorySize, p / PageSize ∉ taken →
          afterLoad (readHeader file memory) file (taken.map fun p : ℕ => (p : ℤ)) mem p
            = mem p := by
  constructor
  · rintro ⟨k', space, mem', hload, hkeep⟩
    obtain ⟨hlt, hinside, hfits, -, htable, -, rfl⟩ := (loadFrom_eq_some_iff hacc).mp hload
    refine ⟨hlt, (region_inside_iff _ _).mp hinside, hfits, fun p hp hnot => hkeep p hp ?_⟩
    rwa [AddrSpace.frames, htable, entriesFrom_frames, mem_map_natCast]
  · rintro ⟨hlt, hinside, hfits, hkeep⟩
    refine ⟨_, hacc.space, _, (loadFrom_eq_some_iff hacc).mpr
      ⟨hlt, (region_inside_iff _ _).mpr hinside, hfits, rfl, rfl, rfl, rfl⟩, fun p hp hnot => ?_⟩
    rw [AddrSpace.frames, Accepted.space, entriesFrom_frames, mem_map_natCast] at hnot
    exact hkeep p hp hnot

/-- The frames are left alone whatever the memory holds, and so nothing lands in them. -/
theorem landing_eq_none (hall : ∀ mem, Isolated counters file memory k mem)
    (hacc : Accepted (readHeader file memory) k taken) {p : ℕ} (hp : p < MemorySize)
    (hnot : p / PageSize ∉ taken) :
    landing (readHeader file memory) file ((taken.map fun p : ℕ => (p : ℤ)).take
      (readHeader file memory).numPagesCopyable) p = none := by
  cases hlanding : landing (readHeader file memory) file _ p with
  | none => rfl
  | some b =>
      obtain ⟨wrong, hwrong⟩ := exists_byte_ne b
      obtain ⟨-, -, -, hkeep⟩ := (isolated_iff_bytes hacc).mp (hall fun _ => wrong)
      have hbyte := hkeep p hp hnot
      rw [afterLoad, hlanding, Option.getD_some] at hbyte
      exact absurd hbyte.symm hwrong

/-- The frames that are zeroed are new ones. -/
theorem region_mem (hall : ∀ mem, Isolated counters file memory k mem)
    (hacc : Accepted (readHeader file memory) k taken) :
    ∀ i < (readHeader file memory).numPages, (readHeader file memory).numPages
      * frameOf (taken.map fun p : ℕ => (p : ℤ)) 0 + i ∈ taken := by
  intro i hi
  by_contra hnot
  obtain ⟨-, hpages, -, hkeep⟩ := (isolated_iff_bytes hacc).mp (hall fun _ => 1)
  have hdiv : ∀ q, q * PageSize / PageSize = q := fun q => Nat.mul_div_cancel q (by decide)
  have hp := Nat.mul_lt_mul_of_pos_right (Nat.lt_of_lt_of_le (Nat.add_lt_add_left hi _) hpages)
    (show 0 < PageSize by decide)
  rw [← hdiv (_ + i)] at hnot
  -- a memory of ones has a zero there
  have hbyte := hkeep _ hp hnot
  rw [afterLoad_of_none (landing_eq_none hall hacc hp hnot), hdiv,
    if_pos ⟨Nat.le_add_right _ _, Nat.add_lt_add_left hi _⟩] at hbyte
  exact absurd hbyte (by decide)

theorem IsolatedWhen.of_isolated (hacc : Accepted (readHeader file memory) k taken)
    (hall : ∀ mem, Isolated Kernel.threadsOnPhyPageLength file memory k mem) :
    IsolatedWhen (readHeader file memory) file (taken.map fun p : ℕ => (p : ℤ)) := by
  obtain ⟨hlt, -, hfits, -⟩ := (isolated_iff_bytes hacc).mp (hall fun _ => 0)
  refine ⟨?_, ?_, hfits, fun p hp => ?_⟩
  · rw [List.forall_mem_map]
    exact fun p hp => Int.ofNat_lt.mpr (hlt p hp)
  · rw [List.forall_mem_map]
    simp only [Int.ofNat_lt]
    exact hacc.region_iff.mp (region_mem hall hacc)
  · rw [mem_map_natCast]
    by_contra hnot
    obtain ⟨b, hb⟩ := Option.ne_none_iff_exists'.mp hp
    exact hp (landing_eq_none hall hacc (landing_lt hfits hb) hnot)

theorem IsolatedWhen.isolated (hacc : Accepted (readHeader file memory) k taken)
    (hwhen : IsolatedWhen (readHeader file memory) file (taken.map fun p : ℕ => (p : ℤ)))
    (mem : ℕ → Byte) : Isolated Kernel.threadsOnPhyPageLength file memory k mem := by
  obtain ⟨hcounted, hfirst, hfits, hlands⟩ := hwhen
  have hregion := hacc.region_iff.mpr (by
    rw [List.forall_mem_map] at hfirst
    simpa only [Int.ofNat_lt] using hfirst)
  have hpages : (readHeader file memory).numPages * frameOf (taken.map fun p : ℕ => (p : ℤ)) 0
      + (readHeader file memory).numPages ≤ NumPhysPages := by
    have hpos := hacc.pages.1
    have hlast := hacc.lt _ (hregion _ (Nat.sub_one_lt_of_lt hpos))
    omega
  refine (isolated_iff_bytes hacc).mpr ⟨?_, hpages, hfits, fun p _ hnot => ?_⟩
  · exact fun p hp => Int.ofNat_lt.mp (hcounted p (List.mem_map_of_mem hp))
  · have hnone := not_not.mp fun hne => hnot (mem_map_natCast _ |>.mp (hlands p hne))
    rw [afterLoad_of_none hnone, if_neg]
    rintro ⟨hlow, hhigh⟩
    obtain ⟨i, hi⟩ := Nat.exists_eq_add_of_le hlow
    rw [hi] at hnot
    exact hnot (hregion i (by omega))

end IsolatedIff

/-- **When a creation changes nothing but its own frames.** For every executable, over every state
of the frames with room for it: the constructor stays inside the memory and leaves every byte
outside the new frames as it was, whatever the memory holds, exactly when the frames have counters,
the program has one page or is in the first frames of the memory, and what is copied of the file
lands in the new frames. The constructor zeroes from the first frame on, as if the others followed
it. -/
theorem isolated_iff (file : List Byte) (memory : ℕ → Byte) (k : Frames)
    (h : Executable (readHeader file memory)) (hroom : Room (readHeader file memory) k) :
    (∀ mem, Isolated Kernel.threadsOnPhyPageLength file memory k mem)
      ↔ IsolatedWhen (readHeader file memory) file
        (k.memoryBitMap.finds (readHeader file memory).numPages) := by
  obtain ⟨taken, hacc⟩ := h.accepted hroom
  rw [BitMap.finds_of_serve hacc.served]
  exact ⟨.of_isolated hacc, fun hwhen => hwhen.isolated hacc⟩

/-- The creation of a program of one page changes nothing but its frame, also behind another
program. -/
theorem isolated_onePage :
    (Frames.initial.acquire 0).memoryBitMap.finds (readHeader onePage fun _ => 0).numPages = [1]
      ∧ ∀ mem, Isolated Kernel.threadsOnPhyPageLength onePage (fun _ => 0)
        (Frames.initial.acquire 0) mem := by
  have hfinds : (Frames.initial.acquire 0).memoryBitMap.finds
      (readHeader onePage fun _ => 0).numPages = [1] := by decide +kernel
  refine ⟨hfinds, ?_⟩
  refine (isolated_iff onePage (fun _ => 0) (Frames.initial.acquire 0)
    onePage_contiguous.toExecutable (by decide +kernel)).mpr ?_
  rw [hfinds]
  refine ⟨by decide, .inl (by decide +kernel), fun f hf => ?_, fun p hp => ?_⟩
  · obtain rfl := List.mem_singleton.mp (List.mem_of_mem_take hf)
    exact (fits_iff_of_start onePage_contiguous.start onePage_contiguous.inFile
      (f := 1) (by decide)).mpr (by decide +kernel)
  · have hcopied : ([1] : List ℤ).take (readHeader onePage fun _ => 0).numPagesCopyable
        = [1].map fun p : ℕ => (p : ℤ) := by decide +kernel
    rw [hcopied, landing_of_start onePage_contiguous.start onePage_contiguous.inFile] at hp
    rw [ne_eq, ite_eq_right_iff, Classical.not_imp, List.mem_singleton] at hp
    rw [hp.1]
    exact List.mem_singleton.mpr rfl

/-- An executable of two pages. -/
def twoPages : List Byte :=
  [173, 223, 186, 0, 0, 0, 0, 0, 40, 0, 0, 0, 4, 0, 0, 0, 4, 0, 0, 0, 44, 0, 0, 0, 4, 0, 0, 0,
    8, 0, 0, 0, 0, 0, 0, 0, 0, 16, 0, 0, 17, 18, 19, 20, 21, 22, 23, 24]

theorem twoPages_header : readHeader twoPages (fun _ => 0)
    = ⟨NOFFMAGIC, ⟨0, 40, 4⟩, ⟨4, 44, 4⟩, ⟨8, 0, 4096⟩⟩ := by decide +kernel

theorem twoPages_executable : Executable (readHeader twoPages fun _ => 0) := by
  rw [twoPages_header]
  exact ⟨rfl, by decide, by decide, by decide⟩

/-- Of three programs, of one, two and one page, the second has ended. The creation of another one
of two pages gets its frames, and zeroes the frame of the third. -/
theorem not_isolated_between :
    ∃ s, exec (Kernel.step Kernel.threadsOnPhyPageLength) .initial
        [.create (readHeader onePage fun _ => 0), .create (readHeader twoPages fun _ => 0),
          .create (readHeader onePage fun _ => 0), .destroy 1] = some s
      ∧ s.spaces.map (·.frames) = [[0], [3]]
      ∧ Executable (readHeader twoPages fun _ => 0) ∧ Room (readHeader twoPages fun _ => 0) s.frames
      ∧ ¬ Isolated Kernel.threadsOnPhyPageLength twoPages (fun _ => 0) s.frames fun _ => 1 := by
  have hrun : (exec (Kernel.step Kernel.threadsOnPhyPageLength) .initial
      [.create (readHeader onePage fun _ => 0), .create (readHeader twoPages fun _ => 0),
        .create (readHeader onePage fun _ => 0), .destroy 1]).map (fun s =>
          (s.spaces.map (·.frames), s.frames.memoryBitMap.finds 2,
            decide (Room (readHeader twoPages fun _ => 0) s.frames)))
        = some ([[0], [3]], [1, 2], true) := by decide +kernel
  obtain ⟨s, hs, hsee⟩ := Option.map_eq_some_iff.mp hrun
  obtain ⟨hframes, hfinds, hroom⟩ : _ = _ ∧ _ = _ ∧ _ = _ := by
    simpa only [Prod.mk.injEq] using hsee
  have hroom := of_decide_eq_true hroom
  refine ⟨s, hs, hframes, twoPages_executable, hroom, fun hisolated => ?_⟩
  obtain ⟨taken, hacc⟩ := twoPages_executable.accepted hroom
  have htwo : (readHeader twoPages fun _ => 0).numPages = 2 := by decide +kernel
  have htaken : (taken.map fun p : ℕ => (p : ℤ)) = [1, 2] := by
    rw [← BitMap.finds_of_serve hacc.served, htwo, hfinds]
  obtain ⟨-, -, -, hkeep⟩ := (isolated_iff_bytes hacc).mp hisolated
  have hother : 3 * PageSize / PageSize ∉ taken := by
    rw [← mem_map_natCast, htaken]
    decide
  have hbyte := hkeep (3 * PageSize) (by decide) hother
  have hnone : landing (readHeader twoPages fun _ => 0) twoPages
      (([1, 2] : List ℤ).take (readHeader twoPages fun _ => 0).numPagesCopyable) (3 * PageSize)
      = none := by decide +kernel
  have hzeroed : Zeroed (readHeader twoPages fun _ => 0) [1, 2] (3 * PageSize / PageSize) := by
    decide +kernel
  rw [htaken, afterLoad_of_none hnone, if_pos hzeroed] at hbyte
  exact absurd hbyte (by decide)

end LoadBalancer.NachOS
