/-
The constructor of an address space from another one, with the memory (`addrspace.cc`).

Parent and child share the frames of code and initialised data, so the copy at the end of the
constructor copies every byte onto itself ([`copyOver_eq_some_iff`]). Before it, the constructor
zeroes one row of bytes for the uninitialised data and the stack of the child. Where that row
begins is computed from the frame of page 0, which the child shares with its parent, and not from
the frames that the child was given: with the parent in the first frames of the memory it is the
parent's own data and stack. [`copies_iff`] says exactly when it is the child's.
-/
import LoadBalancer.NachOS.Loader

set_option autoImplicit false

namespace LoadBalancer.NachOS

open LoadBalancer.FirstFit LoadBalancer.Memory LoadBalancer.Transition

/-! ## The constructor -/

/-- `mainMemory[w + offset] = mainMemory[r + offset]` for `n` offsets. -/
def copyBytes (w r : ℕ) : ℕ → (ℕ → Byte) → ℕ → Byte
  | 0, mainMemory => mainMemory
  | n + 1, mainMemory =>
      copyBytes (w + 1) (r + 1) n (Function.update mainMemory w (mainMemory r))

/-- The row of a page's bytes at a position is inside the memory. -/
def PageInside (position : ℤ) : Prop := 0 ≤ position ∧ position + PageSize ≤ MemorySize

instance (position : ℤ) : Decidable (PageInside position) := inferInstanceAs (Decidable (_ ∧ _))

/-- The loop over the copyable pages, with the frames of the child and of the source. -/
def copyOver (noffH : NoffHeader) : List (ℤ × ℤ) → (ℕ → Byte) → Option (ℕ → Byte)
  | [], mainMemory => some mainMemory
  | (child, source) :: pages, mainMemory =>
      if PageInside (noffH.posToWrite child) ∧ PageInside (noffH.posToWrite source) then
        copyOver noffH pages (copyBytes (noffH.posToWrite child).toNat
          (noffH.posToWrite source).toNat PageSize mainMemory)
      else none

/-- `AddrSpace(AddrSpace *)`: the frames, the address space and the memory afterwards. -/
def duplicateFrom (counters : ℕ) (source : AddrSpace) (k : Frames) (mainMemory : ℕ → Byte) :
    Option (Frames × AddrSpace × (ℕ → Byte)) :=
  let noffH := source.noffH
  (AddrSpace.duplicate counters source k).bind fun (k, child) =>
    (bzero (noffH.size_copyable + toUnsigned (noffH.size_segment * child.frames.getD 0 0))
        (toUnsigned ((noffH.size_real : ℤ) - noffH.size_copyable)) mainMemory).bind
      fun mainMemory =>
        (copyOver noffH ((child.frames.zip source.frames).take noffH.numPagesCopyable)
          mainMemory).map fun mainMemory => (k, child, mainMemory)

/-! ## What the loop does -/

theorem copyBytes_self (a n : ℕ) (mem : ℕ → Byte) : copyBytes a a n mem = mem := by
  induction n generalizing a mem with
  | zero => rfl
  | succ n ih => rw [copyBytes, Function.update_eq_self, ih]

/-- **The pages are copied onto themselves**, as long as they are inside the memory. -/
theorem copyOver_eq_some_iff {noffH : NoffHeader} {frames : List ℤ} {mem mem' : ℕ → Byte} :
    copyOver noffH (frames.zip frames) mem = some mem'
      ↔ (∀ f ∈ frames, PageInside (noffH.posToWrite f)) ∧ mem' = mem := by
  induction frames with
  | nil =>
      rw [List.zip_nil_left, copyOver, Option.some.injEq]
      exact ⟨fun h => ⟨fun f hf => absurd hf List.not_mem_nil, h.symm⟩, fun h => h.2.symm⟩
  | cons f frames ih =>
      rw [List.zip_cons_cons, copyOver, copyBytes_self, List.forall_mem_cons, and_assoc, ← ih]
      split_ifs with hf
      · exact (and_iff_right hf.1).symm
      · exact iff_of_false nofun fun h => hf ⟨h.1, h.1⟩

/-! ## What the constructor does -/

section Duplicate

variable {counters i : ℕ} {s : Kernel} {source child : AddrSpace} {k' : Frames}
  {mem mem' : ℕ → Byte} {taken : List ℕ}

/-- The frames of the child: the shared ones, and those that were taken. -/
def childFrames (source : AddrSpace) (taken : List ℕ) : List ℤ :=
  source.frames.take source.noffH.numPagesCopyable ++ taken.map fun p : ℕ => (p : ℤ)

/-- The number of bytes that are zeroed. -/
def zeroedSize (noffH : NoffHeader) : ℕ :=
  toUnsigned ((noffH.size_real : ℤ) - noffH.size_copyable)

/-- The first one of them. -/
def zeroedStart (noffH : NoffHeader) (frames : List ℤ) : ℕ :=
  noffH.size_copyable + noffH.numPages * PageSize * frameOf frames 0

theorem mem_childFrames {p : ℤ} :
    p ∈ childFrames source taken
      ↔ p ∈ source.frames.take source.noffH.numPagesCopyable
        ∨ p ∈ taken.map fun p : ℕ => (p : ℤ) := List.mem_append

/-- Every frame in use is one of the memory. -/
theorem admits_references (h : s.Sound counters) {p : ℤ} (hp : p ∈ s.references) :
    BitMap.Admits NumPhysPages p := ((h.counts.used_iff_mem p).mpr hp).1

theorem admits_childFrames (h : s.Sound counters) (hsource : s.spaces[i]? = some source)
    (htaken : ∀ p ∈ taken, p < NumPhysPages) :
    ∀ p ∈ childFrames source taken, BitMap.Admits NumPhysPages p := by
  intro p hp
  rcases mem_childFrames.mp hp with hp | hp
  · exact admits_references h (Kernel.mem_references hsource (List.mem_of_mem_take hp))
  · obtain ⟨x, hx, rfl⟩ := List.mem_map.mp hp
    exact ⟨Int.natCast_nonneg x, Int.ofNat_lt.mpr (htaken x hx)⟩

/-- The start of the row that is zeroed: nothing overflows. -/
theorem zeroedStart_eq {noffH : NoffHeader} {frames : List ℤ}
    (hpages : noffH.numPages ≤ NumPhysPages) (hframes : ∀ p ∈ frames, BitMap.Admits NumPhysPages p) :
    noffH.size_copyable + toUnsigned (noffH.size_segment * frames.getD 0 0)
      = zeroedStart noffH frames := by
  have hsegment : noffH.numPages * PageSize ≤ 4194304 := Nat.mul_le_mul_right PageSize hpages
  have hsize : noffH.size_segment = noffH.numPages * PageSize :=
    toUnsigned_natCast (by omega)
  have hfirst : ∃ f : ℕ, frames.getD 0 0 = f ∧ f ≤ 1023 := by
    cases frames with
    | nil => exact ⟨0, rfl, by omega⟩
    | cons f rest =>
        obtain ⟨hlow, hhigh⟩ := hframes f List.mem_cons_self
        have hlimit : NumPhysPages = 1024 := rfl
        exact ⟨f.toNat, by rw [List.getD_cons_zero]; omega, by omega⟩
  obtain ⟨f, hf, hle⟩ := hfirst
  have hproduct := Nat.mul_le_mul hsegment hle
  have hframe : frameOf frames 0 = f := by
    change (frames.getD 0 0).toNat = f
    rw [hf, Int.toNat_natCast]
  rw [zeroedStart, hframe, hf, hsize, ← Int.natCast_mul, toUnsigned_natCast (by omega)]

theorem length_shared (source : AddrSpace) :
    (source.frames.take source.noffH.numPagesCopyable).length = source.noffH.numPagesCopyable := by
  have hle := source.copyable_le
  rw [List.length_take, AddrSpace.frames, List.length_map, source.length_eq]
  omega

/-- The pages that the loop copies: the same frames on both sides. -/
theorem zip_take_eq (hframes : child.frames = childFrames source taken) :
    (child.frames.zip source.frames).take source.noffH.numPagesCopyable
      = (source.frames.take source.noffH.numPagesCopyable).zip
        (source.frames.take source.noffH.numPagesCopyable) := by
  have hlen := length_shared source
  have htake : child.frames.take source.noffH.numPagesCopyable
      = source.frames.take source.noffH.numPagesCopyable := by
    rw [hframes, childFrames, List.take_append_of_le_length hlen.ge, List.take_take, Nat.min_self]
  unfold List.zip
  rw [List.take_zipWith, htake]

/-- The frames of the child. -/
theorem frames_duplicate (h : s.Sound counters) (hsource : s.spaces[i]? = some source)
    (htaken : serve (source.noffH.numPages - source.noffH.numPagesCopyable)
      s.frames.memoryBitMap.free = some taken)
    (hdup : AddrSpace.duplicate counters source s.frames = some (k', child)) :
    child.frames = childFrames source taken := by
  obtain ⟨taken', htaken', -, -, htable, -⟩ := (h.duplicate_iff hsource).mp hdup
  obtain rfl : taken = taken' := Option.some.inj (htaken.symm.trans htaken')
  rw [AddrSpace.frames, htable, List.map_append, entriesFrom_frames, childFrames,
    AddrSpace.frames, List.map_take]

/-- **What the constructor does.** -/
theorem duplicateFrom_eq_some_iff (h : s.Sound counters) (hsource : s.spaces[i]? = some source)
    (htaken : serve (source.noffH.numPages - source.noffH.numPagesCopyable)
      s.frames.memoryBitMap.free = some taken) :
    duplicateFrom counters source s.frames mem = some (k', child, mem')
      ↔ AddrSpace.duplicate counters source s.frames = some (k', child)
        ∧ zeroedStart source.noffH (childFrames source taken) + zeroedSize source.noffH ≤ MemorySize
        ∧ (∀ f ∈ source.frames.take source.noffH.numPagesCopyable,
          PageInside (source.noffH.posToWrite f))
        ∧ mem' = store mem (zeroedStart source.noffH (childFrames source taken))
          (List.replicate (zeroedSize source.noffH) 0) := by
  have hpages := h.pages source (List.mem_of_getElem? hsource)
  have hstart := zeroedStart_eq hpages (admits_childFrames h hsource (Kernel.lt_of_serve htaken))
  unfold duplicateFrom
  dsimp only
  constructor
  · intro hrun
    obtain ⟨⟨k₁, child₁⟩, hdup, hrun⟩ := Option.bind_eq_some_iff.mp hrun
    obtain ⟨mem₁, hzero, hrun⟩ := Option.bind_eq_some_iff.mp hrun
    obtain ⟨mem₂, hcopy, heq⟩ := Option.map_eq_some_iff.mp hrun
    cases heq
    dsimp only at hzero hcopy
    rw [frames_duplicate h hsource htaken hdup, hstart] at hzero
    unfold bzero at hzero
    split_ifs at hzero with hinside
    cases hzero
    rw [zip_take_eq (frames_duplicate h hsource htaken hdup)] at hcopy
    obtain ⟨hfits, rfl⟩ := copyOver_eq_some_iff.mp hcopy
    exact ⟨hdup, hinside, hfits, rfl⟩
  · rintro ⟨hdup, hinside, hfits, rfl⟩
    rw [hdup, Option.bind_some]
    dsimp only
    have hframes := frames_duplicate h hsource htaken hdup
    rw [zip_take_eq hframes, hframes, hstart, bzero]
    unfold zeroedSize at hinside ⊢
    rw [if_pos hinside, Option.bind_some, copyOver_eq_some_iff.mpr ⟨hfits, rfl⟩, Option.map_some]

end Duplicate

/-! ## The theorem -/

/-- **The copy is as it should be**: no byte of a live address space changes, the child has the
contents of code and initialised data of its parent, and behind them zeros, in frames of its
own. -/
def Copies (counters : ℕ) (s : Kernel) (source : AddrSpace) (mem : ℕ → Byte) : Prop :=
  ∃ k' child mem', duplicateFrom counters source s.frames mem = some (k', child, mem')
    ∧ (∀ space ∈ s.spaces, ∀ p < MemorySize, ((p / PageSize : ℕ) : ℤ) ∈ space.frames →
      mem' p = mem p)
    ∧ (∀ v < source.noffH.size_copyable,
      mem' (physical child.frames v) = mem (physical source.frames v))
    ∧ ∀ v, source.noffH.size_copyable ≤ v → v < source.noffH.numPages * PageSize →
      mem' (physical child.frames v) = 0
        ∧ ∀ space ∈ s.spaces, child.frames.getD (v / PageSize) 0 ∉ space.frames

/-- Code and initialised data fill their pages, and the whole program fills its pages; and with
`n` pages, `c` of them shared, and `f` the frame of page 0, the new frames are those from
`n * f + c` to `n * f + n`, and have counters. Besides, the shared pages are inside the memory
where the loop copies them. -/
structure CopiesWhen (noffH : NoffHeader) (shared fresh : List ℤ) : Prop where
  counted : ∀ f ∈ fresh, f < Kernel.threadsOnPhyPageLength
  wholePages : noffH.size_copyable = noffH.numPagesCopyable * PageSize
  wholeSpace : noffH.size_real = noffH.numPages * PageSize
  inside : noffH.numPages * frameOf (shared ++ fresh) 0 + noffH.numPages ≤ NumPhysPages
  own : ∀ f ∈ fresh, noffH.numPages * frameOf (shared ++ fresh) 0 + noffH.numPagesCopyable ≤ f
    ∧ f < noffH.numPages * frameOf (shared ++ fresh) 0 + noffH.numPages
  fits : ∀ f ∈ shared, PageInside (noffH.posToWrite f)

section Theorem

variable {counters i : ℕ} {s : Kernel} {source : AddrSpace} {taken : List ℕ}

/-- The copyable bytes are on the copyable pages. -/
theorem size_copyable_le {noffH : NoffHeader} (h : noffH.size_copyable ≤ MemorySize) :
    noffH.size_copyable ≤ noffH.numPagesCopyable * PageSize := by
  have hsize : PageSize = 4096 := rfl
  have hmemory : MemorySize = 4194304 := rfl
  rw [NoffHeader.numPagesCopyable, pages_eq (by omega), hsize]
  omega

/-- And all bytes on the pages, of which there is one at least. -/
theorem size_real_le {noffH : NoffHeader} (hpos : 0 < noffH.numPages)
    (hpages : noffH.numPages ≤ NumPhysPages) :
    noffH.size_real ≤ noffH.numPages * PageSize := by
  have hsize : PageSize = 4096 := rfl
  have hlt : noffH.size_real < 4294967296 := toUnsigned_lt _
  obtain ⟨hmin, hmax⟩ := toSigned_bounds hlt
  unfold NoffHeader.numPages at hpos hpages ⊢
  obtain ⟨hlow, -⟩ := (pages_le_iff hmin hmax).mp hpages
  rw [pages_of_mem hlow hmax, hsize] at hpos ⊢
  -- a size that is negative as an `int` has no pages
  unfold toSigned at hpos ⊢
  split_ifs at hpos ⊢ <;> omega

/-- A shared page has the frame that it has in the source. -/
theorem childFrames_of_lt {j : ℕ} (hj : j < source.noffH.numPagesCopyable) :
    (childFrames source taken).getD j 0 = source.frames.getD j 0 := by
  have hlen := length_shared source
  have hle := source.copyable_le
  have hframes : j < source.frames.length := by
    rw [AddrSpace.frames, List.length_map, source.length_eq]
    omega
  rw [childFrames, List.getD_append _ _ _ _ (by omega), List.getD_eq_getElem _ _ (by omega),
    List.getElem_take, List.getD_eq_getElem _ _ hframes]

/-- Any other page is in a frame that was taken. -/
theorem childFrames_of_ge {j : ℕ} (hj : source.noffH.numPagesCopyable ≤ j)
    (hlt : j - source.noffH.numPagesCopyable < taken.length) :
    (childFrames source taken).getD j 0 = (taken[j - source.noffH.numPagesCopyable] : ℤ) := by
  rw [childFrames, List.getD_append_right _ _ _ _ (by rwa [length_shared]), length_shared,
    List.getD_eq_getElem _ _ (by rwa [List.length_map]), List.getElem_map]

/-- The start of the row that is zeroed, in pages behind the copyable bytes. -/
theorem zeroedStart_pages (noffH : NoffHeader) (frames : List ℤ) :
    zeroedStart noffH frames
      = noffH.size_copyable + noffH.numPages * frameOf frames 0 * PageSize := by
  rw [zeroedStart, Nat.mul_right_comm]

/-- The size of the row, when it is not larger than the memory. -/
theorem zeroedSize_eq {noffH : NoffHeader} (hpages : noffH.numPages ≤ NumPhysPages)
    (hle : noffH.numPagesCopyable ≤ noffH.numPages) (hsize : zeroedSize noffH ≤ MemorySize)
    (hcopyable : noffH.size_copyable ≤ noffH.numPagesCopyable * PageSize)
    (hreal : noffH.size_real ≤ noffH.numPages * PageSize) :
    noffH.size_copyable + zeroedSize noffH = noffH.size_real := by
  have hpage : PageSize = 4096 := rfl
  have hlimit : NumPhysPages = 1024 := rfl
  have hmemory : MemorySize = 4194304 := rfl
  rw [hpage] at hcopyable hreal
  unfold zeroedSize toUnsigned at *
  omega

theorem zeroedSize_whole {noffH : NoffHeader} (hpages : noffH.numPages ≤ NumPhysPages)
    (hle : noffH.numPagesCopyable ≤ noffH.numPages)
    (hwhole : noffH.size_copyable = noffH.numPagesCopyable * PageSize)
    (hspace : noffH.size_real = noffH.numPages * PageSize) :
    zeroedSize noffH = (noffH.numPages - noffH.numPagesCopyable) * PageSize := by
  have hpage : PageSize = 4096 := rfl
  have hlimit : NumPhysPages = 1024 := rfl
  rw [hpage] at hwhole hspace ⊢
  unfold zeroedSize toUnsigned
  omega

/-- **What is zeroed when everything fills its pages.** -/
theorem store_zeroed {noffH : NoffHeader} {frames : List ℤ}
    (hpages : noffH.numPages ≤ NumPhysPages) (hle : noffH.numPagesCopyable ≤ noffH.numPages)
    (hwhole : noffH.size_copyable = noffH.numPagesCopyable * PageSize)
    (hspace : noffH.size_real = noffH.numPages * PageSize) (mem : ℕ → Byte) (p : ℕ) :
    store mem (zeroedStart noffH frames) (List.replicate (zeroedSize noffH) 0) p
      = if noffH.numPages * frameOf frames 0 + noffH.numPagesCopyable ≤ p / PageSize
          ∧ p / PageSize < noffH.numPages * frameOf frames 0 + noffH.numPages then 0
        else mem p := by
  have hstart : zeroedStart noffH frames
      = (noffH.numPages * frameOf frames 0 + noffH.numPagesCopyable) * PageSize := by
    rw [zeroedStart_pages, hwhole, Nat.add_mul, Nat.add_comm]
  have hend : noffH.numPages * frameOf frames 0 + noffH.numPagesCopyable
      + (noffH.numPages - noffH.numPagesCopyable)
      = noffH.numPages * frameOf frames 0 + noffH.numPages := by omega
  rw [hstart, zeroedSize_whole hpages hle hwhole hspace, store_zeros, hend]

/-- The child has frames of its own only if the shared pages are full. -/
theorem Copies.wholePages {mem : ℕ → Byte} (h : s.Sound counters)
    (hsource : s.spaces[i]? = some source)
    (htaken : serve (source.noffH.numPages - source.noffH.numPagesCopyable)
      s.frames.memoryBitMap.free = some taken) (hcopies : Copies counters s source mem) :
    source.noffH.size_copyable = source.noffH.numPagesCopyable * PageSize := by
  obtain ⟨k', child, mem', hrun, -, -, hown⟩ := hcopies
  obtain ⟨hdup, hinside, -⟩ := (duplicateFrom_eq_some_iff h hsource htaken).mp hrun
  have hcopyable : source.noffH.size_copyable ≤ source.noffH.numPagesCopyable * PageSize := by
    apply size_copyable_le
    rw [zeroedStart] at hinside
    omega
  have hle := source.copyable_le
  have hsize : PageSize = 4096 := rfl
  by_contra hne
  -- the last byte of the shared pages is in a frame of the source
  have hpos : 0 < source.noffH.numPagesCopyable := by
    rcases Nat.eq_zero_or_pos source.noffH.numPagesCopyable with hzero | hpos
    · rw [hzero] at hcopyable hne
      omega
    · exact hpos
  have hpage : (source.noffH.numPagesCopyable * PageSize - 1) / PageSize
      < source.noffH.numPagesCopyable := by
    rw [hsize]
    omega
  have hin : (source.noffH.numPagesCopyable * PageSize - 1) / PageSize
      < source.frames.length := by
    rw [AddrSpace.frames, List.length_map, source.length_eq]
    omega
  have hlast := (hown (source.noffH.numPagesCopyable * PageSize - 1) (by omega) (by
    have := Nat.mul_le_mul_right PageSize hle
    omega)).2 source (List.mem_of_getElem? hsource)
  rw [frames_duplicate h hsource htaken hdup, childFrames_of_lt hpage,
    List.getD_eq_getElem _ _ hin] at hlast
  exact hlast (List.getElem_mem hin)

/-- Over a memory without zeros, the bytes of the new frames are zero only where the constructor
zeroes. -/
theorem Copies.zeroed (h : s.Sound counters) (hsource : s.spaces[i]? = some source)
    (htaken : serve (source.noffH.numPages - source.noffH.numPagesCopyable)
      s.frames.memoryBitMap.free = some taken) (hcopies : Copies counters s source fun _ => 1)
    {g o : ℕ} (hg : g ∈ taken) (ho : o < PageSize) :
    zeroedStart source.noffH (childFrames source taken) ≤ g * PageSize + o
      ∧ g * PageSize + o < zeroedStart source.noffH (childFrames source taken)
        + zeroedSize source.noffH := by
  have hwhole := hcopies.wholePages h hsource htaken
  have hlen := length_of_serve htaken
  have hsize : PageSize = 4096 := rfl
  obtain ⟨x, hx, rfl⟩ := List.mem_iff_getElem.mp hg
  obtain ⟨k', child, mem', hrun, -, -, hown⟩ := hcopies
  obtain ⟨hdup, -, -, rfl⟩ := (duplicateFrom_eq_some_iff h hsource htaken).mp hrun
  have hpage : ((source.noffH.numPagesCopyable + x) * PageSize + o) / PageSize
      = source.noffH.numPagesCopyable + x := by
    rw [hsize] at ho ⊢
    omega
  have hoffset : ((source.noffH.numPagesCopyable + x) * PageSize + o) % PageSize = o := by
    rw [hsize] at ho ⊢
    omega
  have hframe : (childFrames source taken).getD (source.noffH.numPagesCopyable + x) 0
      = taken[x] := by
    rw [childFrames_of_ge (Nat.le_add_right _ _) (by omega)]
    simp only [Nat.add_sub_cancel_left]
  have hzero := (hown ((source.noffH.numPagesCopyable + x) * PageSize + o) (by
    rw [hsize] at hwhole ⊢
    omega) (by
    rw [hsize] at ho ⊢
    omega)).1
  rw [frames_duplicate h hsource htaken hdup, physical, hpage, hoffset, hframe,
    Int.toNat_natCast, store_replicate] at hzero
  split_ifs at hzero with hin
  · exact hin
  · exact absurd hzero (by decide)

/-- **What the copies that are as they should be have in common.** -/
theorem CopiesWhen.of_copies (h : s.Sound Kernel.threadsOnPhyPageLength)
    (hsource : s.spaces[i]? = some source)
    (htaken : serve (source.noffH.numPages - source.noffH.numPagesCopyable)
      s.frames.memoryBitMap.free = some taken)
    (hcopies : Copies Kernel.threadsOnPhyPageLength s source fun _ => 1) :
    CopiesWhen source.noffH (source.frames.take source.noffH.numPagesCopyable)
      (taken.map fun p : ℕ => (p : ℤ)) := by
  have hwhole := hcopies.wholePages h hsource htaken
  have hbytes := fun g hg o ho => hcopies.zeroed h hsource htaken (g := g) (o := o) hg ho
  obtain ⟨k', child, mem', hrun, -⟩ := hcopies
  obtain ⟨hdup, hinside, hfits, -⟩ := (duplicateFrom_eq_some_iff h hsource htaken).mp hrun
  have hlen := length_of_serve htaken
  have hle := source.copyable_le
  have hpages := h.pages source (List.mem_of_getElem? hsource)
  have hreal := size_real_le source.pos hpages
  have hsize : PageSize = 4096 := rfl
  have hmemory : MemorySize = 4194304 := rfl
  have hlimit : NumPhysPages = 1024 := rfl
  have htotal := zeroedSize_eq hpages hle (by omega) hwhole.le hreal
  rw [zeroedStart_pages] at hbytes hinside
  generalize hb : source.noffH.numPages * frameOf (childFrames source taken) 0 = b at *
  rw [hsize] at hwhole hreal hbytes hinside
  have hown : ∀ g ∈ taken, b + source.noffH.numPagesCopyable ≤ g
      ∧ g < b + source.noffH.numPages := by
    intro g hg
    have hfirst := (hbytes g hg 0 (by decide)).1
    have hlast := (hbytes g hg 4095 (by decide)).2
    constructor <;> omega
  have hspace : source.noffH.size_real = source.noffH.numPages * 4096 := by
    rcases Nat.eq_or_lt_of_le hle with heq | hlt
    · omega
    · -- the new frames are all of the region, up to its end
      have htop := (range_taken_iff htaken _).mpr (fun p hp => by
          have := hown p hp
          exact ⟨this.1, by omega⟩) (source.noffH.numPages - source.noffH.numPagesCopyable - 1)
        (by omega)
      have := (hbytes _ htop 4095 (by decide)).2
      omega
  refine ⟨?_, by rwa [hsize], by rwa [hsize], ?_, ?_, hfits⟩
  · rw [List.forall_mem_map]
    obtain ⟨taken', htaken', hlt, -⟩ := (h.duplicate_iff hsource).mp hdup
    obtain rfl : taken = taken' := Option.some.inj (htaken.symm.trans htaken')
    exact fun p hp => Int.ofNat_lt.mpr (hlt p hp)
  · rw [← childFrames, hb]
    omega
  · rw [← childFrames, ← Int.natCast_mul, hb, List.forall_mem_map]
    intro p hp
    have := hown p hp
    omega

/-- No live address space maps a new frame. -/
theorem not_mem_of_taken {n : ℕ} (h : s.Sound counters)
    (htaken : serve n s.frames.memoryBitMap.free = some taken) {space : AddrSpace}
    (hspace : space ∈ s.spaces) {q : ℕ} (hq : q ∈ taken) : (q : ℤ) ∉ space.frames := by
  intro hmem
  exact (Frames.mem_free_iff.mp (mem_of_serve htaken q hq)).2
    ((h.counts.used_iff_mem _).mpr (List.mem_flatMap_of_mem hspace hmem))

/-- The addresses of a live space are in its frames, inside the memory. -/
theorem physical_mem (h : s.Sound counters) (hsource : s.spaces[i]? = some source) {v : ℕ}
    (hv : v / PageSize < source.frames.length) :
    physical source.frames v < MemorySize
      ∧ ((physical source.frames v / PageSize : ℕ) : ℤ) ∈ source.frames := by
  have hmem : source.frames.getD (v / PageSize) 0 ∈ source.frames := by
    rw [List.getD_eq_getElem _ _ hv]
    exact List.getElem_mem hv
  obtain ⟨hlow, hhigh⟩ := admits_references h (Kernel.mem_references hsource hmem)
  have hdiv := physical_div source.frames v
  have hlimit : NumPhysPages = 1024 := rfl
  constructor
  · refine (Nat.div_lt_iff_lt_mul (by decide)).mp (hdiv ▸ ?_)
    omega
  · rw [hdiv, Int.toNat_of_nonneg hlow]
    exact hmem

/-- The region that is zeroed is that of the new frames. -/
theorem CopiesWhen.region_iff
    (htaken : serve (source.noffH.numPages - source.noffH.numPagesCopyable)
      s.frames.memoryBitMap.free = some taken)
    (hwhen : CopiesWhen source.noffH (source.frames.take source.noffH.numPagesCopyable)
      (taken.map fun p : ℕ => (p : ℤ))) (q : ℕ) :
    source.noffH.numPages * frameOf (childFrames source taken) 0
          + source.noffH.numPagesCopyable ≤ q
        ∧ q < source.noffH.numPages * frameOf (childFrames source taken) 0 + source.noffH.numPages
      ↔ q ∈ taken := by
  obtain ⟨-, -, -, -, hown, -⟩ := hwhen
  have hle := source.copyable_le
  rw [← childFrames, List.forall_mem_map] at hown
  have hown : ∀ p ∈ taken, source.noffH.numPages * frameOf (childFrames source taken) 0
        + source.noffH.numPagesCopyable ≤ p
      ∧ p < source.noffH.numPages * frameOf (childFrames source taken) 0
        + source.noffH.numPages := fun p hp => by exact_mod_cast hown p hp
  generalize source.noffH.numPages * frameOf (childFrames source taken) 0 = b at *
  constructor
  · rintro ⟨hlow, hhigh⟩
    obtain ⟨j, rfl⟩ := Nat.exists_eq_add_of_le hlow
    refine (range_taken_iff htaken _).mpr (fun p hp => ?_) j (by omega)
    have := hown p hp
    omega
  · exact hown q

/-- **And they are enough.** -/
theorem CopiesWhen.copies (h : s.Sound Kernel.threadsOnPhyPageLength)
    (hsource : s.spaces[i]? = some source)
    (htaken : serve (source.noffH.numPages - source.noffH.numPagesCopyable)
      s.frames.memoryBitMap.free = some taken)
    (hwhen : CopiesWhen source.noffH (source.frames.take source.noffH.numPagesCopyable)
      (taken.map fun p : ℕ => (p : ℤ))) (mem : ℕ → Byte) :
    Copies Kernel.threadsOnPhyPageLength s source mem := by
  have hregion := hwhen.region_iff htaken
  obtain ⟨hcounted, hwhole, hspace, hinside, -, hfits⟩ := hwhen
  have hlen := length_of_serve htaken
  have hle := source.copyable_le
  have hsize : PageSize = 4096 := rfl
  have hpages := h.pages source (List.mem_of_getElem? hsource)
  obtain ⟨⟨k', child⟩, hdup⟩ := h.exists_duplicate hsource htaken fun p hp =>
    Int.ofNat_lt.mp (hcounted p (List.mem_map_of_mem hp))
  have hframes := frames_duplicate h hsource htaken hdup
  rw [← childFrames] at hinside
  have hzeroed := @store_zeroed source.noffH (childFrames source taken) hpages hle hwhole hspace
    mem
  have hkept : ∀ space ∈ s.spaces, ∀ p < MemorySize,
      ((p / PageSize : ℕ) : ℤ) ∈ space.frames →
      store mem (zeroedStart source.noffH (childFrames source taken))
        (List.replicate (zeroedSize source.noffH) 0) p = mem p := by
    intro space hspace p _ hp
    rw [hzeroed, if_neg fun hr => not_mem_of_taken h htaken hspace ((hregion _).mp hr) hp]
  refine ⟨k', child, _, (duplicateFrom_eq_some_iff h hsource htaken).mpr
    ⟨hdup, ?_, hfits, rfl⟩, hkept, fun v hv => ?_, fun v hv hvn => ?_⟩
  · have hmemory : MemorySize = 4194304 := rfl
    have hlimit : NumPhysPages = 1024 := rfl
    rw [zeroedStart_pages, hwhole, zeroedSize_whole hpages hle hwhole hspace, hsize]
    generalize source.noffH.numPages * frameOf (childFrames source taken) 0 = b at *
    omega
  · -- a shared page
    have hpage : v / PageSize < source.noffH.numPagesCopyable :=
      Nat.div_lt_of_lt_mul (by rwa [hwhole, Nat.mul_comm] at hv)
    have hin : v / PageSize < source.frames.length := by
      rw [AddrSpace.frames, List.length_map, source.length_eq]
      omega
    have hsame : physical child.frames v = physical source.frames v := by
      rw [hframes, physical, childFrames_of_lt hpage, physical]
    obtain ⟨hlt, hmem⟩ := physical_mem h hsource hin
    rw [hsame]
    exact hkept source (List.mem_of_getElem? hsource) _ hlt hmem
  · -- a page of the child
    have hpage : source.noffH.numPagesCopyable ≤ v / PageSize := by
      rw [hwhole] at hv
      exact (Nat.le_div_iff_mul_le (by decide)).mpr hv
    have hlast : v / PageSize < source.noffH.numPages :=
      Nat.div_lt_of_lt_mul (by rwa [Nat.mul_comm])
    have hframe := @childFrames_of_ge source taken _ hpage (by omega)
    have hmem := List.getElem_mem (l := taken)
      (n := v / PageSize - source.noffH.numPagesCopyable) (by omega)
    rw [hframes]
    refine ⟨?_, fun space hspace => ?_⟩
    · rw [hzeroed, physical_div, hframe, Int.toNat_natCast, if_pos ((hregion _).mpr hmem)]
    · rw [hframe]
      exact not_mem_of_taken h htaken hspace hmem

end Theorem

/-- **When a copy is as it should be.** For every address space that is live in a state reached by
creations, copies and destructions, with enough frames free: whatever the memory holds, the
constructor leaves the bytes of the live address spaces as they are and gives the child the
contents of its parent and zeros of its own exactly when the new frames happen to lie where the
constructor zeroes, and fill that region. It computes where to zero from the frame of page 0, which
is the parent's. -/
theorem copies_iff (s : Kernel)
    (hreach : Reach (Kernel.step Kernel.threadsOnPhyPageLength) always .initial s) (i : ℕ)
    (source : AddrSpace) (hsource : s.spaces[i]? = some source)
    (henough : source.noffH.numPages - source.noffH.numPagesCopyable
      ≤ s.frames.memoryBitMap.free.card) :
    (∀ mem, Copies Kernel.threadsOnPhyPageLength s source mem)
      ↔ CopiesWhen source.noffH (source.frames.take source.noffH.numPagesCopyable)
        (s.frames.memoryBitMap.finds
          (source.noffH.numPages - source.noffH.numPagesCopyable)) := by
  have hsound : s.Sound Kernel.threadsOnPhyPageLength :=
    hreach.invariant _ (Kernel.sound_initial _) fun _ _ _ h _ hs => h.step hs
  obtain ⟨taken, htaken⟩ := BitMap.exists_serve_of_le henough
  rw [BitMap.finds_of_serve htaken]
  exact ⟨fun hall => .of_copies hsound hsource htaken (hall _),
    fun hwhen mem => hwhen.copies hsound hsource htaken mem⟩

/-- The header of a program whose code fills one page, and which fills two. -/
def twoFullPages : NoffHeader := ⟨NOFFMAGIC, ⟨0, 40, 4096⟩, ⟨4096, 4136, 0⟩, ⟨4096, 0, 3072⟩⟩

/-- Behind a program of one page, the program that fills two is in the frames 1 and 2, and its
child gets the frame that is zeroed, the third. -/
theorem copies_twoFullPages :
    ∃ s source, exec (Kernel.step Kernel.threadsOnPhyPageLength) .initial
        [.create onePageHeader, .create twoFullPages] = some s
      ∧ s.spaces[1]? = some source ∧ source.frames = [1, 2]
      ∧ ∀ mem, Copies Kernel.threadsOnPhyPageLength s source mem := by
  have hrun : (exec (Kernel.step Kernel.threadsOnPhyPageLength) .initial
      [.create onePageHeader, .create twoFullPages]).map (fun s =>
        (s.spaces.map fun x => (x.noffH, x.frames), s.frames.memoryBitMap.finds 1,
          decide (1 ≤ s.frames.memoryBitMap.free.card)))
      = some ([(onePageHeader, [0]), (twoFullPages, [1, 2])], [3], true) := by decide +kernel
  obtain ⟨s, hs, hsee⟩ := Option.map_eq_some_iff.mp hrun
  simp only [Prod.mk.injEq, decide_eq_true_eq] at hsee
  obtain ⟨hspaces, hfinds, henough⟩ := hsee
  have hsource := congrArg (·[1]?) hspaces
  rw [List.getElem?_map] at hsource
  obtain ⟨source, hsource, hpair⟩ := Option.map_eq_some_iff.mp hsource
  obtain ⟨hheader, hframes⟩ := Prod.mk.inj hpair
  have hpages : source.noffH.numPages - source.noffH.numPagesCopyable = 1 := by
    rw [hheader]
    decide +kernel
  refine ⟨s, source, hs, hsource, hframes, (copies_iff s (.of_exec (allOk_always _ _) hs) 1 source
    hsource (by rwa [hpages])).mpr ?_⟩
  rw [hpages, hfinds, hframes, hheader]
  exact ⟨by decide, by decide +kernel, by decide +kernel, by decide +kernel, by decide +kernel,
    by decide +kernel⟩

/-- The first program of all, of one page, is copied: the constructor zeroes its data and its
stack. -/
theorem not_copies_first :
    ∃ s source, exec (Kernel.step Kernel.threadsOnPhyPageLength) .initial [.create onePageHeader]
        = some s
      ∧ s.spaces[0]? = some source
      ∧ (∃ k' child mem', duplicateFrom Kernel.threadsOnPhyPageLength source s.frames (fun _ => 1)
          = some (k', child, mem') ∧ mem' (physical source.frames 8) = 0)
      ∧ ¬ Copies Kernel.threadsOnPhyPageLength s source fun _ => 1 := by
  have hrun : (exec (Kernel.step Kernel.threadsOnPhyPageLength) .initial
      [.create onePageHeader]).map (fun s =>
        s.spaces.map fun x => (x.noffH, x.frames))
      = some [(onePageHeader, [0])] := by decide +kernel
  obtain ⟨s, hs, hspaces⟩ := Option.map_eq_some_iff.mp hrun
  have hsource := congrArg (·[0]?) hspaces
  rw [List.getElem?_map] at hsource
  obtain ⟨source, hsource, hpair⟩ := Option.map_eq_some_iff.mp hsource
  obtain ⟨hheader, hframes⟩ := Prod.mk.inj hpair
  have hsound : s.Sound Kernel.threadsOnPhyPageLength :=
    (Reach.of_exec (allOk_always _ _) hs).invariant _ (Kernel.sound_initial _)
      fun _ _ _ h _ hs => h.step hs
  have htaken : serve (source.noffH.numPages - source.noffH.numPagesCopyable)
      s.frames.memoryBitMap.free = some [] := by
    have hpages : source.noffH.numPages - source.noffH.numPagesCopyable = 0 := by
      rw [hheader]
      decide +kernel
    rw [hpages]
    rfl
  refine ⟨s, source, hs, hsource, ?_, fun hcopies => ?_⟩
  · obtain ⟨⟨k', child⟩, hdup⟩ := hsound.exists_duplicate hsource htaken
      fun p hp => absurd hp List.not_mem_nil
    refine ⟨k', child, _, (duplicateFrom_eq_some_iff hsound hsource htaken).mpr
      ⟨hdup, ?_, ?_, rfl⟩, ?_⟩
    · rw [childFrames, hheader, hframes]
      decide +kernel
    · rw [hheader, hframes]
      decide +kernel
    · rw [store_replicate, childFrames, hheader, hframes]
      decide +kernel
  · have hwhole := hcopies.wholePages hsound hsource htaken
    rw [hheader] at hwhole
    exact absurd hwhole (by decide +kernel)

end LoadBalancer.NachOS
