/-
The page tables of `addrspace.cc`: which frames an address space gets, shares and gives back.

An address space is as long as the sizes in the header of its executable say (`noff.h`). The
constructor from an executable asks `memoryBitMap` for a frame for every page; the one from
another address space shares the pages of code and initialised data and asks for the rest; and
the destructor gives back what nobody else counts on in `threadsOnPhyPage`.

What a row of `Find`s hands out is [`newEntries_eq_some_iff`], and that the counters count the
references, through each of the three loops, is [`Frames.Counts.newEntries`],
[`Frames.Counts.shareEntries`] and [`Frames.Counts.releaseEntries`].
-/
import LoadBalancer.Lib.RefCount
import LoadBalancer.NachOS.BitMap
import LoadBalancer.NachOS.Machine

set_option autoImplicit false

namespace LoadBalancer.NachOS

open LoadBalancer.FirstFit LoadBalancer.RefCount

/-! ## The header of an executable -/

/-- `Segment`. -/
structure Segment where
  virtualAddr : ℤ
  inFileAddr : ℤ
  size : ℤ
deriving DecidableEq, Repr

/-- `NoffHeader`. -/
structure NoffHeader where
  noffMagic : ℤ
  code : Segment
  initData : Segment
  uninitData : Segment
deriving DecidableEq, Repr

/-- `NOFFMAGIC`. -/
def NOFFMAGIC : ℤ := 0xbadfad

/-- `UserStackSize`. -/
def UserStackSize : ℕ := 1024

namespace NoffHeader

/-- `code.size + initData.size` is an `int`; otherwise the sum has no defined value. -/
def SumDefined (noffH : NoffHeader) : Prop :=
  -2147483648 ≤ noffH.code.size + noffH.initData.size
    ∧ noffH.code.size + noffH.initData.size < 2147483648

instance (noffH : NoffHeader) : Decidable noffH.SumDefined := inferInstanceAs (Decidable (_ ∧ _))

/-- `size_copyable`. -/
def size_copyable (noffH : NoffHeader) : ℕ := toUnsigned (noffH.code.size + noffH.initData.size)

/-- `size_real`, a sum of `unsigned`s. -/
def size_real (noffH : NoffHeader) : ℕ :=
  toUnsigned (noffH.size_copyable + noffH.uninitData.size + UserStackSize)

/-- `numPagesCopyable`; `divRoundUp` takes and returns an `int`. -/
def numPagesCopyable (noffH : NoffHeader) : ℕ :=
  toUnsigned (divRoundUp (toSigned noffH.size_copyable) PageSize)

/-- `numPages`. -/
def numPages (noffH : NoffHeader) : ℕ :=
  toUnsigned (divRoundUp (toSigned noffH.size_real) PageSize)

/-- The sum of the header's sizes does not overflow an `int`. -/
def NoOverflow (noffH : NoffHeader) : Prop :=
  noffH.SumDefined
    ∧ noffH.size_copyable + toUnsigned noffH.uninitData.size + UserStackSize < 2147483648

instance (noffH : NoffHeader) : Decidable noffH.NoOverflow := inferInstanceAs (Decidable (_ ∧ _))

end NoffHeader

/-- `divRoundUp` of a size that is not negative. -/
theorem divRoundUp_natCast (n : ℕ) :
    divRoundUp n PageSize = ((n + (PageSize - 1)) / PageSize : ℕ) := by
  have hdiv : (n : ℤ).tdiv PageSize = ((n / PageSize : ℕ) : ℤ) := by
    rw [Int.natCast_ediv]
    exact Int.tdiv_eq_ediv_of_nonneg (Int.natCast_nonneg n)
  have hmod : (n : ℤ).tmod PageSize = ((n % PageSize : ℕ) : ℤ) := by
    rw [Int.natCast_emod]
    exact Int.tmod_eq_emod_of_nonneg (Int.natCast_nonneg n)
  have hsize : PageSize = 4096 := rfl
  rw [divRoundUp, hdiv, hmod, hsize]
  split_ifs <;> omega

/-- And of a negative one, which is rounded up to zero. -/
theorem divRoundUp_neg (n : ℕ) : divRoundUp (-n) PageSize = -((n / PageSize : ℕ) : ℤ) := by
  have hdiv : (-(n : ℤ)).tdiv PageSize = -((n / PageSize : ℕ) : ℤ) := by
    rw [Int.neg_tdiv, Int.natCast_ediv, Int.tdiv_eq_ediv_of_nonneg (Int.natCast_nonneg n)]
  have hmod : ¬ (-(n : ℤ)).tmod PageSize > 0 := by
    rw [Int.neg_tmod, Int.tmod_eq_emod_of_nonneg (Int.natCast_nonneg n)]
    have hsize : PageSize = 4096 := rfl
    rw [hsize]
    omega
  rw [divRoundUp, hdiv, if_neg hmod, Int.add_zero]

/-- The pages of a size that is an `int`. -/
theorem pages_eq {n : ℕ} (h : n < 2147483648) :
    toUnsigned (divRoundUp (toSigned n) PageSize) = (n + (PageSize - 1)) / PageSize := by
  have hsize : PageSize = 4096 := rfl
  rw [toSigned_of_lt h, divRoundUp_natCast, toUnsigned_natCast (by rw [hsize]; omega)]

/-- **The pages that the constructor accepts** for a size: it is less than a page below zero, and
then there is no page, or it is not negative and not larger than the memory. -/
theorem pages_le_iff {z : ℤ} (hlow : -2147483648 ≤ z) (hhigh : z < 2147483648) :
    toUnsigned (divRoundUp z PageSize) ≤ NumPhysPages
      ↔ -PageSize < z ∧ z ≤ (NumPhysPages * PageSize : ℕ) := by
  have hsize : PageSize = 4096 := rfl
  have hpages : NumPhysPages = 1024 := rfl
  rcases Int.le_total 0 z with hz | hz
  · obtain ⟨n, rfl⟩ := Int.eq_ofNat_of_zero_le hz
    rw [divRoundUp_natCast, toUnsigned_natCast (by rw [hsize]; omega), hsize, hpages]
    omega
  · obtain ⟨n, hn⟩ := Int.eq_ofNat_of_zero_le (Int.neg_nonneg_of_nonpos hz)
    obtain rfl : z = -n := by omega
    rw [divRoundUp_neg, hsize, hpages, toUnsigned]
    omega

/-- And how many they are. -/
theorem pages_of_mem {z : ℤ} (hlow : -PageSize < z) (hhigh : z < 2147483648) :
    toUnsigned (divRoundUp z PageSize) = (z.toNat + (PageSize - 1)) / PageSize := by
  have hsize : PageSize = 4096 := rfl
  rcases Int.le_total 0 z with hz | hz
  · obtain ⟨n, rfl⟩ := Int.eq_ofNat_of_zero_le hz
    rw [divRoundUp_natCast, toUnsigned_natCast (by rw [hsize]; omega), Int.toNat_natCast]
  · obtain ⟨n, hn⟩ := Int.eq_ofNat_of_zero_le (Int.neg_nonneg_of_nonpos hz)
    obtain rfl : z = -n := by omega
    rw [divRoundUp_neg, hsize, toUnsigned]
    omega

/-- Without overflow there is a page, and the copyable ones are among the pages. -/
theorem NoffHeader.NoOverflow.pages {noffH : NoffHeader} (h : noffH.NoOverflow) :
    0 < noffH.numPages ∧ noffH.numPagesCopyable ≤ noffH.numPages := by
  obtain ⟨-, hsum⟩ := h
  have hreal : noffH.size_real
      = noffH.size_copyable + toUnsigned noffH.uninitData.size + UserStackSize := by
    unfold NoffHeader.size_real
    unfold toUnsigned at hsum ⊢
    omega
  have hstack : UserStackSize = 1024 := rfl
  have hsize : PageSize = 4096 := rfl
  rw [NoffHeader.numPages, NoffHeader.numPagesCopyable, pages_eq (by omega), pages_eq (by omega),
    hreal, hstack, hsize]
  omega

/-! ## The frames -/

/-- `memoryBitMap` and `threadsOnPhyPage`, with `threadsOnPhyPage[p]` for the indices that there
are. -/
structure Frames where
  memoryBitMap : BitMap NumPhysPages
  threadsOnPhyPage : ℤ → ℤ

namespace Frames

/-- At the start no frame is in use. -/
def initial : Frames := ⟨.initial, fun _ => 0⟩

/-- `threadsOnPhyPage[p] += d`, in an array of `counters` counters. -/
def count (counters : ℕ) (p d : ℤ) (k : Frames) : Option Frames :=
  if BitMap.Admits counters p then
    some { k with
           threadsOnPhyPage := Function.update k.threadsOnPhyPage p (k.threadsOnPhyPage p + d) }
  else none

end Frames

/-- The entry of page `i`, in a frame of its own. -/
def newEntry (i : ℕ) (physicalPage : ℤ) : TranslationEntry where
  virtualPage := i
  physicalPage := physicalPage
  valid := true
  readOnly := false
  use := false
  dirty := false

/-- The loop that registers new pages: `n` of them, from page `i` on. -/
def newEntries (counters i : ℕ) : ℕ → Frames → Option (Frames × List TranslationEntry)
  | 0, k => some (k, [])
  | n + 1, k =>
      let (memoryBitMap, physicalPage) := k.memoryBitMap.Find
      (Frames.count counters physicalPage 1 { k with memoryBitMap := memoryBitMap }).bind fun k =>
        (newEntries counters (i + 1) n k).map fun (k, pageTable) =>
          (k, newEntry i physicalPage :: pageTable)

/-- The loop that copies entries from parent to child. -/
def shareEntries (counters : ℕ) : List TranslationEntry → Frames → Option Frames
  | [], k => some k
  | e :: pageTable, k => (k.count counters e.physicalPage 1).bind (shareEntries counters pageTable)

/-- The loop of the destructor. -/
def releaseEntries (counters : ℕ) : List TranslationEntry → Frames → Option Frames
  | [], k => some k
  | e :: pageTable, k =>
      (k.count counters e.physicalPage (-1)).bind fun k =>
        if k.threadsOnPhyPage e.physicalPage = 0 then
          (k.memoryBitMap.Clear e.physicalPage).bind fun memoryBitMap =>
            releaseEntries counters pageTable { k with memoryBitMap := memoryBitMap }
        else releaseEntries counters pageTable k

/-! ## Address spaces -/

/-- `AddrSpace`. Every page has an entry, and the entries that the constructors read afterwards,
the first one and those of the copyable pages, are there. -/
structure AddrSpace where
  pageTable : List TranslationEntry
  noffH : NoffHeader
  length_eq : pageTable.length = noffH.numPages
  pos : 0 < noffH.numPages
  copyable_le : noffH.numPagesCopyable ≤ noffH.numPages

namespace AddrSpace

/-- The frames of an address space, by page. -/
def frames (space : AddrSpace) : List ℤ := space.pageTable.map (·.physicalPage)

/-- A page table for this header, if the entries that are read of it are there. -/
def make (noffH : NoffHeader) (pageTable : List TranslationEntry) : Option AddrSpace :=
  if h : pageTable.length = noffH.numPages ∧ 0 < noffH.numPages
      ∧ noffH.numPagesCopyable ≤ noffH.numPages then
    some ⟨pageTable, noffH, h.1, h.2.1, h.2.2⟩
  else none

/-- `AddrSpace(OpenFile *)`, with the header that was read, up to the end of the loop over the
pages. -/
def create (counters : ℕ) (noffH : NoffHeader) (k : Frames) : Option (Frames × AddrSpace) :=
  if noffH.noffMagic = NOFFMAGIC ∧ noffH.SumDefined ∧ noffH.numPages ≤ NumPhysPages then
    (newEntries counters 0 noffH.numPages k).bind fun (k, pageTable) =>
      (make noffH pageTable).map fun space => (k, space)
  else none

/-- `AddrSpace(AddrSpace *)`, up to the end of the two loops over the pages. -/
def duplicate (counters : ℕ) (source : AddrSpace) (k : Frames) : Option (Frames × AddrSpace) :=
  let shared := source.pageTable.take source.noffH.numPagesCopyable
  (shareEntries counters shared k).bind fun k =>
    (newEntries counters source.noffH.numPagesCopyable
        (source.noffH.numPages - source.noffH.numPagesCopyable) k).bind fun (k, fresh) =>
      (make source.noffH (shared ++ fresh)).map fun space => (k, space)

/-- `~AddrSpace`. -/
def destroy (counters : ℕ) (space : AddrSpace) (k : Frames) : Option Frames :=
  releaseEntries counters space.pageTable k

end AddrSpace

/-! ## What a row of `Find`s hands out -/

namespace Frames

/-- A clear bit set, and its frame counted. -/
def acquire (k : Frames) (p : ℕ) : Frames where
  memoryBitMap := k.memoryBitMap.mark p
  threadsOnPhyPage := Function.update k.threadsOnPhyPage p (k.threadsOnPhyPage p + 1)

theorem free_acquire (k : Frames) (p : ℕ) :
    (k.acquire p).memoryBitMap.free = k.memoryBitMap.free.erase p := BitMap.free_mark _ _

end Frames

/-- The entries of the pages from `i` on, in these frames. -/
def entriesFrom (i : ℕ) : List ℕ → List TranslationEntry
  | [] => []
  | p :: taken => newEntry i p :: entriesFrom (i + 1) taken

theorem entriesFrom_frames (i : ℕ) (taken : List ℕ) :
    (entriesFrom i taken).map (·.physicalPage) = taken.map fun p : ℕ => (p : ℤ) := by
  induction taken generalizing i with
  | nil => rfl
  | cons p taken ih => rw [entriesFrom, List.map_cons, List.map_cons, ih]; rfl

@[simp] theorem length_entriesFrom (i : ℕ) (taken : List ℕ) :
    (entriesFrom i taken).length = taken.length := by
  have h := congrArg List.length (entriesFrom_frames i taken)
  rwa [List.length_map, List.length_map] at h

/-- A new entry is valid and writable. -/
theorem access_entriesFrom {i : ℕ} {taken : List ℕ} {e : TranslationEntry}
    (he : e ∈ entriesFrom i taken) : e.valid = true ∧ e.readOnly = false := by
  induction taken generalizing i with
  | nil => exact absurd he List.not_mem_nil
  | cons p taken ih =>
      rcases List.mem_cons.mp he with rfl | he
      · exact ⟨rfl, rfl⟩
      · exact ih he

/-- One more page, when there is a free frame. -/
theorem newEntries_succ {counters i n p : ℕ} {k : Frames}
    (hfind : k.memoryBitMap.Find = (k.memoryBitMap.mark p, (p : ℤ))) :
    newEntries counters i (n + 1) k
      = if p < counters then
          (newEntries counters (i + 1) n (k.acquire p)).map fun r => (r.1, newEntry i p :: r.2)
        else none := by
  rw [newEntries, hfind]
  dsimp only
  rw [Frames.count]
  by_cases hp : p < counters
  · rw [if_pos ⟨Int.natCast_nonneg p, Int.ofNat_lt.mpr hp⟩, if_pos hp]
    rfl
  · rw [if_neg fun h => hp (Int.ofNat_lt.mp h.2), if_neg hp]
    rfl

/-- **What the loop over new pages does**: it takes what a first fit takes, and it goes outside
the counters as soon as the frames run out or one of them has no counter. -/
theorem newEntries_eq_some_iff {counters i n : ℕ} {k k' : Frames}
    {pageTable : List TranslationEntry} :
    newEntries counters i n k = some (k', pageTable)
      ↔ ∃ taken, serve n k.memoryBitMap.free = some taken ∧ (∀ p ∈ taken, p < counters)
        ∧ k' = taken.foldl Frames.acquire k ∧ pageTable = entriesFrom i taken := by
  induction n generalizing i k k' pageTable with
  | zero =>
      rw [newEntries, Option.some.injEq, Prod.mk.injEq]
      constructor
      · rintro ⟨rfl, rfl⟩
        exact ⟨[], rfl, fun p hp => absurd hp List.not_mem_nil, rfl, rfl⟩
      · rintro ⟨taken, htaken, -, hk, hentries⟩
        cases htaken
        exact ⟨hk.symm, hentries.symm⟩
  | succ n ih =>
      by_cases hne : k.memoryBitMap.free.Nonempty
      · rw [newEntries_succ (BitMap.find_of_nonempty hne)]
        constructor
        · intro h
          split_ifs at h with hp
          obtain ⟨⟨k₁, rest⟩, hrest, heq⟩ := Option.map_eq_some_iff.mp h
          cases heq
          obtain ⟨taken, htaken, hlt, rfl, rfl⟩ := ih.mp hrest
          rw [Frames.free_acquire] at htaken
          exact ⟨_, serve_succ_eq_some_iff.mpr ⟨hne, taken, htaken, rfl⟩,
            List.forall_mem_cons.mpr ⟨hp, hlt⟩, rfl, rfl⟩
        · rintro ⟨taken, htaken, hlt, rfl, rfl⟩
          obtain ⟨_, rest, hrest, rfl⟩ := serve_succ_eq_some_iff.mp htaken
          obtain ⟨hp, hlt⟩ := List.forall_mem_cons.mp hlt
          have hrest : newEntries counters (i + 1) n (k.acquire (k.memoryBitMap.free.min' hne))
              = some (rest.foldl Frames.acquire (k.acquire (k.memoryBitMap.free.min' hne)),
                entriesFrom (i + 1) rest) := by
            rw [← Frames.free_acquire] at hrest
            exact ih.mpr ⟨rest, hrest, hlt, rfl, rfl⟩
          rw [if_pos hp, hrest]
          rfl
      · -- `Find` answers `-1`, and that is no index
        have hempty := Finset.not_nonempty_iff_eq_empty.mp hne
        refine iff_of_false ?_ ?_
        · rw [newEntries, BitMap.find_of_empty hempty]
          dsimp only
          rw [Frames.count, if_neg fun h => absurd h.1 (by decide)]
          exact nofun
        · rintro ⟨taken, htaken, -⟩
          obtain ⟨hne', -⟩ := serve_succ_eq_some_iff.mp htaken
          exact hne hne'

/-! ## The counters -/

namespace Frames

/-- The frame's bit is set. -/
def Used (k : Frames) (p : ℤ) : Prop :=
  BitMap.Admits NumPhysPages p ∧ k.memoryBitMap.bit p.toNat = true

/-- Every counter is the number of references to its frame, and the bits that are set are those of
the frames whose counters are positive. -/
abbrev Counts (k : Frames) (refs : List ℤ) : Prop := Balanced k.threadsOnPhyPage k.Used refs

variable {k : Frames} {refs : List ℤ}

/-- At the start there are no references. -/
theorem counts_initial : initial.Counts [] where
  count_eq _ := rfl
  used_iff p := by
    refine iff_of_false (fun h => ?_) (lt_irrefl 0)
    have hbit := h.2
    rw [initial, BitMap.bit_initial] at hbit
    exact absurd hbit Bool.false_ne_true

/-- A frame is free when it is not in use. -/
theorem mem_free_iff {p : ℕ} : p ∈ k.memoryBitMap.free ↔ p < NumPhysPages ∧ ¬ k.Used p := by
  rw [BitMap.mem_free, Used, Int.toNat_natCast]
  apply and_congr_right
  intro hp
  rw [not_and, Bool.not_eq_true]
  exact ⟨fun h _ => h, fun h => h ⟨Int.natCast_nonneg p, Int.ofNat_lt.mpr hp⟩⟩

theorem Counts.acquire (h : k.Counts refs) {p : ℕ} (hp : p < NumPhysPages) :
    (k.acquire p).Counts ((p : ℤ) :: refs) := by
  apply Balanced.acquire h
  intro x
  rw [Used, Used, Frames.acquire]
  dsimp only
  rw [BitMap.bit_mark, Bool.or_eq_true, decide_eq_true_iff, and_or_left]
  apply or_congr_left
  constructor
  · rintro ⟨hx, heq⟩
    have := hx.1
    omega
  · rintro rfl
    exact ⟨⟨Int.natCast_nonneg p, Int.ofNat_lt.mpr hp⟩, Int.toNat_natCast p⟩

/-- **New pages.** -/
theorem Counts.acquireAll (h : k.Counts refs) {taken : List ℕ}
    (htaken : ∀ p ∈ taken, p < NumPhysPages) :
    (taken.foldl Frames.acquire k).Counts ((taken.map fun p : ℕ => (p : ℤ)) ++ refs) := by
  induction taken generalizing k refs with
  | nil => exact h
  | cons p taken ih =>
      obtain ⟨hp, htaken⟩ := List.forall_mem_cons.mp htaken
      exact (ih (h.acquire hp) htaken).perm List.perm_middle

/-- **Shared pages**: every reference to a frame that is in use counts once more. -/
theorem Counts.shareEntries {counters : ℕ} (h : k.Counts refs) {pageTable : List TranslationEntry}
    (hmem : ∀ e ∈ pageTable, e.physicalPage ∈ refs)
    (hin : ∀ e ∈ pageTable, BitMap.Admits counters e.physicalPage) :
    ∃ k', NachOS.shareEntries counters pageTable k = some k'
      ∧ k'.memoryBitMap = k.memoryBitMap
      ∧ k'.Counts (pageTable.map (·.physicalPage) ++ refs) := by
  induction pageTable generalizing k refs with
  | nil => exact ⟨k, rfl, rfl, h⟩
  | cons e pageTable ih =>
      obtain ⟨he, hmem⟩ := List.forall_mem_cons.mp hmem
      obtain ⟨hein, hin⟩ := List.forall_mem_cons.mp hin
      obtain ⟨k', hshare, hmap, hcounts⟩ := ih
        (k := { k with
                threadsOnPhyPage := Function.update k.threadsOnPhyPage e.physicalPage
                  (k.threadsOnPhyPage e.physicalPage + 1) })
        (h.share he) (fun e' he' => List.mem_cons_of_mem _ (hmem e' he')) hin
      refine ⟨k', ?_, hmap, hcounts.perm List.perm_middle⟩
      rw [NachOS.shareEntries, count, if_pos hein, Option.bind_some, hshare]

/-- **Pages given back**: with the last reference to a frame its bit is cleared. -/
theorem Counts.releaseEntries {counters : ℕ} {pageTable : List TranslationEntry}
    (h : k.Counts (pageTable.map (·.physicalPage) ++ refs))
    (hin : ∀ e ∈ pageTable, BitMap.Admits counters e.physicalPage) :
    ∃ k', NachOS.releaseEntries counters pageTable k = some k' ∧ k'.Counts refs := by
  induction pageTable generalizing k with
  | nil => exact ⟨k, rfl, h⟩
  | cons e pageTable ih =>
      obtain ⟨hein, hin⟩ := List.forall_mem_cons.mp hin
      rw [List.map_cons, List.cons_append] at h
      have hused : k.Used e.physicalPage := (h.used_iff_mem _).mpr List.mem_cons_self
      rw [NachOS.releaseEntries, count, if_pos hein, Option.bind_some]
      dsimp only
      split_ifs with hzero
      all_goals rw [Function.update_self] at hzero
      · -- the last reference
        rw [BitMap.Clear, if_pos hused.1, Option.bind_some]
        refine ih (Balanced.release h fun x => ?_) hin
        rw [Used, Used]
        dsimp only
        rw [BitMap.bit_clear, Bool.and_eq_true, decide_eq_true_iff, and_left_comm, and_comm]
        apply and_congr_right
        intro hx
        constructor
        · rintro hne rfl
          exact absurd rfl hne
        · intro hlast heq
          have hxe : x = e.physicalPage := by
            have := hx.1.1
            have := hused.1.1
            omega
          exact hlast hxe hzero
      · refine ih (Balanced.release h fun x => ?_) hin
        exact (and_iff_left fun _ => hzero).symm

end Frames

end LoadBalancer.NachOS
