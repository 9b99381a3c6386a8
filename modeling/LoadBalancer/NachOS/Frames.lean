/-
The frames of the live address spaces, over runs of creations, copies and destructions.

With a counter for every frame the accounting is right: the counters count the entries that map
their frames, and what `Find` hands out is mapped by nobody ([`Kernel.accounted`]). But
`threadsOnPhyPage` has 32 counters for the 1024 frames, and `Find` answers `-1` when nothing is
free, which nobody asks about: [`Kernel.inBounds_iff`] says exactly which runs stay inside the
tables.
-/
import LoadBalancer.Lib.Transition
import LoadBalancer.NachOS.AddrSpace

set_option autoImplicit false

namespace LoadBalancer.NachOS

open LoadBalancer.Transition LoadBalancer.FirstFit LoadBalancer.RefCount

/-! ## One constructor -/

namespace AddrSpace

variable {counters : ℕ} {noffH : NoffHeader} {source space : AddrSpace} {k k' : Frames}

theorem make_eq_some_iff {pageTable : List TranslationEntry} :
    make noffH pageTable = some space ↔ space.pageTable = pageTable ∧ space.noffH = noffH := by
  unfold make
  constructor
  · intro h
    split_ifs at h with hlen
    cases h
    exact ⟨rfl, rfl⟩
  · rintro ⟨rfl, rfl⟩
    rw [dif_pos ⟨space.length_eq, space.pos, space.copyable_le⟩]

/-- New pages behind those that are there, and the page table made of both. -/
theorem newEntries_make_eq_some_iff {i n : ℕ} {shared : List TranslationEntry} :
    ((newEntries counters i n k).bind fun r =>
        (make noffH (shared ++ r.2)).map fun space => (r.1, space)) = some (k', space)
      ↔ ∃ taken, serve n k.memoryBitMap.free = some taken ∧ (∀ p ∈ taken, p < counters)
        ∧ k' = taken.foldl Frames.acquire k ∧ space.pageTable = shared ++ entriesFrom i taken
        ∧ space.noffH = noffH := by
  rw [Option.bind_eq_some_iff]
  constructor
  · rintro ⟨⟨k₁, pageTable⟩, hentries, hmap⟩
    obtain ⟨space', hmake, heq⟩ := Option.map_eq_some_iff.mp hmap
    cases heq
    obtain ⟨taken, htaken, hlt, rfl, rfl⟩ := newEntries_eq_some_iff.mp hentries
    exact ⟨taken, htaken, hlt, rfl, make_eq_some_iff.mp hmake⟩
  · rintro ⟨taken, htaken, hlt, rfl, hspace⟩
    refine ⟨(_, _), newEntries_eq_some_iff.mpr ⟨taken, htaken, hlt, rfl, rfl⟩, ?_⟩
    rw [make_eq_some_iff.mpr hspace, Option.map_some]

/-- **A creation**, once the header is accepted. -/
theorem create_eq_some_iff :
    create counters noffH k = some (k', space)
      ↔ (noffH.noffMagic = NOFFMAGIC ∧ noffH.SumDefined ∧ noffH.numPages ≤ NumPhysPages)
        ∧ ∃ taken, serve noffH.numPages k.memoryBitMap.free = some taken
          ∧ (∀ p ∈ taken, p < counters) ∧ k' = taken.foldl Frames.acquire k
          ∧ space.pageTable = entriesFrom 0 taken ∧ space.noffH = noffH := by
  unfold create
  split_ifs with hheader
  · rw [and_iff_right hheader]
    exact @newEntries_make_eq_some_iff counters noffH space k k' 0 noffH.numPages []
  · exact iff_of_false nofun fun h => hheader h.1

/-- **A copy**, once the shared pages are counted. -/
theorem duplicate_eq_some_iff {k₁ : Frames}
    (hshare : shareEntries counters (source.pageTable.take source.noffH.numPagesCopyable) k
      = some k₁) :
    duplicate counters source k = some (k', space)
      ↔ ∃ taken,
        serve (source.noffH.numPages - source.noffH.numPagesCopyable) k₁.memoryBitMap.free
          = some taken
        ∧ (∀ p ∈ taken, p < counters) ∧ k' = taken.foldl Frames.acquire k₁
        ∧ space.pageTable = source.pageTable.take source.noffH.numPagesCopyable
          ++ entriesFrom source.noffH.numPagesCopyable taken
        ∧ space.noffH = source.noffH := by
  unfold duplicate
  dsimp only
  rw [hshare, Option.bind_some]
  exact newEntries_make_eq_some_iff

end AddrSpace

/-! ## The system -/

/-- The frames and the live address spaces. -/
structure Kernel where
  frames : Frames
  spaces : List AddrSpace

namespace Kernel

/-- Nothing runs yet. -/
def initial : Kernel := ⟨.initial, []⟩

/-- What happens to an address space; a live one is named by its place in the list. -/
inductive Action
  | create (noffH : NoffHeader)
  | copy (i : ℕ)
  | destroy (i : ℕ)
deriving DecidableEq, Repr

/-- One action, with `counters` counters in `threadsOnPhyPage`. -/
def step (counters : ℕ) (s : Kernel) : Action → Option Kernel
  | .create noffH =>
      (AddrSpace.create counters noffH s.frames).map fun r => ⟨r.1, s.spaces ++ [r.2]⟩
  | .copy i => s.spaces[i]?.bind fun source =>
      (AddrSpace.duplicate counters source s.frames).map fun r => ⟨r.1, s.spaces ++ [r.2]⟩
  | .destroy i => s.spaces[i]?.bind fun space =>
      (space.destroy counters s.frames).map fun k => ⟨k, s.spaces.eraseIdx i⟩

/-- The frames of the live address spaces, once for each entry that maps them. -/
def references (s : Kernel) : List ℤ := s.spaces.flatMap (·.frames)

/-- The answers of `Find` during an action. -/
def fresh (s : Kernel) : Action → List ℤ
  | .create noffH => s.frames.memoryBitMap.finds noffH.numPages
  | .copy i => match s.spaces[i]? with
      | some source =>
          s.frames.memoryBitMap.finds (source.noffH.numPages - source.noffH.numPagesCopyable)
      | none => []
  | .destroy _ => []

/-- The accounts are right, every frame in use has a counter, and no address space is larger than
the memory. -/
structure Sound (counters : ℕ) (s : Kernel) : Prop where
  counts : s.frames.Counts s.references
  inside : ∀ p ∈ s.references, BitMap.Admits counters p
  pages : ∀ space ∈ s.spaces, space.noffH.numPages ≤ NumPhysPages

theorem sound_initial (counters : ℕ) : initial.Sound counters where
  counts := Frames.counts_initial
  inside _ hp := absurd hp List.not_mem_nil
  pages _ hspace := absurd hspace List.not_mem_nil

/-! ## What an action does to the accounts -/

variable {counters : ℕ} {s s' : Kernel} {source space : AddrSpace} {k' : Frames} {i : ℕ}

/-- The frames of a live address space are among the references. -/
theorem mem_references (hsource : s.spaces[i]? = some source) {p : ℤ} (hp : p ∈ source.frames) :
    p ∈ s.references :=
  List.mem_flatMap_of_mem (List.mem_of_getElem? hsource) hp

theorem references_append (k' : Frames) (space : AddrSpace) :
    (⟨k', s.spaces ++ [space]⟩ : Kernel).references = s.references ++ space.frames := by
  rw [references, List.flatMap_append, List.flatMap_singleton, references]

/-- One more address space, with its entries counted. -/
theorem Sound.append (h : s.Sound counters) (hcounts : k'.Counts (space.frames ++ s.references))
    (hin : ∀ p ∈ space.frames, BitMap.Admits counters p)
    (hpages : space.noffH.numPages ≤ NumPhysPages) :
    (⟨k', s.spaces ++ [space]⟩ : Kernel).Sound counters where
  counts := by
    rw [references_append]
    exact hcounts.perm List.perm_append_comm
  inside p hp := by
    rw [references_append] at hp
    rcases List.mem_append.mp hp with hp | hp
    · exact h.inside p hp
    · exact hin p hp
  pages x hx := by
    rcases List.mem_append.mp hx with hx | hx
    · exact h.pages x hx
    · rwa [List.mem_singleton.mp hx]

/-- What a first fit takes is the number of a frame. -/
theorem lt_of_serve {n : ℕ} {k : Frames} {taken : List ℕ}
    (h : serve n k.memoryBitMap.free = some taken) : ∀ p ∈ taken, p < NumPhysPages :=
  fun p hp => (BitMap.mem_free.mp (mem_of_serve h p hp)).1

/-- **After a creation** the counters count the new entries as well. -/
theorem Sound.create (h : s.Sound counters) {noffH : NoffHeader}
    (hc : AddrSpace.create counters noffH s.frames = some (k', space)) :
    (⟨k', s.spaces ++ [space]⟩ : Kernel).Sound counters := by
  obtain ⟨hheader, taken, htaken, hlt, rfl, htable, hnoffH⟩ := AddrSpace.create_eq_some_iff.mp hc
  have hframes : space.frames = taken.map fun p : ℕ => (p : ℤ) := by
    rw [AddrSpace.frames, htable, entriesFrom_frames]
  refine h.append ?_ ?_ ?_
  · rw [hframes]
    exact h.counts.acquireAll (lt_of_serve htaken)
  · rw [hframes, List.forall_mem_map]
    exact fun p hp => ⟨Int.natCast_nonneg p, Int.ofNat_lt.mpr (hlt p hp)⟩
  · rw [hnoffH]
    exact hheader.2.2

/-- The loop over the shared pages, for a live source. -/
theorem Sound.share (h : s.Sound counters) (hsource : s.spaces[i]? = some source) (c : ℕ) :
    ∃ k₁, shareEntries counters (source.pageTable.take c) s.frames = some k₁
      ∧ k₁.memoryBitMap = s.frames.memoryBitMap
      ∧ k₁.Counts (source.frames.take c ++ s.references) := by
  have hmem : ∀ e ∈ source.pageTable.take c, e.physicalPage ∈ s.references := fun e he =>
    mem_references hsource (List.mem_map_of_mem (List.mem_of_mem_take he))
  obtain ⟨k₁, hshare, hmap, hcounts⟩ := h.counts.shareEntries hmem fun e he =>
    h.inside _ (hmem e he)
  refine ⟨k₁, hshare, hmap, ?_⟩
  rw [AddrSpace.frames, ← List.map_take]
  exact hcounts

/-- **A copy of a live address space**: its copyable pages are shared and the others are in frames
that a first fit takes. -/
theorem Sound.duplicate_iff (h : s.Sound counters) (hsource : s.spaces[i]? = some source) :
    AddrSpace.duplicate counters source s.frames = some (k', space)
      ↔ ∃ taken,
        serve (source.noffH.numPages - source.noffH.numPagesCopyable) s.frames.memoryBitMap.free
          = some taken
        ∧ (∀ p ∈ taken, p < counters)
        ∧ (∃ k₁, shareEntries counters (source.pageTable.take source.noffH.numPagesCopyable)
          s.frames = some k₁ ∧ k' = taken.foldl Frames.acquire k₁)
        ∧ space.pageTable = source.pageTable.take source.noffH.numPagesCopyable
          ++ entriesFrom source.noffH.numPagesCopyable taken
        ∧ space.noffH = source.noffH := by
  obtain ⟨k₁, hshare, hmap, -⟩ := h.share hsource source.noffH.numPagesCopyable
  rw [AddrSpace.duplicate_eq_some_iff hshare, hmap]
  refine exists_congr fun taken => and_congr_right fun _ => and_congr_right fun _ => ?_
  rw [hshare]
  constructor
  · rintro ⟨rfl, hspace⟩
    exact ⟨⟨k₁, rfl, rfl⟩, hspace⟩
  · rintro ⟨⟨_, heq, rfl⟩, hspace⟩
    cases heq
    exact ⟨rfl, hspace⟩

/-- When there are frames with counters, a copy is made. -/
theorem Sound.exists_duplicate (h : s.Sound counters) (hsource : s.spaces[i]? = some source)
    {taken : List ℕ}
    (htaken : serve (source.noffH.numPages - source.noffH.numPagesCopyable)
      s.frames.memoryBitMap.free = some taken) (hlt : ∀ p ∈ taken, p < counters) :
    ∃ r, AddrSpace.duplicate counters source s.frames = some r := by
  obtain ⟨k₁, hshare, -, -⟩ := h.share hsource source.noffH.numPagesCopyable
  have hlen : (source.pageTable.take source.noffH.numPagesCopyable
      ++ entriesFrom source.noffH.numPagesCopyable taken).length = source.noffH.numPages := by
    have hle := source.copyable_le
    rw [List.length_append, List.length_take, length_entriesFrom, length_of_serve htaken,
      source.length_eq]
    omega
  exact ⟨(taken.foldl Frames.acquire k₁, ⟨_, source.noffH, hlen, source.pos, source.copyable_le⟩),
    (h.duplicate_iff hsource).mpr ⟨taken, htaken, hlt, ⟨k₁, hshare, rfl⟩, rfl, rfl⟩⟩

/-- **After a copy** the counters count the entries of the child as well. -/
theorem Sound.duplicate (h : s.Sound counters) (hsource : s.spaces[i]? = some source)
    (hd : AddrSpace.duplicate counters source s.frames = some (k', space)) :
    (⟨k', s.spaces ++ [space]⟩ : Kernel).Sound counters := by
  obtain ⟨taken, htaken, hlt, ⟨k₁, hk₁, rfl⟩, htable, hnoffH⟩ := (h.duplicate_iff hsource).mp hd
  obtain ⟨k₂, hk₂, hmap, hcounts⟩ := h.share hsource source.noffH.numPagesCopyable
  obtain rfl : k₁ = k₂ := Option.some.inj (hk₁.symm.trans hk₂)
  have hframes : space.frames
      = source.frames.take source.noffH.numPagesCopyable ++ taken.map fun p : ℕ => (p : ℤ) := by
    rw [AddrSpace.frames, htable, List.map_append, entriesFrom_frames, AddrSpace.frames,
      List.map_take]
  refine h.append ?_ (fun p hp => ?_) ?_
  · have hall := hcounts.acquireAll (lt_of_serve htaken)
    rw [hframes]
    refine hall.perm ?_
    rw [← List.append_assoc]
    exact List.perm_append_comm.append_right _
  · rw [hframes] at hp
    rcases List.mem_append.mp hp with hp | hp
    · exact h.inside p (mem_references hsource (List.mem_of_mem_take hp))
    · obtain ⟨x, hx, rfl⟩ := List.mem_map.mp hp
      exact ⟨Int.natCast_nonneg x, Int.ofNat_lt.mpr (hlt x hx)⟩
  · rw [hnoffH]
    exact h.pages source (List.mem_of_getElem? hsource)

/-- **After a destruction** the counters count what is left. -/
theorem Sound.destroy (h : s.Sound counters) (hspace : s.spaces[i]? = some space) :
    ∃ k', space.destroy counters s.frames = some k'
      ∧ (⟨k', s.spaces.eraseIdx i⟩ : Kernel).Sound counters := by
  obtain ⟨hi, rfl⟩ := List.getElem?_eq_some_iff.mp hspace
  have hperm : ((s.spaces[i]).frames ++ (s.spaces.eraseIdx i).flatMap (·.frames)).Perm
      s.references := by
    rw [← List.flatMap_cons]
    exact (List.getElem_cons_eraseIdx_perm hi).flatMap_right _
  have hbefore : s.frames.Counts ((s.spaces[i]).pageTable.map (·.physicalPage)
      ++ (s.spaces.eraseIdx i).flatMap (·.frames)) := h.counts.perm hperm.symm
  obtain ⟨k', hrelease, hcounts⟩ := hbefore.releaseEntries fun e he =>
    h.inside _ (mem_references hspace (List.mem_map_of_mem he))
  refine ⟨k', hrelease, hcounts, fun p hp => ?_, fun x hx => ?_⟩
  · exact h.inside p (hperm.subset (List.mem_append_right _ hp))
  · exact h.pages x ((List.eraseIdx_sublist _ _).subset hx)

/-- **What every action keeps.** -/
theorem Sound.step (h : s.Sound counters) {a : Action} (hs : step counters s a = some s') :
    s'.Sound counters := by
  cases a with
  | create noffH =>
      obtain ⟨⟨k', space⟩, hc, rfl⟩ := Option.map_eq_some_iff.mp hs
      exact h.create hc
  | copy i =>
      obtain ⟨source, hsource, hd⟩ := Option.bind_eq_some_iff.mp hs
      obtain ⟨⟨k', space⟩, hdup, rfl⟩ := Option.map_eq_some_iff.mp hd
      exact h.duplicate hsource hdup
  | destroy i =>
      obtain ⟨space, hspace, hd⟩ := Option.bind_eq_some_iff.mp hs
      obtain ⟨k', hk', hsound⟩ := h.destroy hspace
      rw [hk'] at hd
      cases hd
      exact hsound

/-! ## What the constructors admit -/

/-- The executable passes the checks of the constructor, or the address space is live. -/
def Admitted (s : Kernel) : Action → Prop
  | .create noffH =>
      noffH.noffMagic = NOFFMAGIC ∧ noffH.SumDefined ∧ noffH.numPages ≤ NumPhysPages
  | .copy i => i < s.spaces.length
  | .destroy i => i < s.spaces.length

instance (s : Kernel) (a : Action) : Decidable (s.Admitted a) :=
  match a with
  | .create _ => inferInstanceAs (Decidable (_ ∧ _ ∧ _))
  | .copy _ => inferInstanceAs (Decidable (_ < _))
  | .destroy _ => inferInstanceAs (Decidable (_ < _))

/-- The new page table has the entries that are read of it: the first one and those of the
copyable pages. -/
def Action.EntriesThere : Action → Prop
  | .create noffH => 0 < noffH.numPages ∧ noffH.numPagesCopyable ≤ noffH.numPages
  | .copy _ => True
  | .destroy _ => True

instance (a : Action) : Decidable a.EntriesThere :=
  match a with
  | .create _ => inferInstanceAs (Decidable (_ ∧ _))
  | .copy _ => isTrue trivial
  | .destroy _ => isTrue trivial

/-- The frames that an action asks for. -/
theorem exists_fresh_eq (s : Kernel) (a : Action) :
    ∃ n, s.fresh a = s.frames.memoryBitMap.finds n := by
  unfold fresh
  split
  · exact ⟨_, rfl⟩
  · split
    · exact ⟨_, rfl⟩
    · exact ⟨0, rfl⟩
  · exact ⟨0, rfl⟩

/-- **What `Find` hands out** is mapped by no live address space, and nothing is handed out
twice. -/
theorem Sound.fresh_not_mem (h : s.Sound counters) {a : Action} (ha : -1 ∉ s.fresh a) :
    (s.fresh a).Nodup ∧ ∀ p ∈ s.fresh a, p ∉ s.references := by
  obtain ⟨n, hn⟩ := s.exists_fresh_eq a
  rw [hn] at ha ⊢
  obtain ⟨taken, htaken⟩ := BitMap.exists_serve ha
  rw [BitMap.finds_of_serve htaken]
  refine ⟨(nodup_of_serve htaken).map fun _ _ => Int.ofNat_inj.mp, ?_⟩
  rw [List.forall_mem_map]
  intro p hp hmem
  exact (Frames.mem_free_iff.mp (mem_of_serve htaken p hp)).2 ((h.counts.used_iff_mem p).mpr hmem)

/-- Inside the tables, every action goes through. -/
theorem Sound.exists_step (h : s.Sound counters) {a : Action} (ha : s.Admitted a)
    (hread : a.EntriesThere) (hfresh : ∀ p ∈ s.fresh a, BitMap.Admits counters p) :
    ∃ s', Kernel.step counters s a = some s' := by
  cases a with
  | create noffH =>
      obtain ⟨taken, htaken, hlt⟩ := BitMap.forall_finds_iff.mp hfresh
      have hlen : (entriesFrom 0 taken).length = noffH.numPages := by
        rw [length_entriesFrom, length_of_serve htaken]
      have hcreate : AddrSpace.create counters noffH s.frames
          = some (taken.foldl Frames.acquire s.frames,
            ⟨entriesFrom 0 taken, noffH, hlen, hread.1, hread.2⟩) :=
        AddrSpace.create_eq_some_iff.mpr ⟨ha, taken, htaken, hlt, rfl, rfl, rfl⟩
      exact ⟨_, Option.map_eq_some_iff.mpr ⟨_, hcreate, rfl⟩⟩
  | copy i =>
      have hsource : s.spaces[i]? = some s.spaces[i] := List.getElem?_eq_getElem ha
      rw [fresh, hsource] at hfresh
      obtain ⟨taken, htaken, hlt⟩ := BitMap.forall_finds_iff.mp hfresh
      obtain ⟨space, hdup⟩ := h.exists_duplicate hsource htaken hlt
      exact ⟨_, Option.bind_eq_some_iff.mpr
        ⟨_, hsource, Option.map_eq_some_iff.mpr ⟨_, hdup, rfl⟩⟩⟩
  | destroy i =>
      obtain ⟨k', hdestroy, -⟩ := h.destroy (List.getElem?_eq_getElem ha)
      exact ⟨_, Option.bind_eq_some_iff.mpr
        ⟨_, List.getElem?_eq_getElem ha, Option.map_eq_some_iff.mpr ⟨_, hdestroy, rfl⟩⟩⟩

/-! ## The accounting -/

/-- The sizes do not overflow, and there is a frame for every new page. -/
def Proceeds (s : Kernel) (a : Action) : Prop :=
  s.Admitted a ∧ -1 ∉ s.fresh a ∧ match a with
    | .create noffH => noffH.NoOverflow
    | .copy _ => True
    | .destroy _ => True

instance (s : Kernel) (a : Action) : Decidable (s.Proceeds a) :=
  match a with
  | .create _ => inferInstanceAs (Decidable (_ ∧ _ ∧ NoffHeader.NoOverflow _))
  | .copy _ => inferInstanceAs (Decidable (_ ∧ _ ∧ True))
  | .destroy _ => inferInstanceAs (Decidable (_ ∧ _ ∧ True))

/-- With a counter for every frame, such an action stays inside the tables. -/
theorem Proceeds.inside {a : Action} (ha : s.Proceeds a) :
    a.EntriesThere ∧ ∀ p ∈ s.fresh a, BitMap.Admits NumPhysPages p := by
  obtain ⟨-, hfresh, hsizes⟩ := ha
  constructor
  · cases a with
    | create noffH => exact NoffHeader.NoOverflow.pages hsizes
    | copy i => trivial
    | destroy i => trivial
  · obtain ⟨n, hn⟩ := s.exists_fresh_eq a
    rw [hn] at hfresh ⊢
    obtain ⟨taken, htaken⟩ := BitMap.exists_serve hfresh
    exact BitMap.forall_finds_iff.mpr ⟨taken, htaken, lt_of_serve htaken⟩

/-- The references to a frame are the entries that map it. -/
theorem count_references (s : Kernel) (p : ℤ) :
    s.references.count p
      = (s.spaces.flatMap (·.pageTable)).countP fun e => e.physicalPage = p := by
  have hmap : s.references = (s.spaces.flatMap (·.pageTable)).map (·.physicalPage) := by
    rw [List.map_flatMap]
    rfl
  rw [hmap, List.count_eq_countP, List.countP_map]
  exact List.countP_congr fun e _ => by simp

/-- **The accounting of frames.** With a counter for every frame: in every state that creations,
copies and destructions reach, the counter of each frame is the number of entries of live address
spaces that map it, and its bit is set exactly when that number is positive; and the next action
goes through, and the frames that it is handed out are different ones that no live address space
maps. `Find` takes a frame only where no bit is set, and a bit is cleared only with the last entry.
-/
theorem accounted (s : Kernel) (h : Reach (step NumPhysPages) Proceeds initial s) :
    (∀ p : ℕ, p < NumPhysPages →
      s.frames.threadsOnPhyPage p
          = (s.spaces.flatMap (·.pageTable)).countP (fun e => e.physicalPage = (p : ℤ))
        ∧ (s.frames.memoryBitMap.bit p = true ↔ 0 < s.frames.threadsOnPhyPage p))
    ∧ ∀ a, s.Proceeds a → (∃ s', step NumPhysPages s a = some s') ∧ (s.fresh a).Nodup
      ∧ ∀ p ∈ s.fresh a, ∀ space ∈ s.spaces, p ∉ space.frames := by
  have hsound : s.Sound NumPhysPages :=
    h.invariant _ (sound_initial _) fun _ _ _ hsound _ hs => hsound.step hs
  constructor
  · intro p hp
    constructor
    · rw [hsound.counts.count_eq, count_references]
    · rw [← hsound.counts.used_iff, Frames.Used, Int.toNat_natCast]
      exact (and_iff_right ⟨Int.natCast_nonneg p, Int.ofNat_lt.mpr hp⟩).symm
  · intro a ha
    obtain ⟨hnodup, hfree⟩ := hsound.fresh_not_mem ha.2.1
    refine ⟨hsound.exists_step ha.1 ha.inside.1 ha.inside.2, hnodup, fun p hp space hspace hmem => ?_⟩
    exact hfree p hp (List.mem_flatMap_of_mem hspace hmem)

/-- A program of three pages, two of them with code and initialised data. -/
def threePages : NoffHeader where
  noffMagic := NOFFMAGIC
  code := ⟨0, 40, 5000⟩
  initData := ⟨5000, 5040, 1000⟩
  uninitData := ⟨6000, 0, 3000⟩

/-- A child that outlives its parent keeps the frames that they shared. -/
theorem accounted_orphan :
    ∃ s, exec (step NumPhysPages) initial [.create threePages, .copy 0, .destroy 0] = some s
      ∧ s.spaces.map (·.frames) = [[0, 1, 3]]
      ∧ ∀ p : ℕ, p < NumPhysPages →
        s.frames.threadsOnPhyPage p
          = (s.spaces.flatMap (·.pageTable)).countP (fun e => e.physicalPage = (p : ℤ)) := by
  have hrun : (exec (step NumPhysPages) initial [.create threePages, .copy 0, .destroy 0]).map
      (fun s => s.spaces.map (·.frames)) = some [[0, 1, 3]] := by decide +kernel
  obtain ⟨s, hs, hframes⟩ := Option.map_eq_some_iff.mp hrun
  have hok : AllOk (step NumPhysPages) Proceeds initial
      [.create threePages, .copy 0, .destroy 0] := by decide +kernel
  exact ⟨s, hs, hframes, fun p hp => ((accounted s (.of_exec hok hs)).1 p hp).1⟩

/-! ## The bounds -/

/-- The length of `threadsOnPhyPage`. -/
def threadsOnPhyPageLength : ℕ := 32

/-- The physical page numbers that an action uses as indices: of `threadsOnPhyPage` all of them,
of `memoryBitMap` those that are handed out or given back, and of the memory, in the constructors,
the first one and those of the copyable pages. -/
def pageNumbers (s : Kernel) : Action → List ℤ
  | .create noffH => s.fresh (.create noffH)
  | .copy i => match s.spaces[i]? with
      | some source => source.frames.take source.noffH.numPagesCopyable ++ s.fresh (.copy i)
      | none => []
  | .destroy i => match s.spaces[i]? with
      | some space => space.frames
      | none => []

/-- **Every physical page number that an action uses is there, and inside the tables.** -/
def InBounds (s : Kernel) (a : Action) : Prop :=
  a.EntriesThere ∧ ∀ p ∈ s.pageNumbers a,
    BitMap.Admits threadsOnPhyPageLength p ∧ BitMap.Admits NumPhysPages p

/-- Among the first 32 frames as many are free as the action asks for; and of an executable the
copyable pages are among the pages, of which there is one at least. -/
def Enough (s : Kernel) (a : Action) : Prop :=
  a.EntriesThere
    ∧ (s.fresh a).length ≤ (s.frames.memoryBitMap.free.filter (· < threadsOnPhyPageLength)).card

instance (s : Kernel) (a : Action) : Decidable (s.Enough a) := inferInstanceAs (Decidable (_ ∧ _))

/-- An index of the counters is one of the frames. -/
theorem admits_frame {p : ℤ} (h : BitMap.Admits threadsOnPhyPageLength p) :
    BitMap.Admits NumPhysPages p := by
  refine ⟨h.1, h.2.trans ?_⟩
  decide

/-- What `Find` answers has a counter exactly when enough of the first frames are free. -/
theorem forall_fresh_iff (s : Kernel) (a : Action) :
    (∀ p ∈ s.fresh a, BitMap.Admits threadsOnPhyPageLength p)
      ↔ (s.fresh a).length
        ≤ (s.frames.memoryBitMap.free.filter (· < threadsOnPhyPageLength)).card := by
  obtain ⟨n, hn⟩ := s.exists_fresh_eq a
  rw [hn, BitMap.forall_finds_iff, exists_serve_below_iff, BitMap.length_finds]

/-- The page numbers of an action are inside the tables when those that it is handed out are. -/
theorem Sound.inBounds_iff_enough (h : s.Sound threadsOnPhyPageLength) (a : Action) :
    s.InBounds a ↔ s.Enough a := by
  unfold InBounds Enough
  apply and_congr_right
  intro _
  rw [← forall_fresh_iff]
  constructor
  · intro hall p hp
    refine (hall p ?_).1
    cases a with
    | create noffH => exact hp
    | copy i =>
        rw [pageNumbers]
        split
        · exact List.mem_append_right _ hp
        · rename_i hnone
          rw [fresh, hnone] at hp
          exact hp
    | destroy i => exact absurd hp List.not_mem_nil
  · intro hfresh p hp
    have hp : BitMap.Admits threadsOnPhyPageLength p := by
      cases a with
      | create noffH => exact hfresh p hp
      | copy i =>
          rw [pageNumbers] at hp
          split at hp
          · rename_i source hsource
            rcases List.mem_append.mp hp with hp | hp
            · exact h.inside p (mem_references hsource (List.mem_of_mem_take hp))
            · exact hfresh p hp
          · exact absurd hp List.not_mem_nil
      | destroy i =>
          rw [pageNumbers] at hp
          split at hp
          · rename_i space hspace
            exact h.inside p (mem_references hspace hp)
          · exact absurd hp List.not_mem_nil
    exact ⟨hp, admits_frame hp⟩

/-- **When the page numbers stay inside the tables**: along every sequence of actions that the
constructors admit, exactly when at each of them enough of the first 32 frames are free. There are
32 counters for 1024 frames, and `Find` gives out the lowest frames first. -/
theorem inBounds_iff (as : List Action)
    (h : AllOk (step threadsOnPhyPageLength) Admitted initial as) :
    AllOk (step threadsOnPhyPageLength) InBounds initial as
      ↔ AllOk (step threadsOnPhyPageLength) Enough initial as :=
  allOk_iff_allOk (Sound threadsOnPhyPageLength) (fun _ a hsound _ => hsound.inBounds_iff_enough a)
    (fun _ _ _ hsound _ _ hs => hsound.step hs) (sound_initial _) h

/-- A program of three pages, its child, and then the parent's end. -/
theorem inBounds_orphan :
    AllOk (step threadsOnPhyPageLength) InBounds initial
      [.create threePages, .copy 0, .destroy 0] :=
  (inBounds_iff _ (by decide +kernel)).mpr (by decide +kernel)

/-- A program of 33 pages. -/
def thirtyThreePages : NoffHeader where
  noffMagic := NOFFMAGIC
  code := ⟨0, 40, 4096⟩
  initData := ⟨4096, 4136, 0⟩
  uninitData := ⟨4096, 0, 130048⟩

/-- With all of the 1024 frames free, the program of 33 pages is admitted and goes outside the
counters. -/
theorem outside_with_thirtyThreePages :
    AllOk (step threadsOnPhyPageLength) Admitted initial [.create thirtyThreePages]
      ∧ 32 ∈ initial.pageNumbers (.create thirtyThreePages)
      ∧ ¬ AllOk (step threadsOnPhyPageLength) InBounds initial [.create thirtyThreePages] := by
  have hmem : 32 ∈ initial.pageNumbers (.create thirtyThreePages) := by decide +kernel
  refine ⟨by decide +kernel, hmem, fun h => ?_⟩
  exact absurd (h.1.2 32 hmem).1.2 (by decide)

end Kernel

end LoadBalancer.NachOS
