/-
The file system (`filesys.cc`), and the files that its clients have open.

The map of the free sectors and the directory are files themselves, with their headers in the
sectors 0 and 1. `Create` and `Remove` work on copies of the two and write them back at the end, so
that a request that fails leaves the disk as it was. [`Laid`] says what is on the disk: every sector
is free, or reserved, or it belongs to one file, and the map and the directory say so. A new disk is
laid out like that ([`format_laid`]).

`BitMap::FetchFrom` and `BitMap::WriteBack`, which `filesys.cc` calls, are not in `bitmap.cc`. They
are a parameter here, [`MapFormat`]: the bytes of a map, from which its bits can be read again.
-/
import LoadBalancer.NachOS.Directory

set_option autoImplicit false

namespace LoadBalancer.NachOS

open LoadBalancer.Memory LoadBalancer.Blocks

/-! ## The map of the free sectors, in its file -/

/-- `FreeMapSector`. -/
def FreeMapSector : ℕ := 0

/-- `DirectorySector`. -/
def DirectorySector : ℕ := 1

/-- `FreeMapFileSize`. -/
def FreeMapFileSize : ℕ := NumSectors / 8

/-- `NumDirEntries`. -/
def NumDirEntries : ℕ := 10

/-- `DirectoryFileSize`. -/
def DirectoryFileSize : ℕ := DirectoryEntrySize * NumDirEntries

/-- The bytes of a map in its file, and the map that has these bytes. That they are the first
`FreeMapFileSize` bytes of the file is assumed of the missing functions, since the file is made with
this size and for the map alone. -/
structure MapFormat where
  bytes : BitMap NumSectors → ℕ → Byte
  ofBytes : (ℕ → Byte) → BitMap NumSectors
  /-- What was written is read back. -/
  bit_ofBytes : ∀ (b : BitMap NumSectors) (mem : ℕ → Byte),
    (∀ i < FreeMapFileSize, mem i = bytes b i) → ∀ n < NumSectors, (ofBytes mem).bit n = b.bit n

namespace MapFormat

/-- `BitMap::FetchFrom`. -/
def FetchFrom (F : MapFormat) (file : OpenFile) (disk : Disk) (buf : ℕ → Byte) :
    Option (BitMap NumSectors) :=
  (file.ReadAt disk buf FreeMapFileSize 0).map fun row => F.ofBytes fun i => row.getD i 0

/-- `BitMap::WriteBack`. -/
def WriteBack (F : MapFormat) (freeMap : BitMap NumSectors) (file : OpenFile) (disk : Disk)
    (bufs : ℕ → ℕ → Byte) : Option Disk :=
  (file.WriteAt disk bufs (F.bytes freeMap) FreeMapFileSize 0).map Prod.snd

/-- The sectors that are free, by the map in a file. -/
def freeOn (F : MapFormat) (file : OpenFile) (disk : Disk) : Finset ℕ :=
  (F.ofBytes fun i => (file.hdr.content disk).getD i 0).free

variable {F : MapFormat} {file : OpenFile}

theorem fetchFrom_eq (h : file.hdr.Sound) (hlen : file.hdr.length = FreeMapFileSize) (disk : Disk)
    (buf : ℕ → Byte) :
    ∃ freeMap, F.FetchFrom file disk buf = some freeMap ∧ freeMap.free = F.freeOn file disk := by
  rw [FetchFrom, ← hlen, OpenFile.readAt_all h]
  exact ⟨_, rfl, rfl⟩

/-- **A map that is written is read back**, and only sectors of its file are written. -/
theorem writeBack_eq (F : MapFormat) (file : OpenFile) (h : file.hdr.Sound)
    (hlen : file.hdr.length = FreeMapFileSize) (freeMap : BitMap NumSectors) (disk : Disk)
    (bufs : ℕ → ℕ → Byte) :
    ∃ disk', F.WriteBack freeMap file disk bufs = some disk'
      ∧ F.freeOn file disk' = freeMap.free ∧ ∀ s ∉ file.hdr.sectors, disk' s = disk s := by
  obtain ⟨disk', hwrite, hcontent, hframe⟩ := OpenFile.writeAt_all h disk bufs (F.bytes freeMap)
  rw [WriteBack, ← hlen, hwrite]
  refine ⟨disk', rfl, ?_, hframe⟩
  have hbit : ∀ n < NumSectors,
      (F.ofBytes fun i => (file.hdr.content disk').getD i 0).bit n = freeMap.bit n := by
    refine F.bit_ofBytes freeMap _ fun i hi => ?_
    rw [hcontent, List.getD_eq_getElem?_getD, getElem?_load _ _ (hlen ▸ hi), Option.getD_some,
      Nat.zero_add]
  ext n
  rw [freeOn, BitMap.mem_free, BitMap.mem_free]
  exact and_congr_right fun hn => by rw [hbit n hn]

end MapFormat

/-! ## The operations -/

/-- `FileSystem`. -/
structure FileSystem where
  freeMapFile : OpenFile
  directoryFile : OpenFile

namespace FileSystem

/-- `FileSystem(false)`. -/
def mount (disk : Disk) : Option FileSystem := do
  let freeMapFile ← OpenFile.openAt disk FreeMapSector
  let directoryFile ← OpenFile.openAt disk DirectorySector
  return ⟨freeMapFile, directoryFile⟩

/-- `FileSystem(true)`. What the objects hold when they are made is in `bufs`. -/
def format (F : MapFormat) (disk : Disk) (bufs : ℕ → ℕ → Byte) : Option (FileSystem × Disk) := do
  let freeMap ← (BitMap.initial : BitMap NumSectors).Mark FreeMapSector
  let freeMap ← freeMap.Mark DirectorySector
  let (mapFits, mapHdr, freeMap) ← (FileHeader.ofBytes (bufs 0)).Allocate freeMap FreeMapFileSize
  -- `ASSERT(mapHdr->Allocate(freeMap, FreeMapFileSize))`, and the same of the directory
  guard mapFits
  let (dirFits, dirHdr, freeMap) ← (FileHeader.ofBytes (bufs 1)).Allocate freeMap DirectoryFileSize
  guard dirFits
  let disk ← mapHdr.WriteBack disk FreeMapSector
  let disk ← dirHdr.WriteBack disk DirectorySector
  let fs ← mount disk
  let disk ← F.WriteBack freeMap fs.freeMapFile disk fun k => bufs (k + 2)
  let disk ← (Directory.new (bufs 5) NumDirEntries).WriteBack fs.directoryFile disk
    fun k => bufs (k + 6)
  return (fs, disk)

/-- `Create`, when there is a sector for the header and a place in the directory. -/
def createWith (F : MapFormat) (fs : FileSystem) (disk : Disk) (bufs : ℕ → ℕ → Byte)
    (freeMap : BitMap NumSectors) (sector : ℤ) (directory : Directory) (initialSize : Word) :
    Option (Bool × Disk) := do
  let (success, hdr, freeMap) ← (FileHeader.ofBytes (bufs 0)).Allocate freeMap initialSize
  if success then
    let disk ← hdr.WriteBack disk sector
    let disk ← directory.WriteBack fs.directoryFile disk fun k => bufs (k + 1)
    let disk ← F.WriteBack freeMap fs.freeMapFile disk fun k => bufs (k + 4)
    return (true, disk)
  else return (false, disk)

/-- `FileSystem::Create`. -/
def Create (F : MapFormat) (fs : FileSystem) (disk : Disk) (bufs : ℕ → ℕ → Byte)
    (name : ℕ → Byte) (initialSize : Word) : Option (Bool × Disk) := do
  let directory ← (Directory.new (bufs 0) NumDirEntries).FetchFrom fs.directoryFile disk (bufs 1)
  if directory.Find name ≠ -1 then return (false, disk)
  else
    let freeMap ← F.FetchFrom fs.freeMapFile disk (bufs 2)
    if freeMap.Find.2 = -1 then return (false, disk)
    else if !(directory.Add name freeMap.Find.2).1 then return (false, disk)
    else
      createWith F fs disk (fun k => bufs (k + 3)) freeMap.Find.1 freeMap.Find.2
        (directory.Add name freeMap.Find.2).2 initialSize

/-- `FileSystem::Open`, where `none` inside is the null pointer. -/
def Open (fs : FileSystem) (disk : Disk) (bufs : ℕ → ℕ → Byte) (name : ℕ → Byte) :
    Option (Option OpenFile) := do
  let directory ← (Directory.new (bufs 0) NumDirEntries).FetchFrom fs.directoryFile disk (bufs 1)
  let sector := directory.Find name
  if sector ≥ 0 then
    let file ← OpenFile.openAt disk sector
    return some file
  else return none

/-- `FileSystem::Remove`. -/
def Remove (F : MapFormat) (fs : FileSystem) (disk : Disk) (bufs : ℕ → ℕ → Byte)
    (name : ℕ → Byte) : Option (Bool × Disk) := do
  let directory ← (Directory.new (bufs 0) NumDirEntries).FetchFrom fs.directoryFile disk (bufs 1)
  let sector := directory.Find name
  if sector = -1 then return (false, disk)
  else
    let fileHdr ← FileHeader.FetchFrom disk sector
    let freeMap ← F.FetchFrom fs.freeMapFile disk (bufs 2)
    let freeMap ← fileHdr.Deallocate freeMap
    let freeMap ← freeMap.Clear sector
    let disk ← F.WriteBack freeMap fs.freeMapFile disk fun k => bufs (k + 3)
    let disk ← (directory.Remove name).2.WriteBack fs.directoryFile disk fun k => bufs (k + 6)
    return (true, disk)

end FileSystem

/-! ## What is on the disk -/

/-- A file of the directory: the name of its entry, the sector of its header, and its header. -/
structure File where
  name : List Byte
  sector : ℕ
  hdr : FileHeader

/-- All sectors of a file. -/
def File.sectors (f : File) : List ℕ := f.sector :: f.hdr.sectors

/-- The sectors of the map and of the directory. -/
def FileSystem.reserved (fs : FileSystem) : List ℕ :=
  FreeMapSector :: DirectorySector :: (fs.freeMapFile.hdr.sectors ++ fs.directoryFile.hdr.sectors)

/-- Who has which sector. -/
structure Plan (fs : FileSystem) (slots : ℕ → Option File) (free : Finset ℕ) : Prop where
  mapSound : fs.freeMapFile.hdr.Sound
  dirSound : fs.directoryFile.hdr.Sound
  mapLength : fs.freeMapFile.hdr.length = FreeMapFileSize
  dirLength : fs.directoryFile.hdr.length = NumDirEntries * DirectoryEntrySize
  inside : ∀ {i f}, slots i = some f → i < NumDirEntries
  sound : ∀ {i f}, slots i = some f → f.hdr.Sound
  names : ∀ {i j f g}, slots i = some f → slots j = some g → f.name = g.name → i = j
  reservedNodup : fs.reserved.Nodup
  nodup : ∀ {i f}, slots i = some f → f.sectors.Nodup
  apart : ∀ {i f}, slots i = some f → ∀ s ∈ f.sectors, s ∉ fs.reserved
  disjoint : ∀ {i j f g}, slots i = some f → slots j = some g → i ≠ j →
    ∀ s ∈ f.sectors, s ∉ g.sectors
  onDisk : ∀ {i f}, slots i = some f → f.sector < NumSectors
  /-- The sectors that nobody has. -/
  mem_free : ∀ n, n ∈ free ↔ n < NumSectors ∧ n ∉ fs.reserved
    ∧ ∀ i f, slots i = some f → n ∉ f.sectors

/-- **What is on the disk**: the headers, the directory and the map of the free sectors. -/
structure Laid (F : MapFormat) (disk : Disk) (fs : FileSystem) (slots : ℕ → Option File) :
    Prop where
  plan : Plan fs slots (F.freeOn fs.freeMapFile disk)
  mounted : FileSystem.mount disk = some fs
  entries : ∀ i < NumDirEntries, Directory.entryOn (fs.directoryFile.hdr.content disk) i
    = (slots i).map fun f => (f.name, (f.sector : ℤ))
  header : ∀ {i f}, slots i = some f → FileHeader.FetchFrom disk f.sector = some f.hdr

/-! ### Files that come and go -/

namespace Plan

variable {fs : FileSystem} {slots : ℕ → Option File} {free : Finset ℕ} {i j : ℕ} {f g : File}

/-- An entry of the directory after one was set. -/
theorem slots_update {x : Option File} (hj : Function.update slots i x j = some g) :
    (j = i ∧ x = some g) ∨ (j ≠ i ∧ slots j = some g) := by
  by_cases heq : j = i
  · rw [heq, Function.update_self] at hj
    exact Or.inl ⟨heq, hj⟩
  · rw [Function.update_of_ne heq] at hj
    exact Or.inr ⟨heq, hj⟩

/-- An entry of the directory after one was removed. -/
theorem slots_remove (hj : Function.update slots i none j = some g) : j ≠ i ∧ slots j = some g := by
  obtain ⟨-, heq⟩ | hkept := slots_update hj
  · cases heq
  · exact hkept

theorem not_mem_free (h : Plan fs slots free) (hf : slots i = some f) {s : ℕ} (hs : s ∈ f.sectors) :
    s ∉ free := fun hfree => ((h.mem_free s).mp hfree).2.2 i f hf hs

/-- **A new file**, of sectors that were free. -/
theorem create (h : Plan fs slots free) (hi : i < NumDirEntries) (hnone : slots i = none)
    (hsound : f.hdr.Sound) (hname : ∀ {j g}, slots j = some g → g.name ≠ f.name)
    (hnodup : f.sectors.Nodup) (hfree : ∀ s ∈ f.sectors, s ∈ free) :
    Plan fs (Function.update slots i (some f)) (free \ f.sectors.toFinset) where
  mapSound := h.mapSound
  dirSound := h.dirSound
  mapLength := h.mapLength
  dirLength := h.dirLength
  reservedNodup := h.reservedNodup
  inside hj := by
    obtain ⟨rfl, -⟩ | ⟨-, hj⟩ := slots_update hj
    · exact hi
    · exact h.inside hj
  sound hj := by
    obtain ⟨-, heq⟩ | ⟨-, hj⟩ := slots_update hj
    · exact Option.some.inj heq ▸ hsound
    · exact h.sound hj
  names hj hk heq := by
    obtain ⟨rfl, hf⟩ | ⟨hne, hj⟩ := slots_update hj
    · obtain ⟨rfl, -⟩ | ⟨-, hk⟩ := slots_update hk
      · rfl
      · exact absurd heq.symm (Option.some.inj hf ▸ hname hk)
    · obtain ⟨-, hf⟩ | ⟨-, hk⟩ := slots_update hk
      · exact absurd heq (Option.some.inj hf ▸ hname hj)
      · exact h.names hj hk heq
  nodup hj := by
    obtain ⟨-, heq⟩ | ⟨-, hj⟩ := slots_update hj
    · exact Option.some.inj heq ▸ hnodup
    · exact h.nodup hj
  apart hj := by
    obtain ⟨-, heq⟩ | ⟨-, hj⟩ := slots_update hj
    · rw [← Option.some.inj heq]
      exact fun s hs => ((h.mem_free s).mp (hfree s hs)).2.1
    · exact h.apart hj
  disjoint hj hk hne := by
    obtain ⟨rfl, hf⟩ | ⟨hji, hj⟩ := slots_update hj
    · obtain ⟨rfl, -⟩ | ⟨-, hk⟩ := slots_update hk
      · exact absurd rfl hne
      · rw [← Option.some.inj hf]
        exact fun s hs => ((h.mem_free s).mp (hfree s hs)).2.2 _ _ hk
    · obtain ⟨-, hf⟩ | ⟨-, hk⟩ := slots_update hk
      · rw [← Option.some.inj hf]
        exact fun s hs hs' => h.not_mem_free hj hs (hfree s hs')
      · exact h.disjoint hj hk hne
  onDisk hj := by
    obtain ⟨-, heq⟩ | ⟨-, hj⟩ := slots_update hj
    · rw [← Option.some.inj heq]
      exact ((h.mem_free _).mp (hfree _ List.mem_cons_self)).1
    · exact h.onDisk hj
  mem_free n := by
    rw [Finset.mem_sdiff, List.mem_toFinset, h.mem_free]
    constructor
    · rintro ⟨⟨hlt, hres, hall⟩, hnot⟩
      refine ⟨hlt, hres, fun j g hj => ?_⟩
      obtain ⟨-, heq⟩ | ⟨-, hj⟩ := slots_update hj
      · exact Option.some.inj heq ▸ hnot
      · exact hall j g hj
    · rintro ⟨hlt, hres, hall⟩
      refine ⟨⟨hlt, hres, fun j g hj => ?_⟩, hall i f (Function.update_self _ _ _)⟩
      have hne : j ≠ i := fun heq => by
        rw [heq, hnone] at hj
        cases hj
      exact hall j g (by rwa [Function.update_of_ne hne])

/-- **A file that is removed**: its sectors are free again. -/
theorem remove (h : Plan fs slots free) (hi : slots i = some f) :
    Plan fs (Function.update slots i none) (free ∪ f.sectors.toFinset) where
  mapSound := h.mapSound
  dirSound := h.dirSound
  mapLength := h.mapLength
  dirLength := h.dirLength
  reservedNodup := h.reservedNodup
  inside hj := h.inside (slots_remove hj).2
  sound hj := h.sound (slots_remove hj).2
  names hj hk heq := h.names (slots_remove hj).2 (slots_remove hk).2 heq
  nodup hj := h.nodup (slots_remove hj).2
  apart hj := h.apart (slots_remove hj).2
  disjoint hj hk hne := h.disjoint (slots_remove hj).2 (slots_remove hk).2 hne
  onDisk hj := h.onDisk (slots_remove hj).2
  mem_free n := by
    rw [Finset.mem_union, List.mem_toFinset, h.mem_free]
    constructor
    · rintro (⟨hlt, hres, hall⟩ | hmem)
      · exact ⟨hlt, hres, fun j g hj => hall j g (slots_remove hj).2⟩
      · have hlt : n < NumSectors := by
          rcases List.mem_cons.mp hmem with rfl | hdata
          · exact h.onDisk hi
          · exact (h.sound hi).onDisk n hdata
        refine ⟨hlt, h.apart hi n hmem, fun j g hj => ?_⟩
        obtain ⟨hne, hkept⟩ := slots_remove hj
        exact h.disjoint hi hkept (Ne.symm hne) n hmem
    · rintro ⟨hlt, hres, hall⟩
      by_cases hmem : n ∈ f.sectors
      · exact Or.inr hmem
      · refine Or.inl ⟨hlt, hres, fun j g hj => ?_⟩
        by_cases heq : j = i
        · rw [heq, hi] at hj
          exact Option.some.inj hj ▸ hmem
        · exact hall j g (by rwa [Function.update_of_ne heq])

end Plan

/-- The sectors of the two headers are in neither of the two files, and the files have no sector
in common. -/
theorem Plan.reserved_parts {fs : FileSystem} {slots : ℕ → Option File} {free : Finset ℕ}
    (h : Plan fs slots free) :
    (∀ s ∈ [FreeMapSector, DirectorySector],
        s ∉ fs.freeMapFile.hdr.sectors ∧ s ∉ fs.directoryFile.hdr.sectors)
      ∧ ∀ s ∈ fs.freeMapFile.hdr.sectors, s ∉ fs.directoryFile.hdr.sectors := by
  have hnodup : ([FreeMapSector, DirectorySector]
      ++ (fs.freeMapFile.hdr.sectors ++ fs.directoryFile.hdr.sectors)).Nodup := h.reservedNodup
  obtain ⟨-, hfiles, hheads⟩ := List.nodup_append.mp hnodup
  obtain ⟨-, -, hapart⟩ := List.nodup_append.mp hfiles
  refine ⟨fun s hs => ⟨fun hmem => ?_, fun hmem => ?_⟩, fun s hs hmem => hapart s hs s hmem rfl⟩
  · exact hheads s hs s (List.mem_append_left _ hmem) rfl
  · exact hheads s hs s (List.mem_append_right _ hmem) rfl

/-- One header has room for all the sectors that can be free: the sectors 0 and 1 never are. -/
theorem Plan.free_card_le {fs : FileSystem} {slots : ℕ → Option File} {free : Finset ℕ}
    (h : Plan fs slots free) : free.card ≤ NumDirect := by
  have hsub : free ⊆ ((Finset.range NumSectors).erase FreeMapSector).erase DirectorySector := by
    intro n hn
    obtain ⟨hlt, hres, -⟩ := (h.mem_free n).mp hn
    refine Finset.mem_erase.mpr ⟨?_, Finset.mem_erase.mpr ⟨?_, Finset.mem_range.mpr hlt⟩⟩
    · rintro rfl
      exact hres (List.mem_cons_of_mem _ List.mem_cons_self)
    · rintro rfl
      exact hres List.mem_cons_self
  have hcard := Finset.card_le_card hsub
  rw [Finset.card_erase_of_mem
      (Finset.mem_erase.mpr ⟨by decide, Finset.mem_range.mpr (by decide)⟩),
    Finset.card_erase_of_mem (Finset.mem_range.mpr (by decide)), Finset.card_range] at hcard
  exact hcard

/-! ### The directory in memory -/

/-- A directory in memory that has these files. -/
structure Listed (d : Directory) (slots : ℕ → Option File) : Prop where
  size : d.tableSize = NumDirEntries
  entries : ∀ i < NumDirEntries,
    Directory.entry d.table i = (slots i).map fun f => (f.name, (f.sector : ℤ))

namespace Listed

variable {F : MapFormat} {disk : Disk} {fs : FileSystem} {slots : ℕ → Option File}
  {free : Finset ℕ} {d : Directory} {i : ℕ} {f : File} {name : ℕ → Byte}

theorem named_iff (h : Listed d slots) (hi : i < NumDirEntries) (key : List Byte) :
    (Directory.entry d.table i).map Prod.fst = some key ↔ ∃ f, slots i = some f ∧ f.name = key := by
  rw [h.entries i hi]
  cases slots i with
  | none =>
      refine iff_of_false (fun hn => nomatch hn) ?_
      rintro ⟨_, hn, -⟩
      cases hn
  | some f =>
      constructor
      · exact fun hn => ⟨f, rfl, Option.some.inj hn⟩
      · rintro ⟨_, hf, rfl⟩
        rw [← Option.some.inj hf]
        rfl

/-- The name is in the directory. -/
theorem find_some (h : Listed d slots) (hplan : Plan fs slots free) (hi : slots i = some f)
    (hname : f.name = text FileNameMaxLen name) :
    d.FindIndex name = i ∧ d.Find name = f.sector := by
  have hlt := hplan.inside hi
  have hindex : d.FindIndex name = i := by
    refine Directory.findIndex_eq (h.size ▸ hlt)
      ((h.named_iff hlt _).mpr ⟨f, hi, hname⟩) fun j hj hnamed => ?_
    obtain ⟨g, hg, hgname⟩ := (h.named_iff (h.size ▸ hj) _).mp hnamed
    exact hplan.names hg hi (hgname.trans hname.symm)
  refine ⟨hindex, ?_⟩
  have hentry : Directory.entry d.table i = some (f.name, (f.sector : ℤ)) := by
    rw [h.entries i hlt, hi]
    rfl
  exact Directory.find_eq hindex hentry

/-- The name is not in the directory. -/
theorem find_none (h : Listed d slots) (name : ℕ → Byte)
    (hnew : ∀ {j g}, slots j = some g → g.name ≠ text FileNameMaxLen name) :
    d.FindIndex name = -1 := by
  refine Directory.findIndex_eq_neg_one fun j hj hnamed => ?_
  obtain ⟨g, hg, hgname⟩ := (h.named_iff (h.size ▸ hj) _).mp hnamed
  exact hnew hg hgname

end Listed

/-! ### The disk and the requests -/

namespace Laid

variable {F : MapFormat} {disk disk' : Disk} {fs : FileSystem} {slots : ℕ → Option File} {i : ℕ}
  {f : File} {name : ℕ → Byte}

theorem mount_congr (h : ∀ s ∈ [FreeMapSector, DirectorySector], disk' s = disk s) :
    FileSystem.mount disk' = FileSystem.mount disk := by
  have hmap := h FreeMapSector List.mem_cons_self
  have hdir := h DirectorySector (List.mem_cons_of_mem _ List.mem_cons_self)
  rw [FileSystem.mount, FileSystem.mount, OpenFile.openAt, OpenFile.openAt, OpenFile.openAt,
    OpenFile.openAt, FileHeader.fetchFrom_congr (by decide) hmap,
    FileHeader.fetchFrom_congr (by decide) hdir]

theorem head_mem_reserved {s : ℕ} (hs : s ∈ [FreeMapSector, DirectorySector]) :
    s ∈ fs.reserved :=
  List.mem_append_left (fs.freeMapFile.hdr.sectors ++ fs.directoryFile.hdr.sectors) hs

theorem map_mem_reserved {s : ℕ} (hs : s ∈ fs.freeMapFile.hdr.sectors) : s ∈ fs.reserved :=
  List.mem_cons_of_mem _ (List.mem_cons_of_mem _ (List.mem_append_left _ hs))

theorem dir_mem_reserved {s : ℕ} (hs : s ∈ fs.directoryFile.hdr.sectors) : s ∈ fs.reserved :=
  List.mem_cons_of_mem _ (List.mem_cons_of_mem _ (List.mem_append_right _ hs))

/-- **The frame.** The disk is laid out as it was as long as the reserved sectors and the headers
are what they were. -/
theorem frame (h : Laid F disk fs slots) (hres : ∀ s ∈ fs.reserved, disk' s = disk s)
    (hheader : ∀ {i f}, slots i = some f → disk' f.sector = disk f.sector) :
    Laid F disk' fs slots := by
  have hfree : F.freeOn fs.freeMapFile disk' = F.freeOn fs.freeMapFile disk := by
    rw [MapFormat.freeOn, MapFormat.freeOn,
      h.plan.mapSound.content_congr fun s hs => hres s (map_mem_reserved hs)]
  refine ⟨by rw [hfree]; exact h.plan, ?_, fun i hi => ?_, fun hi => ?_⟩
  · rw [mount_congr fun s hs => hres s (head_mem_reserved hs)]
    exact h.mounted
  · rw [h.plan.dirSound.content_congr fun s hs => hres s (dir_mem_reserved hs)]
    exact h.entries i hi
  · rw [FileHeader.fetchFrom_congr (h.plan.onDisk hi) (hheader hi)]
    exact h.header hi

/-- The directory that a request works on. -/
theorem fetchDirectory (h : Laid F disk fs slots) (mem buf : ℕ → Byte) :
    ∃ d, (Directory.new mem NumDirEntries).FetchFrom fs.directoryFile disk buf = some d
      ∧ Listed d slots := by
  obtain ⟨d, hfetch, hsize, hentries⟩ := Directory.fetchFrom_eq
    (d := Directory.new mem NumDirEntries) h.plan.dirSound h.plan.dirLength disk buf
  refine ⟨d, hfetch, hsize, fun i hi => ?_⟩
  rw [hentries i hi, h.entries i hi]

/-- **`Open`** of a file that there is. -/
theorem open_eq (h : Laid F disk fs slots) (hi : slots i = some f)
    (hname : f.name = text FileNameMaxLen name) (bufs : ℕ → ℕ → Byte) :
    fs.Open disk bufs name = some (some ⟨f.hdr, 0⟩) := by
  obtain ⟨d, hfetch, hlisted⟩ := h.fetchDirectory (bufs 0) (bufs 1)
  obtain ⟨-, hfind⟩ := hlisted.find_some h.plan hi hname
  have hpos : (f.sector : ℤ) ≥ 0 := Int.natCast_nonneg _
  rw [FileSystem.Open, hfetch]
  simp only [Option.bind_eq_bind, Option.bind_some]
  rw [hfind, if_pos hpos, OpenFile.openAt, h.header hi]
  rfl

/-- **`Open`** of a file that there is not. -/
theorem open_eq_null (h : Laid F disk fs slots) (name : ℕ → Byte)
    (hnew : ∀ {j g}, slots j = some g → g.name ≠ text FileNameMaxLen name)
    (bufs : ℕ → ℕ → Byte) : fs.Open disk bufs name = some none := by
  obtain ⟨d, hfetch, hlisted⟩ := h.fetchDirectory (bufs 0) (bufs 1)
  rw [FileSystem.Open, hfetch]
  simp only [Option.bind_eq_bind, Option.bind_some]
  rw [Directory.find_eq_neg_one (hlisted.find_none name hnew), if_neg (by decide)]
  rfl

/-- A sector that a request does not write. -/
theorem not_mem_of_not_reserved {s : ℕ} (hs : s ∉ fs.reserved) :
    s ∉ fs.freeMapFile.hdr.sectors ∧ s ∉ fs.directoryFile.hdr.sectors :=
  ⟨fun hmem => hs (map_mem_reserved hmem), fun hmem => hs (dir_mem_reserved hmem)⟩

/-- **`Remove`** of a file that there is: its sectors are free, and no other file is touched. -/
theorem remove_eq (h : Laid F disk fs slots) (hi : slots i = some f)
    (hname : f.name = text FileNameMaxLen name) (bufs : ℕ → ℕ → Byte) :
    ∃ disk', FileSystem.Remove F fs disk bufs name = some (true, disk')
      ∧ Laid F disk' fs (Function.update slots i none)
      ∧ F.freeOn fs.freeMapFile disk' = F.freeOn fs.freeMapFile disk ∪ f.sectors.toFinset
      ∧ ∀ s ∉ fs.reserved, disk' s = disk s := by
  have hplan := h.plan
  obtain ⟨hheads, hparts⟩ := hplan.reserved_parts
  obtain ⟨d, hfetch, hlisted⟩ := h.fetchDirectory (bufs 0) (bufs 1)
  obtain ⟨hindex, hfind⟩ := hlisted.find_some hplan hi hname
  obtain ⟨map₀, hmap₀, hfree₀⟩ :=
    MapFormat.fetchFrom_eq (F := F) hplan.mapSound hplan.mapLength disk (bufs 2)
  obtain ⟨map₁, hmap₁, hfree₁⟩ := FileHeader.deallocate_eq (hplan.sound hi) map₀
    fun s hs => by rw [hfree₀]; exact hplan.not_mem_free hi (List.mem_cons_of_mem _ hs)
  have hlt := hplan.onDisk hi
  have hadmits : BitMap.Admits NumSectors (f.sector : ℤ) :=
    ⟨Int.natCast_nonneg _, Int.ofNat_lt.mpr hlt⟩
  obtain ⟨disk₁, hdisk₁, hon₁, hframe₁⟩ := F.writeBack_eq _ hplan.mapSound hplan.mapLength
    (map₁.clear f.sector) disk fun k => bufs (k + 3)
  obtain ⟨d', hremove, hsize, hgone, hothers⟩ := Directory.remove_eq hindex
  obtain ⟨disk₂, hdisk₂, hentries, hframe₂⟩ := Directory.writeBack_eq (d := d') _ hplan.dirSound
    (by rw [hsize, hlisted.size, hplan.dirLength]) disk₁ fun k => bufs (k + 6)
  have hfree : F.freeOn fs.freeMapFile disk₂
      = F.freeOn fs.freeMapFile disk ∪ f.sectors.toFinset := by
    have hsame : F.freeOn fs.freeMapFile disk₂ = F.freeOn fs.freeMapFile disk₁ := by
      rw [MapFormat.freeOn, MapFormat.freeOn,
        hplan.mapSound.content_congr fun s hs => hframe₂ s (hparts s hs)]
    rw [hsame, hon₁, BitMap.free_clear _ hlt, hfree₁, hfree₀, File.sectors, List.toFinset_cons,
      Finset.union_insert]
  have houtside : ∀ s ∉ fs.reserved, disk₂ s = disk s := fun s hs =>
    (hframe₂ s (not_mem_of_not_reserved hs).2).trans (hframe₁ s (not_mem_of_not_reserved hs).1)
  have hhead : ∀ s ∈ [FreeMapSector, DirectorySector], disk₂ s = disk s := fun s hs =>
    (hframe₂ s (hheads s hs).2).trans (hframe₁ s (hheads s hs).1)
  refine ⟨disk₂, ?_, ⟨?_, ?_, fun j hj => ?_, fun {j g} hj => ?_⟩, hfree, houtside⟩
  · have hne : ¬ (f.sector : ℤ) = -1 := by omega
    rw [FileSystem.Remove, hfetch]
    simp only [Option.bind_eq_bind, Option.bind_some]
    rw [hfind, if_neg hne, h.header hi, Option.bind_some, hmap₀, Option.bind_some, hmap₁,
      Option.bind_some, BitMap.Clear, if_pos hadmits, Option.bind_some, Int.toNat_natCast, hdisk₁,
      Option.bind_some, hremove]
    dsimp only
    rw [hdisk₂]
    rfl
  · rw [hfree]
    exact hplan.remove hi
  · rw [mount_congr hhead]
    exact h.mounted
  · rw [hentries j (by rw [hsize, hlisted.size]; exact hj)]
    by_cases heq : j = i
    · rw [heq, hgone, Function.update_self]
      rfl
    · rw [hothers j heq, hlisted.entries j hj, Function.update_of_ne heq]
  · obtain ⟨-, hkept⟩ := Plan.slots_remove hj
    rw [FileHeader.fetchFrom_congr (hplan.onDisk hkept)
      (houtside _ (hplan.apart hkept _ List.mem_cons_self))]
    exact h.header hkept

/-- **`Remove`** of a file that there is not. -/
theorem remove_fails (h : Laid F disk fs slots) (name : ℕ → Byte)
    (hnew : ∀ {j g}, slots j = some g → g.name ≠ text FileNameMaxLen name)
    (bufs : ℕ → ℕ → Byte) : FileSystem.Remove F fs disk bufs name = some (false, disk) := by
  obtain ⟨d, hfetch, hlisted⟩ := h.fetchDirectory (bufs 0) (bufs 1)
  rw [FileSystem.Remove, hfetch]
  simp only [Option.bind_eq_bind, Option.bind_some]
  rw [Directory.find_eq_neg_one (hlisted.find_none name hnew), if_pos rfl]
  rfl

/-- **`createWith`**, with room for the bytes: a header of that length, and the directory and the
map as they were changed. -/
theorem createWith_eq (h : Laid F disk fs slots) (freeMap : BitMap NumSectors) {sector : ℕ}
    (hsector : sector ∈ F.freeOn fs.freeMapFile disk)
    (hfree : freeMap.free = (F.freeOn fs.freeMapFile disk).erase sector) (size : Word)
    (hroom : FileHeader.needed size.toInt.toNat ≤ freeMap.free.card) {d : Directory}
    {i : ℕ} (hi : i < NumDirEntries) (hnone : slots i = none) {key : List Byte}
    (hnew : ∀ {j g}, slots j = some g → g.name ≠ key) (hsize : d.tableSize = NumDirEntries)
    (hadded : Directory.entry d.table i = some (key, (sector : ℤ)))
    (hothers : ∀ j < NumDirEntries, j ≠ i →
      Directory.entry d.table j = (slots j).map fun f => (f.name, (f.sector : ℤ)))
    (bufs : ℕ → ℕ → Byte) :
    ∃ disk' f, FileSystem.createWith F fs disk bufs freeMap sector d size = some (true, disk')
      ∧ f.name = key ∧ f.hdr.length = size.toInt.toNat
      ∧ Laid F disk' fs (Function.update slots i (some f))
      ∧ (∀ s ∈ f.sectors, s ∈ F.freeOn fs.freeMapFile disk)
      ∧ F.freeOn fs.freeMapFile disk' = F.freeOn fs.freeMapFile disk \ f.sectors.toFinset
      ∧ ∀ s ∉ fs.reserved, s ≠ sector → disk' s = disk s := by
  have hplan := h.plan
  obtain ⟨hheads, hparts⟩ := hplan.reserved_parts
  obtain ⟨hlt, hunreserved, hunowned⟩ := (hplan.mem_free sector).mp hsector
  have hfew : freeMap.free.card ≤ NumDirect := by
    rw [hfree]
    exact (Finset.card_le_card (Finset.erase_subset _ _)).trans hplan.free_card_le
  obtain ⟨hdr, map₁, hallocate, hsound, hlength, hmem, hfree₁⟩ :=
    FileHeader.allocate_eq (FileHeader.ofBytes (bufs 0)) freeMap size hfew hroom
  have hdata : ∀ s ∈ hdr.sectors, s ≠ sector ∧ s ∈ F.freeOn fs.freeMapFile disk := fun s hs => by
    have := hmem s hs
    rwa [hfree, Finset.mem_erase] at this
  obtain ⟨disk₁, hdisk₁, hread₁, hframe₁⟩ := hdr.writeBack_eq disk hlt
  obtain ⟨disk₂, hdisk₂, hentries, hframe₂⟩ := Directory.writeBack_eq (d := d) _ hplan.dirSound
    (by rw [hsize, hplan.dirLength]) disk₁ fun k => bufs (k + 1)
  obtain ⟨disk₃, hdisk₃, hon₃, hframe₃⟩ := F.writeBack_eq _ hplan.mapSound hplan.mapLength map₁
    disk₂ fun k => bufs (k + 4)
  obtain ⟨f, hf⟩ : ∃ f : File, f = ⟨key, sector, hdr⟩ := ⟨_, rfl⟩
  have hsectors : f.sectors = sector :: hdr.sectors := by rw [hf, File.sectors]
  have hmemFree : ∀ s ∈ f.sectors, s ∈ F.freeOn fs.freeMapFile disk := fun s hs => by
    rw [hsectors] at hs
    rcases List.mem_cons.mp hs with rfl | hs
    · exact hsector
    · exact (hdata s hs).2
  have hfree₃ : F.freeOn fs.freeMapFile disk₃
      = F.freeOn fs.freeMapFile disk \ f.sectors.toFinset := by
    rw [hon₃, hfree₁, hfree, hsectors, List.toFinset_cons, Finset.sdiff_insert,
      Finset.erase_sdiff_comm]
  have hafter : ∀ s ∉ fs.reserved, disk₃ s = disk₁ s := fun s hs =>
    (hframe₃ s (not_mem_of_not_reserved hs).1).trans (hframe₂ s (not_mem_of_not_reserved hs).2)
  have houtside : ∀ s ∉ fs.reserved, s ≠ sector → disk₃ s = disk s := fun s hs hne =>
    (hafter s hs).trans (hframe₁ s hne)
  have hhead : ∀ s ∈ [FreeMapSector, DirectorySector], disk₃ s = disk s := by
    intro s hs
    have hne : s ≠ sector := fun heq => hunreserved (heq ▸ head_mem_reserved hs)
    have hdirectory : disk₂ s = disk₁ s := hframe₂ s (hheads s hs).2
    exact (hframe₃ s (hheads s hs).1).trans (hdirectory.trans (hframe₁ s hne))
  refine ⟨disk₃, f, ?_, by rw [hf], by rw [hf, hlength],
    ⟨?_, ?_, fun j hj => ?_, fun {j g} hj => ?_⟩, hmemFree, hfree₃, houtside⟩
  · rw [FileSystem.createWith, hallocate]
    simp only [Option.bind_eq_bind, Option.bind_some]
    rw [if_pos trivial, hdisk₁, Option.bind_some, hdisk₂, Option.bind_some, hdisk₃]
    rfl
  · rw [hfree₃]
    refine hplan.create hi hnone (by rw [hf]; exact hsound) (by rw [hf]; exact hnew) ?_ hmemFree
    rw [hsectors]
    exact List.nodup_cons.mpr ⟨fun hs => (hdata _ hs).1 rfl, hsound.nodup⟩
  · rw [mount_congr hhead]
    exact h.mounted
  · have hsame : fs.directoryFile.hdr.content disk₃ = fs.directoryFile.hdr.content disk₂ :=
      hplan.dirSound.content_congr fun s hs => hframe₃ s fun hmem => hparts s hmem hs
    rw [hsame, hentries j (by rw [hsize]; exact hj)]
    by_cases heq : j = i
    · rw [heq, hadded, Function.update_self, hf]
      rfl
    · rw [hothers j hj heq, Function.update_of_ne heq]
  · obtain ⟨-, heq⟩ | ⟨-, hj⟩ := Plan.slots_update hj
    · rw [← Option.some.inj heq, hf]
      dsimp only
      rw [FileHeader.fetchFrom_congr hlt (hafter _ hunreserved), hread₁]
    · have hne : g.sector ≠ sector := fun heq =>
        hunowned _ _ hj (heq ▸ List.mem_cons_self)
      rw [FileHeader.fetchFrom_congr (hplan.onDisk hj)
        (houtside _ (hplan.apart hj _ List.mem_cons_self) hne)]
      exact h.header hj

/-- **`Create`** of a file for which there is room: its sectors were free, and no other file is
touched. -/
theorem create_eq (h : Laid F disk fs slots) (name : ℕ → Byte) {size : Word}
    (hnew : ∀ {j g}, slots j = some g → g.name ≠ text FileNameMaxLen name)
    (hplace : ∃ i < NumDirEntries, slots i = none)
    (hroom : FileHeader.needed size.toInt.toNat + 1 ≤ (F.freeOn fs.freeMapFile disk).card)
    (bufs : ℕ → ℕ → Byte) :
    ∃ disk' i f, FileSystem.Create F fs disk bufs name size = some (true, disk')
      ∧ i < NumDirEntries ∧ slots i = none ∧ f.name = text FileNameMaxLen name
      ∧ f.hdr.length = size.toInt.toNat ∧ Laid F disk' fs (Function.update slots i (some f))
      ∧ (∀ s ∈ f.sectors, s ∈ F.freeOn fs.freeMapFile disk)
      ∧ F.freeOn fs.freeMapFile disk' = F.freeOn fs.freeMapFile disk \ f.sectors.toFinset
      ∧ ∀ {j g}, slots j = some g → ∀ s ∈ g.sectors, disk' s = disk s := by
  have hplan := h.plan
  obtain ⟨d, hfetch, hlisted⟩ := h.fetchDirectory (bufs 0) (bufs 1)
  have hindex := hlisted.find_none name hnew
  obtain ⟨map₀, hmap₀, hfree₀⟩ :=
    MapFormat.fetchFrom_eq (F := F) hplan.mapSound hplan.mapLength disk (bufs 2)
  have hne : map₀.free.Nonempty := Finset.card_pos.mp (by rw [hfree₀]; omega)
  obtain ⟨sector, hsector⟩ : ∃ s, s = map₀.free.min' hne := ⟨_, rfl⟩
  have hfind : map₀.Find = (map₀.mark sector, (sector : ℤ)) := by
    rw [hsector]
    exact BitMap.find_of_nonempty hne
  have hmem : sector ∈ map₀.free := hsector ▸ map₀.free.min'_mem hne
  have hlt := (BitMap.mem_free.mp hmem).1
  have hvalue : NumSectors = 1024 := rfl
  obtain ⟨i, hi, hfreeEntry, d', hadd, hsize, hadded, hothers⟩ := Directory.add_eq
    hindex (sector : ℤ) (by omega) (by omega) (by
      obtain ⟨j, hj, hnone⟩ := hplace
      exact ⟨j, by rw [hlisted.size]; exact hj, by rw [hlisted.entries j hj, hnone]; rfl⟩)
  rw [hlisted.size] at hi hsize
  have hnone : slots i = none := by
    rwa [hlisted.entries i hi, Option.map_eq_none_iff] at hfreeEntry
  obtain ⟨disk', f, hcreate, hname, hlength, hlaid, hwas, hfree, hframe⟩ :=
    h.createWith_eq (map₀.mark sector) (hfree₀ ▸ hmem)
      (by rw [BitMap.free_mark, hfree₀]) size
      (by rw [BitMap.free_mark, Finset.card_erase_of_mem hmem, hfree₀]; omega) hi hnone hnew
      hsize hadded (fun j hj hne => by rw [hothers j hne, hlisted.entries j hj])
      fun k => bufs (k + 3)
  refine ⟨disk', i, f, ?_, hi, hnone, hname, hlength, hlaid, hwas, hfree, fun hj s hs => ?_⟩
  · have hpos : ¬ (sector : ℤ) = -1 := by omega
    rw [FileSystem.Create, hfetch]
    simp only [Option.bind_eq_bind, Option.bind_some]
    rw [Directory.find_eq_neg_one hindex, if_neg (by decide), hmap₀, Option.bind_some, hfind]
    dsimp only
    rw [if_neg hpos, hadd]
    exact hcreate
  · refine hframe s (hplan.apart hj s hs) fun heq => hplan.not_mem_free hj hs ?_
    rw [heq, ← hfree₀]
    exact hmem

/-- **`Create` that fails** leaves the disk as it was. -/
theorem create_fails (h : Laid F disk fs slots) {size : Word}
    (hfull : (∃ i f, slots i = some f ∧ f.name = text FileNameMaxLen name)
      ∨ (∀ i < NumDirEntries, slots i ≠ none)
      ∨ (F.freeOn fs.freeMapFile disk).card < FileHeader.needed size.toInt.toNat + 1)
    (bufs : ℕ → ℕ → Byte) :
    FileSystem.Create F fs disk bufs name size = some (false, disk) := by
  have hplan := h.plan
  obtain ⟨d, hfetch, hlisted⟩ := h.fetchDirectory (bufs 0) (bufs 1)
  rw [FileSystem.Create, hfetch]
  simp only [Option.bind_eq_bind, Option.bind_some]
  by_cases hthere : ∃ i f, slots i = some f ∧ f.name = text FileNameMaxLen name
  · obtain ⟨i, f, hi, hname⟩ := hthere
    have hpos : (f.sector : ℤ) ≠ -1 := by omega
    rw [(hlisted.find_some hplan hi hname).2, if_pos hpos]
    rfl
  · have hindex := hlisted.find_none name fun {j g} hj heq => hthere ⟨j, g, hj, heq⟩
    obtain ⟨map₀, hmap₀, hfree₀⟩ :=
      MapFormat.fetchFrom_eq (F := F) hplan.mapSound hplan.mapLength disk (bufs 2)
    rw [Directory.find_eq_neg_one hindex, if_neg (by decide), hmap₀, Option.bind_some]
    by_cases hne : map₀.free.Nonempty
    · have hpos : ¬ ((map₀.free.min' hne : ℕ) : ℤ) = -1 := by omega
      rw [BitMap.find_of_nonempty hne]
      dsimp only
      rw [if_neg hpos]
      cases hadd : (d.Add name (map₀.free.min' hne)).1 with
      | false => rfl
      | true =>
          -- the directory has a place, so it is the bytes that do not fit
          have hsmall : (F.freeOn fs.freeMapFile disk).card
              < FileHeader.needed size.toInt.toNat + 1 := by
            rcases hfull with hthere' | hplaces | hsmall
            · exact absurd hthere' hthere
            · rw [Directory.add_of_full fun i hi => ?_] at hadd
              · cases hadd
              · rw [hlisted.size] at hi
                rw [hlisted.entries i hi, ne_eq, Option.map_eq_none_iff]
                exact hplaces i hi
            · exact hsmall
          obtain ⟨hdr, hallocate⟩ := FileHeader.allocate_full
            (FileHeader.ofBytes (bufs 3)) (map₀.mark (map₀.free.min' hne)) size (by
              rw [BitMap.free_mark, Finset.card_erase_of_mem (map₀.free.min'_mem hne), hfree₀]
              have hpos := Finset.card_pos.mpr hne
              rw [hfree₀] at hpos
              omega)
          rw [if_neg (by decide), FileSystem.createWith, hallocate]
          rfl
    · rw [BitMap.find_of_empty (Finset.not_nonempty_iff_eq_empty.mp hne)]
      rfl

end Laid

/-! ### A new disk -/

/-- The map when the two headers have their sectors. -/
theorem free_formatted :
    ∃ m : BitMap NumSectors, (((BitMap.initial : BitMap NumSectors).Mark FreeMapSector).bind
        fun m => m.Mark DirectorySector) = some m
      ∧ m.free = ((Finset.range NumSectors).erase FreeMapSector).erase DirectorySector
      ∧ m.free.card = 1022 := by
  have hinitial : (BitMap.initial : BitMap NumSectors).free = Finset.range NumSectors := by
    ext n
    rw [BitMap.mem_free, BitMap.bit_initial, Finset.mem_range]
    exact and_iff_left rfl
  have hzero : BitMap.Admits NumSectors (FreeMapSector : ℤ) := by decide
  have hone : BitMap.Admits NumSectors (DirectorySector : ℤ) := by decide
  have hfree : (((BitMap.initial : BitMap NumSectors).mark FreeMapSector).mark
      DirectorySector).free = ((Finset.range NumSectors).erase FreeMapSector).erase
        DirectorySector := by
    rw [BitMap.free_mark, BitMap.free_mark, hinitial]
  refine ⟨_, ?_, hfree, ?_⟩
  · rw [BitMap.Mark, if_pos hzero, Option.bind_some, BitMap.Mark, if_pos hone, Int.toNat_natCast,
      Int.toNat_natCast]
  · rw [hfree, Finset.card_erase_of_mem (Finset.mem_erase.mpr
        ⟨by decide, Finset.mem_range.mpr (by decide)⟩),
      Finset.card_erase_of_mem (Finset.mem_range.mpr (by decide)), Finset.card_range]
    rfl

/-- Who has which sector of a new disk. -/
theorem Plan.formatted (fs : FileSystem) {free₀ : Finset ℕ}
    (hfree₀ : free₀ = ((Finset.range NumSectors).erase FreeMapSector).erase DirectorySector)
    (hmapSound : fs.freeMapFile.hdr.Sound)
    (hmapLength : fs.freeMapFile.hdr.length = FreeMapFileSize)
    (hmapMem : ∀ s ∈ fs.freeMapFile.hdr.sectors, s ∈ free₀)
    (hdirSound : fs.directoryFile.hdr.Sound)
    (hdirLength : fs.directoryFile.hdr.length = NumDirEntries * DirectoryEntrySize)
    (hdirMem : ∀ s ∈ fs.directoryFile.hdr.sectors,
      s ∈ free₀ ∧ s ∉ fs.freeMapFile.hdr.sectors) :
    Plan fs (fun _ => none) ((free₀ \ fs.freeMapFile.hdr.sectors.toFinset)
      \ fs.directoryFile.hdr.sectors.toFinset) := by
  have hno {f : File} (hi : none = some f) : False := Option.some_ne_none f hi.symm
  have hmem₀ {s : ℕ} : s ∈ free₀ ↔ s < NumSectors ∧ s ≠ FreeMapSector ∧ s ≠ DirectorySector := by
    rw [hfree₀, Finset.mem_erase, Finset.mem_erase, Finset.mem_range]
    constructor
    · rintro ⟨hone, hzero, hlt⟩
      exact ⟨hlt, hzero, hone⟩
    · rintro ⟨hlt, hzero, hone⟩
      exact ⟨hone, hzero, hlt⟩
  refine ⟨hmapSound, hdirSound, hmapLength, hdirLength, fun hi => (hno hi).elim,
    fun hi => (hno hi).elim, fun hi => (hno hi).elim, ?_, fun hi => (hno hi).elim,
    fun hi => (hno hi).elim, fun hi => (hno hi).elim, fun hi => (hno hi).elim, fun n => ?_⟩
  · rw [FileSystem.reserved, List.nodup_cons, List.nodup_cons, List.nodup_append]
    refine ⟨?_, ?_, hmapSound.nodup, hdirSound.nodup, fun s hs t ht heq => ?_⟩
    · rw [List.mem_cons, List.mem_append]
      rintro (heq | hmem | hmem)
      · exact absurd heq (by decide)
      · exact (hmem₀.mp (hmapMem _ hmem)).2.1 rfl
      · exact (hmem₀.mp (hdirMem _ hmem).1).2.1 rfl
    · rw [List.mem_append]
      rintro (hmem | hmem)
      · exact (hmem₀.mp (hmapMem _ hmem)).2.2 rfl
      · exact (hmem₀.mp (hdirMem _ hmem).1).2.2 rfl
    · exact (hdirMem t ht).2 (heq ▸ hs)
  · rw [Finset.mem_sdiff, Finset.mem_sdiff, List.mem_toFinset, List.mem_toFinset, hmem₀,
      FileSystem.reserved, List.mem_cons, List.mem_cons, List.mem_append]
    constructor
    · rintro ⟨⟨⟨hlt, hzero, hone⟩, hmap⟩, hdir⟩
      refine ⟨hlt, ?_, fun i f hi => (hno hi).elim⟩
      rintro (heq | heq | hmem | hmem)
      · exact hzero heq
      · exact hone heq
      · exact hmap hmem
      · exact hdir hmem
    · rintro ⟨hlt, hnot, -⟩
      refine ⟨⟨⟨hlt, fun heq => hnot (Or.inl heq), fun heq => hnot (Or.inr (Or.inl heq))⟩,
        fun hmem => hnot (Or.inr (Or.inr (Or.inl hmem)))⟩,
        fun hmem => hnot (Or.inr (Or.inr (Or.inr hmem)))⟩

/-- **A new disk** has no files, whatever was on it. -/
theorem format_laid (F : MapFormat) (disk : Disk) (bufs : ℕ → ℕ → Byte) :
    ∃ fs disk', FileSystem.format F disk bufs = some (fs, disk')
      ∧ Laid F disk' fs (fun _ => none) ∧ (F.freeOn fs.freeMapFile disk').card = 1020 := by
  obtain ⟨map₀, hmarks, hfree₀, hcard₀⟩ := free_formatted
  obtain ⟨marked, hmark₀, hmark₁⟩ := Option.bind_eq_some_iff.mp hmarks
  have hmapSize : ((FreeMapFileSize : Word).toInt.toNat) = FreeMapFileSize := by decide
  have hdirSize : ((DirectoryFileSize : Word).toInt.toNat) = DirectoryFileSize := by decide
  have hmapNeeds : FileHeader.needed FreeMapFileSize = 1 := by decide
  have hdirNeeds : FileHeader.needed DirectoryFileSize = 1 := by decide
  obtain ⟨mapHdr, map₁, halloc₁, hmapSound, hmapLength, hmapMem, hfree₁⟩ :=
    FileHeader.allocate_eq (FileHeader.ofBytes (bufs 0)) map₀ (FreeMapFileSize : Word)
      (by rw [hcard₀]; decide)
      (by rw [hmapSize, hmapNeeds, hcard₀]; decide)
  rw [hmapSize] at hmapLength
  have hmapCount : mapHdr.sectors.toFinset.card = 1 := by
    rw [List.toFinset_card_of_nodup hmapSound.nodup, FileHeader.sectors, List.length_map,
      List.length_range, hmapSound.count, hmapLength]
    rfl
  have hcard₁ : map₁.free.card = 1021 := by
    have hsub : mapHdr.sectors.toFinset ⊆ map₀.free := fun s hs =>
      hmapMem s (List.mem_toFinset.mp hs)
    rw [hfree₁, Finset.card_sdiff_of_subset hsub, hcard₀, hmapCount]
  obtain ⟨dirHdr, map₂, halloc₂, hdirSound, hdirLength, hdirMem, hfree₂⟩ :=
    FileHeader.allocate_eq (FileHeader.ofBytes (bufs 1)) map₁ (DirectoryFileSize : Word)
      (by rw [hcard₁]; decide)
      (by rw [hdirSize, hdirNeeds, hcard₁]; decide)
  rw [hdirSize] at hdirLength
  have hdirCount : dirHdr.sectors.toFinset.card = 1 := by
    rw [List.toFinset_card_of_nodup hdirSound.nodup, FileHeader.sectors, List.length_map,
      List.length_range, hdirSound.count, hdirLength]
    rfl
  have hcard₂ : map₂.free.card = 1020 := by
    have hsub : dirHdr.sectors.toFinset ⊆ map₁.free := fun s hs =>
      hdirMem s (List.mem_toFinset.mp hs)
    rw [hfree₂, Finset.card_sdiff_of_subset hsub, hcard₁, hdirCount]
  obtain ⟨disk₁, hdisk₁, hread₁, hframe₁⟩ :=
    mapHdr.writeBack_eq disk (s := FreeMapSector) (by decide)
  obtain ⟨disk₂, hdisk₂, hread₂, hframe₂⟩ :=
    dirHdr.writeBack_eq disk₁ (s := DirectorySector) (by decide)
  obtain ⟨fs, hfs⟩ : ∃ fs : FileSystem, fs = ⟨⟨mapHdr, 0⟩, ⟨dirHdr, 0⟩⟩ := ⟨_, rfl⟩
  have hmount : FileSystem.mount disk₂ = some fs := by
    have hread : FileHeader.FetchFrom disk₂ FreeMapSector = some mapHdr := by
      rw [FileHeader.fetchFrom_congr (by decide) (hframe₂ FreeMapSector (by decide)), hread₁]
    rw [FileSystem.mount, OpenFile.openAt, OpenFile.openAt, hread, hread₂, hfs]
    rfl
  have hmapFile : fs.freeMapFile.hdr = mapHdr := by rw [hfs]
  have hdirFile : fs.directoryFile.hdr = dirHdr := by rw [hfs]
  obtain ⟨disk₃, hdisk₃, hon₃, hframe₃⟩ := F.writeBack_eq fs.freeMapFile
    (by rw [hmapFile]; exact hmapSound) (by rw [hmapFile]; exact hmapLength) map₂ disk₂
    fun k => bufs (k + 2)
  obtain ⟨disk₄, hdisk₄, hentries, hframe₄⟩ := Directory.writeBack_eq
    (d := Directory.new (bufs 5) NumDirEntries) fs.directoryFile
    (by rw [hdirFile]; exact hdirSound) (by rw [hdirFile, hdirLength]; rfl) disk₃
    fun k => bufs (k + 6)
  -- which sectors the two files have
  have hdirBoth : ∀ s ∈ dirHdr.sectors, s ∈ map₀.free ∧ s ∉ mapHdr.sectors := fun s hs => by
    have := hdirMem s hs
    rwa [hfree₁, Finset.mem_sdiff, List.mem_toFinset] at this
  have hplan : Plan fs (fun _ => none) map₂.free := by
    have := Plan.formatted fs hfree₀
    rw [hmapFile, hdirFile] at this
    rw [hfree₂, hfree₁]
    exact this hmapSound hmapLength hmapMem hdirSound (hdirLength.trans rfl) hdirBoth
  have hfree : F.freeOn fs.freeMapFile disk₄ = map₂.free := by
    rw [← hon₃, MapFormat.freeOn, MapFormat.freeOn]
    rw [hplan.mapSound.content_congr fun s hs => hframe₄ s fun hmem => ?_]
    rw [hmapFile] at hs
    rw [hdirFile] at hmem
    exact (hdirBoth s hmem).2 hs
  obtain ⟨hheads, -⟩ := hplan.reserved_parts
  refine ⟨fs, disk₄, ?_, ⟨by rw [hfree]; exact hplan, ?_, fun i hi => ?_,
    fun {_ f} hi => absurd hi.symm (Option.some_ne_none f)⟩, by rw [hfree]; exact hcard₂⟩
  · rw [FileSystem.format]
    simp only [Option.bind_eq_bind]
    rw [hmark₀, Option.bind_some, hmark₁, Option.bind_some, halloc₁, Option.bind_some]
    dsimp only
    rw [halloc₂]
    simp only [guard, if_true, Option.pure_def, Option.bind_some]
    rw [hdisk₁, Option.bind_some, hdisk₂, Option.bind_some, hmount, Option.bind_some, hdisk₃,
      Option.bind_some, hdisk₄, Option.bind_some]
  · rw [← hmount]
    exact Laid.mount_congr fun s hs =>
      (hframe₄ s (hheads s hs).2).trans (hframe₃ s (hheads s hs).1)
  · rw [hentries i hi, Directory.entry_new _ hi]
    rfl

end LoadBalancer.NachOS
