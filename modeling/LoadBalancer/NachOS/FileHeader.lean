/-
The headers of the files (`filehdr.cc`, `disk.h`; `ReadSector` and `WriteSector` of
`synchdisk.cc`).

A file is a header, which is one sector of `int`s, and the sectors whose numbers the header has.
A header that is written is read back ([`FileHeader.writeBack_eq`]). `Allocate` makes headers that
are [`FileHeader.Sound`], with sectors that were free ([`FileHeader.allocate_eq`]), and `Deallocate`
frees them again ([`FileHeader.deallocate_eq`]).

A sector that the disk does not have is a failed `ASSERT`. An index that is not in an array, which
C++ leaves undefined, is the end too.
-/
import LoadBalancer.Lib.Blocks
import LoadBalancer.NachOS.BitMap
import LoadBalancer.NachOS.MipsSim

set_option autoImplicit false

namespace LoadBalancer.NachOS

open LoadBalancer.Memory LoadBalancer.Blocks

/-! ## The disk -/

def SectorSize : ℕ := 4096
def NumSectors : ℕ := 1024

/-- The bytes of every sector. -/
abbrev Disk := ℕ → ℕ → Byte

/-- `ASSERT((sectorNumber >= 0) && (sectorNumber < NumSectors))`. -/
def OnDisk (sectorNumber : ℤ) : Prop := 0 ≤ sectorNumber ∧ sectorNumber < NumSectors

instance (sectorNumber : ℤ) : Decidable (OnDisk sectorNumber) := inferInstanceAs (Decidable (_ ∧ _))

/-- `SynchDisk::ReadSector`, when the disk is done. -/
def ReadSector (disk : Disk) (sectorNumber : ℤ) : Option (List Byte) :=
  if OnDisk sectorNumber then some (load (disk sectorNumber.toNat) 0 SectorSize) else none

/-- `SynchDisk::WriteSector`, when the disk is done. -/
def WriteSector (disk : Disk) (sectorNumber : ℤ) (data : List Byte) : Option Disk :=
  if OnDisk sectorNumber then
    some (Function.update disk sectorNumber.toNat (store (disk sectorNumber.toNat) 0 data))
  else none

/-! ## The header of a file -/

/-- `NumDirect`. -/
def NumDirect : ℕ := (SectorSize - 2 * 4) / 4

/-- `FileHeader`. -/
structure FileHeader where
  numBytes : Word
  numSectors : Word
  dataSectors : Fin NumDirect → Word

namespace FileHeader

/-- The `int`s of a header, one behind the other. -/
def words (hdr : FileHeader) : ℕ → Word
  | 0 => hdr.numBytes
  | 1 => hdr.numSectors
  | k + 2 => if h : k < NumDirect then hdr.dataSectors ⟨k, h⟩ else 0

/-- The bytes of a header, `(char *)this`; of an `int` the low one is the first. -/
def bytes (hdr : FileHeader) (i : ℕ) : Byte := (hdr.words (i / 4) >>> (8 * (i % 4))).setWidth 8

/-- The header that has these bytes. -/
def ofBytes (mem : ℕ → Byte) : FileHeader where
  numBytes := fetch .word mem 0
  numSectors := fetch .word mem 4
  dataSectors k := fetch .word mem (4 * (k + 2))

/-- `FileHeader::FetchFrom`. -/
def FetchFrom (disk : Disk) (sector : ℤ) : Option FileHeader :=
  (ReadSector disk sector).map fun row => ofBytes fun i => row.getD i 0

/-- `FileHeader::WriteBack`. -/
def WriteBack (hdr : FileHeader) (disk : Disk) (sector : ℤ) : Option Disk :=
  WriteSector disk sector (load hdr.bytes 0 SectorSize)

/-- `FileHeader::FileLength`. -/
def FileLength (hdr : FileHeader) : ℤ := hdr.numBytes.toInt

/-- `dataSectors[k]`. -/
def sector? (hdr : FileHeader) (k : ℕ) : Option Word :=
  if h : k < NumDirect then some (hdr.dataSectors ⟨k, h⟩) else none

/-- `dataSectors[k] = sector`. -/
def setSector (hdr : FileHeader) (k : ℕ) (sector : ℤ) : Option FileHeader :=
  if h : k < NumDirect then
    some { hdr with
           dataSectors := Function.update hdr.dataSectors ⟨k, h⟩ (BitVec.ofInt 32 sector) }
  else none

/-- `FileHeader::ByteToSector`. -/
def ByteToSector (hdr : FileHeader) (offset : ℕ) : Option Word := hdr.sector? (offset / SectorSize)

/-- The loop of `Allocate`: the first `n` entries of `dataSectors`. -/
def allocateSectors : ℕ → FileHeader → BitMap NumSectors → Option (FileHeader × BitMap NumSectors)
  | 0, hdr, freeMap => some (hdr, freeMap)
  | n + 1, hdr, freeMap => do
      let (hdr, freeMap) ← allocateSectors n hdr freeMap
      let (freeMap, sector) := freeMap.Find
      return (← hdr.setSector n sector, freeMap)

/-- `FileHeader::Allocate`. -/
def Allocate (hdr : FileHeader) (freeMap : BitMap NumSectors) (fileSize : Word) :
    Option (Bool × FileHeader × BitMap NumSectors) :=
  let numSectors := divRoundUp fileSize.toInt SectorSize
  let hdr := { hdr with numBytes := fileSize, numSectors := BitVec.ofInt 32 numSectors }
  if freeMap.NumClear < numSectors then some (false, hdr, freeMap)
  else (allocateSectors numSectors.toNat hdr freeMap).map fun (hdr, freeMap) => (true, hdr, freeMap)

/-- The loop of `Deallocate`, for the first `n` entries of `dataSectors`. -/
def deallocateSectors (hdr : FileHeader) : ℕ → BitMap NumSectors → Option (BitMap NumSectors)
  | 0, freeMap => some freeMap
  | n + 1, freeMap => do
      let freeMap ← deallocateSectors hdr n freeMap
      let sector ← hdr.sector? n
      -- `ASSERT(freeMap->Test((int) dataSectors[i]))`
      if ← freeMap.Test sector.toInt then freeMap.Clear sector.toInt else none

/-- `FileHeader::Deallocate`. -/
def Deallocate (hdr : FileHeader) (freeMap : BitMap NumSectors) : Option (BitMap NumSectors) :=
  hdr.deallocateSectors hdr.numSectors.toInt.toNat freeMap

end FileHeader

/-! ## What is on the disk -/

section

variable {disk disk' : Disk} {s : ℕ} {hdr : FileHeader}

theorem onDisk_natCast : OnDisk (s : ℤ) ↔ s < NumSectors := by
  unfold OnDisk
  omega

theorem readSector_eq (hs : s < NumSectors) :
    ReadSector disk s = some (load (disk s) 0 SectorSize) := by
  rw [ReadSector, if_pos (onDisk_natCast.mpr hs), Int.toNat_natCast]

theorem writeSector_eq (hs : s < NumSectors) (data : List Byte) :
    WriteSector disk s data = some (Function.update disk s (store (disk s) 0 data)) := by
  rw [WriteSector, if_pos (onDisk_natCast.mpr hs), Int.toNat_natCast]

/-- An `int`, from its bytes. -/
theorem fetch_word {w : Word} {mem : ℕ → Byte} {a : ℕ}
    (h : ∀ j < 4, mem (a + j) = (w >>> (8 * j)).setWidth 8) : fetch .word mem a = w := by
  have h0 : mem a = (w >>> 0).setWidth 8 := h 0 (by decide)
  rw [fetch, h0, h 1 (by decide), h 2 (by decide), h 3 (by decide)]
  apply BitVec.eq_of_getLsbD_eq
  intro i hi
  simp only [BitVec.getLsbD_setWidth, BitVec.getLsbD_append, BitVec.getLsbD_ushiftRight, hi,
    decide_true, Bool.true_and]
  -- bit `i` is in the byte `i / 8`
  rcases (by omega : i < 8 ∨ (8 ≤ i ∧ i < 16) ∨ (16 ≤ i ∧ i < 24) ∨ 24 ≤ i) with h | h | h | h
  · simp [h]
  · obtain ⟨k, rfl⟩ := Nat.exists_eq_add_of_le h.1
    simp [show k < 8 by omega]
  · obtain ⟨k, rfl⟩ := Nat.exists_eq_add_of_le h.1
    simp [show 16 + k - 8 = 8 + k by omega, show ¬ 16 + k < 8 by omega, show ¬ 8 + k < 8 by omega,
      show k < 8 by omega]
  · obtain ⟨k, rfl⟩ := Nat.exists_eq_add_of_le h
    simp [show 24 + k - 8 = 16 + k by omega, show 16 + k - 8 = 8 + k by omega,
      show ¬ 24 + k < 8 by omega, show ¬ 16 + k < 8 by omega, show ¬ 8 + k < 8 by omega,
      show k < 8 by omega]

namespace FileHeader

/-- **A header is known by its bytes.** -/
theorem ofBytes_eq {mem : ℕ → Byte} (h : ∀ i < SectorSize, mem i = hdr.bytes i) :
    ofBytes mem = hdr := by
  have hword {k : ℕ} (hk : k < NumDirect + 2) : fetch .word mem (4 * k) = hdr.words k := by
    have hfits : 4 * (NumDirect + 2) = SectorSize := rfl
    refine fetch_word fun j hj => ?_
    rw [h _ (by omega), bytes, Nat.mul_add_div (by decide), Nat.div_eq_of_lt hj, Nat.add_zero,
      Nat.mul_add_mod, Nat.mod_eq_of_lt hj]
  have hlen : fetch .word mem 0 = hdr.numBytes := hword (k := 0) (by decide)
  have hnum : fetch .word mem 4 = hdr.numSectors := hword (k := 1) (by decide)
  have hdata (k : Fin NumDirect) : fetch .word mem (4 * (k + 2)) = hdr.dataSectors k := by
    rw [hword (Nat.add_lt_add_right k.isLt 2), words, dif_pos k.isLt]
  rw [ofBytes, hlen, hnum]
  exact congrArg _ (funext hdata)

theorem fetchFrom_congr (hs : s < NumSectors) (h : disk' s = disk s) :
    FetchFrom disk' s = FetchFrom disk s := by
  rw [FetchFrom, FetchFrom, readSector_eq hs, readSector_eq hs, h]

/-- **A header that is written is read back**, and no other sector is written. -/
theorem writeBack_eq (hdr : FileHeader) (disk : Disk) (hs : s < NumSectors) :
    ∃ disk', hdr.WriteBack disk s = some disk' ∧ FetchFrom disk' s = some hdr
      ∧ ∀ r ≠ s, disk' r = disk r := by
  refine ⟨_, writeSector_eq hs _, ?_, fun r hr => Function.update_of_ne hr _ _⟩
  have hload : load (store (disk s) 0 (load hdr.bytes 0 SectorSize)) 0 SectorSize
      = load hdr.bytes 0 SectorSize := by
    have := load_store (disk s) 0 (load hdr.bytes 0 SectorSize)
    rwa [length_load] at this
  rw [FetchFrom, readSector_eq hs, Option.map_some, Function.update_self, hload]
  congr 1
  refine ofBytes_eq fun i hi => ?_
  rw [List.getD_eq_getElem?_getD, getElem?_load _ _ hi, Option.getD_some, Nat.zero_add]

end FileHeader

end

/-! ## The contents of a file -/

namespace FileHeader

/-- How many bytes there are. -/
def length (hdr : FileHeader) : ℕ := hdr.numBytes.toInt.toNat

/-- How many sectors they are in. -/
def count (hdr : FileHeader) : ℕ := hdr.numSectors.toInt.toNat

/-- The number of a sector of the file. -/
def table (hdr : FileHeader) (k : ℕ) : ℕ := ((hdr.sector? k).getD 0).toNat

/-- The numbers of its sectors. -/
def sectors (hdr : FileHeader) : List ℕ := (List.range hdr.count).map hdr.table

/-- The bytes of the file. -/
def content (hdr : FileHeader) (disk : Disk) : List Byte :=
  load (view SectorSize disk hdr.table) 0 hdr.length

/-- The header of a file: as many sectors as its bytes need, all of them different and all of them
on the disk. -/
structure Sound (hdr : FileHeader) : Prop where
  count : hdr.count = (hdr.length + 4095) / 4096
  direct : hdr.count ≤ NumDirect
  onDisk : ∀ s ∈ hdr.sectors, s < NumSectors
  nodup : hdr.sectors.Nodup

variable {hdr : FileHeader} {disk disk' : Disk} {buf : ℕ → Byte}

@[simp] theorem length_content (hdr : FileHeader) (disk : Disk) :
    (hdr.content disk).length = hdr.length := length_load _ _ _

theorem table_mem {k : ℕ} (hk : k < hdr.count) : hdr.table k ∈ hdr.sectors :=
  List.mem_map.mpr ⟨k, List.mem_range.mpr hk, rfl⟩

namespace Sound

theorem length_le (h : hdr.Sound) : hdr.length ≤ hdr.count * SectorSize := by
  have := h.count
  unfold SectorSize
  omega

/-- The end of every file is an `int`. -/
theorem length_lt (h : hdr.Sound) : hdr.length + SectorSize < 2147483648 := by
  have hdirect := h.direct
  have hlength := h.length_le
  have hvalue : NumDirect = 1022 := rfl
  unfold SectorSize at hlength ⊢
  omega

theorem inj (h : hdr.Sound) :
    ∀ j < hdr.count, ∀ k < hdr.count, hdr.table j = hdr.table k → j = k := fun _ hj _ hk heq =>
  List.inj_on_of_nodup_map h.nodup (List.mem_range.mpr hj) (List.mem_range.mpr hk) heq

/-- **The sector of a place.** -/
theorem byteToSector (h : hdr.Sound) {k : ℕ} (hk : k < hdr.count) :
    ∃ sector, hdr.ByteToSector (k * SectorSize) = some sector
      ∧ sector.toInt = (hdr.table k : ℤ) ∧ hdr.table k < NumSectors := by
  have hdirect : k < NumDirect := lt_of_lt_of_le hk h.direct
  have hplace : k * SectorSize / SectorSize = k := Nat.mul_div_cancel k (by decide)
  have hsome : hdr.sector? k = some (hdr.dataSectors ⟨k, hdirect⟩) := dif_pos hdirect
  have hlt : hdr.table k < NumSectors := h.onDisk _ (table_mem hk)
  refine ⟨_, by rw [ByteToSector, hplace, hsome], ?_, hlt⟩
  rw [table, hsome, Option.getD_some] at hlt ⊢
  refine BitVec.toInt_eq_toNat_of_lt ?_
  have hvalue : NumSectors = 1024 := rfl
  omega

/-- The bytes do not change as long as the sectors of the file do not. -/
theorem content_congr (h : hdr.Sound) (heq : ∀ s ∈ hdr.sectors, disk' s = disk s) :
    hdr.content disk' = hdr.content disk := by
  refine load_congr fun i hi => ?_
  rw [Nat.zero_add]
  exact view_congr (lt_of_lt_of_le hi h.length_le) fun k hk => heq _ (table_mem hk)

end Sound

/-! ## Sectors that are taken and given back -/

/-- How many sectors so many bytes need. -/
def needed (length : ℕ) : ℕ := (length + 4095) / 4096

theorem divRoundUp_needed (size : ℤ) :
    (divRoundUp size SectorSize).toNat = needed size.toNat := by
  have hvalue : (SectorSize : ℤ) = 4096 := rfl
  unfold divRoundUp needed
  rw [hvalue]
  rcases Int.le_total 0 size with hpos | hneg
  · rw [Int.tdiv_eq_ediv_of_nonneg hpos, Int.tmod_eq_emod_of_nonneg hpos]
    split_ifs <;> omega
  · obtain ⟨m, rfl⟩ : ∃ m : ℕ, size = -(m : ℤ) := ⟨(-size).toNat, by omega⟩
    rw [Int.neg_tdiv, Int.neg_tmod, Int.tdiv_eq_ediv_of_nonneg (Int.natCast_nonneg m),
      Int.tmod_eq_emod_of_nonneg (Int.natCast_nonneg m), if_neg (by omega)]
    omega

/-- The first `n` sectors of a header. -/
def taken (hdr : FileHeader) (n : ℕ) : List ℕ := (List.range n).map hdr.table

theorem taken_succ (hdr : FileHeader) (n : ℕ) :
    hdr.taken (n + 1) = hdr.taken n ++ [hdr.table n] := by
  rw [taken, List.range_succ, List.map_append]
  rfl

/-- The entries of a header, when one of them was set. -/
theorem setSector_eq (hdr : FileHeader) {n s : ℕ} (hn : n < NumDirect) (hs : s < NumSectors) :
    ∃ hdr', hdr.setSector n s = some hdr' ∧ hdr'.numBytes = hdr.numBytes
      ∧ hdr'.numSectors = hdr.numSectors ∧ hdr'.table n = s ∧ hdr'.taken n = hdr.taken n := by
  refine ⟨_, dif_pos hn, rfl, rfl, ?_, ?_⟩
  · have hvalue : NumSectors = 1024 := rfl
    rw [table, sector?, dif_pos hn, Option.getD_some]
    dsimp only
    rw [Function.update_self, BitVec.ofInt_natCast, BitVec.toNat_ofNat,
      Nat.mod_eq_of_lt (by omega)]
  · refine List.map_congr_left fun k hk => ?_
    have hk := List.mem_range.mp hk
    have hne : (⟨k, hk.trans hn⟩ : Fin NumDirect) ≠ ⟨n, hn⟩ := fun h =>
      Nat.ne_of_lt hk (Fin.mk.inj h)
    rw [table, table, sector?, sector?, dif_pos (hk.trans hn), dif_pos (hk.trans hn)]
    dsimp only
    rw [Function.update_of_ne hne]

/-- The loop of `Allocate` takes sectors that are free, each once. -/
theorem allocateSectors_eq {n : ℕ} (hn : n ≤ NumDirect) (hdr : FileHeader)
    (freeMap : BitMap NumSectors) (hfree : n ≤ freeMap.free.card) :
    ∃ hdr' freeMap', allocateSectors n hdr freeMap = some (hdr', freeMap')
      ∧ hdr'.numBytes = hdr.numBytes ∧ hdr'.numSectors = hdr.numSectors
      ∧ (hdr'.taken n).Nodup ∧ (∀ s ∈ hdr'.taken n, s ∈ freeMap.free)
      ∧ freeMap'.free = freeMap.free \ (hdr'.taken n).toFinset := by
  induction n with
  | zero =>
      refine ⟨hdr, freeMap, rfl, rfl, rfl, List.nodup_nil, (fun s hs => nomatch hs), ?_⟩
      exact (Finset.sdiff_empty).symm
  | succ n ih =>
      obtain ⟨hdr₁, map₁, hloop, hbytes, hnum, hnodup, hmem, hleft⟩ := ih (by omega) (by omega)
      have hcard : map₁.free.card = freeMap.free.card - n := by
        have hsub : (hdr₁.taken n).toFinset ⊆ freeMap.free := fun s hs =>
          hmem s (List.mem_toFinset.mp hs)
        rw [hleft, Finset.card_sdiff_of_subset hsub, List.toFinset_card_of_nodup hnodup, taken,
          List.length_map, List.length_range]
      have hne : map₁.free.Nonempty := Finset.card_pos.mp (by omega)
      obtain ⟨s, hs⟩ : ∃ s, s = map₁.free.min' hne := ⟨_, rfl⟩
      have hfind : map₁.Find = (map₁.mark s, (s : ℤ)) := by
        rw [hs]
        exact BitMap.find_of_nonempty hne
      have hmin : s ∈ map₁.free := hs ▸ map₁.free.min'_mem hne
      have hnew : s ∈ freeMap.free ∧ s ∉ hdr₁.taken n := by
        rw [hleft, Finset.mem_sdiff, List.mem_toFinset] at hmin
        exact hmin
      obtain ⟨hdr₂, hset, hbytes₂, hnum₂, hlast, hrest⟩ :=
        hdr₁.setSector_eq (n := n) (s := s) (by omega) (BitMap.mem_free.mp hmin).1
      have htaken : hdr₂.taken (n + 1) = hdr₁.taken n ++ [s] := by rw [taken_succ, hrest, hlast]
      refine ⟨hdr₂, map₁.mark s, ?_, hbytes₂.trans hbytes, hnum₂.trans hnum, ?_, ?_, ?_⟩
      · rw [allocateSectors, hloop]
        simp only [Option.bind_eq_bind, Option.bind_some]
        rw [hfind]
        dsimp only
        rw [hset]
        rfl
      · rw [htaken]
        refine List.nodup_append.mpr ⟨hnodup, List.nodup_singleton s, fun a ha b hb heq => ?_⟩
        rw [List.mem_singleton.mp hb] at heq
        exact hnew.2 (heq ▸ ha)
      · rw [htaken]
        intro a ha
        rcases List.mem_append.mp ha with ha | ha
        · exact hmem a ha
        · rw [List.mem_singleton.mp ha]
          exact hnew.1
      · rw [htaken, BitMap.free_mark, hleft, List.toFinset_append]
        ext a
        simp only [Finset.mem_erase, Finset.mem_sdiff, Finset.mem_union, List.mem_toFinset,
          List.mem_singleton, not_or]
        constructor
        · rintro ⟨hne, hin, hout⟩
          exact ⟨hin, hout, hne⟩
        · rintro ⟨hin, hout, hne⟩
          exact ⟨hne, hin, hout⟩

/-- **`Allocate`**, with room for the file: a sound header of that length, of sectors that were
free and now are not. -/
theorem allocate_eq (hdr : FileHeader) (freeMap : BitMap NumSectors) (fileSize : Word)
    (hfew : freeMap.free.card ≤ NumDirect)
    (hroom : needed fileSize.toInt.toNat ≤ freeMap.free.card) :
    ∃ hdr' freeMap', hdr.Allocate freeMap fileSize = some (true, hdr', freeMap')
      ∧ hdr'.Sound ∧ hdr'.length = fileSize.toInt.toNat
      ∧ (∀ s ∈ hdr'.sectors, s ∈ freeMap.free)
      ∧ freeMap'.free = freeMap.free \ hdr'.sectors.toFinset := by
  have hneed := divRoundUp_needed fileSize.toInt
  obtain ⟨num, hnum⟩ : ∃ num, num = divRoundUp fileSize.toInt SectorSize := ⟨_, rfl⟩
  rw [← hnum] at hneed
  obtain ⟨hdr', freeMap', hloop, hbytes, hsectors, hnodup, hmem, hleft⟩ :=
    allocateSectors_eq (n := num.toNat) (by omega)
      { hdr with numBytes := fileSize, numSectors := BitVec.ofInt 32 num } freeMap (by omega)
  have hvalue : NumDirect = 1022 := rfl
  have hcount : hdr'.count = num.toNat := by
    have hlow : -2147483648 ≤ num := by
      have hsize := BitVec.le_toInt fileSize
      have hdiv := Int.mul_tdiv_add_tmod fileSize.toInt 4096
      have hmod := Int.tmod_lt_of_pos fileSize.toInt (show (0 : ℤ) < 4096 by decide)
      have hge : fileSize.toInt.tdiv 4096 ≤ num := by
        rw [hnum, divRoundUp]
        split_ifs
        · exact Int.le_add_of_nonneg_right (by decide)
        · exact Int.le_add_of_nonneg_right (le_refl 0)
      omega
    rw [count, hsectors, BitVec.toInt_ofInt_eq_self (by decide) hlow (by omega)]
  have hall : hdr'.sectors = hdr'.taken num.toNat := by rw [sectors, taken, hcount]
  have hlength : hdr'.length = fileSize.toInt.toNat := by rw [length, hbytes]
  refine ⟨hdr', freeMap', ?_, ⟨?_, by omega, ?_, by rwa [hall]⟩, hlength, by rwa [hall],
    by rwa [hall]⟩
  · rw [Allocate, ← hnum]
    dsimp only
    rw [BitMap.numClear_eq, if_neg (by omega), hloop]
    rfl
  · rw [hcount, hneed, hlength]
    rfl
  · rw [hall]
    exact fun s hs => (BitMap.mem_free.mp (hmem s hs)).1

/-- Without room it fails. -/
theorem allocate_full (hdr : FileHeader) (freeMap : BitMap NumSectors) (fileSize : Word)
    (hfull : freeMap.free.card < needed fileSize.toInt.toNat) :
    ∃ hdr', hdr.Allocate freeMap fileSize = some (false, hdr', freeMap) := by
  have hneed := divRoundUp_needed fileSize.toInt
  refine ⟨{ hdr with numBytes := fileSize,
                     numSectors := BitVec.ofInt 32 (divRoundUp fileSize.toInt SectorSize) }, ?_⟩
  rw [Allocate]
  dsimp only
  rw [BitMap.numClear_eq, if_pos (by omega)]

/-- The loop of `Deallocate`. -/
theorem deallocateSectors_eq (h : hdr.Sound) {freeMap : BitMap NumSectors}
    (hused : ∀ s ∈ hdr.sectors, s ∉ freeMap.free) {n : ℕ} (hn : n ≤ hdr.count) :
    ∃ freeMap', hdr.deallocateSectors n freeMap = some freeMap'
      ∧ freeMap'.free = freeMap.free ∪ (hdr.taken n).toFinset := by
  induction n with
  | zero => exact ⟨freeMap, rfl, (Finset.union_empty _).symm⟩
  | succ n ih =>
      obtain ⟨map₁, hloop, hfree⟩ := ih (by omega)
      obtain ⟨sector, hsector, hint, hlt⟩ := h.byteToSector (k := n) (by omega)
      have hplace : hdr.sector? n = some sector := by
        rw [← hsector, ByteToSector, Nat.mul_div_cancel n (by decide)]
      have hadmits : BitMap.Admits NumSectors (hdr.table n : ℤ) :=
        ⟨Int.natCast_nonneg _, Int.ofNat_lt.mpr hlt⟩
      -- it is not one of those that were just given back
      have hbit : map₁.bit (hdr.table n) = true := by
        rw [← Bool.not_eq_false]
        intro hclear
        have hmem : hdr.table n ∈ map₁.free := BitMap.mem_free.mpr ⟨hlt, hclear⟩
        rw [hfree, Finset.mem_union, List.mem_toFinset] at hmem
        rcases hmem with hmem | hmem
        · exact hused _ (table_mem (by omega)) hmem
        · obtain ⟨k, hk, heq⟩ := List.mem_map.mp hmem
          have hk := List.mem_range.mp hk
          exact absurd (h.inj k (by omega) n (by omega) heq) (by omega)
      refine ⟨map₁.clear (hdr.table n), ?_, ?_⟩
      · rw [deallocateSectors, hloop]
        simp only [Option.bind_eq_bind, Option.bind_some]
        rw [hplace, Option.bind_some, hint, BitMap.Test, if_pos hadmits, Option.bind_some,
          Int.toNat_natCast, hbit, if_pos rfl, BitMap.Clear, if_pos hadmits, Int.toNat_natCast]
      · rw [BitMap.free_clear _ hlt, hfree, taken_succ, List.toFinset_append]
        ext a
        simp only [Finset.mem_insert, Finset.mem_union, List.mem_toFinset, List.mem_singleton]
        rw [or_comm, or_assoc]

/-- **`Deallocate`** gives the sectors of the file back. -/
theorem deallocate_eq (h : hdr.Sound) (freeMap : BitMap NumSectors)
    (hused : ∀ s ∈ hdr.sectors, s ∉ freeMap.free) :
    ∃ freeMap', hdr.Deallocate freeMap = some freeMap'
      ∧ freeMap'.free = freeMap.free ∪ hdr.sectors.toFinset :=
  deallocateSectors_eq h hused (le_refl hdr.count)

end FileHeader

end LoadBalancer.NachOS
