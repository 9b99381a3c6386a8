/-
The open files (`openfile.cc`).

`ReadAt` and `WriteAt` go through a buffer of whole sectors, and `WriteAt` reads the first and the
last one before it writes, if it does not write all of them. For a header that is
[`FileHeader.Sound`] they are what one expects of a row of bytes ([`OpenFile.readAt_eq`],
[`OpenFile.writeAt_eq`]), whatever a buffer held when it was made.

What C++ leaves undefined is the end, like a failed `ASSERT`: a place in front of the file, and a
sum that is not an `int`.
-/
import LoadBalancer.NachOS.FileHeader

set_option autoImplicit false

namespace LoadBalancer.NachOS

open LoadBalancer.Memory LoadBalancer.Blocks

/-! ## An open file -/

/-- `OpenFile`, of which the destructor only deletes the header. -/
structure OpenFile where
  hdr : FileHeader
  seekPosition : ℤ

/-- `divRoundDown`. -/
def divRoundDown (n s : ℤ) : ℤ := n.tdiv s

namespace OpenFile

/-- `OpenFile(int)`. -/
def openAt (disk : Disk) (sector : ℤ) : Option OpenFile :=
  (FileHeader.FetchFrom disk sector).map fun hdr => ⟨hdr, 0⟩

/-- The loop that reads, for `n` sectors from `firstSector` on. -/
def readSectors (f : OpenFile) (disk : Disk) (firstSector : ℕ) :
    ℕ → (ℕ → Byte) → Option (ℕ → Byte)
  | 0, buf => some buf
  | n + 1, buf => do
      let buf ← readSectors f disk firstSector n buf
      let sector ← f.hdr.ByteToSector ((firstSector + n) * SectorSize)
      let row ← ReadSector disk sector.toInt
      return store buf (n * SectorSize) row

/-- The loop that writes, for `n` sectors from `firstSector` on. -/
def writeSectors (f : OpenFile) (buf : ℕ → Byte) (firstSector : ℕ) : ℕ → Disk → Option Disk
  | 0, disk => some disk
  | n + 1, disk => do
      let disk ← writeSectors f buf firstSector n disk
      let sector ← f.hdr.ByteToSector ((firstSector + n) * SectorSize)
      WriteSector disk sector.toInt (load buf (n * SectorSize) SectorSize)

/-- `numBytes`, when there are not that many up to the end of the file. -/
def clip (f : OpenFile) (numBytes position : ℤ) : ℤ :=
  if position + numBytes > f.hdr.FileLength then f.hdr.FileLength - position else numBytes

/-- What C++ defines of a request that is not refused: no place in front of the file, and a sum
that is an `int`. -/
def InRange (numBytes position : ℤ) : Prop := 0 ≤ position ∧ position + numBytes < 2147483648

instance (numBytes position : ℤ) : Decidable (InRange numBytes position) :=
  inferInstanceAs (Decidable (_ ∧ _))

/-- `OpenFile::ReadAt`: what it copies. `buf` is what its buffer holds when it is made. -/
def ReadAt (f : OpenFile) (disk : Disk) (buf : ℕ → Byte) (numBytes position : ℤ) :
    Option (List Byte) :=
  if numBytes ≤ 0 ∨ position ≥ f.hdr.FileLength then some []
  else if ¬ InRange numBytes position then none
  else
    let numBytes := f.clip numBytes position
    let firstSector := divRoundDown position SectorSize
    let lastSector := divRoundDown (position + numBytes - 1) SectorSize
    let numSectors := 1 + lastSector - firstSector
    (f.readSectors disk firstSector.toNat numSectors.toNat buf).map fun buf =>
      load buf (position - firstSector * SectorSize).toNat numBytes.toNat

/-- The buffer of `WriteAt` with the first and the last sector, if they are to be partially
modified. `bufs` is what the buffers hold when they are made: this one, and those of the calls of
`ReadAt`. -/
def readPartial (f : OpenFile) (disk : Disk) (bufs : ℕ → ℕ → Byte) (firstSector lastSector : ℤ)
    (firstAligned lastAligned : Bool) : Option (ℕ → Byte) := do
  let first ← (
    if ¬ firstAligned then f.ReadAt disk (bufs 1) SectorSize (firstSector * SectorSize)
    else some [])
  let buf := store (bufs 0) 0 first
  let last ← (
    if ¬ lastAligned ∧ (firstSector ≠ lastSector ∨ firstAligned) then
      f.ReadAt disk (bufs 2) SectorSize (lastSector * SectorSize)
    else some [])
  return store buf ((lastSector - firstSector) * SectorSize).toNat last

/-- `OpenFile::WriteAt`: how many bytes it writes, and the disk afterwards. -/
def WriteAt (f : OpenFile) (disk : Disk) (bufs : ℕ → ℕ → Byte) (data : ℕ → Byte)
    (numBytes position : ℤ) : Option (ℤ × Disk) :=
  if numBytes ≤ 0 ∨ position ≥ f.hdr.FileLength then some (0, disk)
  else if ¬ InRange numBytes position then none
  else
    let numBytes := f.clip numBytes position
    let firstSector := divRoundDown position SectorSize
    let lastSector := divRoundDown (position + numBytes - 1) SectorSize
    let numSectors := 1 + lastSector - firstSector
    let firstAligned := decide (position = firstSector * SectorSize)
    let lastAligned := decide (position + numBytes = (lastSector + 1) * SectorSize)
    (f.readPartial disk bufs firstSector lastSector firstAligned lastAligned).bind fun buf =>
      -- the bytes that are changed
      let buf :=
        store buf (position - firstSector * SectorSize).toNat (load data 0 numBytes.toNat)
      (f.writeSectors buf firstSector.toNat numSectors.toNat disk).map fun disk => (numBytes, disk)

/-- `OpenFile::Seek`. -/
def Seek (f : OpenFile) (position : ℤ) : OpenFile := { f with seekPosition := position }

/-- `OpenFile::Read`. -/
def Read (f : OpenFile) (disk : Disk) (buf : ℕ → Byte) (numBytes : ℤ) :
    Option (List Byte × OpenFile) := do
  let result ← f.ReadAt disk buf numBytes f.seekPosition
  return (result, { f with seekPosition := f.seekPosition + result.length })

/-- `OpenFile::Write`. -/
def Write (f : OpenFile) (disk : Disk) (bufs : ℕ → ℕ → Byte) (data : ℕ → Byte) (numBytes : ℤ) :
    Option (ℤ × OpenFile × Disk) := do
  let (result, disk) ← f.WriteAt disk bufs data numBytes f.seekPosition
  return (result, { f with seekPosition := f.seekPosition + result }, disk)

end OpenFile

namespace OpenFile

variable {f : OpenFile} {disk : Disk} {buf : ℕ → Byte} {bufs : ℕ → ℕ → Byte} {data : ℕ → Byte}
  {first n : ℕ}

/-! ### The loops over the sectors -/

theorem readSectors_eq (h : f.hdr.Sound) (hn : first + n ≤ f.hdr.count) (buf : ℕ → Byte) :
    f.readSectors disk first n buf = some (gather SectorSize disk f.hdr.table first n buf) := by
  induction n with
  | zero => rfl
  | succ n ih =>
      obtain ⟨sector, hsector, hint, hlt⟩ := h.byteToSector (k := first + n) (by omega)
      rw [readSectors, ih (by omega), hsector]
      simp only [Option.bind_eq_bind, Option.bind_some]
      rw [hint, readSector_eq hlt]
      rfl

theorem writeSectors_eq (h : f.hdr.Sound) (hn : first + n ≤ f.hdr.count) (disk : Disk) :
    f.writeSectors buf first n disk = some (scatter SectorSize buf f.hdr.table first n disk) := by
  induction n with
  | zero => rfl
  | succ n ih =>
      obtain ⟨sector, hsector, hint, hlt⟩ := h.byteToSector (k := first + n) (by omega)
      rw [writeSectors, ih (by omega), hsector]
      simp only [Option.bind_eq_bind, Option.bind_some]
      rw [hint, writeSector_eq hlt]
      rfl

/-! ### The sectors of a request -/

/-- The number of the last sector of `k` bytes from place `p` on. -/
def lastSector (p k : ℕ) : ℕ := (p + k - 1) / SectorSize

/-- How many sectors they are in. -/
def span (p k : ℕ) : ℕ := 1 + lastSector p k - p / SectorSize

theorem divRoundDown_natCast (p : ℕ) :
    divRoundDown p SectorSize = ((p / SectorSize : ℕ) : ℤ) := (Int.ofNat_tdiv p SectorSize).symm

theorem divRoundDown_last {p k : ℕ} (hk : 0 < k) :
    divRoundDown ((p : ℤ) + k - 1) SectorSize = (lastSector p k : ℤ) := by
  have hcast : (p : ℤ) + k - 1 = ((p + k - 1 : ℕ) : ℤ) := by omega
  rw [hcast, divRoundDown_natCast]
  rfl

/-- Of a request that is not refused there is something to do. -/
theorem clip_eq {p : ℕ} {n : ℤ} (hn : 0 < n) (hp : (p : ℤ) < f.hdr.FileLength) :
    ∃ k : ℕ, f.clip n p = k ∧ 0 < k ∧ p + k ≤ f.hdr.length
      ∧ k = min n.toNat (f.hdr.length - p) := by
  have hlength : f.hdr.FileLength = f.hdr.length := (Int.toNat_of_nonneg (by omega)).symm
  refine ⟨min n.toNat (f.hdr.length - p), ?_, by omega, by omega, rfl⟩
  unfold clip
  split_ifs <;> omega

/-- The sectors of the request are sectors of the file. -/
theorem span_le (h : f.hdr.Sound) {p k : ℕ} (hk : 0 < k) (hfits : p + k ≤ f.hdr.length) :
    p / SectorSize + span p k ≤ f.hdr.count := by
  have := h.count
  unfold span lastSector SectorSize
  omega

/-- Where the request is in its sectors. -/
theorem span_bounds {p k : ℕ} (hk : 0 < k) :
    p / SectorSize * SectorSize ≤ p ∧ p < p / SectorSize * SectorSize + SectorSize
      ∧ lastSector p k * SectorSize < p + k ∧ p + k ≤ lastSector p k * SectorSize + SectorSize
      ∧ p / SectorSize ≤ lastSector p k
      ∧ (p / SectorSize + span p k) * SectorSize = lastSector p k * SectorSize + SectorSize := by
  unfold span lastSector SectorSize
  omega

/-! ### Reading -/

/-- A part of the contents. -/
theorem content_slice {p k : ℕ} (hfits : p + k ≤ f.hdr.length) :
    ((f.hdr.content disk).drop p).take k = load (view SectorSize disk f.hdr.table) p k := by
  obtain ⟨rest, hrest⟩ := Nat.exists_eq_add_of_le hfits
  rw [FileHeader.content, hrest, Nat.add_assoc, load_drop, load_take, Nat.zero_add]

/-- **`ReadAt` copies the bytes of the file**: those from the place on, up to the end. -/
theorem readAt_eq (h : f.hdr.Sound) {p : ℕ} {n : ℤ} (hint : (p : ℤ) + n < 2147483648)
    (disk : Disk) (buf : ℕ → Byte) :
    f.ReadAt disk buf n p = some (((f.hdr.content disk).drop p).take n.toNat) := by
  unfold ReadAt
  split_ifs with hrefused hrange
  · -- the request is refused
    rcases hrefused with hn | hp
    · rw [Int.toNat_of_nonpos hn, List.take_zero]
    · have hle : f.hdr.length ≤ p := Int.toNat_le.mpr hp
      rw [List.drop_of_length_le (by rwa [FileHeader.length_content]), List.take_nil]
  · obtain ⟨hn, hp⟩ := not_or.mp hrefused
    obtain ⟨k, hclip, hk, hfits, hmin⟩ := clip_eq (n := n) (Int.not_le.mp hn) (Int.not_le.mp hp)
    obtain ⟨hlow, hhigh, hbegin, hend, hle, hspan⟩ := span_bounds (p := p) hk
    have hcount : (1 + (lastSector p k : ℤ) - ((p / SectorSize : ℕ) : ℤ)).toNat = span p k := by
      unfold span
      omega
    have hoffset : ((p : ℤ) - ((p / SectorSize : ℕ) : ℤ) * (SectorSize : ℤ)).toNat
        = p - p / SectorSize * SectorSize := by
      rw [← Int.natCast_mul, ← Int.natCast_sub hlow, Int.toNat_natCast]
    dsimp only
    rw [hclip, divRoundDown_natCast, divRoundDown_last hk, hcount, hoffset, Int.toNat_natCast,
      Int.toNat_natCast, readSectors_eq h (span_le h hk hfits), Option.map_some]
    -- what is copied is what was read, at its place in the buffer
    have hcopy : load (gather SectorSize disk f.hdr.table (p / SectorSize) (span p k) buf)
        (p - p / SectorSize * SectorSize) k = load (view SectorSize disk f.hdr.table) p k := by
      refine load_congr fun i hi => ?_
      rw [Nat.add_mul] at hspan
      rw [gather_apply, if_pos (by omega)]
      congr 1
      omega
    rw [hcopy, ← content_slice hfits, hmin]
    congr 1
    rw [← FileHeader.length_content f.hdr disk, ← List.length_drop, ← List.take_take,
      List.take_length]
  · exact absurd ⟨Int.natCast_nonneg p, hint⟩ hrange

/-! ### Writing -/

/-- The bytes of the file that are in one of its sectors. -/
def inSector (f : OpenFile) (disk : Disk) (j : ℕ) : List Byte :=
  ((f.hdr.content disk).drop (j * SectorSize)).take SectorSize

/-- What a buffer has of a sector of the file that is stored in it. -/
theorem store_inSector (f : OpenFile) (disk : Disk) (buf : ℕ → Byte) {j i a : ℕ}
    (hi : i < SectorSize) (hlt : j * SectorSize + i < f.hdr.length) :
    store buf a (f.inSector disk j) (a + i)
      = view SectorSize disk f.hdr.table (j * SectorSize + i) := by
  have hrow : (f.inSector disk j)[i]?
      = some (view SectorSize disk f.hdr.table (j * SectorSize + i)) := by
    rw [inSector, List.getElem?_take_of_lt hi, List.getElem?_drop, FileHeader.content,
      getElem?_load _ _ hlt, Nat.zero_add]
  rw [store, if_pos (Nat.le_add_right a i), Nat.add_sub_cancel_left, hrow, Option.getD_some]

/-- The buffer, when the places of the request are known. -/
theorem readPartial_some (h : f.hdr.Sound) {p k : ℕ} (hk : 0 < k) (hfits : p + k ≤ f.hdr.length)
    (bufs : ℕ → ℕ → Byte) :
    f.readPartial disk bufs (p / SectorSize : ℕ) (lastSector p k)
        (decide ((p : ℤ) = ((p / SectorSize : ℕ) : ℤ) * SectorSize))
        (decide ((p : ℤ) + k = ((lastSector p k : ℤ) + 1) * SectorSize))
      = some (store
          (store (bufs 0) 0
            (if ¬ p = p / SectorSize * SectorSize then f.inSector disk (p / SectorSize) else []))
          (lastSector p k * SectorSize - p / SectorSize * SectorSize)
          (if ¬ p + k = lastSector p k * SectorSize + SectorSize
              ∧ (¬ p / SectorSize = lastSector p k ∨ p = p / SectorSize * SectorSize) then
            f.inSector disk (lastSector p k) else [])) := by
  obtain ⟨hlow, hhigh, hbegin, hend, hle, -⟩ := span_bounds (p := p) hk
  have hread {j : ℕ} (hj : j * SectorSize ≤ p + k) (buf : ℕ → Byte) :
      f.ReadAt disk buf SectorSize ((j : ℤ) * SectorSize) = some (f.inSector disk j) := by
    have hlength := h.length_lt
    have := readAt_eq h (p := j * SectorSize) (n := SectorSize) (by omega) disk buf
    rwa [Int.natCast_mul, Int.toNat_natCast] at this
  have hfirst : (p : ℤ) = ((p / SectorSize : ℕ) : ℤ) * SectorSize
      ↔ p = p / SectorSize * SectorSize := by
    rw [← Int.natCast_mul, Int.natCast_inj]
  have hlast : (p : ℤ) + k = ((lastSector p k : ℤ) + 1) * SectorSize
      ↔ p + k = lastSector p k * SectorSize + SectorSize := by
    rw [Int.add_mul, Int.one_mul]
    omega
  have hplace : (((lastSector p k : ℤ) - ((p / SectorSize : ℕ) : ℤ)) * (SectorSize : ℤ)).toNat
      = lastSector p k * SectorSize - p / SectorSize * SectorSize := by
    rw [← Int.natCast_sub hle, ← Int.natCast_mul, Int.toNat_natCast, Nat.sub_mul]
  rw [readPartial, hplace, hread (by omega), hread (by omega)]
  simp only [decide_eq_true_eq, hfirst, hlast, ne_eq, Int.natCast_inj, ← apply_ite some,
    Option.bind_eq_bind, Option.bind_some, Option.pure_def]

/-- **What is not to be changed is in the buffer**, after the sectors that are partially modified
were read. -/
theorem readPartial_eq (disk : Disk) (h : f.hdr.Sound) {p k : ℕ} (hk : 0 < k)
    (hfits : p + k ≤ f.hdr.length) (bufs : ℕ → ℕ → Byte) :
    ∃ buf, f.readPartial disk bufs (p / SectorSize : ℕ) (lastSector p k)
        (decide ((p : ℤ) = ((p / SectorSize : ℕ) : ℤ) * SectorSize))
        (decide ((p : ℤ) + k = ((lastSector p k : ℤ) + 1) * SectorSize)) = some buf
      ∧ ∀ i < f.hdr.length, p / SectorSize * SectorSize ≤ i →
        i < lastSector p k * SectorSize + SectorSize → ¬ (p ≤ i ∧ i < p + k) →
        buf (i - p / SectorSize * SectorSize) = view SectorSize disk f.hdr.table i := by
  obtain ⟨hlow, hhigh, hbegin, hend, hle, -⟩ := span_bounds (p := p) hk
  have hmul := Nat.mul_le_mul_right SectorSize hle
  refine ⟨_, readPartial_some h hk hfits bufs, fun i hi hfrom hto hout => ?_⟩
  rcases Nat.lt_or_ge i p with hbefore | hbehind
  · -- in front of the request: the first sector was read, and if the last one was, it is another
    rw [if_pos (by omega)]
    have hsector := store_inSector f disk (bufs 0) (a := 0)
      (j := p / SectorSize) (i := i - p / SectorSize * SectorSize) (by omega) (by omega)
    rw [Nat.zero_add, Nat.add_sub_cancel' hfrom] at hsector
    rw [← hsector]
    split_ifs with hread
    · have := Nat.mul_le_mul_right SectorSize (show p / SectorSize + 1 ≤ lastSector p k by omega)
      rw [Nat.succ_mul] at this
      exact store_of_lt (by omega)
    · rw [store_nil]
  · by_cases hread : ¬ p / SectorSize = lastSector p k ∨ p = p / SectorSize * SectorSize
    · -- behind it, in the last sector
      have hcond : ¬ p + k = lastSector p k * SectorSize + SectorSize
          ∧ (¬ p / SectorSize = lastSector p k ∨ p = p / SectorSize * SectorSize) :=
        ⟨by omega, hread⟩
      have hplace : i - p / SectorSize * SectorSize
          = (lastSector p k * SectorSize - p / SectorSize * SectorSize)
            + (i - lastSector p k * SectorSize) := by omega
      rw [if_pos hcond, hplace, store_inSector _ _ _ (by omega) (by omega),
        Nat.add_sub_cancel' (by omega)]
    · -- behind it, in the only sector, which was read as the first one
      obtain ⟨hsame, hpart⟩ := not_or.mp hread
      rw [not_not] at hsame
      rw [← hsame] at hto
      rw [if_pos hpart, if_neg fun hcond => hread hcond.2, store_nil]
      have hsector := store_inSector f disk (bufs 0) (a := 0)
        (j := p / SectorSize) (i := i - p / SectorSize * SectorSize) (by omega) (by omega)
      rwa [Nat.zero_add, Nat.add_sub_cancel' hfrom] at hsector

/-- The bytes of the file, when the buffer of a request was written to its sectors. -/
theorem content_scatter (h : f.hdr.Sound) {p k m : ℕ} (hk : 0 < k) (hfits : p + k ≤ f.hdr.length)
    (hmin : k = min m (f.hdr.length - p))
    (hkeeps : ∀ i < f.hdr.length, p / SectorSize * SectorSize ≤ i →
      i < lastSector p k * SectorSize + SectorSize → ¬ (p ≤ i ∧ i < p + k) →
      buf (i - p / SectorSize * SectorSize) = view SectorSize disk f.hdr.table i) :
    f.hdr.content (scatter SectorSize
        (store buf (p - p / SectorSize * SectorSize) (load data 0 k)) f.hdr.table (p / SectorSize)
        (span p k) disk)
      = overwrite (f.hdr.content disk) p (load data 0 m) := by
  obtain ⟨hlow, hhigh, hbegin, hend, hle, hspan⟩ := span_bounds (p := p) hk
  rw [FileHeader.content, FileHeader.content, ← load_store_add, Nat.zero_add]
  refine load_congr fun i hi => ?_
  rw [Nat.zero_add,
    view_scatter h.inj (span_le h hk hfits) (lt_of_lt_of_le hi h.length_le), hspan]
  -- outside the request nothing is stored
  have hout (hi' : ¬ (p ≤ i ∧ i < p + k)) :
      store (view SectorSize disk f.hdr.table) p (load data 0 m) i
        = view SectorSize disk f.hdr.table i := by
    rcases Nat.lt_or_ge i p with hlt | hge
    · exact store_of_lt hlt
    · exact store_of_le (by rw [length_load]; omega)
  split_ifs with hin
  · by_cases hreq : p ≤ i ∧ i < p + k
    · obtain ⟨j, rfl⟩ := Nat.exists_eq_add_of_le hreq.1
      have hj : j < k := by omega
      have hplace : p + j - p / SectorSize * SectorSize
          = p - p / SectorSize * SectorSize + j := by omega
      rw [hplace, store_add (by rwa [length_load]), store_add (by rw [length_load]; omega),
        getElem_load, getElem_load]
    · rw [hout hreq, ← hkeeps i hi hin.1 hin.2 hreq]
      rcases Nat.lt_or_ge i p with hlt | hge
      · exact store_of_lt (by omega)
      · exact store_of_le (by rw [length_load]; omega)
  · exact (hout (by omega)).symm

/-- **`WriteAt` overwrites the bytes of the file** from the place on, up to the end, and no sector
that is not one of the file. -/
theorem writeAt_eq (h : f.hdr.Sound) {p : ℕ} {n : ℤ} (hint : (p : ℤ) + n < 2147483648)
    (disk : Disk) (bufs : ℕ → ℕ → Byte) (data : ℕ → Byte) :
    ∃ disk', f.WriteAt disk bufs data n p
        = some (((min n.toNat (f.hdr.length - p) : ℕ) : ℤ), disk')
      ∧ f.hdr.content disk' = overwrite (f.hdr.content disk) p (load data 0 n.toNat)
      ∧ ∀ s ∉ f.hdr.sectors, disk' s = disk s := by
  unfold WriteAt
  split_ifs with hrefused hrange
  · -- the request is refused
    refine ⟨disk, ?_, ?_, fun s _ => rfl⟩
    · have hzero : min n.toNat (f.hdr.length - p) = 0 := by
        unfold FileHeader.FileLength at hrefused
        unfold FileHeader.length
        omega
      rw [hzero]
      rfl
    · rcases hrefused with hn | hp
      · rw [Int.toNat_of_nonpos hn]
        exact (overwrite_nil _ _).symm
      · exact (overwrite_of_length_le (by
          rw [FileHeader.length_content]
          exact Int.toNat_le.mpr hp) _).symm
  · obtain ⟨hn, hp⟩ := not_or.mp hrefused
    obtain ⟨k, hclip, hk, hfits, hmin⟩ := clip_eq (n := n) (Int.not_le.mp hn) (Int.not_le.mp hp)
    obtain ⟨hlow, hhigh, hbegin, hend, hle, hspan⟩ := span_bounds (p := p) hk
    have hcount : (1 + (lastSector p k : ℤ) - ((p / SectorSize : ℕ) : ℤ)).toNat = span p k := by
      unfold span
      omega
    have hoffset : ((p : ℤ) - ((p / SectorSize : ℕ) : ℤ) * (SectorSize : ℤ)).toNat
        = p - p / SectorSize * SectorSize := by
      rw [← Int.natCast_mul, ← Int.natCast_sub hlow, Int.toNat_natCast]
    obtain ⟨buf, hbuf, hkeeps⟩ := readPartial_eq disk h hk hfits bufs
    dsimp only
    rw [hclip, divRoundDown_natCast, divRoundDown_last hk, hbuf, Option.bind_some, hcount, hoffset,
      Int.toNat_natCast, Int.toNat_natCast, writeSectors_eq h (span_le h hk hfits), Option.map_some,
      ← hmin]
    refine ⟨_, rfl, ?_, ?_⟩
    · exact content_scatter h hk hfits hmin hkeeps
    · intro s hs
      refine scatter_of_forall_ne fun j hj heq => hs ?_
      rw [heq]
      exact FileHeader.table_mem (by have := span_le h hk hfits; omega)
  · exact absurd ⟨Int.natCast_nonneg p, hint⟩ hrange

/-! ### The whole file -/

theorem readAt_all (h : f.hdr.Sound) (disk : Disk) (buf : ℕ → Byte) :
    f.ReadAt disk buf f.hdr.length 0 = some (f.hdr.content disk) := by
  have hint := h.length_lt
  have hread := readAt_eq (n := f.hdr.length) h (p := 0) (by omega) disk buf
  rw [List.drop_zero, Int.toNat_natCast,
    List.take_of_length_le (by rw [FileHeader.length_content])] at hread
  exact hread

theorem writeAt_all (h : f.hdr.Sound) (disk : Disk) (bufs : ℕ → ℕ → Byte) (data : ℕ → Byte) :
    ∃ disk', f.WriteAt disk bufs data f.hdr.length 0 = some ((f.hdr.length : ℤ), disk')
      ∧ f.hdr.content disk' = load data 0 f.hdr.length
      ∧ ∀ s ∉ f.hdr.sectors, disk' s = disk s := by
  have hint := h.length_lt
  obtain ⟨disk', hwrite, hcontent, hframe⟩ :=
    writeAt_eq (n := f.hdr.length) h (p := 0) (by omega) disk bufs data
  rw [Int.toNat_natCast, Nat.sub_zero, Nat.min_self] at hwrite
  refine ⟨disk', hwrite, ?_, hframe⟩
  rw [hcontent, Int.toNat_natCast, overwrite_all]
  rw [length_load, FileHeader.length_content]

end OpenFile

end LoadBalancer.NachOS
