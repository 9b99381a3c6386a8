/-
The directory of the disk (`directory.cc`).

A directory is an array of entries, and what is written to its file is the memory of the array. An
entry that is not in use has nothing that counts; of a name the first nine bytes count. What the
operations do is said of the entries ([`Directory.find_eq`], [`Directory.add_eq`],
[`Directory.remove_eq`]).
-/
import LoadBalancer.NachOS.OpenFile

set_option autoImplicit false

namespace LoadBalancer.NachOS

open LoadBalancer.Memory LoadBalancer.Blocks

/-! ## C strings -/

/-- `strncmp`, for the memory that the two strings begin. -/
def strncmp : ℕ → (ℕ → Byte) → (ℕ → Byte) → ℤ
  | 0, _, _ => 0
  | n + 1, s, t =>
      if s 0 ≠ t 0 then (s 0).toNat - (t 0).toNat
      else if s 0 = 0 then 0
      else strncmp n (fun i => s (i + 1)) fun i => t (i + 1)

/-- The `n` bytes that `strncpy` writes. -/
def strncpy : ℕ → (ℕ → Byte) → List Byte
  | 0, _ => []
  | n + 1, s =>
      if s 0 = 0 then List.replicate (n + 1) 0 else s 0 :: strncpy n fun i => s (i + 1)

/-- The first `n` bytes of a string, up to its end. -/
def text : ℕ → (ℕ → Byte) → List Byte
  | 0, _ => []
  | n + 1, s => if s 0 = 0 then [] else s 0 :: text n fun i => s (i + 1)

/-! ## The entries -/

/-- `FileNameMaxLen`. -/
def FileNameMaxLen : ℕ := 9

/-- `sizeof(DirectoryEntry)`: `inUse` is at place 0, `sector` at place 4 and `name` at place 8. -/
def DirectoryEntrySize : ℕ := 20

/-- `Directory`, with the memory of its `table`. -/
structure Directory where
  tableSize : ℕ
  table : ℕ → Byte

namespace Directory

/-- `table[i].inUse`. -/
def inUse (table : ℕ → Byte) (i : ℕ) : Bool := table (i * DirectoryEntrySize) != 0

/-- `table[i].sector`. -/
def sector (table : ℕ → Byte) (i : ℕ) : ℤ := (fetch .word table (i * DirectoryEntrySize + 4)).toInt

/-- `table[i].name`. -/
def name (table : ℕ → Byte) (i k : ℕ) : Byte := table (i * DirectoryEntrySize + 8 + k)

/-- `table[i].inUse = value`. -/
def setInUse (table : ℕ → Byte) (i : ℕ) (value : Bool) : ℕ → Byte :=
  Function.update table (i * DirectoryEntrySize) (if value then 1 else 0)

/-- `Directory(int)`; `mem` is what the table holds when it is made. -/
def new (mem : ℕ → Byte) (size : ℕ) : Directory where
  tableSize := size
  table := (List.range size).foldl (fun table i => setInUse table i false) mem

/-- `Directory::FetchFrom`. -/
def FetchFrom (d : Directory) (file : OpenFile) (disk : Disk) (buf : ℕ → Byte) : Option Directory :=
  (file.ReadAt disk buf (d.tableSize * DirectoryEntrySize : ℕ) 0).map fun row =>
    { d with table := store d.table 0 row }

/-- `Directory::WriteBack`. -/
def WriteBack (d : Directory) (file : OpenFile) (disk : Disk) (bufs : ℕ → ℕ → Byte) : Option Disk :=
  (file.WriteAt disk bufs d.table (d.tableSize * DirectoryEntrySize : ℕ) 0).map Prod.snd

/-- `Directory::FindIndex`. -/
def FindIndex (d : Directory) (fileName : ℕ → Byte) : ℤ :=
  match (List.range d.tableSize).find? fun i =>
      inUse d.table i && strncmp FileNameMaxLen (name d.table i) fileName == 0 with
  | some i => i
  | none => -1

/-- `Directory::Find`. -/
def Find (d : Directory) (fileName : ℕ → Byte) : ℤ :=
  let i := d.FindIndex fileName
  if i ≠ -1 then sector d.table i.toNat else -1

/-- `Directory::Add`. -/
def Add (d : Directory) (fileName : ℕ → Byte) (newSector : ℤ) : Bool × Directory :=
  if d.FindIndex fileName ≠ -1 then (false, d)
  else
    match (List.range d.tableSize).find? fun i => !inUse d.table i with
    | some i =>
        let table := setInUse d.table i true
        let table := store table (i * DirectoryEntrySize + 8) (strncpy FileNameMaxLen fileName)
        let table :=
          store table (i * DirectoryEntrySize + 4) (bytesOf .word (BitVec.ofInt 32 newSector))
        (true, { d with table := table })
    | none => (false, d)

/-- `Directory::Remove`. -/
def Remove (d : Directory) (fileName : ℕ → Byte) : Bool × Directory :=
  let i := d.FindIndex fileName
  if i = -1 then (false, d) else (true, { d with table := setInUse d.table i.toNat false })

end Directory

/-! ## Names -/

section

variable {n : ℕ} {s t : ℕ → Byte}

/-- **`strncmp` compares the first `n` bytes**, up to the ends of the strings. -/
theorem strncmp_eq_zero_iff : strncmp n s t = 0 ↔ text n s = text n t := by
  induction n generalizing s t with
  | zero => exact ⟨fun _ => rfl, fun _ => rfl⟩
  | succ n ih =>
      rw [strncmp, text, text]
      by_cases hne : s 0 ≠ t 0
      · have hnat : ((s 0).toNat : ℤ) - (t 0).toNat ≠ 0 := fun h =>
          hne (BitVec.eq_of_toNat_eq (by omega))
        rw [if_pos hne]
        refine iff_of_false hnat fun h => ?_
        split_ifs at h with hs ht
        · exact hne (hs.trans ht.symm)
        · exact hne (List.cons.inj h).1
      · rw [if_neg hne]
        rw [not_not] at hne
        rw [← hne]
        split_ifs with hs
        · exact ⟨fun _ => rfl, fun _ => rfl⟩
        · rw [ih]
          exact ⟨fun h => by rw [h], fun h => (List.cons.inj h).2⟩

@[simp] theorem length_strncpy : (strncpy n s).length = n := by
  induction n generalizing s with
  | zero => rfl
  | succ n ih =>
      rw [strncpy]
      split_ifs
      · exact List.length_replicate
      · rw [List.length_cons, ih]

theorem text_congr (h : ∀ i < n, s i = t i) : text n s = text n t := by
  induction n generalizing s t with
  | zero => rfl
  | succ n ih =>
      rw [text, text, h 0 (Nat.succ_pos n), ih fun i hi => h (i + 1) (Nat.succ_lt_succ hi)]

/-- **What `strncpy` writes is the same name.** -/
theorem text_strncpy (mem : ℕ → Byte) (a : ℕ) :
    text n (fun i => store mem a (strncpy n s) (a + i)) = text n s := by
  induction n generalizing s a mem with
  | zero => rfl
  | succ n ih =>
      rw [text, text]
      by_cases hend : s 0 = 0
      · have hzero : store mem a (strncpy (n + 1) s) (a + 0) = 0 := by
          rw [strncpy, if_pos hend, store_replicate, if_pos ⟨by omega, by omega⟩]
        rw [if_pos hzero, if_pos hend]
      · have hstore : store mem a (strncpy (n + 1) s)
            = store (Function.update mem a (s 0)) (a + 1) (strncpy n fun i => s (i + 1)) := by
          rw [strncpy, if_neg hend, store_cons]
        have hfirst : store mem a (strncpy (n + 1) s) (a + 0) = s 0 := by
          rw [hstore, store_of_lt (show a + 0 < a + 1 by omega), Nat.add_zero, Function.update_self]
        rw [hfirst, if_neg hend, if_neg hend, hstore,
          ← ih (s := fun i => s (i + 1)) (Function.update mem a (s 0)) (a + 1)]
        congr 2
        funext i
        rw [Nat.add_assoc, Nat.add_comm 1 i]

end

/-! ## What the operations do to the entries -/

namespace Directory

/-- What counts of an entry: its name and its sector, if it is in use. -/
def entry (table : ℕ → Byte) (i : ℕ) : Option (List Byte × ℤ) :=
  if inUse table i then some (text FileNameMaxLen (name table i), sector table i) else none

variable {table table' : ℕ → Byte} {i j : ℕ} {d : Directory} {fileName : ℕ → Byte}

theorem entry_congr (h : ∀ k < DirectoryEntrySize,
    table' (i * DirectoryEntrySize + k) = table (i * DirectoryEntrySize + k)) :
    entry table' i = entry table i := by
  have huse : inUse table' i = inUse table i := by
    have := h 0 (by decide)
    rw [Nat.add_zero] at this
    rw [inUse, inUse, this]
  have hname : text FileNameMaxLen (name table' i) = text FileNameMaxLen (name table i) := by
    refine text_congr fun k hk => ?_
    unfold FileNameMaxLen at hk
    rw [name, name, Nat.add_assoc, h (8 + k) (by unfold DirectoryEntrySize; omega)]
  have hsector : sector table' i = sector table i := by
    rw [sector, sector]
    simp only [fetch, Nat.add_assoc]
    rw [h 4 (by decide), h (4 + 1) (by decide), h (4 + 2) (by decide), h (4 + 3) (by decide)]
  rw [entry, entry, huse, hname, hsector]

/-- The places of two entries are different. -/
theorem place_ne (hne : j ≠ i) {k m : ℕ} (hk : k < DirectoryEntrySize)
    (hm : m < DirectoryEntrySize) :
    j * DirectoryEntrySize + k ≠ i * DirectoryEntrySize + m := by
  unfold DirectoryEntrySize at *
  omega

@[simp] theorem inUse_setInUse (table : ℕ → Byte) (i : ℕ) (value : Bool) :
    inUse (setInUse table i value) i = value := by
  rw [inUse, setInUse, Function.update_self]
  cases value <;> rfl

theorem entry_setInUse_of_ne (table : ℕ → Byte) (hne : j ≠ i) (value : Bool) :
    entry (setInUse table i value) j = entry table j := by
  refine entry_congr fun k hk => ?_
  exact Function.update_of_ne (place_ne hne hk (m := 0) (by decide)) _ _

@[simp] theorem entry_setInUse_false (table : ℕ → Byte) (i : ℕ) :
    entry (setInUse table i false) i = none := by
  rw [entry, inUse_setInUse, if_neg Bool.false_ne_true]

/-- **A new directory is empty.** -/
theorem entry_new (mem : ℕ → Byte) {size : ℕ} (hi : i < size) :
    entry (new mem size).table i = none := by
  unfold new
  dsimp only
  induction size with
  | zero => exact absurd hi (Nat.not_lt_zero i)
  | succ n ih =>
      rw [List.range_succ, List.foldl_append, List.foldl_cons, List.foldl_nil]
      by_cases heq : i = n
      · rw [heq, entry_setInUse_false]
      · rw [entry_setInUse_of_ne _ heq]
        exact ih (by omega)

/-! ### Looking for a name -/

theorem isNamed_iff : (inUse table i && strncmp FileNameMaxLen (name table i) fileName == 0) = true
    ↔ (entry table i).map Prod.fst = some (text FileNameMaxLen fileName) := by
  rw [Bool.and_eq_true, beq_iff_eq, strncmp_eq_zero_iff, entry]
  split_ifs with h
  · exact ⟨fun hn => congrArg some hn.2, fun hn => ⟨h, Option.some.inj hn⟩⟩
  · exact ⟨fun hn => absurd hn.1 h, fun hn => nomatch hn⟩

/-- No entry has the name. -/
theorem findIndex_eq_neg_one (h : ∀ i < d.tableSize,
    (entry d.table i).map Prod.fst ≠ some (text FileNameMaxLen fileName)) :
    d.FindIndex fileName = -1 := by
  have hnone : ((List.range d.tableSize).find? fun i =>
      inUse d.table i && strncmp FileNameMaxLen (name d.table i) fileName == 0) = none := by
    refine List.find?_eq_none.mpr fun i hi hnamed => ?_
    exact h i (List.mem_range.mp hi) (isNamed_iff.mp hnamed)
  rw [FindIndex, hnone]

/-- One entry has the name. -/
theorem findIndex_eq (hi : i < d.tableSize)
    (hname : (entry d.table i).map Prod.fst = some (text FileNameMaxLen fileName))
    (hinj : ∀ j < d.tableSize,
      (entry d.table j).map Prod.fst = some (text FileNameMaxLen fileName) → j = i) :
    d.FindIndex fileName = i := by
  have hsome : ((List.range d.tableSize).find? fun i =>
      inUse d.table i && strncmp FileNameMaxLen (name d.table i) fileName == 0) = some i := by
    rw [List.find?_range_eq_some]
    refine ⟨isNamed_iff.mpr hname, List.mem_range.mpr hi, fun j hj => ?_⟩
    rw [Bool.not_eq_true']
    refine Bool.eq_false_iff.mpr fun hnamed => ?_
    exact absurd (hinj j (by omega) (isNamed_iff.mp hnamed)) (by omega)
  rw [FindIndex, hsome]

theorem find_eq_neg_one (h : d.FindIndex fileName = -1) : d.Find fileName = -1 := by
  rw [Find, h]
  rfl

/-- **`Find`**: the sector of the entry with the name. -/
theorem find_eq (h : d.FindIndex fileName = i) {s : List Byte × ℤ} (hs : entry d.table i = some s) :
    d.Find fileName = s.2 := by
  have hne : (i : ℤ) ≠ -1 := by omega
  rw [Find, h, if_pos hne, Int.toNat_natCast]
  rw [entry] at hs
  split_ifs at hs
  rw [← Option.some.inj hs]

/-! ### Adding and removing -/

/-- There is no place. -/
theorem add_of_full (h : ∀ i < d.tableSize, entry d.table i ≠ none) (newSector : ℤ) :
    d.Add fileName newSector = (false, d) := by
  have hnone : ((List.range d.tableSize).find? fun i => !inUse d.table i) = none := by
    refine List.find?_eq_none.mpr fun i hi hfree => h i (List.mem_range.mp hi) ?_
    rw [entry, if_neg (by simpa using hfree)]
  rw [Add, hnone]
  split_ifs <;> rfl

/-- An entry that is written, and the others. -/
theorem entry_written (table : ℕ → Byte) (i : ℕ) (fileName : ℕ → Byte) (w : Word) :
    entry (store (store (setInUse table i true) (i * DirectoryEntrySize + 8)
        (strncpy FileNameMaxLen fileName)) (i * DirectoryEntrySize + 4) (bytesOf .word w)) i
      = some (text FileNameMaxLen fileName, w.toInt)
    ∧ ∀ j ≠ i, entry (store (store (setInUse table i true) (i * DirectoryEntrySize + 8)
        (strncpy FileNameMaxLen fileName)) (i * DirectoryEntrySize + 4) (bytesOf .word w)) j
      = entry table j := by
  obtain ⟨used, hused⟩ : ∃ used, used = setInUse table i true := ⟨_, rfl⟩
  obtain ⟨named, hnamed⟩ : ∃ named, named = store used (i * DirectoryEntrySize + 8)
      (strncpy FileNameMaxLen fileName) := ⟨_, rfl⟩
  have hlen : (bytesOf .word w).length = 4 := rfl
  rw [← hused, ← hnamed]
  constructor
  · have huse : inUse (store named (i * DirectoryEntrySize + 4) (bytesOf .word w)) i = true := by
      rw [inUse, store_of_lt (by omega), hnamed, store_of_lt (by omega), hused]
      exact inUse_setInUse table i true
    have hname : text FileNameMaxLen
        (name (store named (i * DirectoryEntrySize + 4) (bytesOf .word w)) i)
        = text FileNameMaxLen fileName := by
      rw [← text_strncpy (s := fileName) used (i * DirectoryEntrySize + 8)]
      refine text_congr fun k hk => ?_
      unfold name
      rw [store_of_le (by rw [hlen]; omega), hnamed]
    have hsector : sector (store named (i * DirectoryEntrySize + 4) (bytesOf .word w)) i
        = w.toInt := by
      rw [sector, fetch_word fun k hk => ?_]
      rw [store_add (by rwa [hlen])]
      rcases (by omega : k = 0 ∨ k = 1 ∨ k = 2 ∨ k = 3) with rfl | rfl | rfl | rfl <;>
        simp [bytesOf]
    rw [entry, if_pos huse, hname, hsector]
  · intro j hj
    rw [← entry_setInUse_of_ne table hj true, ← hused]
    refine entry_congr fun k hk => ?_
    have hplace : j * DirectoryEntrySize + k < i * DirectoryEntrySize
        ∨ i * DirectoryEntrySize + DirectoryEntrySize ≤ j * DirectoryEntrySize + k := by
      unfold DirectoryEntrySize at *
      omega
    have hsize : DirectoryEntrySize = 20 := rfl
    rcases hplace with hlt | hge
    · rw [store_of_lt (by omega), hnamed, store_of_lt (by omega)]
    · rw [store_of_le (by rw [hlen]; omega), hnamed,
        store_of_le (by rw [length_strncpy, FileNameMaxLen]; omega)]

/-- **`Add`**: an entry that was not in use has the name and the sector, and the others are as
they were. -/
theorem add_eq (hnew : d.FindIndex fileName = -1) (newSector : ℤ) (hlow : -2147483648 ≤ newSector)
    (hhigh : newSector < 2147483648) (hplace : ∃ i < d.tableSize, entry d.table i = none) :
    ∃ i < d.tableSize, entry d.table i = none ∧ ∃ d', d.Add fileName newSector = (true, d')
      ∧ d'.tableSize = d.tableSize
      ∧ entry d'.table i = some (text FileNameMaxLen fileName, newSector)
      ∧ ∀ j ≠ i, entry d'.table j = entry d.table j := by
  have hfree {i : ℕ} : (!inUse d.table i) = true ↔ entry d.table i = none := by
    rw [entry]
    cases inUse d.table i <;> simp
  obtain ⟨i, hsome⟩ : ∃ i, ((List.range d.tableSize).find? fun i => !inUse d.table i) = some i := by
    obtain ⟨j, hj, hnone⟩ := hplace
    exact Option.isSome_iff_exists.mp
      (List.find?_isSome.mpr ⟨j, List.mem_range.mpr hj, hfree.mpr hnone⟩)
  have hi := List.mem_range.mp (List.mem_of_find?_eq_some hsome)
  have hnone := hfree.mp (List.find?_some (p := fun i => !inUse d.table i) hsome)
  refine ⟨i, hi, hnone, ?_⟩
  rw [Add, if_neg (not_not.mpr hnew), hsome]
  obtain ⟨hwritten, hothers⟩ := entry_written d.table i fileName (BitVec.ofInt 32 newSector)
  rw [BitVec.toInt_ofInt_eq_self (by decide) hlow hhigh] at hwritten
  exact ⟨_, rfl, rfl, hwritten, hothers⟩

/-- **`Remove`**: the entry with the name is not in use, and the others are as they were. -/
theorem remove_eq (h : d.FindIndex fileName = i) :
    ∃ d', d.Remove fileName = (true, d') ∧ d'.tableSize = d.tableSize
      ∧ entry d'.table i = none ∧ ∀ j ≠ i, entry d'.table j = entry d.table j := by
  have hne : (i : ℤ) ≠ -1 := by omega
  rw [Remove, h, if_neg hne]
  refine ⟨_, rfl, rfl, ?_, fun j hj => ?_⟩
  · rw [Int.toNat_natCast, entry_setInUse_false]
  · rw [Int.toNat_natCast, entry_setInUse_of_ne _ hj]

/-! ### The file of the directory -/

/-- The entries of a directory that is in a file. -/
def entryOn (row : List Byte) (i : ℕ) : Option (List Byte × ℤ) := entry (fun a => row.getD a 0) i

variable {file : OpenFile} {disk : Disk}

theorem entry_lt (hi : i < d.tableSize) {k : ℕ} (hk : k < DirectoryEntrySize) :
    i * DirectoryEntrySize + k < d.tableSize * DirectoryEntrySize := by
  have := Nat.mul_le_mul_right DirectoryEntrySize (Nat.succ_le_of_lt hi)
  rw [Nat.succ_mul] at this
  omega

/-- **`FetchFrom`** has the entries that are in the file. -/
theorem fetchFrom_eq (h : file.hdr.Sound)
    (hlen : file.hdr.length = d.tableSize * DirectoryEntrySize) (disk : Disk) (buf : ℕ → Byte) :
    ∃ d', d.FetchFrom file disk buf = some d' ∧ d'.tableSize = d.tableSize
      ∧ ∀ i < d.tableSize, entry d'.table i = entryOn (file.hdr.content disk) i := by
  rw [FetchFrom, ← hlen, OpenFile.readAt_all h]
  refine ⟨_, rfl, rfl, fun i hi => entry_congr fun k hk => ?_⟩
  have hlt : i * DirectoryEntrySize + k < (file.hdr.content disk).length := by
    rw [FileHeader.length_content, hlen]
    exact entry_lt hi hk
  have hstore : store d.table 0 (file.hdr.content disk) (0 + (i * DirectoryEntrySize + k))
      = (file.hdr.content disk)[i * DirectoryEntrySize + k] := store_add hlt
  rw [Nat.zero_add] at hstore
  dsimp only
  rw [hstore, List.getD_eq_getElem _ _ hlt]

/-- **`WriteBack`** puts the entries into the file. -/
theorem writeBack_eq (file : OpenFile) (h : file.hdr.Sound)
    (hlen : file.hdr.length = d.tableSize * DirectoryEntrySize) (disk : Disk)
    (bufs : ℕ → ℕ → Byte) :
    ∃ disk', d.WriteBack file disk bufs = some disk'
      ∧ (∀ i < d.tableSize, entryOn (file.hdr.content disk') i = entry d.table i)
      ∧ ∀ s ∉ file.hdr.sectors, disk' s = disk s := by
  obtain ⟨disk', hwrite, hcontent, hframe⟩ := OpenFile.writeAt_all h disk bufs d.table
  rw [WriteBack, ← hlen, hwrite]
  refine ⟨disk', rfl, fun i hi => entry_congr fun k hk => ?_, hframe⟩
  have hlt : i * DirectoryEntrySize + k < file.hdr.length := by
    rw [hlen]
    exact entry_lt hi hk
  rw [hcontent, List.getD_eq_getElem?_getD, getElem?_load _ _ hlt, Option.getD_some, Nat.zero_add]

end Directory

end LoadBalancer.NachOS
