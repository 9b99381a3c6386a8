/-
What the file system is for.

A [`Store`] has bytes under names. Names count up to their ninth byte, there are ten places, and a
file takes a sector for every 4096 bytes and one more. [`Session`] is the file system with the files
that its clients have open, and a request of a session is answered as the store answers it, in every
run from a new disk ([`files_refined`]): nothing that a request does to one file is seen in another,
a request that is refused changes nothing, and the files are there after a restart.

Clients open a file before they use it, seek to places that are not negative, do not ask for bytes
behind the largest `int`, and do not remove a file that is open ([`Store.Allows`]); the code checks
none of it.
-/
import Mathlib.Algebra.BigOperators.Group.Finset.Basic
import LoadBalancer.NachOS.FileSystem

set_option autoImplicit false

namespace LoadBalancer.NachOS

open LoadBalancer.Memory LoadBalancer.Blocks
open Function (update update_self update_of_ne)

/-! ## Requests -/

/-- What a client asks for. An open file is known by a number that the client chooses. -/
inductive FileRequest
  | create (name : ℕ → Byte) (initialSize : Word)
  | remove (name : ℕ → Byte)
  | openAs (h : ℕ) (name : ℕ → Byte)
  | close (h : ℕ)
  | seek (h : ℕ) (position : ℤ)
  | read (h : ℕ) (numBytes : ℤ)
  | write (h : ℕ) (data : ℕ → Byte) (numBytes : ℤ)
  | restart

/-- What it is told. -/
inductive FileReply
  | done (success : Bool)
  | bytes (row : List Byte)
  | count (numBytes : ℤ)
deriving DecidableEq, Repr

/-- A disk, the file system, and the files that are open. -/
structure Session where
  disk : Disk
  system : FileSystem
  opened : ℕ → Option OpenFile

namespace Session

/-- **A request.** What the objects and buffers hold when they are made is in `bufs`. -/
def serve (F : MapFormat) (bufs : ℕ → ℕ → Byte) (s : Session) :
    FileRequest → Option (FileReply × Session)
  | .create name initialSize => do
      let (success, disk) ← FileSystem.Create F s.system s.disk bufs name initialSize
      return (.done success, { s with disk := disk })
  | .remove name => do
      let (success, disk) ← FileSystem.Remove F s.system s.disk bufs name
      return (.done success, { s with disk := disk })
  | .openAs h name => do
      let file ← s.system.Open s.disk bufs name
      return (.done file.isSome, { s with opened := update s.opened h file })
  | .close h => some (.done true, { s with opened := update s.opened h none })
  | .seek h position => do
      let file ← s.opened h
      return (.done true, { s with opened := update s.opened h (some (file.Seek position)) })
  | .read h numBytes => do
      let file ← s.opened h
      let (row, file) ← file.Read s.disk (bufs 0) numBytes
      return (.bytes row, { s with opened := update s.opened h (some file) })
  | .write h data numBytes => do
      let file ← s.opened h
      let (numBytes, file, disk) ← file.Write s.disk bufs data numBytes
      return (.count numBytes, { s with disk := disk, opened := update s.opened h (some file) })
  | .restart => do
      let system ← FileSystem.mount s.disk
      return (.done true, { s with system := system, opened := fun _ => none })

/-- A row of requests, and what is answered. -/
def run (F : MapFormat) :
    List (FileRequest × (ℕ → ℕ → Byte)) → Session → Option (List FileReply × Session)
  | [], s => some ([], s)
  | (request, bufs) :: rest, s => do
      let (reply, s) ← s.serve F bufs request
      let (replies, s) ← run F rest s
      return (reply :: replies, s)

end Session

/-! ## The store -/

/-- The bytes under every name, the places and the sectors that are left, and the files that are
open, each with its name and a position in it. -/
structure Store where
  files : List Byte → Option (List Byte)
  places : ℕ
  space : ℕ
  opened : ℕ → Option (List Byte × ℕ)

namespace Store

/-- A store without files. -/
def empty : Store := ⟨fun _ => none, NumDirEntries, 1020, fun _ => none⟩

/-- The name that counts. -/
def key (name : ℕ → Byte) : List Byte := text FileNameMaxLen name

/-- How many sectors a file takes. -/
def cost (length : ℕ) : ℕ := FileHeader.needed length + 1

/-- What the store answers. The bytes of a new file are `fresh`. -/
def serve (fresh : List Byte) (st : Store) : FileRequest → FileReply × Store
  | .create name _ =>
      if st.files (key name) = none ∧ 0 < st.places ∧ cost fresh.length ≤ st.space then
        (.done true,
          { st with
            files := update st.files (key name) (some fresh)
            places := st.places - 1
            space := st.space - cost fresh.length })
      else (.done false, st)
  | .remove name =>
      match st.files (key name) with
      | some row =>
          (.done true,
            { st with
              files := update st.files (key name) none
              places := st.places + 1
              space := st.space + cost row.length })
      | none => (.done false, st)
  | .openAs h name =>
      ((.done (st.files (key name)).isSome),
        { st with opened := update st.opened h ((st.files (key name)).map fun _ => (key name, 0)) })
  | .close h => (.done true, { st with opened := update st.opened h none })
  | .seek h position =>
      (.done true,
        { st with opened := update st.opened h ((st.opened h).map fun f => (f.1, position.toNat)) })
  | .read h numBytes =>
      match st.opened h with
      | none => (.bytes [], st)
      | some (name, position) =>
          let row := (((st.files name).getD []).drop position).take numBytes.toNat
          (.bytes row,
            { st with opened := update st.opened h (some (name, position + row.length)) })
  | .write h data numBytes =>
      match st.opened h with
      | none => (.count 0, st)
      | some (name, position) =>
          let row := (st.files name).getD []
          let written := min numBytes.toNat (row.length - position)
          (.count written,
            { st with
              files := update st.files name
                (some (overwrite row position (load data 0 numBytes.toNat)))
              opened := update st.opened h (some (name, position + written)) })
  | .restart => (.done true, { st with opened := fun _ => none })

/-- **What clients see to.** -/
def Allows (st : Store) : FileRequest → Prop
  | .remove name => ∀ h f, st.opened h = some f → f.1 ≠ key name
  | .seek h position => st.opened h ≠ none ∧ 0 ≤ position
  | .read h numBytes => ∃ f, st.opened h = some f ∧ (f.2 : ℤ) + numBytes < 2147483648
  | .write h _ numBytes => ∃ f, st.opened h = some f ∧ (f.2 : ℤ) + numBytes < 2147483648
  | _ => True

/-- A new file has as many bytes as were asked for. Which ones, nobody promises. -/
def Fresh (fresh : List Byte) : FileRequest → Prop
  | .create _ initialSize => fresh.length = initialSize.toInt.toNat
  | _ => True

/-- Clients see to it all the way, whatever new files have in them. -/
def Safe : Store → List FileRequest → Prop
  | _, [] => True
  | st, request :: rest =>
      st.Allows request ∧ ∀ fresh, Fresh fresh request → (st.serve fresh request).2.Safe rest

/-- The answers to a row of requests, for some bytes of new files. -/
inductive Answers : Store → List FileRequest → List FileReply → Store → Prop
  | nil (st : Store) : Answers st [] [] st
  | cons {st st' : Store} {request : FileRequest} {rest : List FileRequest}
      {replies : List FileReply} {fresh : List Byte} (hfresh : Fresh fresh request)
      (hrest : Answers (st.serve fresh request).2 rest replies st') :
      Answers st (request :: rest) ((st.serve fresh request).1 :: replies) st'

end Store

/-! ## The session shows the store -/

/-- An open file of the store, and the one of the session. -/
def Shown (slots : ℕ → Option File) (o : Option (List Byte × ℕ)) (o' : Option OpenFile) : Prop :=
  o = none ∧ o' = none ∨ ∃ i f position, slots i = some f ∧ o = some (f.name, position)
    ∧ o' = some ⟨f.hdr, (position : ℤ)⟩

/-- **The store that a session has**, with its files in these places of the directory. -/
structure Stores (F : MapFormat) (s : Session) (st : Store) (slots : ℕ → Option File) : Prop where
  laid : Laid F s.disk s.system slots
  files : ∀ {i f}, slots i = some f → st.files f.name = some (f.hdr.content s.disk)
  others : ∀ {name row}, st.files name = some row → ∃ i f, slots i = some f ∧ f.name = name
  places : st.places = ((Finset.range NumDirEntries).filter fun i => slots i = none).card
  space : st.space = (F.freeOn s.system.freeMapFile s.disk).card
  opened : ∀ h, Shown slots (st.opened h) (s.opened h)

section

variable {slots : ℕ → Option File} {a : ℕ → Option (List Byte × ℕ)} {b : ℕ → Option OpenFile}

theorem shown_update (hall : ∀ h, Shown slots (a h) (b h)) (k : ℕ) {x : Option (List Byte × ℕ)}
    {y : Option OpenFile} (hk : Shown slots x y) (h : ℕ) :
    Shown slots (update a k x h) (update b k y h) := by
  by_cases heq : h = k
  · rw [heq, update_self, update_self]
    exact hk
  · rw [update_of_ne heq, update_of_ne heq]
    exact hall h

/-- The file that a client has open. -/
theorem Shown.file {o : Option (List Byte × ℕ)} {o' : Option OpenFile} (h : Shown slots o o')
    {p : List Byte × ℕ} (ho : o = some p) :
    ∃ i f, slots i = some f ∧ p.1 = f.name ∧ o' = some ⟨f.hdr, (p.2 : ℤ)⟩ := by
  obtain ⟨hnone, -⟩ | ⟨i, f, position, hi, hp, ho'⟩ := h
  · rw [ho] at hnone
    cases hnone
  · rw [ho] at hp
    rw [Option.some.inj hp]
    exact ⟨i, f, hi, rfl, ho'⟩

end

namespace Stores

variable {F : MapFormat} {s : Session} {st : Store} {slots : ℕ → Option File} {i : ℕ} {f : File}
  {name : ℕ → Byte}

/-- The places of the directory, when one of them was filled or emptied. -/
theorem card_update_none (hi : i < NumDirEntries) (hf : slots i = some f) :
    ((Finset.range NumDirEntries).filter fun j => update slots i none j = none).card
      = ((Finset.range NumDirEntries).filter fun j => slots j = none).card + 1 := by
  have hset : ((Finset.range NumDirEntries).filter fun j => update slots i none j = none)
      = insert i ((Finset.range NumDirEntries).filter fun j => slots j = none) := by
    ext j
    rw [Finset.mem_insert, Finset.mem_filter, Finset.mem_filter, Finset.mem_range]
    by_cases heq : j = i
    · rw [heq, update_self]
      exact iff_of_true ⟨hi, rfl⟩ (Or.inl rfl)
    · rw [update_of_ne heq]
      exact (or_iff_right heq).symm
  rw [hset, Finset.card_insert_of_notMem]
  rw [Finset.mem_filter, hf]
  exact fun hmem => nomatch hmem.2

theorem card_update_some (hi : i < NumDirEntries) (hnone : slots i = none) (f : File) :
    ((Finset.range NumDirEntries).filter fun j => update slots i (some f) j = none).card
      = ((Finset.range NumDirEntries).filter fun j => slots j = none).card - 1 := by
  have hset : ((Finset.range NumDirEntries).filter fun j => update slots i (some f) j = none)
      = ((Finset.range NumDirEntries).filter fun j => slots j = none).erase i := by
    ext j
    rw [Finset.mem_erase, Finset.mem_filter, Finset.mem_filter]
    by_cases heq : j = i
    · rw [heq, update_self]
      exact iff_of_false (fun hmem => nomatch hmem.2) fun hmem => hmem.1 rfl
    · rw [update_of_ne heq]
      exact (and_iff_right heq).symm
  rw [hset, Finset.card_erase_of_mem]
  exact Finset.mem_filter.mpr ⟨Finset.mem_range.mpr hi, hnone⟩

/-- How many sectors a file has. -/
theorem card_sectors {fs : FileSystem} {free : Finset ℕ} (h : Plan fs slots free)
    (hi : slots i = some f) : f.sectors.toFinset.card = Store.cost f.hdr.length := by
  rw [List.toFinset_card_of_nodup (h.nodup hi), File.sectors, List.length_cons, FileHeader.sectors,
    List.length_map, List.length_range, (h.sound hi).count]
  rfl

/-- A name that the store does not have is not in the directory. -/
theorem not_named (h : Stores F s st slots) {key : List Byte} (hnone : st.files key = none)
    {j : ℕ} {g : File} (hj : slots j = some g) : g.name ≠ key := by
  intro heq
  have := h.files hj
  rw [heq, hnone] at this
  cases this

/-- The bytes of a file that a request does not touch. -/
theorem content_eq (h : Stores F s st slots) {disk : Disk} {j : ℕ} {g : File}
    (hj : slots j = some g) (hsame : ∀ r ∈ g.sectors, disk r = s.disk r) :
    g.hdr.content disk = g.hdr.content s.disk :=
  (h.laid.plan.sound hj).content_congr fun r hr => hsame r (List.mem_cons_of_mem _ hr)

/-! ### One lemma for each request -/

/-- What the store refuses, the file system refuses. -/
theorem create_fails (h : Stores F s st slots) {name : ℕ → Byte} {size : Word}
    (hroom : ¬ (st.files (Store.key name) = none ∧ 0 < st.places
      ∧ Store.cost size.toInt.toNat ≤ st.space)) (bufs : ℕ → ℕ → Byte) :
    FileSystem.Create F s.system s.disk bufs name size = some (false, s.disk) := by
  refine h.laid.create_fails ?_ bufs
  by_cases hnone : st.files (Store.key name) = none
  · by_cases hplaces : 0 < st.places
    · refine Or.inr (Or.inr ?_)
      rw [← h.space]
      exact Nat.lt_of_not_le fun hle => hroom ⟨hnone, hplaces, hle⟩
    · refine Or.inr (Or.inl fun i hi hempty => hplaces ?_)
      rw [h.places]
      exact Finset.card_pos.mpr ⟨i, Finset.mem_filter.mpr ⟨Finset.mem_range.mpr hi, hempty⟩⟩
  · obtain ⟨row, hrow⟩ := Option.ne_none_iff_exists'.mp hnone
    exact Or.inl (h.others hrow)

theorem create (h : Stores F s st slots) (name : ℕ → Byte) (size : Word) (bufs : ℕ → ℕ → Byte) :
    ∃ fresh s' slots', Store.Fresh fresh (.create name size)
      ∧ s.serve F bufs (.create name size) = some ((st.serve fresh (.create name size)).1, s')
      ∧ Stores F s' (st.serve fresh (.create name size)).2 slots' := by
  by_cases hroom : st.files (Store.key name) = none ∧ 0 < st.places
      ∧ Store.cost size.toInt.toNat ≤ st.space
  · obtain ⟨hnone, hplaces, hspace⟩ := hroom
    have hplace : ∃ i < NumDirEntries, slots i = none := by
      rw [h.places] at hplaces
      obtain ⟨i, hi⟩ := Finset.card_pos.mp hplaces
      rw [Finset.mem_filter, Finset.mem_range] at hi
      exact ⟨i, hi⟩
    rw [h.space] at hspace
    obtain ⟨disk', i, f, hcreate, hi, hempty, hname, hlength, hlaid, hwas, hfree, hframe⟩ :=
      h.laid.create_eq name (fun hj => h.not_named hnone hj) hplace hspace bufs
    have hfresh : (f.hdr.content disk').length = size.toInt.toNat := by
      rw [FileHeader.length_content, hlength]
    have hserve : st.serve (f.hdr.content disk') (.create name size)
        = (.done true,
          { st with
            files := update st.files (Store.key name) (some (f.hdr.content disk'))
            places := st.places - 1
            space := st.space - Store.cost (f.hdr.content disk').length }) := by
      rw [Store.serve, if_pos ⟨hnone, hplaces, by rw [hfresh, h.space]; exact hspace⟩]
    refine ⟨f.hdr.content disk', { s with disk := disk' }, update slots i (some f), hfresh, ?_, ?_⟩
    · rw [hserve, Session.serve, hcreate]
      rfl
    · rw [hserve]
      refine ⟨hlaid, fun {j g} hj => ?_, fun {key row} hrow => ?_, ?_, ?_, fun k => ?_⟩
      · obtain ⟨-, heq⟩ | ⟨-, hj⟩ := Plan.slots_update hj
        · rw [← Option.some.inj heq, hname]
          exact update_self _ _ _
        · have hne : g.name ≠ Store.key name := h.not_named hnone hj
          dsimp only
          rw [update_of_ne hne, h.files hj, h.content_eq hj (hframe hj)]
      · by_cases heq : key = Store.key name
        · exact ⟨i, f, update_self _ _ _, hname.trans heq.symm⟩
        · dsimp only at hrow
          rw [update_of_ne heq] at hrow
          obtain ⟨j, g, hj, hg⟩ := h.others hrow
          have hne : j ≠ i := fun hji => by
            rw [hji, hempty] at hj
            cases hj
          exact ⟨j, g, by rwa [update_of_ne hne], hg⟩
      · dsimp only
        rw [card_update_some hi hempty, h.places]
      · have hsub : f.sectors.toFinset ⊆ F.freeOn s.system.freeMapFile s.disk := fun r hr =>
          hwas r (List.mem_toFinset.mp hr)
        dsimp only
        rw [hfree, Finset.card_sdiff_of_subset hsub,
          card_sectors hlaid.plan (update_self i (some f) slots), h.space,
          FileHeader.length_content]
      · obtain hclosed | ⟨j, g, position, hj, hopen⟩ := h.opened k
        · exact Or.inl hclosed
        · have hne : j ≠ i := fun hji => by
            rw [hji, hempty] at hj
            cases hj
          exact Or.inr ⟨j, g, position, by rwa [update_of_ne hne], hopen⟩
  · have hlen : (List.replicate size.toInt.toNat (0 : Byte)).length = size.toInt.toNat :=
      List.length_replicate
    have hserve : st.serve (List.replicate size.toInt.toNat 0) (.create name size)
        = (.done false, st) := by
      rw [Store.serve, if_neg (by rwa [hlen])]
    refine ⟨_, s, slots, hlen, ?_, by rw [hserve]; exact h⟩
    rw [hserve, Session.serve, h.create_fails hroom bufs]
    rfl

theorem remove (h : Stores F s st slots) (hclosed : st.Allows (.remove name))
    (bufs : ℕ → ℕ → Byte) (fresh : List Byte) :
    ∃ s' slots', s.serve F bufs (.remove name) = some ((st.serve fresh (.remove name)).1, s')
      ∧ Stores F s' (st.serve fresh (.remove name)).2 slots' := by
  cases hrow : st.files (Store.key name) with
  | none =>
      have hfails := h.laid.remove_fails name (fun hj => h.not_named hrow hj) bufs
      have hserve : st.serve fresh (.remove name) = (.done false, st) := by
        rw [Store.serve, hrow]
      refine ⟨s, slots, ?_, by rw [hserve]; exact h⟩
      rw [hserve, Session.serve, hfails]
      rfl
  | some row =>
      obtain ⟨i, f, hi, hname⟩ := h.others hrow
      have hplan := h.laid.plan
      obtain ⟨disk', hremove, hlaid, hfree, hframe⟩ := h.laid.remove_eq hi hname bufs
      have hbytes : row = f.hdr.content s.disk := by
        have := h.files hi
        rw [hname, hrow] at this
        exact Option.some.inj this
      have hserve : st.serve fresh (.remove name)
          = (.done true,
            { st with
              files := update st.files (Store.key name) none
              places := st.places + 1
              space := st.space + Store.cost row.length }) := by
        rw [Store.serve, hrow]
      refine ⟨{ s with disk := disk' }, update slots i none, ?_, ?_⟩
      · rw [hserve, Session.serve, hremove]
        rfl
      · rw [hserve]
        refine ⟨hlaid, fun {j g} hj => ?_, fun {key row'} hkey => ?_, ?_, ?_, fun k => ?_⟩
        · obtain ⟨hne, hkept⟩ := Plan.slots_remove hj
          have hother : g.name ≠ Store.key name := fun heq =>
            hne (hplan.names hkept hi (heq.trans hname.symm))
          dsimp only
          rw [update_of_ne hother, h.files hkept,
            h.content_eq hkept fun r hr => hframe r (hplan.apart hkept r hr)]
        · dsimp only at hkey
          by_cases heq : key = Store.key name
          · rw [heq, update_self] at hkey
            cases hkey
          · rw [update_of_ne heq] at hkey
            obtain ⟨j, g, hj, hg⟩ := h.others hkey
            have hne : j ≠ i := by
              rintro rfl
              rw [hi] at hj
              rw [← Option.some.inj hj] at hg
              exact heq (hg.symm.trans hname)
            exact ⟨j, g, by rwa [update_of_ne hne], hg⟩
        · dsimp only
          rw [card_update_none (hplan.inside hi) hi, h.places]
        · have hdisjoint : Disjoint (F.freeOn s.system.freeMapFile s.disk) f.sectors.toFinset :=
            Finset.disjoint_right.mpr fun r hr => hplan.not_mem_free hi (List.mem_toFinset.mp hr)
          dsimp only
          rw [hfree, Finset.card_union_of_disjoint hdisjoint, card_sectors hplan hi, h.space,
            hbytes, FileHeader.length_content]
        · obtain hnone | ⟨j, g, position, hj, hopen⟩ := h.opened k
          · exact Or.inl hnone
          · have hne : j ≠ i := by
              rintro rfl
              rw [hi] at hj
              rw [← Option.some.inj hj] at hopen
              exact hclosed k _ hopen.1 hname
            exact Or.inr ⟨j, g, position, by rwa [update_of_ne hne], hopen⟩

theorem openAs (h : Stores F s st slots) (k : ℕ) (name : ℕ → Byte) (bufs : ℕ → ℕ → Byte)
    (fresh : List Byte) :
    ∃ s', s.serve F bufs (.openAs k name) = some ((st.serve fresh (.openAs k name)).1, s')
      ∧ Stores F s' (st.serve fresh (.openAs k name)).2 slots := by
  cases hrow : st.files (Store.key name) with
  | none =>
      have hopen := h.laid.open_eq_null name (fun hj => h.not_named hrow hj) bufs
      refine ⟨{ s with opened := update s.opened k none }, ?_, ?_⟩
      · rw [Session.serve, hopen, Store.serve, hrow]
        rfl
      · rw [Store.serve, hrow]
        exact ⟨h.laid, h.files, h.others, h.places, h.space,
          shown_update h.opened k (Or.inl ⟨rfl, rfl⟩)⟩
  | some row =>
      obtain ⟨i, f, hi, hname⟩ := h.others hrow
      have hopen := h.laid.open_eq hi hname bufs
      refine ⟨{ s with opened := update s.opened k (some ⟨f.hdr, 0⟩) }, ?_, ?_⟩
      · rw [Session.serve, hopen, Store.serve, hrow]
        rfl
      · rw [Store.serve, hrow]
        refine ⟨h.laid, h.files, h.others, h.places, h.space, shown_update h.opened k ?_⟩
        exact Or.inr ⟨i, f, 0, hi, by rw [hname]; rfl, rfl⟩

theorem seek (h : Stores F s st slots) {k : ℕ} {position : ℤ}
    (hallow : st.Allows (.seek k position)) (bufs : ℕ → ℕ → Byte) (fresh : List Byte) :
    ∃ s', s.serve F bufs (.seek k position) = some ((st.serve fresh (.seek k position)).1, s')
      ∧ Stores F s' (st.serve fresh (.seek k position)).2 slots := by
  obtain ⟨hopen, hpos⟩ := hallow
  obtain ⟨p, hp⟩ := Option.ne_none_iff_exists'.mp hopen
  obtain ⟨i, f, hi, hname, hfile⟩ := (h.opened k).file hp
  refine ⟨{ s with opened := update s.opened k (some ⟨f.hdr, position⟩) }, ?_, ?_⟩
  · rw [Session.serve, hfile]
    rfl
  · rw [Store.serve, hp]
    refine ⟨h.laid, h.files, h.others, h.places, h.space, shown_update h.opened k ?_⟩
    exact Or.inr ⟨i, f, position.toNat, hi, by rw [← hname]; rfl, by rw [Int.toNat_of_nonneg hpos]⟩

theorem read (h : Stores F s st slots) {k : ℕ} {n : ℤ} (hallow : st.Allows (.read k n))
    (bufs : ℕ → ℕ → Byte) (fresh : List Byte) :
    ∃ s', s.serve F bufs (.read k n) = some ((st.serve fresh (.read k n)).1, s')
      ∧ Stores F s' (st.serve fresh (.read k n)).2 slots := by
  obtain ⟨⟨key, position⟩, hp, hint⟩ := hallow
  obtain ⟨i, f, hi, hname, hfile⟩ := (h.opened k).file hp
  dsimp only at hint hname hfile
  obtain ⟨row, hrow⟩ : ∃ row, row = ((f.hdr.content s.disk).drop position).take n.toNat := ⟨_, rfl⟩
  have hread : (OpenFile.mk f.hdr position).ReadAt s.disk (bufs 0) n position = some row := by
    rw [hrow]
    exact OpenFile.readAt_eq (h.laid.plan.sound hi) hint s.disk (bufs 0)
  have hserve : st.serve fresh (.read k n)
      = (.bytes row,
        { st with opened := update st.opened k (some (key, position + row.length)) }) := by
    rw [Store.serve, hp]
    dsimp only
    rw [hname, h.files hi, Option.getD_some, ← hrow]
  refine ⟨⟨s.disk, s.system, update s.opened k (some ⟨f.hdr, (position : ℤ) + row.length⟩)⟩,
    ?_, ?_⟩
  · rw [hserve, Session.serve, hfile]
    simp only [Option.bind_eq_bind, Option.bind_some]
    rw [OpenFile.Read, hread]
    rfl
  · rw [hserve]
    refine ⟨h.laid, h.files, h.others, h.places, h.space, shown_update h.opened k ?_⟩
    exact Or.inr ⟨i, f, position + row.length, hi, by rw [hname], by rw [Int.natCast_add]⟩

theorem write (h : Stores F s st slots) {k : ℕ} {data : ℕ → Byte} {n : ℤ}
    (hallow : st.Allows (.write k data n)) (bufs : ℕ → ℕ → Byte) (fresh : List Byte) :
    ∃ s', s.serve F bufs (.write k data n) = some ((st.serve fresh (.write k data n)).1, s')
      ∧ Stores F s' (st.serve fresh (.write k data n)).2 slots := by
  obtain ⟨⟨key, position⟩, hp, hint⟩ := hallow
  obtain ⟨i, f, hi, hname, hfile⟩ := (h.opened k).file hp
  dsimp only at hint hname hfile
  have hplan := h.laid.plan
  obtain ⟨disk', hwrite, hcontent, hframe⟩ := OpenFile.writeAt_eq
    (f := ⟨f.hdr, position⟩) (hplan.sound hi) hint s.disk bufs data
  dsimp only at hwrite hcontent hframe
  obtain ⟨written, hwritten⟩ : ∃ w, w = min n.toNat (f.hdr.length - position) := ⟨_, rfl⟩
  rw [← hwritten] at hwrite
  have hserve : st.serve fresh (.write k data n)
      = (.count written,
        { st with
          files := update st.files key (some (f.hdr.content disk'))
          opened := update st.opened k (some (key, position + written)) }) := by
    rw [Store.serve, hp]
    dsimp only
    rw [hname, h.files hi, Option.getD_some, FileHeader.length_content, ← hwritten, ← hcontent]
  refine ⟨⟨disk', s.system, update s.opened k (some ⟨f.hdr, (position : ℤ) + written⟩)⟩, ?_, ?_⟩
  · rw [hserve, Session.serve, hfile]
    simp only [Option.bind_eq_bind, Option.bind_some]
    rw [OpenFile.Write, hwrite]
    rfl
  · rw [hserve]
    -- what is written are sectors of this file
    have hres : ∀ r ∈ s.system.reserved, disk' r = s.disk r := fun r hr =>
      hframe r fun hmem => hplan.apart hi r (List.mem_cons_of_mem _ hmem) hr
    have hheader {j : ℕ} {g : File} (hj : slots j = some g) : disk' g.sector = s.disk g.sector := by
      refine hframe _ fun hmem => ?_
      by_cases hji : j = i
      · rw [hji, hi] at hj
        rw [← Option.some.inj hj] at hmem
        exact (List.nodup_cons.mp (hplan.nodup hi)).1 hmem
      · exact hplan.disjoint hj hi hji _ List.mem_cons_self (List.mem_cons_of_mem _ hmem)
    have hfree : F.freeOn s.system.freeMapFile disk' = F.freeOn s.system.freeMapFile s.disk := by
      rw [MapFormat.freeOn, MapFormat.freeOn,
        hplan.mapSound.content_congr fun r hr => hres r (Laid.map_mem_reserved hr)]
    refine ⟨h.laid.frame hres hheader, fun {j g} hj => ?_, fun {key' row'} hkey => ?_, h.places, ?_,
      shown_update h.opened k ?_⟩
    · dsimp only
      by_cases hji : j = i
      · rw [hji, hi] at hj
        rw [← Option.some.inj hj, hname, update_self]
      · have hne : g.name ≠ key := fun heq => hji (hplan.names hj hi (heq.trans hname))
        rw [update_of_ne hne, h.files hj, h.content_eq hj fun r hr => hframe r fun hmem => ?_]
        exact hplan.disjoint hj hi hji r hr (List.mem_cons_of_mem _ hmem)
    · dsimp only at hkey
      by_cases heq : key' = key
      · exact ⟨i, f, hi, hname.symm.trans heq.symm⟩
      · rw [update_of_ne heq] at hkey
        exact h.others hkey
    · dsimp only
      rw [hfree, h.space]
    · exact Or.inr ⟨i, f, position + written, hi, by rw [hname], by rw [Int.natCast_add]⟩

/-- **Every request** that is allowed is answered as the store answers it. -/
theorem serve (h : Stores F s st slots) (request : FileRequest) (hallow : st.Allows request)
    (bufs : ℕ → ℕ → Byte) :
    ∃ fresh s' slots', Store.Fresh fresh request
      ∧ s.serve F bufs request = some ((st.serve fresh request).1, s')
      ∧ Stores F s' (st.serve fresh request).2 slots' := by
  cases request with
  | create name size => exact h.create name size bufs
  | remove name =>
      obtain ⟨s', slots', hserve, h'⟩ := h.remove hallow bufs []
      exact ⟨[], s', slots', trivial, hserve, h'⟩
  | openAs k name =>
      obtain ⟨s', hserve, h'⟩ := h.openAs k name bufs []
      exact ⟨[], s', slots, trivial, hserve, h'⟩
  | close k =>
      refine ⟨[], _, slots, trivial, rfl, h.laid, h.files, h.others, h.places, h.space, ?_⟩
      exact shown_update h.opened k (Or.inl ⟨rfl, rfl⟩)
  | seek k position =>
      obtain ⟨s', hserve, h'⟩ := h.seek hallow bufs []
      exact ⟨[], s', slots, trivial, hserve, h'⟩
  | read k n =>
      obtain ⟨s', hserve, h'⟩ := h.read hallow bufs []
      exact ⟨[], s', slots, trivial, hserve, h'⟩
  | write k data n =>
      obtain ⟨s', hserve, h'⟩ := h.write hallow bufs []
      exact ⟨[], s', slots, trivial, hserve, h'⟩
  | restart =>
      refine ⟨[], { s with opened := fun _ => none }, slots, trivial, ?_, h.laid, h.files, h.others,
        h.places, h.space, fun _ => Or.inl ⟨rfl, rfl⟩⟩
      rw [Session.serve, h.laid.mounted]
      rfl

/-- **Every run.** -/
theorem run {requests : List (FileRequest × (ℕ → ℕ → Byte))} (h : Stores F s st slots)
    (hsafe : st.Safe (requests.map Prod.fst)) :
    ∃ replies s' st' slots', Session.run F requests s = some (replies, s')
      ∧ st.Answers (requests.map Prod.fst) replies st' ∧ Stores F s' st' slots' := by
  induction requests generalizing s st slots with
  | nil => exact ⟨[], s, st, slots, rfl, .nil st, h⟩
  | cons request rest ih =>
      obtain ⟨request, bufs⟩ := request
      obtain ⟨hallow, hlater⟩ := hsafe
      obtain ⟨fresh, s₁, slots₁, hfresh, hserve, h₁⟩ := h.serve request hallow bufs
      obtain ⟨replies, s', st', slots', hrun, hanswers, h'⟩ := ih h₁ (hlater fresh hfresh)
      refine ⟨_, s', st', slots', ?_, .cons hfresh hanswers, h'⟩
      rw [Session.run, hserve]
      simp only [Option.bind_eq_bind, Option.bind_some]
      rw [hrun]
      rfl

end Stores

/-! ## Runs from a new disk -/

/-- How many sectors the files have. -/
def costs (slots : ℕ → Option File) : ℕ :=
  ∑ i ∈ Finset.range NumDirEntries, (slots i).elim 0 fun f => Store.cost f.hdr.length

/-- The two headers have a sector each, and the map and the directory one each. -/
theorem Plan.card_reserved {fs : FileSystem} {slots : ℕ → Option File} {free : Finset ℕ}
    (h : Plan fs slots free) : fs.reserved.toFinset.card = 4 := by
  have hmap : fs.freeMapFile.hdr.count = 1 := by
    rw [h.mapSound.count, h.mapLength]
    rfl
  have hdir : fs.directoryFile.hdr.count = 1 := by
    rw [h.dirSound.count, h.dirLength]
    rfl
  rw [List.toFinset_card_of_nodup h.reservedNodup, FileSystem.reserved, List.length_cons,
    List.length_cons, List.length_append, FileHeader.sectors, FileHeader.sectors, List.length_map,
    List.length_map, List.length_range, List.length_range, hmap, hdir]

theorem Plan.reserved_lt {fs : FileSystem} {slots : ℕ → Option File} {free : Finset ℕ} {s : ℕ}
    (h : Plan fs slots free) (hs : s ∈ fs.reserved) : s < NumSectors := by
  rcases List.mem_cons.mp hs with rfl | hs
  · decide
  rcases List.mem_cons.mp hs with rfl | hs
  · decide
  rcases List.mem_append.mp hs with hs | hs
  · exact h.mapSound.onDisk s hs
  · exact h.dirSound.onDisk s hs

/-- **Every sector is free, or reserved, or that of one file.** -/
theorem Plan.card {fs : FileSystem} {slots : ℕ → Option File} {free : Finset ℕ}
    (h : Plan fs slots free) : free.card + costs slots = 1020 := by
  -- the sectors of the file in place `i` of the directory
  obtain ⟨own, hown⟩ : ∃ own : ℕ → Finset ℕ,
      ∀ i, own i = (slots i).elim ∅ fun f => f.sectors.toFinset := ⟨_, fun _ => rfl⟩
  have mem_own {i n : ℕ} : n ∈ own i ↔ ∃ f, slots i = some f ∧ n ∈ f.sectors := by
    rw [hown]
    cases slots i with
    | none => exact iff_of_false (Finset.notMem_empty n) fun ⟨_, hf, _⟩ => nomatch hf
    | some f =>
        rw [Option.elim_some, List.mem_toFinset]
        exact ⟨fun hn => ⟨f, rfl, hn⟩, fun ⟨g, hg, hn⟩ => Option.some.inj hg ▸ hn⟩
  have hcosts : ((Finset.range NumDirEntries).biUnion own).card = costs slots := by
    rw [Finset.card_biUnion]
    · refine Finset.sum_congr rfl fun i _ => ?_
      rw [hown]
      cases hi : slots i with
      | none => rfl
      | some f => exact Stores.card_sectors h hi
    · intro i _ j _ hne
      refine Finset.disjoint_left.mpr fun n hn hn' => ?_
      obtain ⟨f, hi, hf⟩ := mem_own.mp hn
      obtain ⟨g, hj, hg⟩ := mem_own.mp hn'
      exact h.disjoint hi hj hne n hf hg
  have hall : Finset.range NumSectors
      = free ∪ (fs.reserved.toFinset ∪ (Finset.range NumDirEntries).biUnion own) := by
    ext n
    rw [Finset.mem_union, Finset.mem_union, Finset.mem_range, List.mem_toFinset, Finset.mem_biUnion,
      h.mem_free]
    constructor
    · intro hn
      by_cases hres : n ∈ fs.reserved
      · exact Or.inr (Or.inl hres)
      · by_cases hfile : ∃ i f, slots i = some f ∧ n ∈ f.sectors
        · obtain ⟨i, f, hi, hf⟩ := hfile
          exact Or.inr (Or.inr ⟨i, Finset.mem_range.mpr (h.inside hi), mem_own.mpr ⟨f, hi, hf⟩⟩)
        · exact Or.inl ⟨hn, hres, fun i f hi hf => hfile ⟨i, f, hi, hf⟩⟩
    · rintro (⟨hn, -, -⟩ | hres | ⟨i, -, hmem⟩)
      · exact hn
      · exact h.reserved_lt hres
      · obtain ⟨f, hi, hf⟩ := mem_own.mp hmem
        rcases List.mem_cons.mp hf with rfl | hf
        · exact h.onDisk hi
        · exact (h.sound hi).onDisk n hf
  have hcard := congrArg Finset.card hall
  have hleft : Disjoint fs.reserved.toFinset ((Finset.range NumDirEntries).biUnion own) := by
    refine Finset.disjoint_left.mpr fun n hres hmem => ?_
    obtain ⟨i, -, hi⟩ := Finset.mem_biUnion.mp hmem
    obtain ⟨f, hf, hn⟩ := mem_own.mp hi
    exact h.apart hf n hn (List.mem_toFinset.mp hres)
  have hfree : Disjoint free
      (fs.reserved.toFinset ∪ (Finset.range NumDirEntries).biUnion own) := by
    refine Finset.disjoint_left.mpr fun n hn hmem => ?_
    obtain ⟨-, hres, hfiles⟩ := (h.mem_free n).mp hn
    rcases Finset.mem_union.mp hmem with hmem | hmem
    · exact hres (List.mem_toFinset.mp hmem)
    · obtain ⟨i, -, hi⟩ := Finset.mem_biUnion.mp hmem
      obtain ⟨f, hf, hn⟩ := mem_own.mp hi
      exact hfiles i f hf hn
  rw [Finset.card_range, Finset.card_union_of_disjoint hfree, Finset.card_union_of_disjoint hleft,
    h.card_reserved, hcosts] at hcard
  have hvalue : NumSectors = 1024 := rfl
  omega

/-- A new disk is an empty store. -/
theorem stores_format (F : MapFormat) (disk : Disk) (bufs : ℕ → ℕ → Byte) :
    ∃ fs disk', FileSystem.format F disk bufs = some (fs, disk')
      ∧ Stores F ⟨disk', fs, fun _ => none⟩ Store.empty fun _ => none := by
  obtain ⟨fs, disk', hformat, hlaid, hcard⟩ := format_laid F disk bufs
  refine ⟨fs, disk', hformat, hlaid, (fun hi => nomatch hi), (fun hrow => nomatch hrow), ?_, ?_,
    fun _ => Or.inl ⟨rfl, rfl⟩⟩
  · rw [Finset.filter_true_of_mem fun _ _ => rfl, Finset.card_range]
    rfl
  · exact hcard.symm

/-- **The file system is a store.** A disk can be formatted, whatever was on it, and then no run of
requests that clients may make fails an `ASSERT`, and every answer is that of the store. `Create`
and `Remove` write the map and the directory back at the end, so that a request that is refused
leaves the disk as it was. -/
theorem files_refined (F : MapFormat) (disk : Disk) (bufs : ℕ → ℕ → Byte)
    {requests : List (FileRequest × (ℕ → ℕ → Byte))}
    (hsafe : Store.empty.Safe (requests.map Prod.fst)) :
    ∃ fs disk', FileSystem.format F disk bufs = some (fs, disk')
      ∧ ∃ replies s' st', Session.run F requests ⟨disk', fs, fun _ => none⟩ = some (replies, s')
        ∧ Store.empty.Answers (requests.map Prod.fst) replies st' := by
  obtain ⟨fs, disk', hformat, hstores⟩ := stores_format F disk bufs
  obtain ⟨replies, s', st', -, hrun, hanswers, -⟩ := hstores.run hsafe
  exact ⟨fs, disk', hformat, replies, s', st', hrun, hanswers⟩

/-- **No sector is lost, and none belongs to two.** After every such run the disk is laid out for
the files that there are: what is neither reserved nor a file's is free, and the map says so. A
sector is taken from the map for one file, and given back with it. -/
theorem sectors_accounted (F : MapFormat) (disk : Disk) (bufs : ℕ → ℕ → Byte)
    {requests : List (FileRequest × (ℕ → ℕ → Byte))}
    (hsafe : Store.empty.Safe (requests.map Prod.fst)) :
    ∃ fs disk', FileSystem.format F disk bufs = some (fs, disk')
      ∧ ∃ replies s' slots,
        Session.run F requests ⟨disk', fs, fun _ => none⟩ = some (replies, s')
          ∧ Laid F s'.disk s'.system slots
          ∧ (F.freeOn s'.system.freeMapFile s'.disk).card + costs slots = 1020 := by
  obtain ⟨fs, disk', hformat, hstores⟩ := stores_format F disk bufs
  obtain ⟨replies, s', st', slots, hrun, -, hlater⟩ := hstores.run hsafe
  exact ⟨fs, disk', hformat, replies, s', slots, hrun, hlater.laid, hlater.laid.plan.card⟩

/-! ### An example -/

/-- The words of a map, one behind the other. -/
def MapFormat.ofWords : MapFormat where
  bytes b i := (b.map (i / 4) >>> (8 * (i % 4))).setWidth 8
  ofBytes mem := ⟨fun k => fetch .word mem (4 * k)⟩
  bit_ofBytes b mem h n hn := by
    have hword : fetch .word mem (4 * (n / BitsInWord)) = b.map (n / BitsInWord) := by
      refine fetch_word fun j hj => ?_
      have hlt : 4 * (n / BitsInWord) + j < FreeMapFileSize := by
        unfold FreeMapFileSize BitsInWord NumSectors at *
        omega
      rw [h _ hlt, Nat.mul_add_div (by decide), Nat.div_eq_of_lt hj, Nat.add_zero,
        Nat.mul_add_mod, Nat.mod_eq_of_lt hj]
    rw [BitMap.bit, BitMap.bit]
    dsimp only
    rw [hword]

/-- A name of one letter. -/
def letter (c : Byte) (i : ℕ) : Byte := if i = 0 then c else 0

/-- A client that makes the files `a` and `b`, writes two bytes into the first of them, goes back and
reads, removes the other one, and reads the first one again after a restart. -/
def twoFiles : List FileRequest :=
  [.create (letter 97) 3, .create (letter 98) 2, .openAs 0 (letter 97), .write 0 (fun _ => 120) 2,
    .seek 0 1, .read 0 2, .remove (letter 98), .restart, .openAs 1 (letter 97), .read 1 3]

theorem twoFiles_safe : Store.empty.Safe twoFiles := by
  have hne : Store.key (letter 97) ≠ Store.key (letter 98) := by decide
  refine ⟨trivial, fun first hfirst => ?_⟩
  have hlen : first.length = 3 := hfirst
  rw [Store.serve, if_pos ⟨rfl, by decide, by rw [hlen]; decide⟩]
  refine ⟨trivial, fun second hsecond => ?_⟩
  have hlen' : second.length = 2 := hsecond
  have hplaces : 0 < NumDirEntries - 1 := by decide
  have hspace : Store.cost 2 ≤ 1020 - Store.cost 3 := by decide
  have hfree : update Store.empty.files (Store.key (letter 97)) (some first)
      (Store.key (letter 98)) = none := update_of_ne hne.symm ..
  rw [Store.serve, if_pos ⟨hfree, hplaces, by rw [hlen, hlen']; exact hspace⟩]
  simp only [Store.Safe, Store.Allows, Store.serve]
  generalize Store.key (letter 97) = a, Store.key (letter 98) = b at hne ⊢
  -- no file is open but the first one
  have honly (h : ℕ) (name : List Byte) (position : ℕ)
      (hopen : update (fun _ => none : ℕ → Option (List Byte × ℕ)) 0 (some (a, 3)) h
        = some (name, position)) : ¬ name = b := by
    by_cases hh : h = 0
    · rw [hh, update_self] at hopen
      exact (Prod.mk.inj (Option.some.inj hopen)).1 ▸ hne
    · rw [update_of_ne hh] at hopen
      cases hopen
  simpa [hne, hne.symm, Store.empty, Store.Fresh, hlen] using honly

/-- A row of requests, all of which find the same buffers. -/
def withBuffers (requests : List FileRequest) : List (FileRequest × (ℕ → ℕ → Byte)) :=
  requests.map fun request => (request, fun _ _ => 7)

theorem files_refined_twoFiles :
    Store.empty.Safe twoFiles
      ∧ ∃ fs disk', FileSystem.format MapFormat.ofWords (fun _ _ => 1) (fun _ _ => 2)
          = some (fs, disk')
        ∧ ∃ replies s' st',
          Session.run MapFormat.ofWords (withBuffers twoFiles) ⟨disk', fs, fun _ => none⟩
              = some (replies, s')
            ∧ Store.empty.Answers twoFiles replies st' := by
  have hsafe : Store.empty.Safe ((withBuffers twoFiles).map Prod.fst) := twoFiles_safe
  exact ⟨twoFiles_safe, files_refined MapFormat.ofWords (fun _ _ => 1) (fun _ _ => 2) hsafe⟩

theorem sectors_accounted_twoFiles :
    Store.empty.Safe twoFiles
      ∧ ∃ fs disk', FileSystem.format MapFormat.ofWords (fun _ _ => 1) (fun _ _ => 2)
          = some (fs, disk')
        ∧ ∃ replies s' slots,
          Session.run MapFormat.ofWords (withBuffers twoFiles) ⟨disk', fs, fun _ => none⟩
              = some (replies, s')
            ∧ Laid MapFormat.ofWords s'.disk s'.system slots
            ∧ (MapFormat.ofWords.freeOn s'.system.freeMapFile s'.disk).card + costs slots = 1020 := by
  have hsafe : Store.empty.Safe ((withBuffers twoFiles).map Prod.fst) := twoFiles_safe
  exact ⟨twoFiles_safe, sectors_accounted MapFormat.ofWords (fun _ _ => 1) (fun _ _ => 2) hsafe⟩

end LoadBalancer.NachOS
