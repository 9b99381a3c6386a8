/-
`OpenFilesTable` of `openfiletable.cc`, under the system calls `Open`, `Socket` and `Close`.

The table is to be a map from the handles of a user program to Unix descriptors. Its one counter,
`usage`, says where the next descriptor goes and how many users there are: `Socket` raises it by
one, `Open` by two (`addThread`), and `Close` lowers it, whichever handle is closed, and leaves
the entry of that handle and its bit as they are.

So the table is a map only as long as nothing is closed ([`refines_iff`]), a new handle collides
with an open one exactly when `usage` is the number of one ([`kept_iff`]), and the entries run out
when the calls made so far have raised `usage` too far, however few handles are open
([`indices_inside_iff`]). What the host answers is registered whatever it is, its `-1` as well
([`failsCleanly_iff`]).
-/
import Mathlib.Algebra.Ring.Int.Defs
import LoadBalancer.Lib.Transition
import LoadBalancer.NachOS.BitMap

set_option autoImplicit false

namespace LoadBalancer.NachOS

open LoadBalancer.Transition

/-! ## The table -/

/-- `fileLimit`. -/
def fileLimit : ℕ := 32

/-- `OpenFilesTable`: `openFiles[i]` for the `fileLimit` entries that there are. -/
structure OpenFilesTable where
  openFiles : ℕ → ℤ
  openFilesMap : BitMap fileLimit
  usage : ℤ

namespace OpenFilesTable

/-- The index is one of the array and of the map. -/
abbrev Inside (i : ℤ) : Prop := BitMap.Admits fileLimit i

/-- `Open`: the table afterwards and the handle. -/
def Open (UnixHandle : ℤ) (t : OpenFilesTable) : Option (OpenFilesTable × ℤ) :=
  -- `openFiles[usage]` is written before `Mark` has looked at the index
  if Inside t.usage then
    (t.openFilesMap.Mark t.usage).map fun openFilesMap =>
      ({ openFiles := Function.update t.openFiles t.usage.toNat UnixHandle
         openFilesMap := openFilesMap
         usage := t.usage + 1 }, t.usage)
  else none

theorem Open_eq (UnixHandle : ℤ) (t : OpenFilesTable) :
    t.Open UnixHandle
      = if Inside t.usage then
          some ({ openFiles := Function.update t.openFiles t.usage.toNat UnixHandle
                  openFilesMap := t.openFilesMap.mark t.usage.toNat
                  usage := t.usage + 1 }, t.usage)
        else none := by
  unfold Open BitMap.Mark
  split_ifs <;> rfl

/-- `isOpened`. -/
def isOpened (t : OpenFilesTable) (NachosHandle : ℤ) : Option Bool := t.openFilesMap.Test NachosHandle

/-- `getUnixHandle`. -/
def getUnixHandle (t : OpenFilesTable) (NachosHandle : ℤ) : Option ℤ :=
  if Inside NachosHandle then some (t.openFiles NachosHandle.toNat) else none

/-- An entry that is written, and the others. -/
theorem getUnixHandle_update {t t' : OpenFilesTable} {i unixFD : ℤ} (hi : Inside i)
    (h : t'.openFiles = Function.update t.openFiles i.toNat unixFD) (handle : ℤ) :
    t'.getUnixHandle handle = if handle = i then some unixFD else t.getUnixHandle handle := by
  unfold getUnixHandle
  rw [h]
  by_cases heq : handle = i
  · rw [if_pos (heq ▸ hi), if_pos heq, heq, Function.update_self]
  · rw [if_neg heq]
    split_ifs with hh
    · have hne : handle.toNat ≠ i.toNat := by
        have := hh.1
        have := hi.1
        omega
      rw [Function.update_of_ne hne]
    · rfl

/-- `addThread`. -/
def addThread (t : OpenFilesTable) : OpenFilesTable := { t with usage := t.usage + 1 }

/-- `delThread`. -/
def delThread (t : OpenFilesTable) : OpenFilesTable :=
  if t.usage - 1 = 0 then
    { openFiles := fun i => if i < fileLimit then 0 else t.openFiles i
      openFilesMap := (List.range fileLimit).foldl BitMap.clear t.openFilesMap
      usage := t.usage - 1 }
  else { t with usage := t.usage - 1 }

/-- A table right after its construction: `Open(-1)` for input, output and errors, over an array
that holds anything. -/
def initial (memory : ℕ → ℤ) : OpenFilesTable where
  openFiles := Function.update (Function.update (Function.update memory 0 (-1)) 1 (-1)) 2 (-1)
  openFilesMap := ((BitMap.initial.mark 0).mark 1).mark 2
  usage := 3

theorem initial_eq (memory : ℕ → ℤ) :
    ((Open (-1) ⟨memory, .initial, 0⟩).bind fun (t, _) =>
      (t.Open (-1)).bind fun (t, _) => (t.Open (-1)).map Prod.fst) = some (initial memory) :=
  rfl

/-! ## The system calls -/

/-- `NachOS_Open`, with what the host's `open` returns: the table and register 2 afterwards. -/
def NachOS_Open (unixFD : ℤ) (t : OpenFilesTable) : Option (OpenFilesTable × ℤ) :=
  (t.Open unixFD).map fun (t, nachosFD) => (t.addThread, nachosFD)

def AF_INET_NachOS : ℤ := 0

def AF_INET6_NachOS : ℤ := 1

def SOCK_STREAM_NachOS : ℤ := 0

def SOCK_DGRAM_NachOS : ℤ := 1

/-- `NachOS_Socket`, with what the host's `socket` returns. -/
def NachOS_Socket (family socketType socketFD : ℤ) (t : OpenFilesTable) :
    Option (OpenFilesTable × ℤ) :=
  if socketType ≠ SOCK_STREAM_NachOS ∧ socketType ≠ SOCK_DGRAM_NachOS then some (t, -1)
  else if family ≠ AF_INET_NachOS ∧ family ≠ AF_INET6_NachOS then some (t, -1)
  else t.Open socketFD

/-- `NachOS_Close`: the table afterwards and the descriptor that is closed. -/
def NachOS_Close (nachosID : ℤ) (t : OpenFilesTable) : Option (OpenFilesTable × ℤ) :=
  (t.getUnixHandle nachosID).map fun unixID => (t.delThread, unixID)

/-! ## A user program -/

/-- A system call, with what the host answers to it. -/
inductive Call
  | Open (unixFD : ℤ)
  | Socket (family socketType socketFD : ℤ)
  | Close (handle : ℤ)
deriving DecidableEq, Repr

/-- The table and the program that uses it: the handles that it has open, each with the Unix
descriptor that the host gave for it. -/
structure Program where
  table : OpenFilesTable
  held : List (ℤ × ℤ)

/-- A program before its first call. -/
def Program.initial (memory : ℕ → ℤ) : Program := ⟨.initial memory, []⟩

/-- The handles that the program has open. -/
def Program.handles (s : Program) : List ℤ := s.held.map Prod.fst

/-- What the program has open after a call that returned `handle`: the call is successful if it
returns a handle and the host gave a descriptor for it. -/
def Program.obtain (s : Program) (handle unixFD : ℤ) : List (ℤ × ℤ) :=
  if 0 ≤ handle ∧ 0 ≤ unixFD then s.held ++ [(handle, unixFD)] else s.held

/-- One system call. -/
def step (s : Program) : Call → Option Program
  | .Open unixFD =>
      (NachOS_Open unixFD s.table).map fun (t, handle) => ⟨t, s.obtain handle unixFD⟩
  | .Socket family socketType socketFD =>
      (NachOS_Socket family socketType socketFD s.table).map fun (t, handle) =>
        ⟨t, s.obtain handle socketFD⟩
  | .Close handle =>
      (NachOS_Close handle s.table).map fun (t, _) =>
        ⟨t, s.held.filter fun p => p.1 ≠ handle⟩

/-- The indices that a call uses into `openFiles` and `openFilesMap`. -/
def indices (s : Program) : Call → List ℤ
  | .Open _ => [s.table.usage]
  | .Socket family socketType _ =>
      if socketType ≠ SOCK_STREAM_NachOS ∧ socketType ≠ SOCK_DGRAM_NachOS then []
      else if family ≠ AF_INET_NachOS ∧ family ≠ AF_INET6_NachOS then []
      else [s.table.usage]
  | .Close handle => [handle]

/-- The program closes only handles that it has open. -/
def ClosesOwn (s : Program) : Call → Prop
  | .Close handle => handle ∈ s.handles
  | _ => True

instance (s : Program) (a : Call) : Decidable (ClosesOwn s a) :=
  match a with
  | .Close handle => inferInstanceAs (Decidable (handle ∈ s.handles))
  | .Open _ => isTrue trivial
  | .Socket _ _ _ => isTrue trivial

/-! ## What a call does -/

/-- What a call is to the table. -/
inductive Effect
  /-- A descriptor is registered, and `usage` goes up by `bump`. -/
  | registers (unixFD bump : ℤ)
  | nothing
  | releases (handle : ℤ)

/-- `Open` raises `usage` by two, `Socket` by one. -/
def Call.effect : Call → Effect
  | .Open unixFD => .registers unixFD 2
  | .Socket family socketType socketFD =>
      if socketType ≠ SOCK_STREAM_NachOS ∧ socketType ≠ SOCK_DGRAM_NachOS then .nothing
      else if family ≠ AF_INET_NachOS ∧ family ≠ AF_INET6_NachOS then .nothing
      else .registers socketFD 1
  | .Close handle => .releases handle

/-- A descriptor at `usage`. -/
def Program.register (s : Program) (unixFD bump : ℤ) : Program where
  table :=
    { openFiles := Function.update s.table.openFiles s.table.usage.toNat unixFD
      openFilesMap := s.table.openFilesMap.mark s.table.usage.toNat
      usage := s.table.usage + bump }
  held := s.obtain s.table.usage unixFD

/-- A handle given up. -/
def Program.release (s : Program) (handle : ℤ) : Program where
  table := s.table.delThread
  held := s.held.filter fun p => p.1 ≠ handle

/-- **What a call does**, by its effect. -/
theorem step_eq (s : Program) (a : Call) :
    step s a = match a.effect with
      | .registers unixFD bump =>
          if Inside s.table.usage then some (s.register unixFD bump) else none
      | .nothing => some s
      | .releases handle => if Inside handle then some (s.release handle) else none := by
  cases a with
  | Open unixFD =>
      have htwo : s.table.usage + 1 + 1 = s.table.usage + 2 := by omega
      by_cases hin : Inside s.table.usage
      · simp only [step, NachOS_Open, Open_eq, if_pos hin, Option.map_some, addThread, htwo,
          Call.effect, Program.register]
      · simp only [step, NachOS_Open, Open_eq, if_neg hin, Option.map_none, Call.effect]
  | Socket family socketType socketFD =>
      unfold step NachOS_Socket Call.effect
      dsimp only
      by_cases htype : socketType ≠ SOCK_STREAM_NachOS ∧ socketType ≠ SOCK_DGRAM_NachOS
      · rw [if_pos htype, if_pos htype]
        rfl
      · rw [if_neg htype, if_neg htype]
        by_cases hfamily : family ≠ AF_INET_NachOS ∧ family ≠ AF_INET6_NachOS
        · rw [if_pos hfamily, if_pos hfamily]
          rfl
        · rw [if_neg hfamily, if_neg hfamily, Open_eq]
          split_ifs <;> rfl
  | Close handle =>
      unfold step NachOS_Close getUnixHandle Call.effect
      dsimp only
      split_ifs <;> rfl

/-- The indices of a call, by its effect. -/
theorem indices_eq (s : Program) (a : Call) :
    indices s a = match a.effect with
      | .registers _ _ => [s.table.usage]
      | .nothing => []
      | .releases handle => [handle] := by
  cases a with
  | Open unixFD => rfl
  | Socket family socketType socketFD =>
      unfold indices Call.effect
      dsimp only
      split_ifs <;> rfl
  | Close handle => rfl

theorem bump_of_registers {a : Call} {unixFD bump : ℤ} (h : a.effect = .registers unixFD bump) :
    1 ≤ bump := by
  cases a with
  | Open fd =>
      cases h
      decide
  | Socket family socketType socketFD =>
      unfold Call.effect at h
      dsimp only at h
      split_ifs at h
      cases h
      decide
  | Close handle => cases h

theorem closesOwn_of_releases {s : Program} {a : Call} {handle : ℤ}
    (h : a.effect = .releases handle) (hok : ClosesOwn s a) : handle ∈ s.handles := by
  cases a with
  | Open fd => cases h
  | Socket family socketType socketFD =>
      unfold Call.effect at h
      dsimp only at h
      split_ifs at h
  | Close handle' =>
      cases h
      exact hok

@[simp] theorem delThread_usage (t : OpenFilesTable) : t.delThread.usage = t.usage - 1 := by
  unfold delThread
  split_ifs <;> rfl

/-- With other users left, a `Close` changes `usage` only. -/
theorem delThread_of_ne {t : OpenFilesTable} (h : t.usage - 1 ≠ 0) :
    t.delThread = { t with usage := t.usage - 1 } := if_neg h

/-- The `Close` that leaves `usage` at zero empties the table. -/
theorem getUnixHandle_delThread {t : OpenFilesTable} {handle unixFD : ℤ} (h : t.usage = 1)
    (hentry : t.delThread.getUnixHandle handle = some unixFD) : Inside handle ∧ unixFD = 0 := by
  unfold getUnixHandle at hentry
  split_ifs at hentry with hin
  have hzero : t.usage - 1 = 0 := by omega
  have hlt : handle.toNat < fileLimit := by
    have := hin.1
    have := hin.2
    omega
  unfold delThread at hentry
  rw [if_pos hzero] at hentry
  dsimp only at hentry
  rw [if_pos hlt] at hentry
  exact ⟨hin, (Option.some.inj hentry).symm⟩

/-- What is open after a call that registers a descriptor. -/
theorem mem_obtain {s : Program} {handle unixFD : ℤ} {p : ℤ × ℤ} (h : p ∈ s.obtain handle unixFD) :
    p ∈ s.held ∨ (p = (handle, unixFD) ∧ 0 ≤ unixFD) := by
  unfold Program.obtain at h
  split_ifs at h with hsuc
  · rcases List.mem_append.mp h with h | h
    · exact .inl h
    · exact .inr ⟨List.mem_singleton.mp h, hsuc.2⟩
  · exact .inl h

theorem length_obtain_le (s : Program) (handle unixFD : ℤ) :
    (s.obtain handle unixFD).length ≤ s.held.length + 1 := by
  unfold Program.obtain
  split_ifs
  · rw [List.length_append, List.length_singleton]
  · omega

/-- A handle given up is one less. -/
theorem length_release_lt {s : Program} {handle : ℤ} (h : handle ∈ s.handles) :
    (s.release handle).held.length < s.held.length := by
  obtain ⟨p, hp, rfl⟩ := List.mem_map.mp h
  unfold Program.release
  exact List.length_filter_lt_length_iff_exists.mpr ⟨p, hp, by simp⟩

/-- **`usage` stays above the handles that are open**: the three at the start, one or two for each
call that opens one, and one back for each that is closed. The handles are entries of the table,
and their descriptors the host's. -/
structure Counted (s : Program) : Prop where
  low : 3 + (s.held.length : ℤ) ≤ s.table.usage
  inside : ∀ p ∈ s.held, Inside p.1
  given : ∀ p ∈ s.held, 0 ≤ p.2

theorem Counted.initial (memory : ℕ → ℤ) : Counted (.initial memory) where
  low := le_refl _
  inside _ hp := absurd hp List.not_mem_nil
  given _ hp := absurd hp List.not_mem_nil

theorem Counted.step {s s' : Program} {a : Call} (h : Counted s) (hok : ClosesOwn s a)
    (hstep : OpenFilesTable.step s a = some s') : Counted s' := by
  rw [step_eq] at hstep
  cases heff : a.effect with
  | registers unixFD bump =>
      rw [heff] at hstep
      dsimp only at hstep
      split_ifs at hstep with hin
      cases hstep
      have hbump := bump_of_registers heff
      have hlen := length_obtain_le s s.table.usage unixFD
      refine ⟨?_, fun p hp => ?_, fun p hp => ?_⟩
      · have := h.low
        simp only [Program.register]
        omega
      · rcases mem_obtain hp with hp | ⟨rfl, -⟩
        · exact h.inside p hp
        · exact hin
      · rcases mem_obtain hp with hp | ⟨rfl, hfd⟩
        · exact h.given p hp
        · exact hfd
  | nothing =>
      rw [heff] at hstep
      cases hstep
      exact h
  | releases handle =>
      rw [heff] at hstep
      dsimp only at hstep
      split_ifs at hstep with hin
      cases hstep
      have hlen := length_release_lt (closesOwn_of_releases heff hok)
      refine ⟨?_, fun p hp => h.inside p (List.mem_of_mem_filter hp),
        fun p hp => h.given p (List.mem_of_mem_filter hp)⟩
      have := h.low
      simp only [Program.release, delThread_usage] at hlen ⊢
      omega

/-! ## The indices -/

/-- What a call does to `usage`. -/
def Call.bump (a : Call) : ℤ :=
  match a.effect with
  | .registers _ bump => bump
  | .nothing => 0
  | .releases _ => -1

/-- What calls do to `usage` together: two for every `Open`, one for every `Socket` that is not
refused, and one back for every `Close`. -/
def rise (as : List Call) : ℤ := (as.map Call.bump).sum

/-- A call that registers a descriptor comes while the calls before it have left an entry. -/
def RoomFor (before : List Call) (a : Call) : Prop :=
  match a.effect with
  | .registers _ _ => rise before ≤ 28
  | _ => True

instance (before : List Call) (a : Call) : Decidable (RoomFor before a) :=
  match h : a.effect with
  | .registers _ _ => decidable_of_iff (rise before ≤ 28) (by rw [RoomFor, h])
  | .nothing => isTrue (by rw [RoomFor, h]; trivial)
  | .releases _ => isTrue (by rw [RoomFor, h]; trivial)

theorem rise_concat (as : List Call) (a : Call) : rise (as ++ [a]) = rise as + a.bump := by
  rw [rise, List.map_append, List.sum_append, List.map_singleton, List.sum_singleton, rise]

theorem usage_step {s s' : Program} {a : Call} (h : step s a = some s') :
    s'.table.usage = s.table.usage + a.bump := by
  rw [step_eq] at h
  unfold Call.bump
  cases heff : a.effect with
  | registers unixFD bump =>
      rw [heff] at h
      dsimp only at h
      split_ifs at h
      cases h
      rfl
  | nothing =>
      rw [heff] at h
      cases h
      exact (Int.add_zero _).symm
  | releases handle =>
      rw [heff] at h
      dsimp only at h
      split_ifs at h
      cases h
      exact delThread_usage _

/-- The call has a defined effect exactly when its indices are inside. -/
theorem step_isSome_iff (s : Program) (a : Call) :
    (∃ s', step s a = some s') ↔ ∀ i ∈ indices s a, Inside i := by
  rw [step_eq, indices_eq]
  cases a.effect with
  | registers unixFD bump => simp
  | nothing => simp
  | releases handle => simp

/-- **When the indices stay inside the table**: at every call that registers a descriptor, the
calls before it have raised `usage` by 28 at most. For every sequence of calls of a program that
closes only its own handles. The entries run out with `usage`, however few handles are open. -/
theorem indices_inside_iff (memory : ℕ → ℤ) {as : List Call}
    (hok : AllOk step ClosesOwn (.initial memory) as) :
    AllOk step (fun s a => ∀ i ∈ indices s a, Inside i) (.initial memory) as
      ↔ ∀ before a after, as = before ++ a :: after → RoomFor before a := by
  apply allOk_iff_history (fun before s => Counted s ∧ s.table.usage = 3 + rise before)
    ⟨.initial memory, rfl⟩ _ _ hok
  · rintro before s a ⟨hinv, husage⟩ hown
    rw [indices_eq, RoomFor]
    cases heff : a.effect with
    | registers unixFD bump =>
        have hlow := hinv.low
        simp only [List.mem_singleton, forall_eq, Inside, BitMap.Admits, husage, fileLimit]
        omega
    | nothing => simp
    | releases handle =>
        obtain ⟨p, hp, rfl⟩ := List.mem_map.mp (closesOwn_of_releases heff hown)
        simp only [List.mem_singleton, forall_eq, iff_true]
        exact hinv.inside p hp
  · rintro before s a ⟨hinv, husage⟩ hown hin
    obtain ⟨s', hs'⟩ := (step_isSome_iff s a).mpr hin
    refine ⟨s', hs', hinv.step hown hs', ?_⟩
    rw [usage_step hs', husage, rise_concat, Int.add_assoc]

/-- A file and a socket, closed again. -/
theorem indices_inside_of_a_file_and_a_socket :
    let as : List Call := [.Open 7, .Socket 0 0 8, .Close 3, .Close 5]
    AllOk step ClosesOwn (.initial fun _ => 0) as
      ∧ AllOk step (fun s a => ∀ i ∈ indices s a, Inside i) (.initial fun _ => 0) as
      ∧ ∀ before a after, as = before ++ a :: after → RoomFor before a := by
  intro as
  have hok : AllOk step ClosesOwn (.initial fun _ => 0) as := by decide +kernel
  have hin : AllOk step (fun s a => ∀ i ∈ indices s a, Inside i) (.initial fun _ => 0) as := by
    decide +kernel
  exact ⟨hok, hin, (indices_inside_iff _ hok).mp hin⟩

/-- No more than 29 handles are open after the call. -/
def AtMost29 (s : Program) (a : Call) : Prop :=
  match a.effect with
  | .registers _ _ => s.held.length < 29
  | _ => True

instance (s : Program) (a : Call) : Decidable (AtMost29 s a) :=
  match h : a.effect with
  | .registers _ _ => decidable_of_iff (s.held.length < 29) (by rw [AtMost29, h])
  | .nothing => isTrue (by rw [AtMost29, h]; trivial)
  | .releases _ => isTrue (by rw [AtMost29, h]; trivial)

/-- A program that opens a file and closes it, 29 times, and opens one more. -/
def openAndClose : List Call :=
  (List.range 29).flatMap (fun i => [.Open 7, .Close (3 + i)]) ++ [.Open 7]

/-- **A program that closes what it opens overruns the table**: after 29 files the next
descriptor goes to `openFiles[32]`, with no file open. -/
theorem index_outside :
    ¬ ∀ (memory : ℕ → ℤ) (as : List Call),
      AllOk step (fun s a => ClosesOwn s a ∧ AtMost29 s a) (.initial memory) as →
      AllOk step (fun s a => ∀ i ∈ indices s a, Inside i) (.initial memory) as := by
  intro hall
  have hok : AllOk step (fun s a => ClosesOwn s a ∧ AtMost29 s a) (.initial fun _ => 0)
      openAndClose := by decide +kernel
  have hin : ¬ AllOk step (fun s a => ∀ i ∈ indices s a, Inside i) (.initial fun _ => 0)
      openAndClose := by decide +kernel
  exact hin (hall _ _ hok)

/-! ## The map -/

/-- The table is a map from the program's handles to the descriptors they were registered with:
no handle is open twice or is one of the three of the console, and the entries are those of the
handles. -/
structure Kept (s : Program) : Prop where
  nodup : s.handles.Nodup
  console : ∀ h ∈ s.handles, h ∉ [0, 1, 2]
  unixHandle : ∀ p ∈ s.held, s.table.getUnixHandle p.1 = some p.2

/-- And exactly the console's and the program's handles are marked as open. -/
structure Refines (s : Program) : Prop extends Kept s where
  opened : ∀ h, s.table.isOpened h = some true ↔ h ∈ [0, 1, 2] ∨ h ∈ s.handles

/-- The call has a defined effect, after which `P` holds. -/
def Leads (P : Program → Prop) (s : Program) (a : Call) : Prop := ∃ s', step s a = some s' ∧ P s'

/-- The handle that a call registers a descriptor for is not open. -/
def Free (s : Program) (a : Call) : Prop :=
  match a.effect with
  | .registers _ _ => s.table.usage < fileLimit ∧ s.table.usage ∉ s.handles
  | _ => True

instance (s : Program) (a : Call) : Decidable (Free s a) :=
  match h : a.effect with
  | .registers _ _ =>
      decidable_of_iff (s.table.usage < fileLimit ∧ s.table.usage ∉ s.handles) (by rw [Free, h])
  | .nothing => isTrue (by rw [Free, h]; trivial)
  | .releases _ => isTrue (by rw [Free, h]; trivial)

/-- The call closes nothing, and if it registers a descriptor, the host has given one and there is
an entry left. -/
def OnlyOpens (s : Program) (a : Call) : Prop :=
  match a.effect with
  | .registers unixFD _ => 0 ≤ unixFD ∧ s.table.usage < fileLimit
  | .nothing => True
  | .releases _ => False

instance (s : Program) (a : Call) : Decidable (OnlyOpens s a) :=
  match h : a.effect with
  | .registers unixFD _ =>
      decidable_of_iff (0 ≤ unixFD ∧ s.table.usage < fileLimit) (by rw [OnlyOpens, h])
  | .nothing => isTrue (by rw [OnlyOpens, h]; trivial)
  | .releases _ => isFalse (by rw [OnlyOpens, h]; exact not_false)

section Register

variable {s : Program} {unixFD bump : ℤ}

/-- The handles that are open after a call that registers a descriptor. -/
theorem handles_register (h : 0 ≤ s.table.usage) :
    (s.register unixFD bump).handles
      = if 0 ≤ unixFD then s.handles ++ [s.table.usage] else s.handles := by
  unfold Program.handles Program.register Program.obtain
  by_cases hfd : 0 ≤ unixFD
  · rw [if_pos ⟨h, hfd⟩, if_pos hfd, List.map_append, List.map_singleton]
  · rw [if_neg fun hboth => hfd hboth.2, if_neg hfd]

theorem getUnixHandle_register (hin : Inside s.table.usage) (h : ℤ) :
    (s.register unixFD bump).table.getUnixHandle h
      = if h = s.table.usage then some unixFD else s.table.getUnixHandle h :=
  getUnixHandle_update hin rfl h

theorem isOpened_register (hin : Inside s.table.usage) (h : ℤ) :
    (s.register unixFD bump).table.isOpened h = some true
      ↔ h = s.table.usage ∨ s.table.isOpened h = some true := by
  unfold isOpened BitMap.Test Program.register
  dsimp only
  split_ifs with hh
  · have heq : h.toNat = s.table.usage.toNat ↔ h = s.table.usage := by
      have := hh.1
      have := hin.1
      omega
    rw [BitMap.bit_mark, Option.some.injEq, Option.some.injEq, Bool.or_eq_true, decide_eq_true_eq,
      heq]
  · refine iff_of_false (fun hnone => by cases hnone) ?_
    rintro (rfl | hnone)
    · exact hh hin
    · cases hnone

/-- **Registering keeps the map** exactly when the handle is not open. -/
theorem kept_register (hk : Kept s) (hgiven : ∀ p ∈ s.held, 0 ≤ p.2) (hin : Inside s.table.usage)
    (hlow : 3 ≤ s.table.usage) :
    Kept (s.register unixFD bump) ↔ s.table.usage ∉ s.handles := by
  constructor
  · intro hk' hmem
    by_cases hfd : 0 ≤ unixFD
    · have hnodup := hk'.nodup
      rw [handles_register hin.1, if_pos hfd, List.nodup_append] at hnodup
      exact hnodup.2.2 _ hmem _ (List.mem_singleton.mpr rfl) rfl
    · -- the entry of an open handle is overwritten with the `-1` of the host
      obtain ⟨p, hp, hpu⟩ := List.mem_map.mp hmem
      have hheld : p ∈ (s.register unixFD bump).held := by
        rw [Program.register, Program.obtain, if_neg fun hboth => hfd hboth.2]
        exact hp
      have hunix := hk'.unixHandle p hheld
      rw [getUnixHandle_register hin, if_pos hpu, Option.some.injEq] at hunix
      have := hgiven p hp
      omega
  · intro hfree
    refine ⟨?_, ?_, ?_⟩
    · rw [handles_register hin.1]
      split_ifs
      · exact List.nodup_append.mpr ⟨hk.nodup, List.nodup_singleton _, fun x hx y hy heq =>
          hfree (by rw [← List.mem_singleton.mp hy, ← heq]; exact hx)⟩
      · exact hk.nodup
    · rw [handles_register hin.1]
      intro h hmem
      split_ifs at hmem
      · rcases List.mem_append.mp hmem with hmem | hmem
        · exact hk.console h hmem
        · rw [List.mem_singleton.mp hmem]
          simp only [List.mem_cons, List.not_mem_nil, or_false]
          omega
      · exact hk.console h hmem
    · intro p hp
      rw [getUnixHandle_register hin]
      rcases mem_obtain hp with hp | ⟨rfl, -⟩
      · have hne : p.1 ≠ s.table.usage := fun heq => hfree (heq ▸ List.mem_map_of_mem hp)
        rw [if_neg hne]
        exact hk.unixHandle p hp
      · exact if_pos rfl

end Register

theorem handles_release (s : Program) (handle : ℤ) :
    (s.release handle).handles = s.handles.filter (· ≠ handle) := by
  rw [Program.handles, Program.release, Program.handles, List.filter_map]
  rfl

/-- Closing keeps the map. -/
theorem kept_release {s : Program} {handle : ℤ} (hk : Kept s) (hlow : s.table.usage - 1 ≠ 0) :
    Kept (s.release handle) := by
  refine ⟨?_, ?_, ?_⟩
  · rw [handles_release]
    exact hk.nodup.filter _
  · rw [handles_release]
    intro h hmem
    exact hk.console h (List.mem_of_mem_filter hmem)
  · intro p hp
    rw [Program.release, delThread_of_ne hlow]
    exact hk.unixHandle p (List.mem_of_mem_filter hp)

/-! ## The result -/

/-- The call has a defined effect when the entry or the handle is inside. -/
theorem leads_iff {P : Program → Prop} {s : Program} {a : Call} :
    Leads P s a ↔ match a.effect with
      | .registers unixFD bump => Inside s.table.usage ∧ P (s.register unixFD bump)
      | .nothing => P s
      | .releases handle => Inside handle ∧ P (s.release handle) := by
  unfold Leads
  rw [step_eq]
  cases a.effect with
  | registers unixFD bump => simp
  | nothing => simp
  | releases handle => simp

/-- **When the handles of a program keep their meaning**: no descriptor is registered for a handle
that is open. For every sequence of calls of a program that closes only its own handles. -/
theorem kept_iff (memory : ℕ → ℤ) {as : List Call}
    (hok : AllOk step ClosesOwn (.initial memory) as) :
    AllOk step (Leads Kept) (.initial memory) as ↔ AllOk step Free (.initial memory) as := by
  apply allOk_iff_allOk (fun s => Kept s ∧ Counted s) _ _ _ hok
  · rintro s a ⟨hk, hc⟩ hown
    have hlow := hc.low
    rw [leads_iff, Free]
    cases heff : a.effect with
    | registers unixFD bump =>
        have hinside : Inside s.table.usage ↔ s.table.usage < fileLimit := by
          simp only [Inside, BitMap.Admits]
          omega
        dsimp only
        rw [← hinside]
        exact and_congr_right fun hin => kept_register hk hc.given hin (by omega)
    | nothing => exact iff_of_true hk trivial
    | releases handle =>
        have hmem := closesOwn_of_releases heff hown
        obtain ⟨p, hp, rfl⟩ := List.mem_map.mp hmem
        have hpos := List.length_pos_of_mem hp
        exact iff_of_true ⟨hc.inside p hp, kept_release hk (by omega)⟩ trivial
  · rintro s a s' ⟨-, hc⟩ hown ⟨t, ht, hk⟩ hs'
    rw [ht, Option.some.injEq] at hs'
    subst hs'
    exact ⟨hk, hc.step hown ht⟩
  · exact ⟨⟨List.nodup_nil, fun h hh => absurd hh List.not_mem_nil,
      fun p hp => absurd hp List.not_mem_nil⟩, .initial memory⟩

/-- The marks of the console, and of nothing else. -/
theorem refines_initial (memory : ℕ → ℤ) : Refines (.initial memory) where
  nodup := List.nodup_nil
  console _ h := absurd h List.not_mem_nil
  unixHandle _ h := absurd h List.not_mem_nil
  opened h := by
    unfold isOpened BitMap.Test Program.initial initial
    dsimp only
    simp only [BitMap.bit_mark, BitMap.bit_initial, BitMap.Admits, fileLimit, Program.handles,
      List.map_nil, List.not_mem_nil, or_false, List.mem_cons]
    split_ifs with hh
    · simp
      omega
    · simp
      omega

/-- While nothing has been closed, `usage` is above every handle. -/
def Above (s : Program) : Prop := ∀ h ∈ s.handles, h < s.table.usage

/-- Of the calls made while the table is the map, exactly those that open something keep it. -/
theorem leads_refines_iff {s : Program} {a : Call} (hr : Refines s) (hc : Counted s)
    (habove : Above s) (hown : ClosesOwn s a) : Leads Refines s a ↔ OnlyOpens s a := by
  have hlow := hc.low
  rw [leads_iff, OnlyOpens]
  cases heff : a.effect with
  | registers unixFD bump =>
      have hfree : s.table.usage ∉ s.handles := fun hmem => absurd (habove _ hmem) (lt_irrefl _)
      dsimp only
      constructor
      · rintro ⟨hin, hr'⟩
        refine ⟨?_, hin.2⟩
        by_contra hfd
        -- the handle is marked although nothing is open under it
        have hopen := (hr'.opened s.table.usage).mp ((isOpened_register hin _).mpr (.inl rfl))
        rw [handles_register hin.1, if_neg hfd] at hopen
        rcases hopen with hopen | hopen
        · simp only [List.mem_cons, List.not_mem_nil, or_false] at hopen
          omega
        · exact hfree hopen
      · rintro ⟨hfd, hlt⟩
        have hin : Inside s.table.usage := ⟨by omega, hlt⟩
        refine ⟨hin, (kept_register hr.toKept hc.given hin (by omega)).mpr hfree, fun h => ?_⟩
        rw [isOpened_register hin, hr.opened, handles_register hin.1, if_pos hfd, List.mem_append,
          List.mem_singleton]
        tauto
  | nothing => exact iff_of_true hr trivial
  | releases handle =>
      have hmem := closesOwn_of_releases heff hown
      obtain ⟨p, hp, rfl⟩ := List.mem_map.mp hmem
      have hpos := List.length_pos_of_mem hp
      refine iff_of_false ?_ not_false
      rintro ⟨-, hr'⟩
      -- the bit of the handle that was closed is still set
      have hset : (s.release p.1).table.isOpened p.1 = s.table.isOpened p.1 := by
        rw [Program.release, delThread_of_ne (by omega)]
        rfl
      have hopen := (hr'.opened p.1).mp (hset.trans ((hr.opened p.1).mpr (.inr hmem)))
      rcases hopen with hopen | hopen
      · exact hr.console _ hmem hopen
      · rw [handles_release, List.mem_filter] at hopen
        simp at hopen

theorem Above.step {s s' : Program} {a : Call} (h : Above s) (hgood : OnlyOpens s a)
    (hlow : 0 ≤ s.table.usage) (hs' : OpenFilesTable.step s a = some s') : Above s' := by
  rw [step_eq] at hs'
  rw [OnlyOpens] at hgood
  cases heff : a.effect with
  | registers unixFD bump =>
      have hbump := bump_of_registers heff
      rw [heff] at hs' hgood
      dsimp only at hs'
      split_ifs at hs'
      cases hs'
      intro k hk
      rw [handles_register hlow, if_pos hgood.1, List.mem_append, List.mem_singleton] at hk
      have husage : (s.register unixFD bump).table.usage = s.table.usage + bump := rfl
      rcases hk with hk | rfl
      · have := h k hk
        omega
      · omega
  | nothing =>
      rw [heff] at hs'
      cases hs'
      exact h
  | releases handle =>
      rw [heff] at hgood
      exact hgood.elim

/-- **When the table is the map it is meant to be**: nothing is ever closed, and whatever is
opened is given a descriptor by the host and finds an entry. For every sequence of calls of a
program that closes only its own handles. `Close` lowers `usage`, which says where the next
descriptor goes, and leaves the entry that was closed. -/
theorem refines_iff (memory : ℕ → ℤ) {as : List Call}
    (hok : AllOk step ClosesOwn (.initial memory) as) :
    AllOk step (Leads Refines) (.initial memory) as ↔ AllOk step OnlyOpens (.initial memory) as := by
  apply allOk_iff_allOk (fun s => Refines s ∧ Counted s ∧ Above s) _ _ _ hok
  · rintro s a ⟨hr, hc, habove⟩ hown
    exact leads_refines_iff hr hc habove hown
  · rintro s a s' ⟨hr, hc, habove⟩ hown hleads hs'
    have hgood := (leads_refines_iff hr hc habove hown).mp hleads
    obtain ⟨t, ht, hr'⟩ := hleads
    rw [ht, Option.some.injEq] at hs'
    subst hs'
    have hlow := hc.low
    exact ⟨hr', hc.step hown ht, habove.step hgood (by omega) ht⟩
  · exact ⟨refines_initial memory, .initial memory, fun h hh => absurd hh List.not_mem_nil⟩

/-- A file and a socket. -/
theorem refines_of_a_file_and_a_socket :
    let as : List Call := [.Open 7, .Socket 0 0 8]
    AllOk step ClosesOwn (.initial fun _ => 0) as
      ∧ AllOk step (Leads Refines) (.initial fun _ => 0) as := by
  intro as
  have hok : AllOk step ClosesOwn (.initial fun _ => 0) as := by decide +kernel
  exact ⟨hok, (refines_iff _ hok).mpr (by decide +kernel)⟩

/-- **A new handle can be one that is open**: of two sockets the first is closed, and the next one
gets the handle, and the entry, of the second. -/
theorem handle_twice :
    ¬ ∀ (memory : ℕ → ℤ) (as : List Call) (s : Program),
      AllOk step (fun s a => ClosesOwn s a ∧ AtMost29 s a) (.initial memory) as →
      exec step (.initial memory) as = some s → Refines s := by
  intro hall
  let as : List Call := [.Socket 0 0 7, .Socket 0 0 8, .Close 3, .Socket 0 0 9]
  have hok : AllOk step (fun s a => ClosesOwn s a ∧ AtMost29 s a) (.initial fun _ => 0) as := by
    decide +kernel
  have hheld : (exec step (.initial fun _ => 0) as).map Program.held = some [(4, 8), (4, 9)] := by
    decide +kernel
  obtain ⟨s, hs, hheld⟩ := Option.map_eq_some_iff.mp hheld
  have hnodup := (hall _ as s hok hs).nodup
  rw [Program.handles, hheld] at hnodup
  exact absurd hnodup (by decide)

/-! ## A call that the host refuses -/

/-- A call for a descriptor. -/
inductive Opening
  | Open
  | Socket (family socketType : ℤ)
deriving DecidableEq, Repr

/-- The host is asked: the arguments are none of those that the call itself refuses. -/
def Opening.Asks : Opening → Prop
  | .Open => True
  | .Socket family socketType =>
      (socketType = SOCK_STREAM_NachOS ∨ socketType = SOCK_DGRAM_NachOS)
        ∧ (family = AF_INET_NachOS ∨ family = AF_INET6_NachOS)

/-- The call, when the host's answer is `unixFD`: the table and register 2 afterwards. -/
def Opening.run (unixFD : ℤ) (t : OpenFilesTable) : Opening → Option (OpenFilesTable × ℤ)
  | .Open => NachOS_Open unixFD t
  | .Socket family socketType => NachOS_Socket family socketType unixFD t

/-- What `usage` goes up by. -/
def Opening.bump : Opening → ℤ
  | .Open => 2
  | .Socket _ _ => 1

/-- **The answer of the host goes into the table**, whatever it is. -/
theorem Opening.run_of_asks {a : Opening} (h : a.Asks) (unixFD : ℤ) (t : OpenFilesTable) :
    a.run unixFD t
      = if Inside t.usage then
          some ({ openFiles := Function.update t.openFiles t.usage.toNat unixFD
                  openFilesMap := t.openFilesMap.mark t.usage.toNat
                  usage := t.usage + a.bump }, t.usage)
        else none := by
  cases a with
  | Open =>
      have htwo : t.usage + 1 + 1 = t.usage + 2 := by omega
      rw [run, NachOS_Open, Open_eq]
      split_ifs
      · simp only [Option.map_some, addThread, htwo, bump]
      · rfl
  | Socket family socketType =>
      obtain ⟨htype, hfamily⟩ := h
      rw [run, NachOS_Socket, if_neg fun hn => htype.elim hn.1 hn.2,
        if_neg fun hn => hfamily.elim hn.1 hn.2, Open_eq, bump]

/-- The other calls return `-1` and leave the table alone. -/
theorem Opening.run_of_not_asks {a : Opening} (h : ¬ a.Asks) (unixFD : ℤ) (t : OpenFilesTable) :
    a.run unixFD t = some (t, -1) := by
  cases a with
  | Open => exact absurd trivial h
  | Socket family socketType =>
      rw [run, NachOS_Socket]
      split_ifs with htype hfamily
      · rfl
      · rfl
      · exact absurd ⟨by tauto, by tauto⟩ h

/-- The host's `-1` reaches the program, and the table is as it was. -/
def FailsCleanly (t : OpenFilesTable) (a : Opening) : Prop := a.run (-1) t = some (t, -1)

/-- A call for which the host was asked has raised `usage`. -/
theorem not_failsCleanly {t : OpenFilesTable} {a : Opening} (h : a.Asks) : ¬ FailsCleanly t a := by
  intro hclean
  rw [FailsCleanly, Opening.run_of_asks h] at hclean
  split_ifs at hclean
  have husage := congrArg (fun r => r.map fun r => r.1.usage) hclean
  have hbump : 0 < a.bump := by
    cases a with
    | Open => decide
    | Socket family socketType => exact Int.one_pos
  simp only [Option.map_some, Option.some.injEq] at husage
  omega

/-- **When a call fails as it should**: only when the host was not asked. For every state of the
table. What the host answers is registered without being looked at. -/
theorem failsCleanly_iff (t : OpenFilesTable) (a : Opening) : FailsCleanly t a ↔ ¬ a.Asks :=
  ⟨fun hclean h => not_failsCleanly h hclean, fun h => Opening.run_of_not_asks h (-1) t⟩

/-- **A file that does not exist gets a handle**, with the descriptor `-1`. -/
theorem open_fails_with_a_handle :
    ¬ ∀ (t : OpenFilesTable) (a : Opening), a.Asks → FailsCleanly t a := by
  intro hall
  have hclean := hall (initial fun _ => 0) .Open trivial
  have hhandle : (Opening.run (-1) (initial fun _ => 0) .Open).map Prod.snd = some 3 := rfl
  rw [hclean] at hhandle
  exact absurd hhandle (by decide)

end OpenFilesTable

end LoadBalancer.NachOS
