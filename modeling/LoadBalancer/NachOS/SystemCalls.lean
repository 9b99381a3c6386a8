/-
The system calls on sockets and files (`exception.cc`), after their arguments have been copied in.

`Write`, `Read` and `Close` go through the table from the handle to the Unix descriptor.
`Connect`, `Bind`, `Listen`, `Accept` and `Shutdown` give the handle itself to the host, and
`Accept` returns the host's descriptor as a handle, without an entry in the table. The two ways
agree on a handle exactly when its number is that of its descriptor, and the entry under that
number as well ([`acts_iff`]). [`KeepsAgreement`] says of each call what that means for it, and
[`right_iff`] that nothing less will do.
-/
import LoadBalancer.NachOS.Machine
import LoadBalancer.NachOS.OpenFilesTable

set_option autoImplicit false

namespace LoadBalancer.NachOS

open LoadBalancer.Transition

namespace SystemCalls

open OpenFilesTable

/-! ## What the host is asked for -/

/-- A call to the host, with the descriptor it is about. -/
inductive HostCall
  | getsockname (fd : ℤ)
  /-- Without an address for IPv6, whose `sin6_addr` is not set. -/
  | connect (fd : ℤ) (socketAddr : Option (List Byte)) (port : ℤ)
  | bind (fd port : ℤ)
  | listen (fd backlog : ℤ)
  | accept (fd : ℤ)
  | shutdown (fd mode : ℤ)
  | lseek (fd position : ℤ)
  | write (fd : ℤ) (data : List Byte)
  | recv (fd size : ℤ)
  | close (fd : ℤ)
  /-- `printf`, on the standard output. -/
  | printf (text : List Byte)
  /-- `printf` of a number. -/
  | printNumber (number : ℤ)
  /-- `scanf`, on the standard input. -/
  | scanf
deriving DecidableEq, Repr

/-- The descriptor. -/
def HostCall.fd : HostCall → ℤ
  | .getsockname fd => fd
  | .connect fd _ _ => fd
  | .bind fd _ => fd
  | .listen fd _ => fd
  | .accept fd => fd
  | .shutdown fd _ => fd
  | .lseek fd _ => fd
  | .write fd _ => fd
  | .recv fd _ => fd
  | .close fd => fd
  | .printf _ => 1
  | .printNumber _ => 1
  | .scanf => 0

/-- `sa_family`, as `getsockname` fills it in. -/
inductive Family
  | AF_INET
  | AF_INET6
  | other
deriving DecidableEq, Repr

/-- `ConsoleInput`. -/
def ConsoleInput : ℤ := 0

/-- `ConsoleOutput`. -/
def ConsoleOutput : ℤ := 1

/-- `ConsoleError`. -/
def ConsoleError : ℤ := 2

/-- The common part of `Connect`, `Bind` and `Accept`: `getsockname` says which family the socket
is of, and there is one host call and one value of register 2 for each of the two. -/
def byFamily (socketFD : ℤ) (family : Family) (inet inet6 : HostCall) (result : ℤ) :
    ℤ × List HostCall :=
  match family with
  | .AF_INET => (result, [.getsockname socketFD, inet])
  | .AF_INET6 => (result, [.getsockname socketFD, inet6])
  | .other => (-1, [.getsockname socketFD])

/-- `NachOS_Connect`, with what the host answers: register 2, and what the host is asked. -/
def NachOS_Connect (socketFD : ℤ) (socketAddr : List Byte) (port : ℤ) (family : Family)
    (status : ℤ) : ℤ × List HostCall :=
  byFamily socketFD family (.connect socketFD (some socketAddr) port)
    (.connect socketFD none port) (if status ≠ -1 then socketFD else -1)

/-- `NachOS_Bind`. -/
def NachOS_Bind (socketFD port : ℤ) (family : Family) (status : ℤ) : ℤ × List HostCall :=
  byFamily socketFD family (.bind socketFD port) (.bind socketFD port) status

/-- `NachOS_Listen`. -/
def NachOS_Listen (socketFD backlog status : ℤ) : ℤ × List HostCall :=
  (status, [.listen socketFD backlog])

/-- `NachOS_Accept`. -/
def NachOS_Accept (socketFD : ℤ) (family : Family) (status : ℤ) : ℤ × List HostCall :=
  byFamily socketFD family (.accept socketFD) (.accept socketFD) status

/-- `mode == SHUT_RD || mode == SHUT_WR || mode == SHUT_RDWR`. -/
def ShutdownMode (mode : ℤ) : Prop := mode = 0 ∨ mode = 1 ∨ mode = 2

instance (mode : ℤ) : Decidable (ShutdownMode mode) := inferInstanceAs (Decidable (_ ∨ _ ∨ _))

/-- `NachOS_Shutdown`. -/
def NachOS_Shutdown (socketFD mode status : ℤ) : ℤ × List HostCall :=
  if ShutdownMode mode then (status, [.shutdown socketFD mode]) else (-1, [])

/-- `NachOS_Write`, from the `switch` on: `buffer` holds the bytes and a NUL, `pointer` is what
register 4 holds. -/
def NachOS_Write (t : OpenFilesTable) (pointer size id position : ℤ) (buffer : List Byte)
    (written : ℤ) : Option (ℤ × List HostCall) :=
  if id = ConsoleInput then some (-1, [])
  else if id = ConsoleOutput then
    some ((buffer.takeWhile (· ≠ 0)).length, [.printf (buffer.takeWhile (· ≠ 0))])
  else if id = ConsoleError then some (0, [.printNumber pointer])
  else
    (t.getUnixHandle id).map fun handle =>
      (written, [.lseek handle position, .write handle (buffer.take size.toNat)])

/-- `NachOS_Read`, up to the call to the host. -/
def NachOS_Read (t : OpenFilesTable) (pointer size id : ℤ) : Option (List HostCall) :=
  if id = ConsoleInput then some [.scanf]
  else if id = ConsoleOutput then some []
  else if id = ConsoleError then some [.printNumber pointer]
  else (t.getUnixHandle id).map fun handle => [.recv handle size]

/-! ## A user program -/

/-- A system call, with what the host answers to it. -/
inductive Call
  | Open (unixFD : ℤ)
  | Socket (family socketType socketFD : ℤ)
  | Connect (handle : ℤ) (socketAddr : List Byte) (port : ℤ) (family : Family) (status : ℤ)
  | Bind (handle port : ℤ) (family : Family) (status : ℤ)
  | Listen (handle backlog status : ℤ)
  | Accept (handle : ℤ) (family : Family) (status : ℤ)
  | Shutdown (handle mode status : ℤ)
  | Write (handle pointer size position : ℤ) (buffer : List Byte) (written : ℤ)
  | Read (handle pointer size : ℤ)
  | Close (handle : ℤ)
deriving DecidableEq, Repr

/-- What the host is asked about a descriptor; `none` when an index is outside the table. -/
def hostCalls (t : OpenFilesTable) : Call → Option (List HostCall)
  | .Open _ => some []
  | .Socket _ _ _ => some []
  | .Connect handle socketAddr port family status =>
      some (NachOS_Connect handle socketAddr port family status).2
  | .Bind handle port family status => some (NachOS_Bind handle port family status).2
  | .Listen handle backlog status => some (NachOS_Listen handle backlog status).2
  | .Accept handle family status => some (NachOS_Accept handle family status).2
  | .Shutdown handle mode status => some (NachOS_Shutdown handle mode status).2
  | .Write handle pointer size position buffer written =>
      (NachOS_Write t pointer size handle position buffer written).map Prod.snd
  | .Read handle pointer size => NachOS_Read t pointer size handle
  | .Close handle => (NachOS_Close handle t).map fun (_, unixID) => [.close unixID]

/-- The table, and the handles that the program has from `Socket` and `Accept`, each with the
descriptor that the host gave for it. -/
structure Program where
  table : OpenFilesTable
  obtained : List (ℤ × ℤ)

/-- A program without sockets, over any table. -/
def Program.start (t : OpenFilesTable) : Program := ⟨t, []⟩

/-- What the program has after a call that returned `handle`, if that was successful. -/
def Program.obtain (s : Program) (handle unixFD : ℤ) : List (ℤ × ℤ) :=
  if 0 ≤ handle ∧ 0 ≤ unixFD then s.obtained ++ [(handle, unixFD)] else s.obtained

/-- One system call. -/
def step (s : Program) : Call → Option Program
  | .Open unixFD => (NachOS_Open unixFD s.table).map fun (t, _) => { s with table := t }
  | .Socket family socketType socketFD =>
      (NachOS_Socket family socketType socketFD s.table).map fun (t, handle) =>
        ⟨t, s.obtain handle socketFD⟩
  | .Accept handle family status =>
      some { s with obtained := s.obtain (NachOS_Accept handle family status).1 status }
  | .Close handle =>
      (NachOS_Close handle s.table).map fun (t, _) =>
        ⟨t, s.obtained.filter fun p => p.1 ≠ handle⟩
  | a => (hostCalls s.table a).map fun _ => s

/-- The call is one of the eight on this handle, with arguments that make it ask the host. -/
def Call.On (handle : ℤ) : Call → Prop
  | .Open _ => False
  | .Socket _ _ _ => False
  | .Connect h _ _ _ _ => h = handle
  | .Bind h _ _ _ => h = handle
  | .Listen h _ _ => h = handle
  | .Accept h _ _ => h = handle
  | .Shutdown h mode _ => h = handle ∧ ShutdownMode mode
  | .Write h _ _ _ _ _ => h = handle
  | .Read h _ _ => h = handle
  | .Close h => h = handle

/-- The call asks the host, and about this descriptor only. -/
def ActsOn (t : OpenFilesTable) (a : Call) (unixFD : ℤ) : Prop :=
  ∃ calls, hostCalls t a = some calls ∧ calls ≠ [] ∧ ∀ c ∈ calls, c.fd = unixFD

/-- **Every call on a handle of the program acts on its descriptor.** -/
def Right (s : Program) : Prop :=
  ∀ p ∈ s.obtained, ∀ a : Call, a.On p.1 → ActsOn s.table a p.2

/-! ## A handle and its descriptor -/

/-- The handle is the number of the descriptor, it is none of the console's, and the entry under
it is the descriptor. -/
structure Agrees (t : OpenFilesTable) (handle unixFD : ℤ) : Prop where
  same : handle = unixFD
  input : handle ≠ ConsoleInput
  output : handle ≠ ConsoleOutput
  error : handle ≠ ConsoleError
  entry : t.getUnixHandle handle = some unixFD

/-- What the calls that use the number itself ask the host. -/
theorem byFamily_fd {socketFD : ℤ} {family : Family} {inet inet6 : HostCall} {result : ℤ}
    (h : inet.fd = socketFD) (h6 : inet6.fd = socketFD) :
    (byFamily socketFD family inet inet6 result).2 ≠ []
      ∧ ∀ c ∈ (byFamily socketFD family inet inet6 result).2, c.fd = socketFD := by
  cases family with
  | AF_INET =>
      exact ⟨List.cons_ne_nil _ _, List.forall_mem_cons.mpr ⟨rfl, List.forall_mem_singleton.mpr h⟩⟩
  | AF_INET6 =>
      exact ⟨List.cons_ne_nil _ _, List.forall_mem_cons.mpr ⟨rfl, List.forall_mem_singleton.mpr h6⟩⟩
  | other => exact ⟨List.cons_ne_nil _ _, List.forall_mem_singleton.mpr rfl⟩

/-- Three of the calls are enough to see that a handle agrees with its descriptor: `Listen` asks
about the handle itself, and `Write` and `Read` do not ask about the console's. -/
theorem Agrees.of_acts {t : OpenFilesTable} {handle unixFD : ℤ}
    (hall : ∀ a : Call, a.On handle → ActsOn t a unixFD) : Agrees t handle unixFD := by
  obtain ⟨calls, hlisten, -, hfd⟩ := hall (.Listen handle 0 0) rfl
  cases hlisten
  have hsame : handle = unixFD := hfd _ (List.mem_singleton.mpr rfl)
  have hwrite : ∀ c : ℤ, NachOS_Write t 0 0 c 0 [] 0 = some (-1, []) → handle ≠ c := by
    rintro c hc rfl
    obtain ⟨calls, hcalls, hne, -⟩ := hall (.Write handle 0 0 0 [] 0) rfl
    rw [hostCalls, hc] at hcalls
    cases hcalls
    exact hne rfl
  have hread : ∀ c x, NachOS_Read t 0 0 c = some x → (∀ y ∈ x, y.fd ≠ c) → handle ≠ c := by
    rintro c x hc hx rfl
    obtain ⟨calls, hcalls, hne, hfd⟩ := hall (.Read handle 0 0) rfl
    rw [hostCalls, hc] at hcalls
    cases hcalls
    obtain ⟨y, hy⟩ := List.exists_mem_of_ne_nil _ hne
    exact hx y hy ((hfd y hy).trans hsame.symm)
  refine ⟨hsame, hwrite _ rfl, ?_, ?_, ?_⟩
  · -- a read from the console's output asks nothing
    exact hread ConsoleOutput [] rfl fun y hy => absurd hy List.not_mem_nil
  · refine hread ConsoleError [.printNumber 0] rfl fun y hy => ?_
    rw [List.mem_singleton.mp hy]
    decide
  · obtain ⟨calls, hcalls, -, hfd⟩ := hall (.Close handle) rfl
    obtain ⟨⟨t', unixID⟩, hclose, rfl⟩ := Option.map_eq_some_iff.mp hcalls
    obtain ⟨_, hentry, heq⟩ := Option.map_eq_some_iff.mp hclose
    cases heq
    rw [hentry, ← hfd _ (List.mem_singleton.mpr rfl)]
    rfl

/-- Every call on a handle that agrees with its descriptor acts on it. -/
theorem Agrees.acts {t : OpenFilesTable} {handle unixFD : ℤ} (h : Agrees t handle unixFD)
    {a : Call} (hon : a.On handle) : ActsOn t a unixFD := by
  obtain ⟨rfl, hinput, houtput, herror, hentry⟩ := h
  cases a with
  | Open fd => exact hon.elim
  | Socket family socketType fd => exact hon.elim
  | Connect h socketAddr port family status =>
      cases hon
      exact ⟨_, rfl, byFamily_fd rfl rfl⟩
  | Bind h port family status =>
      cases hon
      exact ⟨_, rfl, byFamily_fd rfl rfl⟩
  | Listen h backlog status =>
      cases hon
      exact ⟨_, rfl, List.cons_ne_nil _ _,
        List.forall_mem_singleton.mpr rfl⟩
  | Accept h family status =>
      cases hon
      exact ⟨_, rfl, byFamily_fd rfl rfl⟩
  | Shutdown h mode status =>
      obtain ⟨hh, hmode⟩ := hon
      cases hh
      refine ⟨[.shutdown handle mode], ?_, List.cons_ne_nil _ _,
        List.forall_mem_singleton.mpr rfl⟩
      rw [hostCalls, NachOS_Shutdown, if_pos hmode]
  | Write h pointer size position buffer written =>
      cases hon
      refine ⟨[.lseek handle position, .write handle (buffer.take size.toNat)], ?_,
        List.cons_ne_nil _ _,
        List.forall_mem_cons.mpr ⟨rfl, List.forall_mem_singleton.mpr rfl⟩⟩
      rw [hostCalls, NachOS_Write, if_neg hinput, if_neg houtput, if_neg herror, hentry]
      rfl
  | Read h pointer size =>
      cases hon
      refine ⟨[.recv handle size], ?_, List.cons_ne_nil _ _,
        List.forall_mem_singleton.mpr rfl⟩
      rw [hostCalls, NachOS_Read, if_neg hinput, if_neg houtput, if_neg herror, hentry]
      rfl
  | Close h =>
      cases hon
      refine ⟨[.close handle], ?_, List.cons_ne_nil _ _,
        List.forall_mem_singleton.mpr rfl⟩
      rw [hostCalls, NachOS_Close, hentry]
      rfl

/-- **When every call on a handle acts on its descriptor.** -/
theorem acts_iff {t : OpenFilesTable} {handle unixFD : ℤ} :
    (∀ a : Call, a.On handle → ActsOn t a unixFD) ↔ Agrees t handle unixFD :=
  ⟨.of_acts, fun h _ => h.acts⟩

/-- Every handle of the program agrees with its descriptor. -/
theorem right_iff_agrees (s : Program) :
    Right s ↔ ∀ p ∈ s.obtained, Agrees s.table p.1 p.2 :=
  forall₂_congr fun _ _ => acts_iff

/-! ## What a call does to the agreement -/

/-- A descriptor registered at `usage` is the one of the handle with that number, if the program
has it. -/
def Spares (s : Program) (unixFD : ℤ) : Prop := ∀ p ∈ s.obtained, p.1 = s.table.usage → p.2 = unixFD

/-- The call leaves every handle of the program, a new one included, in agreement with its
descriptor. A descriptor that is registered goes under its own number, and no handle of the
program has that number with another descriptor; what `Accept` returns is already registered
under its own number; and the `Close` that leaves `usage` at zero, and so empties the table,
leaves no other handle. -/
def KeepsAgreement (s : Program) : Call → Prop
  | .Open unixFD => Spares s unixFD
  | .Socket family socketType socketFD =>
      (socketType = SOCK_STREAM_NachOS ∨ socketType = SOCK_DGRAM_NachOS) →
      (family = AF_INET_NachOS ∨ family = AF_INET6_NachOS) →
        Spares s socketFD ∧ (0 ≤ socketFD → s.table.usage = socketFD
          ∧ socketFD ∉ [ConsoleInput, ConsoleOutput, ConsoleError])
  | .Accept _ family status => family ≠ .other → 0 ≤ status → Agrees s.table status status
  | .Close handle => s.table.usage = 1 → ∀ p ∈ s.obtained, p.1 = handle
  | _ => True

theorem agrees_iff {t : OpenFilesTable} {handle unixFD : ℤ} :
    Agrees t handle unixFD ↔ handle = unixFD ∧ handle ∉ [ConsoleInput, ConsoleOutput, ConsoleError]
      ∧ t.getUnixHandle handle = some unixFD := by
  simp only [List.mem_cons, List.not_mem_nil, or_false, not_or]
  constructor
  · rintro ⟨h, hi, ho, he, hentry⟩
    exact ⟨h, ⟨hi, ho, he⟩, hentry⟩
  · rintro ⟨h, ⟨hi, ho, he⟩, hentry⟩
    exact ⟨h, hi, ho, he, hentry⟩

section Registered

variable {s : Program} {t : OpenFilesTable} {unixFD handle : ℤ}

/-- What `Open` of the table does. -/
theorem open_eq_some (h : s.table.Open unixFD = some (t, handle)) :
    Inside s.table.usage ∧ handle = s.table.usage
      ∧ ∀ k, t.getUnixHandle k
        = if k = s.table.usage then some unixFD else s.table.getUnixHandle k := by
  rw [Open_eq] at h
  split_ifs at h with hin
  cases h
  exact ⟨hin, rfl, getUnixHandle_update hin rfl⟩

/-- The handles that were in agreement, after a descriptor has been registered. -/
theorem forall_agrees_registered (hr : Right s)
    (hentry : ∀ k, t.getUnixHandle k
      = if k = s.table.usage then some unixFD else s.table.getUnixHandle k) :
    (∀ p ∈ s.obtained, Agrees t p.1 p.2) ↔ Spares s unixFD := by
  rw [right_iff_agrees] at hr
  apply forall₂_congr
  intro p hp
  obtain ⟨hsame, hconsole, hold⟩ := agrees_iff.mp (hr p hp)
  rw [agrees_iff, hentry]
  split_ifs with husage
  · rw [Option.some.injEq]
    exact ⟨fun h _ => h.2.2.symm, fun h => ⟨hsame, hconsole, (h husage).symm⟩⟩
  · exact ⟨fun _ h => absurd h husage, fun _ => ⟨hsame, hconsole, hold⟩⟩

end Registered

/-- What holds of what the program has after a call holds of what it had, and of the new handle. -/
theorem forall_obtain {s : Program} {handle unixFD : ℤ} {P : ℤ × ℤ → Prop} :
    (∀ p ∈ s.obtain handle unixFD, P p)
      ↔ (∀ p ∈ s.obtained, P p) ∧ (0 ≤ handle → 0 ≤ unixFD → P (handle, unixFD)) := by
  unfold Program.obtain
  split_ifs with h
  · rw [List.forall_mem_append, List.forall_mem_singleton]
    exact and_congr_right fun _ => ⟨fun hp _ _ => hp, fun hp => hp h.1 h.2⟩
  · exact ⟨fun hall => ⟨hall, fun h0 h1 => absurd ⟨h0, h1⟩ h⟩, fun hall => hall.1⟩

/-- A new socket agrees with its descriptor when `usage` is the number of it. -/
theorem right_step_socket {s s' : Program} {family socketType fd : ℤ} (hr : Right s)
    (hs : step s (.Socket family socketType fd) = some s') :
    (∀ p ∈ s'.obtained, Agrees s'.table p.1 p.2)
      ↔ KeepsAgreement s (.Socket family socketType fd) := by
  obtain ⟨⟨t, handle⟩, hsocket, rfl⟩ := Option.map_eq_some_iff.mp hs
  rw [NachOS_Socket] at hsocket
  rw [KeepsAgreement, forall_obtain]
  have hold := (right_iff_agrees s).mp hr
  split_ifs at hsocket with htype hfamily
  · cases hsocket
    refine iff_of_true ⟨hold, fun h => absurd h (by decide)⟩ fun h => ?_
    exact absurd h (not_or.mpr htype)
  · cases hsocket
    refine iff_of_true ⟨hold, fun h => absurd h (by decide)⟩ fun _ h => ?_
    exact absurd h (not_or.mpr hfamily)
  · obtain ⟨hin, rfl, hentry⟩ := open_eq_some hsocket
    rw [← not_or, not_not] at htype hfamily
    dsimp only
    rw [forall_agrees_registered hr hentry]
    have hnew : Agrees t s.table.usage fd ↔ s.table.usage = fd
        ∧ fd ∉ [ConsoleInput, ConsoleOutput, ConsoleError] := by
      rw [agrees_iff, hentry, if_pos rfl]
      constructor
      · rintro ⟨rfl, hc, -⟩
        exact ⟨rfl, hc⟩
      · rintro ⟨rfl, hc⟩
        exact ⟨rfl, hc, rfl⟩
    rw [hnew]
    exact ⟨fun h _ _ => ⟨h.1, h.2 hin.1⟩, fun h => ⟨(h htype hfamily).1, fun _ =>
      (h htype hfamily).2⟩⟩

/-- The `Close` that empties the table leaves no handle in agreement. -/
theorem right_step_close {s s' : Program} {handle : ℤ} (hr : Right s)
    (hs : step s (.Close handle) = some s') :
    (∀ p ∈ s'.obtained, Agrees s'.table p.1 p.2) ↔ KeepsAgreement s (.Close handle) := by
  obtain ⟨⟨t, unixID⟩, hclose, rfl⟩ := Option.map_eq_some_iff.mp hs
  obtain ⟨_, hunix, heq⟩ := Option.map_eq_some_iff.mp hclose
  cases heq
  have hold := (right_iff_agrees s).mp hr
  rw [KeepsAgreement]
  dsimp only
  by_cases husage : s.table.usage = 1
  · -- no handle but one of the console has the descriptor 0
    have hlost : ∀ p : ℤ × ℤ, ¬ Agrees s.table.delThread p.1 p.2 := by
      rintro p ⟨hsame, hinput, -, -, hentry⟩
      obtain ⟨hin, hzero⟩ := getUnixHandle_delThread husage hentry
      exact hinput (hsame.trans hzero)
    constructor
    · intro hall _ p hp
      by_contra hne
      exact hlost p (hall p (List.mem_filter.mpr ⟨hp, decide_eq_true hne⟩))
    · intro hone p hp
      obtain ⟨hp, hne⟩ := List.mem_filter.mp hp
      exact absurd (hone husage p hp) (of_decide_eq_true hne)
  · refine iff_of_true (fun p hp => ?_) fun h => absurd h husage
    have hp := agrees_iff.mp (hold p (List.mem_of_mem_filter hp))
    rw [delThread_of_ne (by omega), agrees_iff]
    exact hp

/-- Of the calls of a program whose handles are right, exactly those that meet the condition keep
them right. -/
theorem right_step {s s' : Program} {a : Call} (hr : Right s) (hs : step s a = some s') :
    Right s' ↔ KeepsAgreement s a := by
  rw [right_iff_agrees]
  cases a with
  | Open fd =>
      obtain ⟨⟨t, handle⟩, hopen, rfl⟩ := Option.map_eq_some_iff.mp hs
      obtain ⟨⟨t', handle'⟩, hopen', heq⟩ := Option.map_eq_some_iff.mp hopen
      cases heq
      obtain ⟨-, -, hentry⟩ := open_eq_some hopen'
      exact forall_agrees_registered hr hentry
  | Socket family socketType fd => exact right_step_socket hr hs
  | Accept h family status =>
      cases hs
      have hold := (right_iff_agrees s).mp hr
      rw [KeepsAgreement, forall_obtain]
      dsimp only
      cases family with
      | other =>
          refine iff_of_true ⟨hold, fun h0 => ?_⟩ fun hne => absurd rfl hne
          change (0 : ℤ) ≤ -1 at h0
          omega
      | _ => exact ⟨fun h _ h0 => h.2 h0 h0, fun h => ⟨hold, fun _ h0 => h nofun h0⟩⟩
  | Close handle => exact right_step_close hr hs
  | Connect | Bind | Listen | Shutdown =>
      cases hs
      exact iff_of_true ((right_iff_agrees s).mp hr) trivial
  | Write | Read =>
      obtain ⟨calls, -, rfl⟩ := Option.map_eq_some_iff.mp hs
      exact iff_of_true ((right_iff_agrees s).mp hr) trivial

/-! ## The theorem -/

/-- **When the calls act on the right descriptors.** Over any table, in every run of a program,
each call on a handle that the program has from `Socket` or `Accept` acts on the descriptor that
was obtained for it, at every point of the run, exactly when each of its calls keeps the
agreement. Some calls go through the table and others give the handle itself to the host, so that
both have to be the descriptor's number. -/
theorem right_iff (t : OpenFilesTable) (as : List Call) (s : Program)
    (h : exec step (.start t) as = some s) :
    Throughout step Right (.start t) as ↔ AllOk step KeepsAgreement (.start t) as := by
  refine throughout_iff_allOk (fun _ => True) Right (fun s a s' _ hr _ hs => ?_) trivial ?_
    (allOk_always as _) h
  · exact ⟨trivial, right_step hr hs⟩
  · intro p hp
    exact absurd hp List.not_mem_nil

/-- A program whose only descriptor is the third after the console's: every call on it is right. -/
theorem right_of_one_socket :
    Throughout step Right (.start (.initial fun _ => 0))
      [.Socket AF_INET_NachOS SOCK_STREAM_NachOS 3, .Connect 3 [49] 80 .AF_INET 0,
        .Write 3 0 1 0 [65] 1, .Close 3] := by
  refine (right_iff _ _ _ rfl).mpr ⟨fun _ _ => ?_, trivial, trivial, ?_, trivial⟩
  · exact ⟨fun p hp => absurd hp List.not_mem_nil, fun _ => ⟨rfl, by decide⟩⟩
  · intro (h : (4 : ℤ) = 1)
    exact absurd h (by decide)

/-- With one more file open on the host, `Socket` gives the handle 3 for the descriptor 5, and
`Connect` asks the host about the descriptor 3. -/
theorem connect_other_descriptor :
    ∃ s, exec step (.start (.initial fun _ => 0))
        [.Socket AF_INET_NachOS SOCK_STREAM_NachOS 5] = some s
      ∧ s.obtained = [(3, 5)] ∧ ¬ Right s
      ∧ hostCalls s.table (.Connect 3 [49] 80 .AF_INET 0)
        = some [.getsockname 3, .connect 3 (some [49]) 80] := by
  refine ⟨_, rfl, rfl, fun hr => ?_, rfl⟩
  have := acts_iff.mp (hr (3, 5) (List.mem_singleton.mpr rfl))
  exact absurd this.same (by decide)

end SystemCalls

end LoadBalancer.NachOS
