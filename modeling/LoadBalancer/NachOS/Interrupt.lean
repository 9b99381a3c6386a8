/-
`interrupt.cc`: simulated time, and the devices' interrupts on it.

`pending` is the row that a `List` stands for ([`lists_refined`]), in the order of the times. A tick
moves the clock and then calls the handlers of the interrupts that are due; an idle machine moves
the clock to the first of them. What a handler does is a parameter: it changes the world, and it
asks for interrupts and for a context switch.

Every interrupt that is scheduled is pending or was fired, and was so once; none comes before its
time, none comes a `SystemTick` behind it, but for a timer that an idle machine leaves behind; and
they come in the order of their times ([`interrupts_fire`]).
-/
import LoadBalancer.Lib.Agenda
import LoadBalancer.NachOS.Condition
import LoadBalancer.Texto

set_option autoImplicit false

namespace LoadBalancer.NachOS

open LoadBalancer.Transition LoadBalancer.Agenda

/-- `MachineStatus`. -/
inductive MachineStatus
  | IdleMode
  | SystemMode
  | UserMode
deriving DecidableEq, Repr

/-- `IntType`. -/
inductive IntType
  | TimerInt
  | DiskInt
  | ConsoleWriteInt
  | ConsoleReadInt
  | NetworkSendInt
  | NetworkRecvInt
deriving DecidableEq, Repr

open IntStatus MachineStatus IntType

/-- `UserTick`. -/
def UserTick : ℤ := 1

/-- `SystemTick`. -/
def SystemTick : ℤ := 10

/-- `PendingInterrupt`; a handler comes with its argument. -/
structure PendingInterrupt (η : Type) where
  handler : η
  when : ℤ
  type : IntType
deriving DecidableEq, Repr

/-- What a handler asks for. -/
inductive Request (η : Type)
  | Schedule (handler : η) (fromNow : ℤ) (type : IntType)
  | YieldOnReturn

/-- How the simulation ends. -/
inductive Ending
  /-- An `ASSERT` fails, or an `int` overflows. -/
  | Abort
  | Halt
  /-- The turns that a loop was given are not enough. -/
  | OutOfTurns
deriving DecidableEq, Repr

/-- `Interrupt`, the ticks of `Statistics` and the rest of the world; and, which the source does
not keep, what was scheduled so far, and what was fired and when. -/
structure Simulation (η ω : Type) where
  level : IntStatus
  pending : List (ℤ × PendingInterrupt η)
  inHandler : Bool
  yieldOnReturn : Bool
  status : MachineStatus
  totalTicks : ℤ
  idleTicks : ℤ
  systemTicks : ℤ
  userTicks : ℤ
  world : ω
  scheduled : List (PendingInterrupt η)
  fired : List (PendingInterrupt η × ℤ)

/-- What the handlers do to the world, and what they ask for. -/
abbrev Devices (η ω : Type) := η → Simulation η ω → ω × List (Request η)

namespace Simulation

variable {η ω : Type}

/-- `Interrupt::Interrupt`. -/
def initial (world : ω) : Simulation η ω where
  level := IntOff
  pending := []
  inHandler := false
  yieldOnReturn := false
  status := SystemMode
  totalTicks := 0
  idleTicks := 0
  systemTicks := 0
  userTicks := 0
  world := world
  scheduled := []
  fired := []

/-- `Schedule`. -/
def Schedule (handler : η) (fromNow : ℤ) (type : IntType) (s : Simulation η ω) :
    Except Ending (Simulation η ω) :=
  let when := s.totalTicks + fromNow
  if 0 < fromNow ∧ when ≤ INT32_MAX then
    let toOccur : PendingInterrupt η := ⟨handler, when, type⟩
    .ok { s with
          pending := insert when toOccur s.pending
          scheduled := s.scheduled ++ [toOccur] }
  else .error .Abort

/-- What a handler asks for is done while it runs. -/
def serve : List (Request η) → Simulation η ω → Except Ending (Simulation η ω)
  | [], s => .ok s
  | .Schedule handler fromNow type :: requests, s =>
      match s.Schedule handler fromNow type with
      | .error ending => .error ending
      | .ok s => serve requests s
  | .YieldOnReturn :: requests, s => serve requests { s with yieldOnReturn := true }

variable (devices : Devices η ω)

/-- The call of the handler in `CheckIfDue`. -/
def invoke (toOccur : PendingInterrupt η) (s : Simulation η ω) :
    Except Ending (Simulation η ω × Bool) :=
  let old := s.status
  let s := { s with
    inHandler := true
    status := SystemMode
    fired := s.fired ++ [(toOccur, s.totalTicks)] }
  let (world, requests) := devices toOccur.handler s
  match serve requests { s with world := world } with
  | .error ending => .error ending
  | .ok s => .ok ({ s with status := old, inHandler := false }, true)

/-- `CheckIfDue`, when the interrupt that was taken from the list is due. -/
def checkLast (when : ℤ) (toOccur : PendingInterrupt η) (s : Simulation η ω) :
    Except Ending (Simulation η ω × Bool) :=
  if s.status = IdleMode ∧ toOccur.type = TimerInt ∧ s.pending.isEmpty then
    .ok ({ s with pending := insert when toOccur s.pending }, false)
  else s.invoke devices toOccur

/-- `CheckIfDue`. -/
def CheckIfDue (advanceClock : Bool) (s : Simulation η ω) :
    Except Ending (Simulation η ω × Bool) :=
  if s.level ≠ IntOff then .error .Abort
  else
    match s.pending with
    | [] => .ok (s, false)
    | (when, toOccur) :: pending =>
        let s := { s with pending := pending }
        if advanceClock ∧ when > s.totalTicks then
          checkLast devices when toOccur
            { s with
              idleTicks := s.idleTicks + (when - s.totalTicks)
              totalTicks := when }
        else if when > s.totalTicks then
          .ok ({ s with pending := insert when toOccur s.pending }, false)
        else checkLast devices when toOccur s

/-- `while (CheckIfDue(false));` -/
def checkAll : ℕ → Simulation η ω → Except Ending (Simulation η ω)
  | 0, _ => .error .OutOfTurns
  | turns + 1, s =>
      match s.CheckIfDue devices false with
      | .error ending => .error ending
      | .ok (s, false) => .ok s
      | .ok (s, true) => checkAll turns s

/-- The clock moves by one tick. -/
def advance (s : Simulation η ω) : Simulation η ω :=
  if s.status = SystemMode then
    { s with totalTicks := s.totalTicks + SystemTick, systemTicks := s.systemTicks + SystemTick }
  else { s with totalTicks := s.totalTicks + UserTick, userTicks := s.userTicks + UserTick }

/-- `OneTick`, up to the `Yield` that it may end with. What other threads do meanwhile are steps of
their own, and so is that the status is restored behind it. -/
def OneTick (s : Simulation η ω) : Except Ending (Simulation η ω) :=
  let s := s.advance
  if INT32_MAX < s.totalTicks then .error .Abort
  else
    match checkAll devices (s.pending.length + 1) { s with level := IntOff } with
    | .error ending => .error ending
    | .ok s =>
        let s := { s with level := IntOn }
        .ok (if s.yieldOnReturn then { s with yieldOnReturn := false, status := SystemMode } else s)

/-- `SetLevel`. -/
def SetLevel (now : IntStatus) (s : Simulation η ω) : Except Ending (Simulation η ω) :=
  let old := s.level
  if now = IntOff ∨ s.inHandler = false then
    let s := { s with level := now }
    if now = IntOn ∧ old = IntOff then s.OneTick devices else .ok s
  else .error .Abort

/-- `Idle`. -/
def Idle (s : Simulation η ω) : Except Ending (Simulation η ω) :=
  match CheckIfDue devices true { s with status := IdleMode } with
  | .error ending => .error ending
  | .ok (_, false) => .error .Halt
  | .ok (s, true) =>
      match checkAll devices (s.pending.length + 1) s with
      | .error ending => .error ending
      | .ok s => .ok { s with yieldOnReturn := false, status := SystemMode }

/-- What the kernel, the devices and the user programs do with the simulation. -/
inductive Action (η ω : Type)
  | Schedule (handler : η) (fromNow : ℤ) (type : IntType)
  | YieldOnReturn
  | SetLevel (now : IntStatus)
  | setStatus (user : Bool)
  | OneTick
  | Idle
  /-- Anything else. -/
  | elsewhere (world : ω)

/-- One action. -/
def act (s : Simulation η ω) : Action η ω → Except Ending (Simulation η ω)
  | .Schedule handler fromNow type => s.Schedule handler fromNow type
  | .YieldOnReturn => .ok { s with yieldOnReturn := true }
  | .SetLevel now => s.SetLevel devices now
  | .setStatus user => .ok { s with status := if user then UserMode else SystemMode }
  | .OneTick => s.OneTick devices
  | .Idle => s.Idle devices
  | .elsewhere world => .ok { s with world := world }

/-- One action that the simulation survives. -/
def step (s : Simulation η ω) (a : Action η ω) : Option (Simulation η ω) :=
  (s.act devices a).toOption

/-! ## What holds while the handlers run -/

/-- The list is in order; nothing on it is much too late; what was scheduled is on it or was fired,
in order and in time. -/
structure Sound (s : Simulation η ω) : Prop where
  ordered : Ordered s.pending
  keys : ∀ x ∈ s.pending, x.2.when = x.1
  late : ∀ x ∈ s.pending, s.totalTicks ≤ x.1 + SystemTick
    ∧ (x.2.type ≠ TimerInt → s.totalTicks < x.1 + SystemTick)
  history : s.scheduled.Perm (s.fired.map Prod.fst ++ s.pending.map Prod.snd)
  inOrder : (s.fired.map fun f => f.1.when).Pairwise (· ≤ ·)
  past : ∀ f ∈ s.fired, f.1.when ≤ s.totalTicks ∧ ∀ x ∈ s.pending, f.1.when ≤ x.1
  punctual : ∀ f ∈ s.fired, f.1.when ≤ f.2 ∧ f.2 ≤ f.1.when + SystemTick
    ∧ (f.1.type ≠ TimerInt → f.2 < f.1.when + SystemTick)
  clock : s.totalTicks = s.idleTicks + s.systemTicks + s.userTicks

variable {devices} {s s' s'' : Simulation η ω}

/-- The other members do not matter. -/
theorem Sound.others (h : Sound s) (level : IntStatus) (inHandler yieldOnReturn : Bool)
    (status : MachineStatus) (world : ω) :
    Sound { s with
      level := level
      inHandler := inHandler
      yieldOnReturn := yieldOnReturn
      status := status
      world := world } :=
  ⟨h.ordered, h.keys, h.late, h.history, h.inOrder, h.past, h.punctual, h.clock⟩

/-- What the check of an interrupt, and the handler that it calls, leave as it was. -/
structure Same (s s' : Simulation η ω) : Prop where
  level : s'.level = s.level
  status : s'.status = s.status
  inHandler : s'.inHandler = s.inHandler
  totalTicks : s'.totalTicks = s.totalTicks
  later : ∀ x ∈ s'.pending, x ∈ s.pending ∨ s.totalTicks < x.1

theorem Same.refl (s : Simulation η ω) : Same s s := ⟨rfl, rfl, rfl, rfl, fun _ h => .inl h⟩

theorem Same.trans (h : Same s s') (h' : Same s' s'') : Same s s'' where
  level := h'.level.trans h.level
  status := h'.status.trans h.status
  inHandler := h'.inHandler.trans h.inHandler
  totalTicks := h'.totalTicks.trans h.totalTicks
  later x hx := by
    rcases h'.later x hx with hmem | hlt
    · exact h.later x hmem
    · rw [h.totalTicks] at hlt
      exact .inr hlt

/-- `Schedule`. -/
theorem schedule_spec {handler : η} {fromNow : ℤ} {type : IntType} (h : Sound s)
    (hs : s.Schedule handler fromNow type = .ok s') :
    Sound s' ∧ Same s s' ∧ due s.totalTicks s'.pending = due s.totalTicks s.pending := by
  unfold Schedule at hs
  dsimp only at hs
  split_ifs at hs with hnow
  cases hs
  have hlater : s.totalTicks < s.totalTicks + fromNow := by omega
  have htick : SystemTick = 10 := rfl
  refine ⟨⟨h.ordered.insert _ _, ?_, ?_, ?_, h.inOrder, ?_, h.punctual, h.clock⟩,
    ⟨rfl, rfl, rfl, rfl, ?_⟩, due_insert hlater _ _⟩
  · intro x hx
    rcases mem_insert.mp hx with rfl | hmem
    · rfl
    · exact h.keys x hmem
  · intro x hx
    rcases mem_insert.mp hx with rfl | hmem
    · dsimp only
      omega
    · exact h.late x hmem
  · have hperm := (insert_perm (s.totalTicks + fromNow) (⟨handler, s.totalTicks + fromNow, type⟩
      : PendingInterrupt η) s.pending).map Prod.snd
    have hscheduled := (List.perm_append_singleton
      (⟨handler, s.totalTicks + fromNow, type⟩ : PendingInterrupt η) _).trans (h.history.cons _)
    exact hscheduled.trans (List.perm_middle.symm.trans (hperm.symm.append_left _))
  · intro f hf
    obtain ⟨hpast, hbefore⟩ := h.past f hf
    refine ⟨hpast, fun x hx => ?_⟩
    rcases mem_insert.mp hx with rfl | hmem
    · exact hpast.trans hlater.le
    · exact hbefore x hmem
  · intro x hx
    rcases mem_insert.mp hx with rfl | hmem
    · exact .inr hlater
    · exact .inl hmem

/-- All that a handler asks for. -/
theorem serve_spec {requests : List (Request η)} (h : Sound s) (hs : serve requests s = .ok s') :
    Sound s' ∧ Same s s' ∧ due s.totalTicks s'.pending = due s.totalTicks s.pending := by
  induction requests generalizing s with
  | nil =>
      cases hs
      exact ⟨h, .refl _, rfl⟩
  | cons request requests ih =>
      cases request with
      | Schedule handler fromNow type =>
          rw [serve] at hs
          cases hfirst : s.Schedule handler fromNow type with
          | error ending =>
              rw [hfirst] at hs
              cases hs
          | ok s₁ =>
              rw [hfirst] at hs
              obtain ⟨hsound, hsame, hdue⟩ := schedule_spec h hfirst
              obtain ⟨hsound', hsame', hdue'⟩ := ih hsound hs
              rw [hsame.totalTicks] at hdue'
              exact ⟨hsound', hsame.trans hsame', hdue'.trans hdue⟩
      | YieldOnReturn =>
          obtain ⟨hsound, hsame, hdue⟩ := ih (h.others _ _ true _ _) hs
          exact ⟨hsound, ⟨hsame.level, hsame.status, hsame.inHandler, hsame.totalTicks,
            hsame.later⟩, hdue⟩

/-- **An interrupt that is due is fired**: the first of the list. -/
theorem Sound.fire {x : ℤ × PendingInterrupt η} {rest : List (ℤ × PendingInterrupt η)}
    (h : Sound s) (hpending : s.pending = x :: rest) (hdue : x.1 ≤ s.totalTicks) :
    Sound { s with pending := rest, fired := s.fired ++ [(x.2, s.totalTicks)] } := by
  have hordered := h.ordered
  have hkeys := h.keys
  have hlate := h.late
  have hhistory := h.history
  have hpast := h.past
  rw [hpending] at hordered hkeys hlate hhistory hpast
  have hwhen := hkeys x List.mem_cons_self
  have hlast := hlate x List.mem_cons_self
  constructor
  · exact hordered.tail
  · exact fun y hy => hkeys y (List.mem_cons_of_mem _ hy)
  · exact fun y hy => hlate y (List.mem_cons_of_mem _ hy)
  · show s.scheduled.Perm ((s.fired ++ [(x.2, s.totalTicks)]).map Prod.fst ++ rest.map Prod.snd)
    rw [List.map_append, List.append_assoc]
    exact hhistory
  · show ((s.fired ++ [(x.2, s.totalTicks)]).map fun f => f.1.when).Pairwise (· ≤ ·)
    rw [List.map_append, List.pairwise_append]
    refine ⟨h.inOrder, List.pairwise_singleton _ _, ?_⟩
    intro a ha b hb
    obtain ⟨f, hf, rfl⟩ := List.mem_map.mp ha
    obtain rfl := List.mem_singleton.mp hb
    show f.1.when ≤ x.2.when
    rw [hwhen]
    exact (hpast f hf).2 x List.mem_cons_self
  · intro f hf
    rcases List.mem_append.mp hf with hmem | hmem
    · exact ⟨(hpast f hmem).1, fun y hy => (hpast f hmem).2 y (List.mem_cons_of_mem _ hy)⟩
    · obtain rfl := List.mem_singleton.mp hmem
      rw [hwhen]
      exact ⟨hdue, fun y hy => hordered.head_le y hy⟩
  · intro f hf
    rcases List.mem_append.mp hf with hmem | hmem
    · exact h.punctual f hmem
    · obtain rfl := List.mem_singleton.mp hmem
      rw [hwhen]
      exact ⟨hdue, hlast⟩
  · exact h.clock

/-- **What a check does.** If it fires, fewer are due; if it does not, none is, or one timer when
the machine is idle. -/
structure Checked (s s' : Simulation η ω) (more : Bool) : Prop extends Same s s' where
  sound : Sound s'
  fewer : more = true → due s.totalTicks s'.pending < due s.totalTicks s.pending
  quiet : more = false → (∀ x ∈ s'.pending, s.totalTicks < x.1)
    ∨ s.status = IdleMode ∧ ∃ x, s'.pending = [x] ∧ x.2.type = TimerInt

theorem Checked.trans {more : Bool} (h : Checked s s' true) (h' : Checked s' s'' more) :
    Checked s s'' more where
  toSame := h.toSame.trans h'.toSame
  sound := h'.sound
  fewer hmore := by
    have hfirst := h.fewer rfl
    have hrest := h'.fewer hmore
    rw [h.totalTicks] at hrest
    exact hrest.trans hfirst
  quiet hmore := by
    have hrest := h'.quiet hmore
    rwa [h.totalTicks, h.status] at hrest

/-- The interrupt that was taken from the list is due. -/
theorem checkLast_spec {x : ℤ × PendingInterrupt η} {rest : List (ℤ × PendingInterrupt η)}
    {more : Bool} (h : Sound s) (hpending : s.pending = x :: rest) (hdue : x.1 ≤ s.totalTicks)
    (hs : checkLast devices x.1 x.2 { s with pending := rest } = .ok (s', more))
    (hhandler : s.inHandler = false) : Checked s s' more := by
  unfold checkLast at hs
  dsimp only at hs
  split_ifs at hs with hlast
  · -- it is put back on the empty list
    cases hs
    obtain ⟨hidle, htimer, hrest⟩ := hlast
    have hnil : rest = [] := List.isEmpty_iff.mp hrest
    subst hnil
    have hsame : insert x.1 x.2 [] = s.pending := hpending.symm
    refine ⟨⟨rfl, rfl, rfl, rfl, fun y hy => .inl (hsame ▸ hy)⟩, ?_,
      fun hmore => absurd hmore (by decide), fun _ => .inr ⟨hidle, x, rfl, htimer⟩⟩
    show Sound { s with pending := insert x.1 x.2 [] }
    rw [hsame]
    exact h
  · unfold invoke at hs
    dsimp only at hs
    split at hs
    · cases hs
    · next s₁ hserve =>
        cases hs
        obtain ⟨hsound, hsame, hfewer⟩ :=
          serve_spec ((h.fire hpending hdue).others _ true _ SystemMode _) hserve
        refine ⟨⟨hsame.level, rfl, hhandler.symm, hsame.totalTicks, fun y hy => ?_⟩,
          hsound.others _ _ _ _ _, fun _ => ?_,
          fun hmore => absurd hmore (by decide)⟩
        · rcases hsame.later y hy with hmem | hlt
          · rw [hpending]
            exact .inl (List.mem_cons_of_mem _ hmem)
          · exact .inr hlt
        · show due s.totalTicks s₁.pending < due s.totalTicks s.pending
          rw [hfewer, hpending, due_cons_of_le hdue]
          exact Nat.lt_succ_self _

/-- The first entry is not due, and is put back. -/
theorem Sound.putBack {x : ℤ × PendingInterrupt η} {rest : List (ℤ × PendingInterrupt η)}
    (h : Sound s) (hpending : s.pending = x :: rest) (hlater : s.totalTicks < x.1) :
    Checked s { s with pending := insert x.1 x.2 rest } false := by
  have hmem (y : ℤ × PendingInterrupt η) : y ∈ insert x.1 x.2 rest ↔ y ∈ s.pending := by
    rw [mem_insert, hpending, List.mem_cons]
  have hordered := h.ordered
  rw [hpending] at hordered
  refine ⟨⟨rfl, rfl, rfl, rfl, fun y hy => .inl ((hmem y).mp hy)⟩,
    ⟨hordered.tail.insert _ _, fun y hy => h.keys y ((hmem y).mp hy),
      fun y hy => h.late y ((hmem y).mp hy), ?_, h.inOrder, fun f hf => ?_, h.punctual, h.clock⟩,
    fun hmore => absurd hmore (by decide), fun _ => .inl fun y hy => ?_⟩
  · have hperm := (insert_perm x.1 x.2 rest).map Prod.snd
    have hhistory := h.history
    rw [hpending] at hhistory
    exact hhistory.trans (hperm.symm.append_left _)
  · obtain ⟨hpast, hbefore⟩ := h.past f hf
    exact ⟨hpast, fun y hy => hbefore y ((hmem y).mp hy)⟩
  · rcases mem_insert.mp hy with rfl | hrest
    · exact hlater
    · exact hlater.trans_le (hordered.head_le y hrest)

/-- `CheckIfDue(false)`. -/
theorem checkIfDue_spec {more : Bool} (h : Sound s) (hhandler : s.inHandler = false)
    (hs : s.CheckIfDue devices false = .ok (s', more)) : Checked s s' more := by
  unfold CheckIfDue at hs
  split_ifs at hs with hlevel
  cases hpending : s.pending with
  | nil =>
      rw [hpending] at hs
      cases hs
      refine ⟨.refl s, h, fun hmore => absurd hmore (by decide), fun _ => .inl fun y hy => ?_⟩
      rw [hpending] at hy
      exact absurd hy List.not_mem_nil
  | cons x rest =>
      rw [hpending] at hs
      dsimp only at hs
      rw [if_neg (fun hadvance => absurd hadvance.1 (by decide))] at hs
      by_cases hlater : x.1 > s.totalTicks
      · rw [if_pos hlater] at hs
        cases hs
        exact h.putBack hpending hlater
      · rw [if_neg hlater] at hs
        exact checkLast_spec h hpending (not_lt.mp hlater) hs hhandler

/-- **The loop.** -/
theorem checkAll_spec {turns : ℕ} (h : Sound s) (hhandler : s.inHandler = false)
    (hs : checkAll devices turns s = .ok s') : Checked s s' false := by
  induction turns generalizing s with
  | zero => cases hs
  | succ turns ih =>
      rw [checkAll] at hs
      split at hs
      · cases hs
      · next s₁ hcheck =>
          cases hs
          exact checkIfDue_spec h hhandler hcheck
      · next s₁ hcheck =>
          have hfirst := checkIfDue_spec h hhandler hcheck
          exact hfirst.trans (ih hfirst.sound (hfirst.inHandler.trans hhandler) hs)

/-! ## What ends the simulation -/

theorem serve_error (requests : List (Request η)) {ending : Ending}
    (hs : serve requests s = .error ending) : ending = .Abort := by
  induction requests generalizing s with
  | nil => cases hs
  | cons request requests ih =>
      cases request with
      | Schedule handler fromNow type =>
          rw [serve] at hs
          cases hfirst : s.Schedule handler fromNow type with
          | ok s₁ =>
              rw [hfirst] at hs
              exact ih hs
          | error ending' =>
              rw [hfirst] at hs
              cases hs
              unfold Schedule at hfirst
              dsimp only at hfirst
              split_ifs at hfirst
              cases hfirst
              rfl
      | YieldOnReturn => exact ih hs

/-- A check only fails. -/
theorem checkIfDue_error {advanceClock : Bool} {ending : Ending}
    (hs : s.CheckIfDue devices advanceClock = .error ending) : ending = .Abort := by
  have hlast {when : ℤ} {toOccur : PendingInterrupt η} {s : Simulation η ω}
      (hs : checkLast devices when toOccur s = .error ending) : ending = .Abort := by
    unfold checkLast invoke at hs
    split_ifs at hs
    dsimp only at hs
    split at hs
    · next hserve =>
        cases hs
        exact serve_error _ hserve
    · cases hs
  unfold CheckIfDue at hs
  split_ifs at hs
  · cases hs
    rfl
  · split at hs
    · cases hs
    · dsimp only at hs
      split_ifs at hs
      · exact hlast hs
      · exact hlast hs

/-- **The loop ends**: as many turns are enough as interrupts are due, and one. What the handlers
ask for is not due yet. -/
theorem checkAll_error {turns : ℕ} {ending : Ending} (h : Sound s) (hhandler : s.inHandler = false)
    (hturns : due s.totalTicks s.pending < turns) (hs : checkAll devices turns s = .error ending) :
    ending = .Abort := by
  induction turns generalizing s with
  | zero => exact absurd hturns (Nat.not_lt_zero _)
  | succ turns ih =>
      rw [checkAll] at hs
      split at hs
      · next hcheck =>
          cases hs
          exact checkIfDue_error hcheck
      · cases hs
      · next s₁ hcheck =>
          have hfirst := checkIfDue_spec h hhandler hcheck
          have hfewer := hfirst.fewer rfl
          refine ih hfirst.sound (hfirst.inHandler.trans hhandler) ?_ hs
          rw [hfirst.totalTicks]
          omega

/-! ## What holds between the actions -/

/-- No interrupt is due, but for a timer that was left behind at this very time. -/
def Quiet (s : Simulation η ω) : Prop :=
  ∀ x ∈ s.pending, s.totalTicks ≤ x.1 ∧ (x.2.type ≠ TimerInt → s.totalTicks < x.1)

theorem Quiet.of_later (h : ∀ x ∈ s.pending, s.totalTicks < x.1) : Quiet s :=
  fun x hx => ⟨(h x hx).le, fun _ => h x hx⟩

/-- What holds between the actions. -/
structure Ready (s : Simulation η ω) : Prop where
  sound : Sound s
  inHandler : s.inHandler = false
  status : s.status ≠ IdleMode
  quiet : Quiet s

theorem Sound.initial (world : ω) : Sound (initial world : Simulation η ω) where
  ordered := List.Pairwise.nil
  keys _ h := absurd h List.not_mem_nil
  late _ h := absurd h List.not_mem_nil
  history := List.Perm.refl _
  inOrder := List.Pairwise.nil
  past _ h := absurd h List.not_mem_nil
  punctual _ h := absurd h List.not_mem_nil
  clock := rfl

/-- **A tick** makes nothing later than a tick. -/
theorem Ready.tick (h : Ready s) {tick system user : ℤ} (hpos : 0 < tick) (hle : tick ≤ SystemTick)
    (hsum : tick = system + user) :
    Sound { s with
      totalTicks := s.totalTicks + tick
      systemTicks := s.systemTicks + system
      userTicks := s.userTicks + user } := by
  have hsound := h.sound
  refine ⟨hsound.ordered, hsound.keys, fun x hx => ?_, hsound.history, hsound.inOrder,
    fun f hf => ?_, hsound.punctual, ?_⟩
  · show s.totalTicks + tick ≤ x.1 + SystemTick
      ∧ (x.2.type ≠ TimerInt → s.totalTicks + tick < x.1 + SystemTick)
    obtain ⟨hle, hlt⟩ := h.quiet x hx
    refine ⟨by omega, fun hno => ?_⟩
    have hlater := hlt hno
    omega
  · obtain ⟨hpast, hbefore⟩ := hsound.past f hf
    exact ⟨hpast.trans (by dsimp only; omega), hbefore⟩
  · have hclock := hsound.clock
    dsimp only
    omega

theorem Ready.advance (h : Ready s) :
    Sound s.advance ∧ s.advance.inHandler = false ∧ s.advance.status ≠ IdleMode := by
  unfold Simulation.advance
  by_cases hsystem : s.status = SystemMode
  · rw [if_pos hsystem]
    have htick := h.tick (show 0 < SystemTick by decide) le_rfl (Int.add_zero SystemTick).symm
    rw [Int.add_zero] at htick
    exact ⟨htick, h.inHandler, h.status⟩
  · rw [if_neg hsystem]
    have htick := h.tick (show 0 < UserTick by decide) (by decide) (Int.zero_add UserTick).symm
    rw [Int.add_zero] at htick
    exact ⟨htick, h.inHandler, h.status⟩

/-- `OneTick`. -/
theorem oneTick_spec (devices : Devices η ω) (h : Ready s) :
    (∀ ending, s.OneTick devices = .error ending → ending = .Abort)
      ∧ ∀ s', s.OneTick devices = .ok s' → Ready s' := by
  obtain ⟨hsound, hhandler, hstatus⟩ := h.advance
  unfold OneTick
  dsimp only
  by_cases hoverflow : INT32_MAX < s.advance.totalTicks
  · rw [if_pos hoverflow]
    exact ⟨fun ending heq => (by cases heq; rfl), fun s' hs' => (by cases hs')⟩
  · rw [if_neg hoverflow]
    have hsound := hsound.others IntOff s.advance.inHandler s.advance.yieldOnReturn
      s.advance.status s.advance.world
    split
    · next ending hloop =>
        have habort := checkAll_error hsound hhandler
          (Nat.lt_succ_of_le (due_le_length _ _)) hloop
        exact ⟨fun ending' heq => (by cases heq; exact habort), fun s' hs' => (by cases hs')⟩
    · next s₂ hloop =>
        have hchecked := checkAll_spec hsound hhandler hloop
        have hstatus₂ : s₂.status ≠ IdleMode := by rwa [hchecked.status]
        have hquiet : ∀ x ∈ s₂.pending, s₂.totalTicks < x.1 := by
          rw [hchecked.totalTicks]
          exact (hchecked.quiet rfl).resolve_right fun hidle => hstatus hidle.1
        refine ⟨fun ending heq => (by cases heq), fun s' hs' => ?_⟩
        cases hs'
        split_ifs
        · exact ⟨hchecked.sound.others _ _ _ _ _, hchecked.inHandler.trans hhandler,
            show SystemMode ≠ IdleMode by decide, .of_later hquiet⟩
        · exact ⟨hchecked.sound.others _ _ _ _ _, hchecked.inHandler.trans hhandler, hstatus₂,
            .of_later hquiet⟩

/-- `SetLevel`. -/
theorem setLevel_spec (devices : Devices η ω) (h : Ready s) (now : IntStatus) :
    (∀ ending, s.SetLevel devices now = .error ending → ending = .Abort)
      ∧ ∀ s', s.SetLevel devices now = .ok s' → Ready s' := by
  have hnow : Ready { s with level := now } :=
    ⟨h.sound.others now _ _ _ _, h.inHandler, h.status, h.quiet⟩
  obtain ⟨herror, hok⟩ := oneTick_spec devices hnow
  unfold SetLevel
  dsimp only
  split_ifs
  · exact ⟨herror, hok⟩
  · exact ⟨fun ending heq => (by cases heq), fun s' hs' => (by cases hs'; exact hnow)⟩
  · exact ⟨fun ending heq => (by cases heq; rfl), fun s' hs' => (by cases hs')⟩

/-- **The clock moves to the first interrupt.** -/
theorem Sound.skip {x : ℤ × PendingInterrupt η} {rest : List (ℤ × PendingInterrupt η)}
    (h : Sound s) (hpending : s.pending = x :: rest) (hlater : s.totalTicks < x.1) :
    Sound { s with
      idleTicks := s.idleTicks + (x.1 - s.totalTicks)
      totalTicks := x.1 } := by
  have hordered := h.ordered
  rw [hpending] at hordered
  have hfirst : ∀ y ∈ s.pending, x.1 ≤ y.1 := by
    rw [hpending]
    intro y hy
    rcases List.mem_cons.mp hy with rfl | hmem
    · exact le_rfl
    · exact hordered.head_le y hmem
  have htick : SystemTick = 10 := rfl
  refine ⟨h.ordered, h.keys, fun y hy => ?_, h.history, h.inOrder, fun f hf => ?_, h.punctual, ?_⟩
  · have hle := hfirst y hy
    dsimp only
    omega
  · obtain ⟨hpast, hbefore⟩ := h.past f hf
    exact ⟨hpast.trans hlater.le, hbefore⟩
  · have hclock := h.clock
    dsimp only
    omega

/-- Whether nothing is left but a timer. -/
def Spent (s : Simulation η ω) : Prop :=
  s.pending = [] ∨ ∃ x, s.pending = [x] ∧ x.2.type = TimerInt

/-- When nothing is left but a timer, an idle machine fires nothing. -/
theorem checkIdle_spent (devices : Devices η ω) (hlevel : s.level = IntOff) (h : Spent s) :
    ∃ s', CheckIfDue devices true { s with status := IdleMode } = .ok (s', false) := by
  unfold CheckIfDue
  dsimp only
  rw [if_neg (not_not_intro hlevel)]
  rcases h with hnil | ⟨x, hx, htimer⟩
  · rw [hnil]
    exact ⟨_, rfl⟩
  · rw [hx]
    dsimp only
    unfold checkLast
    dsimp only
    have hlast : IdleMode = IdleMode ∧ x.2.type = TimerInt
        ∧ ([] : List (ℤ × PendingInterrupt η)).isEmpty = true := ⟨rfl, htimer, rfl⟩
    rw [if_pos hlast, if_pos hlast]
    by_cases hlater : x.1 > s.totalTicks
    · rw [if_pos ⟨rfl, hlater⟩]
      exact ⟨_, rfl⟩
    · rw [if_neg fun hand => hlater hand.2, if_neg hlater]
      exact ⟨_, rfl⟩

/-- The first of an idle machine's interrupts, when something else is left. -/
theorem checkLast_fires {x : ℤ × PendingInterrupt η} {rest : List (ℤ × PendingInterrupt η)}
    {more : Bool} (hpending : s.pending = x :: rest) (hspent : ¬ Spent s) {t : Simulation η ω}
    (ht : t.pending = rest) (hs : checkLast devices x.1 x.2 t = .ok (s', more)) : more = true := by
  unfold checkLast invoke at hs
  dsimp only at hs
  split_ifs at hs with hlast
  · obtain ⟨-, htimer, hrest⟩ := hlast
    rw [ht] at hrest
    rw [List.isEmpty_iff.mp hrest] at hpending
    exact absurd (.inr ⟨x, hpending, htimer⟩) hspent
  · split at hs
    · cases hs
    · cases hs
      rfl

/-- `CheckIfDue(true)` in an idle machine that has something else left. -/
theorem checkIdle_spec {more : Bool} (h : Ready s) (hspent : ¬ Spent s)
    (hs : CheckIfDue devices true { s with status := IdleMode } = .ok (s', more)) :
    more = true ∧ ∃ t, Checked t s' true ∧ t.inHandler = false
      ∧ ∀ y ∈ t.pending, t.totalTicks ≤ y.1 := by
  unfold CheckIfDue at hs
  dsimp only at hs
  split_ifs at hs
  cases hpending : s.pending with
  | nil => exact absurd (.inl hpending) hspent
  | cons x rest =>
      have hordered := h.sound.ordered
      rw [hpending] at hs hordered
      dsimp only at hs
      by_cases hlater : x.1 > s.totalTicks
      · rw [if_pos ⟨rfl, hlater⟩] at hs
        obtain rfl := checkLast_fires hpending hspent rfl hs
        have hsound := (h.sound.skip hpending hlater).others s.level s.inHandler s.yieldOnReturn
          IdleMode s.world
        refine ⟨rfl, _, checkLast_spec hsound hpending le_rfl hs h.inHandler, h.inHandler,
          fun y hy => ?_⟩
        show x.1 ≤ y.1
        rcases List.mem_cons.mp (hpending ▸ hy) with rfl | hmem
        · exact le_rfl
        · exact hordered.head_le y hmem
      · -- a timer that was left behind is due
        rw [if_neg fun hand => hlater hand.2, if_neg hlater] at hs
        obtain rfl := checkLast_fires hpending hspent rfl hs
        have hsound := h.sound.others s.level s.inHandler s.yieldOnReturn IdleMode s.world
        exact ⟨rfl, _, checkLast_spec hsound hpending (not_lt.mp hlater) hs h.inHandler,
          h.inHandler, fun y hy => (h.quiet y hy).1⟩

/-- What the loop of an idle machine leaves behind is later, or a timer that is due right now. -/
theorem Checked.left (h : Checked s s' false) (hlater : ∀ y ∈ s.pending, s.totalTicks ≤ y.1) :
    Quiet s' := by
  unfold Quiet
  rw [h.totalTicks]
  intro x hx
  have hle : s.totalTicks ≤ x.1 := by
    rcases h.later x hx with hmem | hlt
    · exact hlater x hmem
    · exact hlt.le
  refine ⟨hle, fun hno => ?_⟩
  rcases h.quiet rfl with hquiet | ⟨-, y, hy, htimer⟩
  · exact hquiet x hx
  · rw [hy] at hx
    obtain rfl := List.mem_singleton.mp hx
    exact absurd htimer hno

/-- **An idle machine** halts when nothing is left but a timer. -/
theorem idle_spec (devices : Devices η ω) (h : Ready s) :
    (∀ ending, s.Idle devices = .error ending → ending = .Abort ∨ ending = .Halt)
      ∧ (s.Idle devices = .error .Halt ↔ s.level = IntOff ∧ Spent s)
      ∧ ∀ s', s.Idle devices = .ok s' → Ready s' := by
  unfold Idle
  by_cases hlevel : s.level = IntOff
  · by_cases hspent : Spent s
    · obtain ⟨s₁, hcheck⟩ := checkIdle_spent devices hlevel hspent
      rw [hcheck]
      exact ⟨fun ending heq => (by cases heq; exact .inr rfl), iff_of_true rfl ⟨hlevel, hspent⟩,
        fun s' hs' => (by cases hs')⟩
    · split
      · next ending hcheck =>
          obtain rfl := checkIfDue_error hcheck
          exact ⟨fun ending heq => (by cases heq; exact .inl rfl),
            iff_of_false (fun heq => (by cases heq)) fun hand => hspent hand.2,
            fun s' hs' => (by cases hs')⟩
      · next s₁ hcheck => exact absurd (checkIdle_spec h hspent hcheck).1 (by decide)
      · next s₁ hcheck =>
          obtain ⟨-, t, hfirst, hhandler, hlater⟩ := checkIdle_spec h hspent hcheck
          have hhandler₁ := hfirst.inHandler.trans hhandler
          split
          · next ending hloop =>
              obtain rfl := checkAll_error hfirst.sound hhandler₁
                (Nat.lt_succ_of_le (due_le_length _ _)) hloop
              exact ⟨fun ending heq => (by cases heq; exact .inl rfl),
                iff_of_false (fun heq => (by cases heq)) fun hand => hspent hand.2,
                fun s' hs' => (by cases hs')⟩
          · next s₂ hloop =>
              have hall := hfirst.trans (checkAll_spec hfirst.sound hhandler₁ hloop)
              refine ⟨fun ending heq => (by cases heq),
                iff_of_false (fun heq => (by cases heq)) fun hand => hspent hand.2,
                fun s' hs' => ?_⟩
              cases hs'
              exact ⟨hall.sound.others _ _ _ _ _, hall.inHandler.trans hhandler,
                show SystemMode ≠ IdleMode by decide, hall.left hlater⟩
  · have hcheck : CheckIfDue devices true { s with status := IdleMode } = .error .Abort := by
      unfold CheckIfDue
      exact if_pos hlevel
    rw [hcheck]
    exact ⟨fun ending heq => (by cases heq; exact .inl rfl),
      iff_of_false (fun heq => (by cases heq)) fun hand => hlevel hand.1,
      fun s' hs' => (by cases hs')⟩

/-- `Schedule`, between the actions. -/
theorem Ready.schedule {handler : η} {fromNow : ℤ} {type : IntType} (h : Ready s) :
    (∀ ending, s.Schedule handler fromNow type = .error ending → ending = .Abort)
      ∧ ∀ s', s.Schedule handler fromNow type = .ok s' → Ready s' := by
  constructor
  · intro ending heq
    exact serve_error [.Schedule handler fromNow type] (s := s) (by rw [serve, heq])
  · intro s' hs'
    obtain ⟨hsound, hsame, -⟩ := schedule_spec h.sound hs'
    refine ⟨hsound, hsame.inHandler.trans h.inHandler, hsame.status ▸ h.status, fun x hx => ?_⟩
    rw [hsame.totalTicks]
    rcases hsame.later x hx with hmem | hlt
    · exact h.quiet x hmem
    · exact ⟨hlt.le, fun _ => hlt⟩

/-- One action. -/
theorem act_spec (devices : Devices η ω) (h : Ready s) (a : Action η ω) :
    (s.act devices a = .error .Halt ↔ a = .Idle ∧ s.level = IntOff ∧ Spent s)
      ∧ s.act devices a ≠ .error .OutOfTurns ∧ ∀ s', s.act devices a = .ok s' → Ready s' := by
  by_cases hidle : a = .Idle
  · subst hidle
    obtain ⟨herror, hhalt, hok⟩ := idle_spec devices h
    exact ⟨hhalt.trans (and_iff_right rfl).symm,
      fun heq => (herror _ heq).elim (fun hno => (by cases hno)) fun hno => (by cases hno), hok⟩
  · -- nothing else halts
    have hspec : (∀ ending, s.act devices a = .error ending → ending = .Abort)
        ∧ ∀ s', s.act devices a = .ok s' → Ready s' := by
      cases a with
      | Schedule handler fromNow type => exact h.schedule
      | SetLevel now => exact setLevel_spec devices h now
      | OneTick => exact oneTick_spec devices h
      | Idle => exact absurd rfl hidle
      | YieldOnReturn =>
          refine ⟨fun ending heq => (by cases heq), fun s' hs' => ?_⟩
          cases hs'
          exact ⟨h.sound.others _ _ _ _ _, h.inHandler, h.status, h.quiet⟩
      | setStatus user =>
          refine ⟨fun ending heq => (by cases heq), fun s' hs' => ?_⟩
          cases hs'
          refine ⟨h.sound.others _ _ _ _ _, h.inHandler, ?_, h.quiet⟩
          cases user with
          | false => exact show SystemMode ≠ IdleMode by decide
          | true => exact show UserMode ≠ IdleMode by decide
      | elsewhere world =>
          refine ⟨fun ending heq => (by cases heq), fun s' hs' => ?_⟩
          cases hs'
          exact ⟨h.sound.others _ _ _ _ _, h.inHandler, h.status, h.quiet⟩
    obtain ⟨herror, hok⟩ := hspec
    exact ⟨iff_of_false (fun heq => absurd (herror _ heq) (by decide)) fun hand => hidle hand.1,
      fun heq => absurd (herror _ heq) (by decide), hok⟩

theorem ok_of_step {a : Action η ω} (h : step devices s a = some s') :
    s.act devices a = .ok s' := by
  unfold step at h
  cases hact : s.act devices a with
  | error ending =>
      rw [hact] at h
      cases h
  | ok t =>
      rw [hact] at h
      cases h
      rfl

/-- **Every run.** -/
theorem ready_exec {world : ω} {as : List (Action η ω)}
    (h : exec (step devices) (initial world) as = some s) : Ready s := by
  have hreach := Reach.of_exec (allOk_always as _) h
  refine hreach.invariant Ready ⟨.initial world, rfl, show SystemMode ≠ IdleMode by decide,
    fun x hx => absurd hx List.not_mem_nil⟩ fun s a s' hs _ hstep => ?_
  exact (act_spec devices hs a).2.2 s' (ok_of_step hstep)

/-- **Every interrupt comes once, in time and in order.** After every run, whatever the handlers
ask for: what was scheduled was fired or is pending; the times at which the fired ones were to come
do not go down; each was fired when its time had come, and no later than a tick of the system
behind it, and less than that if it is not a timer; what is pending is still to come, but for a
timer that an idle machine left behind. The clock is the sum of the idle, system and user ticks. No
loop of the simulation is endless, and it halts exactly when the machine is idle and nothing is left
but a timer. The row of what is pending is kept in the order of the times, and a tick looks at its
first. -/
theorem interrupts_fire {world : ω} {as : List (Action η ω)}
    (h : exec (step devices) (initial world) as = some s) :
    s.scheduled.Perm (s.fired.map Prod.fst ++ s.pending.map Prod.snd)
      ∧ (s.fired.map fun f => f.1.when).Pairwise (· ≤ ·)
      ∧ (∀ f ∈ s.fired, f.1.when ≤ f.2 ∧ f.2 ≤ f.1.when + SystemTick
        ∧ (f.1.type ≠ TimerInt → f.2 < f.1.when + SystemTick))
      ∧ (∀ x ∈ s.pending, s.totalTicks ≤ x.2.when
        ∧ (x.2.type ≠ TimerInt → s.totalTicks < x.2.when))
      ∧ s.totalTicks = s.idleTicks + s.systemTicks + s.userTicks
      ∧ ∀ a, s.act devices a ≠ .error .OutOfTurns
        ∧ (s.act devices a = .error .Halt ↔ a = .Idle ∧ s.level = IntOff ∧ Spent s) := by
  have hready := ready_exec h
  have hsound := hready.sound
  refine ⟨hsound.history, hsound.inOrder, hsound.punctual, fun x hx => ?_, hsound.clock,
    fun a => ⟨(act_spec devices hready a).2.1, (act_spec devices hready a).1⟩⟩
  rw [hsound.keys x hx]
  exact hready.quiet x hx

/-- A timer that asks for the next time slice, and a disk: the world counts what came. -/
def timerAndDisk : Devices Bool ℕ := fun timer s =>
  (s.world + 1, if timer then [.Schedule true 30 TimerInt, .YieldOnReturn] else [])

/-- Two interrupts, three ticks, and an idle machine. -/
def slices : List (Action Bool ℕ) :=
  [.Schedule false 40 DiskInt, .Schedule true 30 TimerInt, .OneTick, .OneTick, .OneTick,
    .SetLevel IntOff, .Idle]

/-- The timer comes at `30`, and at `40` the disk, to which the idle machine moves the clock. -/
theorem interrupts_fire_timerAndDisk :
    ∃ s : Simulation Bool ℕ, exec (step timerAndDisk) (initial 0) slices = some s
      ∧ s.fired.map Prod.snd = [30, 40] ∧ s.pending.map Prod.fst = [60]
      ∧ s.act timerAndDisk .Idle = .error .Halt := by
  obtain ⟨s, hrun, hfired, hpending, hlevel, hspent⟩ : ∃ s : Simulation Bool ℕ,
      exec (step timerAndDisk) (initial 0) slices = some s ∧ s.fired.map Prod.snd = [30, 40]
        ∧ s.pending.map Prod.fst = [60] ∧ s.level = IntOff ∧ Spent s :=
    ⟨_, rfl, rfl, rfl, rfl, .inr ⟨_, rfl, rfl⟩⟩
  exact ⟨s, hrun, hfired, hpending,
    ((interrupts_fire hrun).2.2.2.2.2 .Idle).2.mpr ⟨rfl, hlevel, hspent⟩⟩

/-! ## Interrupts of one time -/

@[simp] theorem advance_pending (s : Simulation η ω) : s.advance.pending = s.pending := by
  unfold advance
  split_ifs <;> rfl

@[simp] theorem advance_fired (s : Simulation η ω) : s.advance.fired = s.fired := by
  unfold advance
  split_ifs <;> rfl

theorem lt_advance (s : Simulation η ω) : s.totalTicks < s.advance.totalTicks := by
  have hsystem : (0 : ℤ) < SystemTick := by decide
  have huser : (0 : ℤ) < UserTick := by decide
  unfold advance
  split_ifs <;> dsimp only <;> omega

/-- What a tick ends with: the loop, after which the interrupts are on. -/
theorem oneTick_loop (h : Ready s) (hs : s.OneTick devices = .ok s') :
    ∃ turns s₂, checkAll devices (turns + 1) { s.advance with level := IntOff } = .ok s₂
      ∧ s'.pending = s₂.pending ∧ s'.fired = s₂.fired ∧ s'.totalTicks = s.advance.totalTicks := by
  obtain ⟨hsound, hhandler, -⟩ := h.advance
  unfold OneTick at hs
  dsimp only at hs
  split_ifs at hs
  split at hs
  · cases hs
  · next s₂ hloop =>
      have hclock := (checkAll_spec (hsound.others IntOff _ _ _ _) hhandler hloop).totalTicks
      refine ⟨_, s₂, hloop, ?_⟩
      rw [← show s₂.totalTicks = s.advance.totalTicks from hclock]
      cases hs
      split_ifs <;> exact ⟨rfl, rfl, rfl⟩

/-- A tick at which nothing is due only turns the first ones. -/
theorem oneTick_turns {group later : List (ℤ × PendingInterrupt η)} {t : ℤ} (h : Ready s)
    (hpending : s.pending = group ++ later) (hne : group ≠ []) (hsame : ∀ x ∈ group, x.1 = t)
    (hlater : ∀ x ∈ later, t < x.1) (hs : s.OneTick devices = .ok s')
    (hbefore : s'.totalTicks < t) : s'.pending = group.rotate 1 ++ later ∧ s'.fired = s.fired := by
  obtain ⟨turns, s₂, hloop, hlist, hfired, hclock⟩ := oneTick_loop h hs
  rw [hclock] at hbefore
  cases group with
  | nil => exact absurd rfl hne
  | cons x group =>
      obtain rfl : x.1 = t := hsame x List.mem_cons_self
      have hturn : insert x.1 x.2 (group ++ later) = group ++ x :: later :=
        insert_turns (fun y hy => hsame y (List.mem_cons_of_mem _ hy)) hlater
      -- the first check puts its interrupt back, and the loop ends
      have hcheck : CheckIfDue devices false { s.advance with level := IntOff }
          = .ok ({ s.advance with level := IntOff, pending := group ++ x :: later }, false) := by
        unfold CheckIfDue
        rw [if_neg (not_not_intro rfl)]
        dsimp only
        rw [advance_pending, hpending, List.cons_append]
        dsimp only
        rw [if_neg (fun hadvance => absurd hadvance.1 (by decide)), if_pos hbefore, hturn]
      rw [checkAll, hcheck] at hloop
      cases hloop
      rw [hlist, hfired]
      refine ⟨?_, s.advance_fired⟩
      rw [List.rotate_cons_succ, List.rotate_zero, List.append_assoc]
      rfl

/-- **Interrupts of one time take turns.** While nothing is due, every tick moves the first of the
earliest interrupts behind the others of its time: after `n` ticks they are turned by `n` places,
and nothing else of the list is. So they need not come in the order in which they were scheduled. -/
theorem ticks_turn {world : ω} {as : List (Action η ω)} {n : ℕ}
    {group later : List (ℤ × PendingInterrupt η)} {t : ℤ}
    (h : exec (step devices) (initial world) as = some s)
    (hticks : exec (step devices) s (List.replicate n .OneTick) = some s')
    (hpending : s.pending = group ++ later) (hne : group ≠ []) (hsame : ∀ x ∈ group, x.1 = t)
    (hlater : ∀ x ∈ later, t < x.1) (hbefore : s'.totalTicks < t) :
    s'.pending = group.rotate n ++ later ∧ s'.fired = s.fired := by
  induction n generalizing s' with
  | zero =>
      cases hticks
      rw [List.rotate_zero]
      exact ⟨hpending, rfl⟩
  | succ n ih =>
      rw [List.replicate_succ', exec_concat_eq_some_iff] at hticks
      obtain ⟨u, hu, hlast⟩ := hticks
      have htick : u.OneTick devices = .ok s' := ok_of_step hlast
      have hready : Ready u := by
        refine ready_exec (show exec (step devices) (initial world)
          (as ++ List.replicate n .OneTick) = some u from ?_)
        rw [exec_append, h]
        exact hu
      obtain ⟨-, -, -, -, -, hclock⟩ := oneTick_loop hready htick
      have hpast := u.lt_advance
      rw [hclock] at hbefore
      obtain ⟨hlist, hfired⟩ := ih hu (hpast.trans hbefore)
      obtain ⟨hlist', hfired'⟩ := oneTick_turns hready hlist (mt List.rotate_eq_nil_iff.mp hne)
        (fun x hx => hsame x (List.mem_rotate.mp hx)) hlater htick (hclock ▸ hbefore)
      rw [List.rotate_rotate] at hlist'
      exact ⟨hlist', hfired'.trans hfired⟩

/-- At `40` the disk's interrupt and the timer's have changed places. -/
theorem ticks_turn_timerAndDisk :
    ∃ s s' : Simulation Bool ℕ,
      exec (step timerAndDisk) (initial 0) [.Schedule true 40 TimerInt, .Schedule false 40 DiskInt]
          = some s
        ∧ exec (step timerAndDisk) s (List.replicate 3 .OneTick) = some s'
        ∧ s'.pending.map (fun x => x.2.type) = [DiskInt, TimerInt] := by
  obtain ⟨s, s', hrun, hticks, hpending, hbefore⟩ : ∃ s s' : Simulation Bool ℕ,
      exec (step timerAndDisk) (initial 0) [.Schedule true 40 TimerInt, .Schedule false 40 DiskInt]
          = some s
        ∧ exec (step timerAndDisk) s (List.replicate 3 .OneTick) = some s'
        ∧ s.pending = [(40, ⟨true, 40, TimerInt⟩), (40, ⟨false, 40, DiskInt⟩)] ++ []
        ∧ s'.totalTicks < 40 := ⟨_, _, rfl, rfl, rfl, by decide⟩
  obtain ⟨hturned, -⟩ := ticks_turn hrun hticks hpending (List.cons_ne_nil _ _) (by decide)
    (by decide) hbefore
  exact ⟨s, s', hrun, hticks, by rw [hturned]; rfl⟩

end Simulation

end LoadBalancer.NachOS
