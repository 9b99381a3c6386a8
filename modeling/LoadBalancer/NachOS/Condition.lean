/-
`Condition` of `synch.cc`.

Here it matters when a thread can be interrupted. Every thread runs with its own interrupt
level; another thread gets the processor only from a thread that runs with interrupts on, or
from one that is blocked ([`Condition.MayRun`]). `Wait` releases the lock, switches the
interrupts off for the `Append` alone, and calls `Sleep` with the level it was called with,
although `Sleep` asserts that they are off.

[`Condition.wait_atomic_iff`] says for which calls that goes well: those made with the
interrupts switched off already.
-/
import LoadBalancer.NachOS.Lock

set_option autoImplicit false

namespace LoadBalancer.NachOS

open LoadBalancer.Transition LoadBalancer.Threads

/-! ## The code -/

/-- `IntStatus`. -/
inductive IntStatus
  | IntOff
  | IntOn
deriving DecidableEq, Repr

namespace Condition

/-- The statement that a thread executes next. A place in an operation of the lock is a place
of `Lock.lean`. -/
inductive Point
  /-- In no operation. -/
  | idle
  /-- In a call of `Acquire`. -/
  | acquire (p : Lock.Point)
  /-- In a call of `Release`. -/
  | release (p : Lock.Point)
  /-- `Wait`, in `conditionLock->Release()`. -/
  | waitRelease (p : Lock.Point)
  /-- `Wait`, at `IntStatus oldLevel = interrupt->SetLevel(IntOff)`. -/
  | disable
  /-- `Wait`, at `this->waitingThreads.Append(currentThread)`. -/
  | append
  /-- `Wait`, at `interrupt->SetLevel(oldLevel)`. -/
  | restore
  /-- `Wait`, at the entry of `currentThread->Sleep()`. -/
  | sleep
  /-- `Wait`, asleep. -/
  | asleep
  /-- `Wait`, in `conditionLock->Acquire()`. -/
  | waitAcquire (p : Lock.Point)
  /-- `Signal`, or `Broadcast` if `all`, at `if(conditionLock->isHeldByCurrentThread())`. -/
  | notify (all : Bool)
  /-- In their `conditionLock->Release()`. -/
  | notifyRelease (all : Bool) (p : Lock.Point)
  /-- At their `!this->waitingThreads.IsEmpty()`: an `if` in `Signal`, a `while` in `Broadcast`. -/
  | notifyEmpty (all : Bool)
  /-- At `this->waitingThreads.Remove()` and `scheduler->ReadyToRun(thread)`. -/
  | notifyRemove (all : Bool)
deriving DecidableEq, Repr

/-- A thread: where it is, its interrupt level, and the `oldLevel` of its `Wait`. -/
structure Thread where
  point : Point
  level : IntStatus
  oldLevel : IntStatus
deriving DecidableEq, Repr

/-- A condition, the lock it is used with, and the thread that runs. -/
structure State (ι : Type) where
  lock : Lock ι
  waitingThreads : List ι
  currentThread : ι
  /-- An `ASSERT` has failed. -/
  aborted : Bool

/-- What a thread can do: call an operation, set its interrupt level between two calls, or
execute the next statement. -/
inductive Action
  | Acquire
  | Release
  | Wait
  | Signal
  | Broadcast
  | SetLevel (level : IntStatus)
  | run
deriving DecidableEq, Repr

variable {ι : Type}

section Code

variable [DecidableEq ι]

/-- A statement of the lock, and where the thread is then: still in the operation, at `here`, or
behind it, at `next`. -/
def onLock (t : ι) (p : Lock.Point) (here : Lock.Point → Point) (next : Point) (s : State ι)
    (x : Thread) : Option (State ι × Thread) :=
  (s.lock.run t p).map fun (l, p') =>
    ({ s with lock := l }, { x with point := if p' = .idle then next else here p' })

/-- The next statement of thread `t`, which stands at `p`. -/
def run (t : ι) (s : State ι) (x : Thread) : Point → Option (State ι × Thread)
  | .idle => none
  | .acquire p => onLock t p .acquire .idle s x
  | .release p => onLock t p .release .idle s x
  | .waitRelease p => onLock t p .waitRelease .disable s x
  | .disable => some (s, { x with point := .append, level := .IntOff, oldLevel := x.level })
  | .append =>
      some ({ s with waitingThreads := s.waitingThreads ++ [t] }, { x with point := .restore })
  | .restore => some (s, { x with point := .sleep, level := x.oldLevel })
  | .sleep =>
      if x.level = .IntOff then some (s, { x with point := .asleep })
      else some ({ s with aborted := true }, x)
  -- `Sleep` returns when the thread has been made ready
  | .asleep =>
      if s.waitingThreads.contains t then none else some (s, { x with point := .waitAcquire .check })
  | .waitAcquire p => onLock t p .waitAcquire .idle s x
  | .notify all =>
      some (s, { x with
                 point := if s.lock.holdingThread = some t then .notifyRelease all .test
                  else .idle })
  | .notifyRelease all p => onLock t p (.notifyRelease all) (.notifyEmpty all) s x
  | .notifyEmpty all =>
      some (s, { x with point := if s.waitingThreads = [] then .idle else .notifyRemove all })
  | .notifyRemove all =>
      match s.waitingThreads with
      -- another thread has emptied the list since the test, and `thread` is `NULL`
      | [] => none
      | _ :: rest =>
          some ({ s with waitingThreads := rest },
            { x with point := if all then .notifyEmpty all else .idle })

/-- What thread `t` does, once it has the processor. -/
def act (t : ι) (a : Action) (s : State ι) (x : Thread) : Option (State ι × Thread) :=
  match a, x.point with
  | .Acquire, .idle => some (s, { x with point := .acquire .check })
  | .Release, .idle => some (s, { x with point := .release .test })
  | .Wait, .idle => some (s, { x with point := .waitRelease .test })
  | .Signal, .idle => some (s, { x with point := .notify false })
  | .Broadcast, .idle => some (s, { x with point := .notify true })
  | .SetLevel level, .idle => some (s, { x with level := level })
  | .run, p => run t s x p
  | _, _ => none

/-- The thread sleeps, in `Wait` or in the `P` of an `Acquire`, and is not ready. -/
def blocked (s : State ι) (t : ι) (x : Thread) : Bool :=
  match x.point with
  | .asleep => s.waitingThreads.contains t
  | .acquire .P => s.lock.lock.queue.contains t
  | .waitAcquire .P => s.lock.lock.queue.contains t
  | _ => false

/-- A condition and the threads that use it. -/
abbrev System (ι : Type) := Config (State ι) ι Thread

/-- Thread `t` can have the processor: it has it already, or the thread that has it can be
interrupted or is blocked. -/
def MayRun (c : System ι) (t : ι) : Prop :=
  let current := c.shared.currentThread
  current = t ∨ (c.threads current).level = .IntOn
    ∨ blocked c.shared current (c.threads current) = true

instance (c : System ι) (t : ι) : Decidable (MayRun c t) :=
  inferInstanceAs (Decidable (_ ∨ _ ∨ _))

/-- One step of one thread, which then has the processor. -/
def step (c : System ι) (a : ι × Action) : Option (System ι) :=
  if c.shared.aborted = false ∧ MayRun c a.1 then
    Threads.step (fun t a (s, x) => act t a { s with currentThread := t } x) c a
  else none

end Code

/-- A condition on which nobody waits and a new lock, whatever is recorded in it; the threads are
in no operation, with interrupts on. -/
def System.initial (holdingThread : Option ι) (currentThread : ι) : System ι where
  shared := ⟨⟨holdingThread, .initial 1⟩, [], currentThread, false⟩
  threads := fun _ => ⟨.idle, .IntOn, .IntOn⟩

/-! ## What a step can be -/

/-- The calls, and where they begin. -/
inductive Calls : Action → Point → Prop
  | acquire : Calls .Acquire (.acquire .check)
  | release : Calls .Release (.release .test)
  | wait : Calls .Wait (.waitRelease .test)
  | signal : Calls .Signal (.notify false)
  | broadcast : Calls .Broadcast (.notify true)

/-- The places in which an operation of the lock is executed, and what comes after it. -/
inductive Stage : (Lock.Point → Point) → Point → Prop
  | acquire : Stage .acquire .idle
  | release : Stage .release .idle
  | waitRelease : Stage .waitRelease .disable
  | waitAcquire : Stage .waitAcquire .idle
  | notifyRelease (all : Bool) : Stage (.notifyRelease all) (.notifyEmpty all)

/-- **What a step of a thread can be.** -/
inductive Acts (t : ι) (s : State ι) (x : Thread) : Action → State ι → Thread → Prop
  | call {a : Action} {p : Point} (hp : x.point = .idle) (h : Calls a p) :
      Acts t s x a s { x with point := p }
  | setLevel (level : IntStatus) (hp : x.point = .idle) :
      Acts t s x (.SetLevel level) s { x with level := level }
  | lock {here : Lock.Point → Point} {next : Point} {p p' : Lock.Point} {l : Lock ι}
      (hp : x.point = here p) (hstage : Stage here next) (h : Lock.Runs t s.lock p l p') :
      Acts t s x .run { s with lock := l } { x with point := if p' = .idle then next else here p' }
  | disable (hp : x.point = .disable) :
      Acts t s x .run s { x with point := .append, level := .IntOff, oldLevel := x.level }
  | append (hp : x.point = .append) :
      Acts t s x .run { s with waitingThreads := s.waitingThreads ++ [t] }
        { x with point := .restore }
  | restore (hp : x.point = .restore) :
      Acts t s x .run s { x with point := .sleep, level := x.oldLevel }
  | sleep (hp : x.point = .sleep) (h : x.level = .IntOff) :
      Acts t s x .run s { x with point := .asleep }
  | abort (hp : x.point = .sleep) (h : x.level ≠ .IntOff) :
      Acts t s x .run { s with aborted := true } x
  | wake (hp : x.point = .asleep) (h : t ∉ s.waitingThreads) :
      Acts t s x .run s { x with point := .waitAcquire .check }
  | held {all : Bool} (hp : x.point = .notify all) (h : s.lock.holdingThread = some t) :
      Acts t s x .run s { x with point := .notifyRelease all .test }
  | notHeld {all : Bool} (hp : x.point = .notify all) (h : s.lock.holdingThread ≠ some t) :
      Acts t s x .run s { x with point := .idle }
  | empty {all : Bool} (hp : x.point = .notifyEmpty all) (h : s.waitingThreads = []) :
      Acts t s x .run s { x with point := .idle }
  | notEmpty {all : Bool} (hp : x.point = .notifyEmpty all) (h : s.waitingThreads ≠ []) :
      Acts t s x .run s { x with point := .notifyRemove all }
  | remove {all : Bool} {u : ι} {rest : List ι} (hp : x.point = .notifyRemove all)
      (h : s.waitingThreads = u :: rest) :
      Acts t s x .run { s with waitingThreads := rest }
        { x with point := if all then .notifyEmpty all else .idle }

section Acts

variable [DecidableEq ι] {t : ι} {s s' : State ι} {x x' : Thread}

theorem acts_of_onLock {p : Lock.Point} {here : Lock.Point → Point} {next : Point}
    (hp : x.point = here p) (hstage : Stage here next)
    (h : onLock t p here next s x = some (s', x')) : Acts t s x .run s' x' := by
  obtain ⟨⟨l, p'⟩, hrun, heq⟩ := Option.map_eq_some_iff.mp h
  cases heq
  exact .lock hp hstage (Lock.runs_of_run hrun)

theorem acts_of_run (h : run t s x x.point = some (s', x')) : Acts t s x .run s' x' := by
  cases hp : x.point with
  | idle =>
      rw [hp] at h
      cases h
  | acquire p =>
      rw [hp] at h
      exact acts_of_onLock hp .acquire h
  | release p =>
      rw [hp] at h
      exact acts_of_onLock hp .release h
  | waitRelease p =>
      rw [hp] at h
      exact acts_of_onLock hp .waitRelease h
  | disable =>
      rw [hp] at h
      cases h
      exact .disable hp
  | append =>
      rw [hp] at h
      cases h
      exact .append hp
  | restore =>
      rw [hp] at h
      cases h
      exact .restore hp
  | sleep =>
      rw [hp, run] at h
      split_ifs at h with hlevel
      · cases h
        exact .sleep hp hlevel
      · cases h
        exact .abort hp hlevel
  | asleep =>
      rw [hp, run] at h
      split_ifs at h with hlisted
      cases h
      exact .wake hp (by simpa using hlisted)
  | waitAcquire p =>
      rw [hp] at h
      exact acts_of_onLock hp .waitAcquire h
  | notify all =>
      rw [hp] at h
      cases h
      split_ifs with hholder
      · exact .held hp hholder
      · exact .notHeld hp hholder
  | notifyRelease all p =>
      rw [hp] at h
      exact acts_of_onLock hp (.notifyRelease all) h
  | notifyEmpty all =>
      rw [hp] at h
      cases h
      split_ifs with hnil
      · exact .empty hp hnil
      · exact .notEmpty hp hnil
  | notifyRemove all =>
      rw [hp, run] at h
      cases hlist : s.waitingThreads with
      | nil =>
          rw [hlist] at h
          cases h
      | cons u rest =>
          rw [hlist] at h
          cases h
          exact .remove hp hlist

theorem acts_of_act {a : Action} (h : act t a s x = some (s', x')) : Acts t s x a s' x' := by
  unfold act at h
  split at h
  · next hp =>
      cases h
      exact .call hp .acquire
  · next hp =>
      cases h
      exact .call hp .release
  · next hp =>
      cases h
      exact .call hp .wait
  · next hp =>
      cases h
      exact .call hp .signal
  · next hp =>
      cases h
      exact .call hp .broadcast
  · next level hp =>
      cases h
      exact .setLevel level hp
  · exact acts_of_run h
  · cases h

/-- **What a step does**: thread `t` could have the processor, has it then, and acts. -/
theorem step_eq_some {c c' : System ι} {a : ι × Action} (h : step c a = some c') :
    MayRun c a.1 ∧ ∃ s x,
      Acts a.1 { c.shared with currentThread := a.1 } (c.threads a.1) a.2 s x
        ∧ c' = ⟨s, Function.update c.threads a.1 x⟩ := by
  unfold step at h
  split_ifs at h with hrun
  obtain ⟨s, x, hact, rfl⟩ := Threads.step_eq_some h
  exact ⟨hrun.2, s, x, acts_of_act hact, rfl⟩

end Acts

/-! ## What `Wait` promises -/

/-- The lock is released, and the thread does not sleep yet. -/
def Point.inGap : Point → Bool
  | .waitRelease .clear => true
  | .disable => true
  | .append => true
  | .restore => true
  | .sleep => true
  | _ => false

/-- The thread has put itself on the list, and goes to sleep or has just done so. -/
def Point.listed : Point → Bool
  | .restore => true
  | .sleep => true
  | .asleep => true
  | _ => false

/-- A `Wait` is atomic: from the release of the lock until the thread sleeps no other thread runs,
`Sleep` is entered with interrupts off, and when another thread gets the processor, the one
that sleeps is on the list. -/
structure Atomic (c : System ι) : Prop where
  alone : ∀ t, (c.threads t).point.inGap = true → c.shared.currentThread = t
  masked : ∀ t, (c.threads t).point = .sleep → (c.threads t).level = .IntOff
  listed : ∀ t, (c.threads t).point.listed = true → c.shared.currentThread = t →
    t ∈ c.shared.waitingThreads

/-- A call of `Wait` is made with interrupts off. -/
def Masked (c : System ι) (a : ι × Action) : Prop :=
  a.2 = .Wait → (c.threads a.1).level = .IntOff

instance (c : System ι) (a : ι × Action) : Decidable (Masked c a) :=
  inferInstanceAs (Decidable (_ → _))

/-- A thread in `Wait` that called it with interrupts off, up to its `Sleep`. -/
def Quiet (x : Thread) : Prop :=
  match x.point with
  | .waitRelease _ => x.level = .IntOff
  | .disable => x.level = .IntOff
  | .append => x.level = .IntOff ∧ x.oldLevel = .IntOff
  | .restore => x.level = .IntOff ∧ x.oldLevel = .IntOff
  | .sleep => x.level = .IntOff
  | _ => True

/-- A thread in `Wait` that called it with interrupts on, and has its `Sleep` still to come. -/
def Loud (x : Thread) : Prop :=
  match x.point with
  | .waitRelease _ => x.level = .IntOn
  | .disable => x.level = .IntOn
  | .append => x.oldLevel = .IntOn
  | .restore => x.oldLevel = .IntOn
  | _ => False

/-- The thread is in `Wait`, and its `Sleep` is still to come. -/
def Point.entering : Point → Bool
  | .waitRelease _ => true
  | .disable => true
  | .append => true
  | .restore => true
  | _ => false

section Step

variable {t : ι} {s s' : State ι} {x x' : Thread} {a : Action}

theorem Loud.entering (h : Loud x) : x.point.entering = true := by
  obtain ⟨point, level, oldLevel⟩ := x
  cases point with
  | waitRelease | disable | append | restore => rfl
  | _ => cases h

/-- The level of a `Wait` is kept up to its `Sleep`. -/
theorem Acts.quiet (h : Acts t s x a s' x') (hcall : a = .Wait → x.level = .IntOff)
    (hx : Quiet x) : Quiet x' := by
  obtain ⟨point, level, oldLevel⟩ := x
  cases h with
  | call hp h =>
      cases h with
      | wait => exact hcall rfl
      | _ => trivial
  | setLevel level hp =>
      obtain rfl : point = .idle := hp
      trivial
  | lock hp hstage h =>
      subst hp
      dsimp only
      split_ifs
      · cases hstage with
        | waitRelease => exact hx
        | _ => trivial
      · cases hstage with
        | waitRelease => exact hx
        | _ => trivial
  | disable hp =>
      obtain rfl : point = .disable := hp
      exact ⟨rfl, hx⟩
  | append hp =>
      obtain rfl : point = .append := hp
      exact hx
  | restore hp =>
      obtain rfl : point = .restore := hp
      exact hx.2
  | abort hp hlevel => exact hx
  | remove hp hlist =>
      dsimp only
      split_ifs
      · trivial
      · trivial
  | _ => trivial

/-- A `Wait` with interrupts on arrives at its `Sleep` with interrupts on. -/
theorem Acts.loud (h : Acts t s x a s' x') (hx : Loud x) :
    Loud x' ∨ (x'.point = .sleep ∧ x'.level = .IntOn) := by
  obtain ⟨point, level, oldLevel⟩ := x
  cases h with
  | lock hp hstage h =>
      subst hp
      cases hstage with
      | waitRelease =>
          dsimp only
          split_ifs
          · exact .inl hx
          · exact .inl hx
      | _ => cases hx
  | disable hp =>
      obtain rfl : point = .disable := hp
      exact .inl hx
  | append hp =>
      obtain rfl : point = .append := hp
      exact .inl hx
  | restore hp =>
      obtain rfl : point = .restore := hp
      exact .inr ⟨rfl, hx⟩
  | call hp | setLevel _ hp | sleep hp | abort hp | wake hp | held hp | notHeld hp | empty hp
  | notEmpty hp | remove hp =>
      obtain rfl := hp
      cases hx

/-- Where a thread that is on the list comes from. -/
theorem Acts.listed (h : Acts t s x a s' x')
    (hx : x.point.inGap = true → x.point.listed = true → t ∈ s.waitingThreads)
    (hx' : x'.point.listed = true) : t ∈ s'.waitingThreads := by
  obtain ⟨point, level, oldLevel⟩ := x
  cases h with
  | call hp h => cases h <;> cases hx'
  | setLevel level hp =>
      obtain rfl : point = .idle := hp
      cases hx'
  | lock hp hstage h =>
      dsimp only at hx'
      split_ifs at hx' <;> cases hstage <;> cases hx'
  | append hp => exact List.mem_append_right _ (List.mem_singleton_self t)
  | restore hp =>
      obtain rfl : point = .restore := hp
      exact hx rfl rfl
  | sleep hp hlevel =>
      obtain rfl : point = .sleep := hp
      exact hx rfl rfl
  | abort hp hlevel =>
      obtain rfl : point = .sleep := hp
      exact hx rfl rfl
  | remove hp hlist =>
      dsimp only at hx'
      split_ifs at hx' <;> cases hx'
  | _ => cases hx'

/-- A quiet thread in the gap runs with interrupts off and is not blocked. -/
theorem Quiet.inGap [DecidableEq ι] (hx : Quiet x) (hgap : x.point.inGap = true) :
    x.level = .IntOff ∧ blocked s t x = false := by
  obtain ⟨point, level, oldLevel⟩ := x
  cases point with
  | waitRelease p => exact ⟨hx, rfl⟩
  | disable => exact ⟨hx, rfl⟩
  | append => exact ⟨hx.1, rfl⟩
  | restore => exact ⟨hx.1, rfl⟩
  | sleep => exact ⟨hx, rfl⟩
  | _ => cases hgap

/-- A step leaves the processor with the thread that makes it. -/
theorem Acts.currentThread (h : Acts t s x a s' x') : s'.currentThread = s.currentThread := by
  cases h with
  | _ => rfl

end Step

section Result

variable [DecidableEq ι] {c c' : System ι} {a : ι × Action}

/-- What holds while `Wait` is only called with interrupts off. -/
structure Inv (c : System ι) : Prop where
  quiet : ∀ t, Quiet (c.threads t)
  alone : ∀ t, (c.threads t).point.inGap = true → c.shared.currentThread = t
  listed : ∀ t, (c.threads t).point.listed = true → c.shared.currentThread = t →
    t ∈ c.shared.waitingThreads

omit [DecidableEq ι] in
theorem inv_initial (holdingThread : Option ι) (currentThread : ι) :
    Inv (System.initial holdingThread currentThread) where
  quiet := fun t => trivial
  alone := fun t h => (by cases h)
  listed := fun t h => (by cases h)

theorem Inv.atomic (h : Inv c) : Atomic c where
  alone := h.alone
  masked := by
    intro t hsleep
    exact ((h.quiet t).inGap (s := c.shared) (t := t) (by rw [hsleep]; rfl)).1
  listed := h.listed

/-- A thread in the gap keeps the processor. -/
theorem Inv.eq_of_mayRun (h : Inv c) {t u : ι} (hrun : MayRun c t)
    (hgap : (c.threads u).point.inGap = true) : u = t := by
  have hcurrent := h.alone u hgap
  obtain ⟨hlevel, hblocked⟩ := (h.quiet u).inGap (s := c.shared) (t := u) hgap
  rcases hrun with hsame | hon | hsleeps
  · rw [← hcurrent, hsame]
  · rw [hcurrent, hlevel] at hon
    cases hon
  · rw [hcurrent, hblocked] at hsleeps
    cases hsleeps

/-- **The step lemma.** -/
theorem inv_step (hinv : Inv c) (hok : Masked c a) (h : step c a = some c') : Inv c' := by
  obtain ⟨hrun, s, x, hacts, rfl⟩ := step_eq_some h
  have hcurrent : s.currentThread = a.1 := hacts.currentThread
  have hquiet : Quiet x := hacts.quiet hok (hinv.quiet a.1)
  refine ⟨forall_update (P := fun _ x => Quiet x) hquiet fun u _ => hinv.quiet u, ?_, ?_⟩
  · -- the others are not in the gap
    apply forall_update (P := fun u (y : Thread) => y.point.inGap = true → s.currentThread = u)
    · exact fun _ => hcurrent
    · exact fun u hu hgap => absurd (hinv.eq_of_mayRun hrun hgap) hu
  · apply forall_update (P := fun u (y : Thread) => y.point.listed = true → s.currentThread = u →
      u ∈ s.waitingThreads)
    · intro hlisted _
      exact hacts.listed (fun hgap hlisted => hinv.listed a.1 hlisted (hinv.alone a.1 hgap)) hlisted
    · exact fun u hu _ hself => absurd (hself.symm.trans hcurrent) hu

/-- A call of `Wait` was made with interrupts on. -/
def Unmasked (c : System ι) : Prop := ∃ t, Loud (c.threads t)

theorem unmasked_of_not_masked (hok : ¬ Masked c a) (h : step c a = some c') : Unmasked c' := by
  simp only [Masked, Classical.not_imp] at hok
  obtain ⟨hwait, hlevel⟩ := hok
  obtain ⟨-, s, x, hacts, rfl⟩ := step_eq_some h
  refine ⟨a.1, ?_⟩
  dsimp only
  rw [Function.update_self]
  rw [hwait] at hacts
  have hon : (c.threads a.1).level = .IntOn := by
    cases hl : (c.threads a.1).level with
    | IntOff => exact absurd hl hlevel
    | IntOn => rfl
  cases hacts with
  | call hp hcall =>
      cases hcall with
      | wait => exact hon

theorem unmasked_step (hafter : Atomic c') (hloud : Unmasked c) (h : step c a = some c') :
    Unmasked c' := by
  obtain ⟨t, ht⟩ := hloud
  obtain ⟨-, s, x, hacts, rfl⟩ := step_eq_some h
  refine ⟨t, ?_⟩
  have hmasked := hafter.masked t
  dsimp only at hmasked ⊢
  by_cases hta : t = a.1
  · subst hta
    rw [Function.update_self] at hmasked ⊢
    rcases hacts.loud ht with hx | ⟨hsleep, hon⟩
    · exact hx
    · rw [hmasked hsleep] at hon
      cases hon
  · rwa [Function.update_of_ne hta]

/-- **When `Wait` is atomic.** As long as `Wait` is only called with interrupts off, nothing
happens between its release of the lock and its sleep, and no signal is lost. In a run in
which every call of `Wait` has come to its `Sleep`, this is so only if all of them were made
with interrupts off. -/
theorem wait_atomic_iff {holdingThread : Option ι} {currentThread : ι} {as : List (ι × Action)}
    (hrun : exec step (System.initial holdingThread currentThread) as = some c) :
    (AllOk step Masked (System.initial holdingThread currentThread) as
        → Throughout step Atomic (System.initial holdingThread currentThread) as)
      ∧ ((∀ t, (c.threads t).point.entering = false) →
        Throughout step Atomic (System.initial holdingThread currentThread) as →
          AllOk step Masked (System.initial holdingThread currentThread) as) := by
  obtain ⟨hif, honly⟩ := throughout_iff_allOk_of_settled (fun _ => True) Inv Atomic Unmasked
    (fun _ _ _ _ _ _ => trivial) (fun _ => Inv.atomic) (fun _ _ _ hinv _ => inv_step hinv)
    (fun _ _ _ _ _ => unmasked_of_not_masked)
    (fun _ _ _ _ _ hafter _ => unmasked_step hafter)
    trivial (inv_initial holdingThread currentThread) (allOk_always as _) hrun
  refine ⟨hif, fun hsettled => honly ?_⟩
  rintro ⟨t, ht⟩
  exact absurd ht.entering (by rw [hsettled t]; exact Bool.false_ne_true)

/-- A call, and the next statements of the thread. -/
def burst (t : ι) (call : Action) (statements : ℕ) : List (ι × Action) :=
  (t, call) :: List.replicate statements (t, .run)

/-- Thread `0` switches its interrupts off for its `Wait`, thread `1` signals, and thread `0`
goes on. -/
theorem wait_atomic_two_threads :
    let as : List (Fin 2 × Action) :=
      burst 0 .Acquire 3 ++ burst 0 (.SetLevel .IntOff) 0 ++ burst 0 .Wait 7 ++ burst 1 .Acquire 3
        ++ burst 1 .Signal 6 ++ List.replicate 4 (0, .run)
    ∃ c, exec step (System.initial none 0) as = some c ∧ (c.threads 0).point = .idle
      ∧ Throughout step Atomic (System.initial none 0) as := by
  intro as
  have hrun : (exec step (System.initial none 0) as).map (fun c => (c.threads 0).point)
      = some .idle := by decide +kernel
  obtain ⟨c, hc, hidle⟩ := Option.map_eq_some_iff.mp hrun
  exact ⟨c, hc, hidle, (wait_atomic_iff hc).1 (by decide +kernel)⟩

/-- The action sets the interrupt level. -/
def Action.setsLevel : Action → Bool
  | .SetLevel _ => true
  | _ => false

/-- The threads leave their interrupts on. -/
def Enabled (_ : System ι) (a : ι × Action) : Prop := a.2.setsLevel = false

instance (c : System ι) (a : ι × Action) : Decidable (Enabled c a) :=
  inferInstanceAs (Decidable (_ = _))

/-- **`Wait` can be interrupted.** Thread `0` has released the lock in its `Wait` when thread `1` gets
the processor, acquires the lock and signals: it finds nobody on the list. -/
theorem wait_interrupted :
    ¬ ∀ c : System (Fin 2), Reach step Enabled (System.initial none 0) c → Atomic c := by
  intro hall
  let as : List (Fin 2 × Action) :=
    burst 0 .Acquire 3 ++ burst 0 .Wait 3 ++ burst 1 .Acquire 3 ++ burst 1 .Signal 5
  have hrun : (exec step (System.initial none 0) as).map
      (fun c => ((c.threads 0).point, c.shared.currentThread)) = some (.disable, 1) := by
    decide +kernel
  obtain ⟨c, hc, hboth⟩ := Option.map_eq_some_iff.mp hrun
  obtain ⟨hpoint, hcurrent⟩ := Prod.ext_iff.mp hboth
  have hgap : (c.threads 0).point.inGap = true := congrArg Point.inGap hpoint
  have hok : AllOk step Enabled (System.initial none 0) as := by decide +kernel
  have halone := (hall c (Reach.of_exec hok hc)).alone 0 hgap
  exact absurd (hcurrent.symm.trans halone) (by decide)

end Result

end Condition

end LoadBalancer.NachOS
