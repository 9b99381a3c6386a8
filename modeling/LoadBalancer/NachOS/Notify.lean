/-
`Signal` and `Broadcast` of `synch.cc` as a whole, with the ready list of the scheduler.

`Condition.lean` takes them statement by statement; here each is one operation, executed by the
thread that runs. [`Condition.Scheduled.runs_notify`] connects the two.

Both call `conditionLock->Release()` before they look at `waitingThreads`. So they move the
threads that they should move ([`Condition.Scheduled.notify_eq`]), but the thread that has called
them no longer holds the lock ([`Condition.Scheduled.not_leavesHeld`]), and the next thread that
asks for it gets it ([`Condition.Scheduled.acquire_after_notify`]), while the monitor method that
has signalled goes on.
-/
import LoadBalancer.NachOS.Condition

set_option autoImplicit false

namespace LoadBalancer.NachOS

open LoadBalancer.Transition

namespace Condition

/-- A condition, its lock, the thread that runs, and `readyList`. -/
structure Scheduled (ι : Type) extends State ι where
  readyList : List ι

namespace Scheduled

variable {ι : Type}

/-- `conditionLock->isHeldByCurrentThread()`. -/
def Held (s : Scheduled ι) : Prop := s.lock.holdingThread = some s.currentThread

instance [DecidableEq ι] (s : Scheduled ι) : Decidable s.Held :=
  inferInstanceAs (Decidable (_ = _))

/-! ## The code -/

section Code

variable [DecidableEq ι]

/-- `Lock::Release`, whose `V` makes the first thread of the queue ready. -/
def Release (s : Scheduled ι) : Scheduled ι :=
  if s.Held then
    { s with
      lock := ⟨none, s.lock.lock.V⟩
      readyList := s.readyList ++ s.lock.lock.queue.head?.toList }
  else s

/-- `Condition::Signal`. -/
def Signal (s : Scheduled ι) : Scheduled ι :=
  if s.Held then
    let s := s.Release
    match s.waitingThreads with
    | [] => s
    | thread :: rest => { s with waitingThreads := rest, readyList := s.readyList ++ [thread] }
  else s

/-- The loop of `Broadcast`, over the threads that wait. -/
def wakeAll : List ι → Scheduled ι → Scheduled ι
  | [], s => s
  | thread :: rest, s =>
      wakeAll rest { s with waitingThreads := rest, readyList := s.readyList ++ [thread] }

/-- `Condition::Broadcast`. -/
def Broadcast (s : Scheduled ι) : Scheduled ι :=
  if s.Held then
    let s := s.Release
    wakeAll s.waitingThreads s
  else s

/-- `Broadcast` if `all`, otherwise `Signal`. -/
def notify (all : Bool) (s : Scheduled ι) : Scheduled ι := if all then s.Broadcast else s.Signal

end Code

/-! ## What they do -/

/-- What is to be moved: the first thread that waits, if any, or all of them in their order. -/
def moved (all : Bool) (s : Scheduled ι) : Scheduled ι :=
  if all then
    { s with waitingThreads := [], readyList := s.readyList ++ s.waitingThreads }
  else
    { s with
      waitingThreads := s.waitingThreads.tail
      readyList := s.readyList ++ s.waitingThreads.head?.toList }

@[simp] theorem moved_lock (all : Bool) (s : Scheduled ι) : (s.moved all).lock = s.lock := by
  unfold moved
  split_ifs <;> rfl

/-- The loop of `Broadcast`. -/
theorem wakeAll_eq {s : Scheduled ι} {l : List ι} (h : s.waitingThreads = l) :
    wakeAll l s = { s with waitingThreads := [], readyList := s.readyList ++ l } := by
  induction l generalizing s with
  | nil => rw [wakeAll, List.append_nil, ← h]
  | cons thread rest ih =>
      rw [wakeAll, ih rfl]
      dsimp only
      rw [List.append_assoc, List.singleton_append]

variable [DecidableEq ι] {all : Bool} {s : Scheduled ι}

/-- **A notification** moves what it should, after it has released the lock. -/
theorem notify_eq (h : s.Held) : notify all s = s.Release.moved all := by
  cases all with
  | true =>
      rw [notify, if_pos rfl, Broadcast, if_pos h, moved, if_pos rfl]
      exact wakeAll_eq rfl
  | false =>
      rw [notify, if_neg Bool.false_ne_true, Signal, if_pos h, moved, if_neg Bool.false_ne_true]
      dsimp only
      obtain ⟨⟨lock, waitingThreads, currentThread, aborted⟩, readyList⟩ := s.Release
      cases waitingThreads with
      | nil => simp
      | cons thread rest => rfl

/-- A thread that does not hold the lock notifies nobody. -/
theorem notify_of_not_held (h : ¬ s.Held) : notify all s = s := by
  unfold notify Signal Broadcast
  rw [if_neg h, if_neg h, ite_self]

theorem lock_notify (h : s.Held) : (notify all s).lock = ⟨none, s.lock.lock.V⟩ := by
  rw [notify_eq h, moved_lock, Release, if_pos h]

/-- The lock is still held by the thread that has notified, and nothing has changed but
`waitingThreads` and `readyList`. -/
structure LeavesHeld (all : Bool) (s : Scheduled ι) : Prop where
  held : (notify all s).Held
  moves : notify all s = s.moved all

/-- **No notification by the thread that holds the lock leaves it held.** For every state of the
lock and of both lists. Both operations release the lock before they look at who waits. -/
theorem not_leavesHeld (h : s.Held) : ¬ LeavesHeld all s := by
  intro hleaves
  have hheld := hleaves.held
  rw [Held, lock_notify h] at hheld
  cases hheld

/-- A broadcast to two threads. -/
theorem not_leavesHeld_of_two :
    let s : Scheduled ℕ := ⟨⟨⟨some 0, ⟨0, []⟩⟩, [1, 2], 0, false⟩, [3]⟩
    s.Held ∧ (notify true s).readyList = [3, 1, 2] ∧ ¬ LeavesHeld true s :=
  ⟨rfl, rfl, not_leavesHeld rfl⟩

/-- **A signal to nobody** gives the lock away. -/
theorem signal_gives_lock_away :
    ¬ ∀ (all : Bool) (s : Scheduled ℕ), s.Held → LeavesHeld all s := by
  intro hall
  let s : Scheduled ℕ := ⟨⟨⟨some 0, ⟨0, []⟩⟩, [], 0, false⟩, []⟩
  have hheld := (hall false s rfl).held
  exact absurd hheld (by decide)

/-- **The next thread that asks for the lock gets it**, before the thread that has notified comes
to its own `Release`. -/
theorem acquire_after_notify (h : s.Held) {u : ι} (hu : u ∉ s.lock.lock.queue.tail) :
    (notify all s).lock.run u .check = some ((notify all s).lock, .P)
      ∧ ((notify all s).lock.run u .P).map Prod.snd = some .record := by
  rw [lock_notify h]
  refine ⟨rfl, ?_⟩
  have hqueue : s.lock.lock.V.queue.contains u = false := by
    rw [Semaphore.V]
    simpa using hu
  have hvalue : s.lock.lock.V.value ≠ 0 := Nat.succ_ne_zero _
  rw [Lock.run, Semaphore.P]
  dsimp only
  rw [hqueue, if_neg Bool.false_ne_true, if_neg hvalue]
  rfl

/-! ## Statement by statement -/

/-- The next `n` statements of thread `t`. -/
def runs (t : ι) (n : ℕ) (s : State ι) (x : Thread) : Option (State ι × Thread) :=
  exec (fun p (_ : Unit) => run t p.1 p.2 p.2.point) (s, x) (List.replicate n ())

theorem runs_succ {t : ι} {s s' : State ι} {x x' : Thread}
    (h : run t s x x.point = some (s', x')) (n : ℕ) : runs t (n + 1) s x = runs t n s' x' := by
  rw [runs, List.replicate_succ, exec, h]
  rfl

/-- The statements up to the return of `conditionLock->Release()`. -/
theorem runs_release (h : s.Held) (level oldLevel : IntStatus) (n : ℕ) :
    runs s.currentThread (n + 4) s.toState ⟨.notify all, level, oldLevel⟩
      = runs s.currentThread n s.Release.toState ⟨.notifyEmpty all, level, oldLevel⟩ := by
  have hholder : s.lock.holdingThread = some s.currentThread := h
  have hnotify : run s.currentThread s.toState ⟨.notify all, level, oldLevel⟩ (.notify all)
      = some (s.toState, ⟨.notifyRelease all .test, level, oldLevel⟩) := by
    rw [run, if_pos hholder]
  have htest : run s.currentThread s.toState ⟨.notifyRelease all .test, level, oldLevel⟩
      (.notifyRelease all .test) = some (s.toState, ⟨.notifyRelease all .V, level, oldLevel⟩) := by
    rw [run, onLock, Lock.run, if_pos hholder]
    rfl
  rw [runs_succ hnotify, runs_succ htest, runs_succ rfl, runs_succ rfl, Release, if_pos h]
  rfl

/-- The loop of `Broadcast`. -/
theorem runs_wakeAll {t : ι} (level oldLevel : IntStatus) {l : List ι} {s : State ι}
    (h : s.waitingThreads = l) :
    ∃ n, runs t n s ⟨.notifyEmpty true, level, oldLevel⟩
      = some ({ s with waitingThreads := [] }, ⟨.idle, level, oldLevel⟩) := by
  induction l generalizing s with
  | nil =>
      have hempty : run t s ⟨.notifyEmpty true, level, oldLevel⟩ (.notifyEmpty true)
          = some (s, ⟨.idle, level, oldLevel⟩) := by rw [run, if_pos h]
      refine ⟨1, ?_⟩
      rw [runs_succ hempty, ← h]
      rfl
  | cons thread rest ih =>
      have hne : s.waitingThreads ≠ [] := by
        rw [h]
        exact List.cons_ne_nil thread rest
      have hempty : run t s ⟨.notifyEmpty true, level, oldLevel⟩ (.notifyEmpty true)
          = some (s, ⟨.notifyRemove true, level, oldLevel⟩) := by rw [run, if_neg hne]
      have hremove : run t s ⟨.notifyRemove true, level, oldLevel⟩ (.notifyRemove true)
          = some ({ s with waitingThreads := rest }, ⟨.notifyEmpty true, level, oldLevel⟩) := by
        rw [run, h]
        rfl
      obtain ⟨n, hn⟩ := @ih { s with waitingThreads := rest } rfl
      refine ⟨n + 2, ?_⟩
      rw [runs_succ hempty, runs_succ hremove, hn]

/-- The `if` of `Signal`. -/
theorem runs_wake {t : ι} (level oldLevel : IntStatus) (s : State ι) :
    ∃ n, runs t n s ⟨.notifyEmpty false, level, oldLevel⟩
      = some ({ s with waitingThreads := s.waitingThreads.tail }, ⟨.idle, level, oldLevel⟩) := by
  cases h : s.waitingThreads with
  | nil =>
      have hempty : run t s ⟨.notifyEmpty false, level, oldLevel⟩ (.notifyEmpty false)
          = some (s, ⟨.idle, level, oldLevel⟩) := by rw [run, if_pos h]
      refine ⟨1, ?_⟩
      rw [runs_succ hempty, List.tail_nil, ← h]
      rfl
  | cons thread rest =>
      have hne : s.waitingThreads ≠ [] := by
        rw [h]
        exact List.cons_ne_nil thread rest
      have hempty : run t s ⟨.notifyEmpty false, level, oldLevel⟩ (.notifyEmpty false)
          = some (s, ⟨.notifyRemove false, level, oldLevel⟩) := by rw [run, if_neg hne]
      have hremove : run t s ⟨.notifyRemove false, level, oldLevel⟩ (.notifyRemove false)
          = some ({ s with waitingThreads := rest }, ⟨.idle, level, oldLevel⟩) := by
        rw [run, h]
        rfl
      refine ⟨2, ?_⟩
      rw [runs_succ hempty, runs_succ hremove, List.tail_cons]
      rfl

/-- **The statements of `Signal` and `Broadcast`**, executed by the thread that runs, do what the
operations do. -/
theorem runs_notify (all : Bool) (s : Scheduled ι) (level oldLevel : IntStatus) :
    ∃ n, runs s.currentThread n s.toState ⟨.notify all, level, oldLevel⟩
      = some ((notify all s).toState, ⟨.idle, level, oldLevel⟩) := by
  by_cases h : s.Held
  · rw [notify_eq h]
    cases all with
    | true =>
        obtain ⟨n, hn⟩ := runs_wakeAll (t := s.currentThread) level oldLevel
          (rfl : s.Release.waitingThreads = s.Release.waitingThreads)
        exact ⟨n + 4, (runs_release h level oldLevel n).trans hn⟩
    | false =>
        obtain ⟨n, hn⟩ := runs_wake (t := s.currentThread) level oldLevel s.Release.toState
        exact ⟨n + 4, (runs_release h level oldLevel n).trans hn⟩
  · have hnotify : run s.currentThread s.toState ⟨.notify all, level, oldLevel⟩ (.notify all)
        = some (s.toState, ⟨.idle, level, oldLevel⟩) := by
      rw [run, if_neg (show ¬ s.lock.holdingThread = some s.currentThread from h)]
    refine ⟨1, ?_⟩
    rw [runs_succ hnotify, notify_of_not_held h]
    rfl

end Scheduled

end Condition

end LoadBalancer.NachOS
