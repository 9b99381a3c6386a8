/-
`Lock` of `synch.cc`.

`Acquire` looks at `holdingThread` before it asks for the semaphore, and asks for it only if
nobody is recorded there: a thread that finds the lock held returns at once, as if it had it.
Between two statements another thread can run, and the statements of [`Lock.run`] are the
steps in which that can matter.

[`Lock.exclusion_of_uncontended`] says that this is all that is wrong with it: while no
`Acquire` finds the lock in the hands of another thread, the lock excludes.
-/
import LoadBalancer.Lib.Threads
import LoadBalancer.Lib.Token
import LoadBalancer.NachOS.Semaphore

set_option autoImplicit false

namespace LoadBalancer.NachOS

open LoadBalancer.Transition LoadBalancer.Threads LoadBalancer.Token

/-! ## The code -/

/-- `Lock`: the thread that is recorded as the holder, and the semaphore. -/
structure Lock (ι : Type) where
  holdingThread : Option ι
  lock : Semaphore ι

namespace Lock

/-- The statement that a thread executes next. -/
inductive Point
  /-- In neither operation. -/
  | idle
  /-- `if(this->holdingThread == nullptr)` of `Acquire`. -/
  | check
  /-- `this->lock->P()`. -/
  | P
  /-- `this->holdingThread = currentThread`. -/
  | record
  /-- `if(isHeldByCurrentThread())` of `Release`. -/
  | test
  /-- `this->lock->V()`. -/
  | V
  /-- `this->holdingThread = NULL`. -/
  | clear
deriving DecidableEq, Repr

/-- The point is in `Release`. -/
def Point.releasing : Point → Bool
  | .test => true
  | .V => true
  | .clear => true
  | _ => false

/-- `inside` after a statement: true once `Acquire` returns, on either of its two ways. -/
def Point.entered : Point → Point → Bool → Bool
  | .check, .idle, _ => true
  | .record, .idle, _ => true
  | _, _, inside => inside

variable {ι : Type}

/-- A lock that is free, with nobody recorded in it. The constructor makes the semaphore and leaves
`holdingThread` as the memory was, so this is a new lock only where that was `NULL`. -/
def initial : Lock ι := ⟨none, .initial 1⟩

section Code

variable [DecidableEq ι]

/-- The next statement of thread `t`; an operation that returns is back at `idle`. -/
def run (t : ι) (l : Lock ι) : Point → Option (Lock ι × Point)
  | .idle => none
  | .check => some (l, if l.holdingThread = none then .P else .idle)
  | .P => (l.lock.P t).map fun (s, taken) => ({ l with lock := s }, if taken then .record else .P)
  | .record => some ({ l with holdingThread := some t }, .idle)
  | .test => some (l, if l.holdingThread = some t then .V else .idle)
  | .V => some ({ l with lock := l.lock.V }, .clear)
  | .clear => some ({ l with holdingThread := none }, .idle)

/-- **What a statement does**, one constructor for each way through it. -/
inductive Runs (t : ι) (l : Lock ι) : Point → Lock ι → Point → Prop
  | free (h : l.holdingThread = none) : Runs t l .check l .P
  | held (u : ι) (h : l.holdingThread = some u) : Runs t l .check l .idle
  | wait (h : l.lock.value = 0) :
      Runs t l .P { l with lock := { l.lock with queue := l.lock.queue ++ [t] } } .P
  | take (h : 0 < l.lock.value) :
      Runs t l .P { l with lock := { l.lock with value := l.lock.value - 1 } } .record
  | record : Runs t l .record { l with holdingThread := some t } .idle
  | own (h : l.holdingThread = some t) : Runs t l .test l .V
  | notOwn (h : l.holdingThread ≠ some t) : Runs t l .test l .idle
  | V : Runs t l .V { l with lock := l.lock.V } .clear
  | clear : Runs t l .clear { l with holdingThread := none } .idle

theorem runs_of_run {t : ι} {l l' : Lock ι} {p p' : Point} (h : l.run t p = some (l', p')) :
    Runs t l p l' p' := by
  cases p with
  | idle => cases h
  | check =>
      cases hholder : l.holdingThread with
      | none =>
          rw [run, if_pos hholder] at h
          cases h
          exact .free hholder
      | some u =>
          rw [run, if_neg (by rw [hholder]; exact Option.some_ne_none u)] at h
          cases h
          exact .held u hholder
  | P =>
      obtain ⟨⟨s, taken⟩, hP, heq⟩ := Option.map_eq_some_iff.mp h
      rcases Semaphore.P_eq_some hP with ⟨rfl, hvalue, rfl⟩ | ⟨rfl, hvalue, rfl⟩
      · cases heq
        exact .wait hvalue
      · cases heq
        exact .take hvalue
  | record =>
      cases h
      exact .record
  | test =>
      by_cases hholder : l.holdingThread = some t
      · rw [run, if_pos hholder] at h
        cases h
        exact .own hholder
      · rw [run, if_neg hholder] at h
        cases h
        exact .notOwn hholder
  | V =>
      cases h
      exact .V
  | clear =>
      cases h
      exact .clear

end Code

/-! ## The threads -/

/-- A thread: whether it is between the return of its `Acquire` and its next `Release`, and
where it is in the operation it executes. -/
structure Thread where
  inside : Bool
  point : Point
deriving DecidableEq, Repr

/-- What a thread can do: call an operation, or execute the next statement of one. -/
inductive Action
  | Acquire
  | Release
  | run
deriving DecidableEq, Repr

/-- A lock and the threads that use it. -/
abbrev System (ι : Type) := Config (Lock ι) ι Thread

/-- A free lock, and no thread in an operation. -/
def System.initial : System ι := ⟨.initial, fun _ => ⟨false, .idle⟩⟩

section Code

variable [DecidableEq ι]

/-- What thread `t` does to the lock and to itself. -/
def act (t : ι) : Action → Lock ι × Thread → Option (Lock ι × Thread)
  | .Acquire, (l, ⟨inside, .idle⟩) => some (l, ⟨inside, .check⟩)
  | .Release, (l, ⟨_, .idle⟩) => some (l, ⟨false, .test⟩)
  | .run, (l, ⟨inside, p⟩) =>
      (l.run t p).map fun (l', p') =>
        (l', ⟨Point.entered p p' inside, p'⟩)
  | _, _ => none

/-- One step of one thread. -/
def step (c : System ι) (a : ι × Action) : Option (System ι) := Threads.step act c a

/-- **What a step of a thread can be.** -/
inductive Acts (t : ι) (l : Lock ι) : Thread → Action → Lock ι → Thread → Prop
  | acquire (inside : Bool) : Acts t l ⟨inside, .idle⟩ .Acquire l ⟨inside, .check⟩
  | release (inside : Bool) : Acts t l ⟨inside, .idle⟩ .Release l ⟨false, .test⟩
  | run (inside : Bool) {p : Point} {l' : Lock ι} {p' : Point} (h : Runs t l p l' p') :
      Acts t l ⟨inside, p⟩ .run l' ⟨Point.entered p p' inside, p'⟩

theorem acts_of_act {t : ι} {l l' : Lock ι} {x x' : Thread} {a : Action}
    (h : act t a (l, x) = some (l', x')) : Acts t l x a l' x' := by
  obtain ⟨inside, p⟩ := x
  cases a with
  | Acquire =>
      cases p with
      | idle =>
          cases h
          exact .acquire inside
      | _ => cases h
  | Release =>
      cases p with
      | idle =>
          cases h
          exact .release inside
      | _ => cases h
  | run =>
      obtain ⟨⟨l₁, p₁⟩, hrun, heq⟩ := Option.map_eq_some_iff.mp h
      cases heq
      exact .run inside (runs_of_run hrun)

end Code

/-! ## Who has the token -/

/-- The thread has taken the semaphore and not given it back. -/
def Holds (l : Lock ι) (t : ι) (x : Thread) : Prop :=
  x.inside = true ∨ x.point = .record ∨ x.point = .V
    ∨ (x.point = .test ∧ l.holdingThread = some t)

/-- A thread that releases the lock is outside, and one that is recorded as the holder is inside
or on its way out. -/
def Placed (l : Lock ι) (t : ι) (x : Thread) : Prop :=
  (x.point.releasing = true → x.inside = false)
    ∧ (l.holdingThread = some t → x.inside = true ∨ x.point.releasing = true)

/-- The semaphore is a token of the threads that hold it. -/
structure Inv (c : System ι) : Prop where
  token : Exclusive c.shared.lock.value fun t => Holds c.shared t (c.threads t)
  placed : ∀ t, Placed c.shared t (c.threads t)

theorem inv_initial : Inv (System.initial : System ι) where
  token := exclusive_free fun t h => by simp [Holds, System.initial] at h
  placed := fun t => ⟨fun h => (by cases h), fun h => (by cases h)⟩

variable {l l' : Lock ι} {t u : ι} {x x' : Thread}

/-- A statement records nobody but the thread that executes it. -/
theorem Runs.holdingThread {p p' : Point} (h : Runs t l p l' p') (hu : u ≠ t)
    (hholder : l'.holdingThread = some u) : l.holdingThread = some u := by
  cases h with
  | record => exact absurd (Option.some.inj hholder).symm hu
  | clear => cases hholder
  | _ => exact hholder

theorem Acts.holdingThread {a : Action} (h : Acts t l x a l' x') (hu : u ≠ t)
    (hholder : l'.holdingThread = some u) : l.holdingThread = some u := by
  cases h with
  | acquire inside => exact hholder
  | release inside => exact hholder
  | run inside hruns => exact hruns.holdingThread hu hholder

/-- **What a step does with the token**, if it does not find the lock held by another thread. -/
theorem Acts.move {a : Action} (h : Acts t l x a l' x') (hx : Placed l t x)
    (hok : a = .run → x.point = .check → l.holdingThread = none ∨ l.holdingThread = some t) :
    Placed l' t x' ∧ Move l.lock.value l'.lock.value (Holds l t x) (Holds l' t x') := by
  obtain ⟨hout, hrec⟩ := hx
  cases h with
  | acquire inside =>
      refine ⟨⟨fun h => (by cases h), fun h => ?_⟩, .stay rfl fun h => ?_⟩
      · simpa [Point.releasing] using hrec h
      · simpa [Holds] using h
  | release inside =>
      refine ⟨⟨fun _ => rfl, fun _ => .inr rfl⟩, .stay rfl fun h => ?_⟩
      -- who is recorded as the holder and in no operation is inside
      have hholder : l.holdingThread = some t := by simpa [Holds] using h
      exact .inl (by simpa [Point.releasing] using hrec hholder)
  | run inside hruns =>
      cases hruns with
      | free hnone =>
          refine ⟨⟨fun h => (by cases h), fun h => (by rw [hnone] at h; cases h)⟩,
            .stay rfl fun h => ?_⟩
          exact .inl (by simpa [Holds, Point.entered] using h)
      | held u hheld =>
          -- the holder is the thread itself, and it is inside
          have hself : l.holdingThread = some t := by
            rcases hok rfl rfl with hnone | hself
            · rw [hnone] at hheld
              cases hheld
            · exact hself
          have hin : inside = true := by simpa [Point.releasing] using hrec hself
          exact ⟨⟨fun h => (by cases h), fun _ => .inl rfl⟩, .stay rfl fun _ => .inl hin⟩
      | wait hvalue =>
          exact ⟨⟨fun h => (by cases h), hrec⟩, .stay rfl id⟩
      | take hvalue =>
          exact ⟨⟨fun h => (by cases h), hrec⟩, .take hvalue rfl⟩
      | record =>
          exact ⟨⟨fun h => (by cases h), fun _ => .inl rfl⟩, .stay rfl fun _ => .inr (.inl rfl)⟩
      | own hholder =>
          refine ⟨⟨fun _ => hout rfl, fun _ => .inr rfl⟩, .stay rfl fun _ => ?_⟩
          exact .inr (.inr (.inr ⟨rfl, hholder⟩))
      | notOwn hholder =>
          refine ⟨⟨fun h => (by cases h), fun h => absurd h hholder⟩, .stay rfl fun h => ?_⟩
          exact .inl (by simpa [Holds, Point.entered] using h)
      | V =>
          have hin : inside = false := hout rfl
          refine ⟨⟨fun _ => hin, fun _ => .inr rfl⟩, .give rfl (.inr (.inr (.inl rfl))) fun h => ?_⟩
          simp [Holds, Point.entered, hin] at h
      | clear =>
          have hin : inside = false := hout rfl
          refine ⟨⟨fun h => (by cases h), fun h => (by cases h)⟩, .stay rfl fun h => ?_⟩
          simp [Holds, Point.entered, hin] at h

section Exclusion

variable [DecidableEq ι]

/-- An `Acquire` does not find the lock in the hands of another thread. -/
def Uncontended (c : System ι) (a : ι × Action) : Prop :=
  a.2 = .run → (c.threads a.1).point = .check →
    c.shared.holdingThread = none ∨ c.shared.holdingThread = some a.1

instance (c : System ι) (a : ι × Action) : Decidable (Uncontended c a) :=
  inferInstanceAs (Decidable (_ → _ → _ ∨ _))

/-- **The step lemma.** -/
theorem inv_step {c c' : System ι} {a : ι × Action} (hinv : Inv c) (hok : Uncontended c a)
    (h : step c a = some c') : Inv c' := by
  obtain ⟨l, x, hact, rfl⟩ := step_eq_some h
  have hacts := acts_of_act hact
  obtain ⟨hplaced, hmove⟩ := hacts.move (hinv.placed a.1) hok
  constructor
  · apply hinv.token.move _ hmove
    rintro u hu (hin | hrec | hV | ⟨htest, hholder⟩)
    · exact .inl hin
    · exact .inr (.inl hrec)
    · exact .inr (.inr (.inl hV))
    · exact .inr (.inr (.inr ⟨htest, hacts.holdingThread hu hholder⟩))
  · apply forall_update hplaced
    intro u hu
    exact ⟨(hinv.placed u).1, fun h => (hinv.placed u).2 (hacts.holdingThread hu h)⟩

/-- **The lock excludes as long as nobody contends for it.** In every run in which no `Acquire`
finds another thread recorded as the holder, two threads are never between the return of
their `Acquire` and their next `Release`. Whoever finds nobody recorded asks for the semaphore, and
that lets one thread through. -/
theorem exclusion_of_uncontended {c : System ι} (h : Reach step Uncontended System.initial c)
    {t u : ι} (ht : (c.threads t).inside = true) (hu : (c.threads u).inside = true) : t = u := by
  have hinv : Inv c := Reach.invariant Inv inv_initial (fun _ _ _ => inv_step) h
  exact hinv.token.unique t u (.inl ht) (.inl hu)

/-- Thread `0` acquires the lock and releases it, then thread `1` acquires it. -/
theorem exclusion_of_uncontended_in_turns :
    ∃ c, Reach step Uncontended (System.initial : System ℕ) c ∧ (c.threads 1).inside = true
      ∧ (∀ t, (c.threads t).inside = true → t = 1) := by
  let as : List (ℕ × Action) :=
    [(0, .Acquire), (0, .run), (0, .run), (0, .run), (0, .Release), (0, .run), (0, .run), (0, .run),
      (1, .Acquire), (1, .run), (1, .run), (1, .run)]
  obtain ⟨c, hc, hin⟩ : ∃ c, exec step System.initial as = some c
      ∧ (c.threads 1).inside = true := ⟨_, rfl, rfl⟩
  have hok : AllOk step Uncontended System.initial as := by decide +kernel
  have hreach := Reach.of_exec hok hc
  exact ⟨c, hreach, hin, fun t ht => exclusion_of_uncontended hreach ht hin⟩

/-- **The lock does not exclude.** Thread `0` acquires it; thread `1` then finds a thread recorded,
and its `Acquire` returns. -/
theorem two_inside :
    ¬ ∀ (c : System ℕ) (t u : ℕ), Reach step always System.initial c →
      (c.threads t).inside = true → (c.threads u).inside = true → t = u := by
  intro hall
  let as : List (ℕ × Action) :=
    [(0, .Acquire), (0, .run), (0, .run), (0, .run), (1, .Acquire), (1, .run)]
  obtain ⟨c, hc, h0, h1⟩ : ∃ c, exec step System.initial as = some c
      ∧ (c.threads 0).inside = true ∧ (c.threads 1).inside = true := ⟨_, rfl, rfl, rfl⟩
  have := hall c 0 1 (Reach.of_exec (allOk_always as _) hc) h0 h1
  omega

end Exclusion

end Lock

end LoadBalancer.NachOS
