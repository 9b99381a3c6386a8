/-
`Mutex` of `synch.cc`.

`Lock` records the thread as the holder before it has the semaphore, and every `Unlock` clears
the record, so `holdingThread` is not the thread that has the mutex. What the test of `Unlock`
keeps out nevertheless is a `V` without a `P`: a thread that is recorded without having the
mutex is still waiting inside `Lock`, and cannot be calling `Unlock`
([`Mutex.exclusion`]).
-/
import LoadBalancer.Lib.Threads
import LoadBalancer.Lib.Token
import LoadBalancer.NachOS.Semaphore

set_option autoImplicit false

namespace LoadBalancer.NachOS

open LoadBalancer.Transition LoadBalancer.Threads LoadBalancer.Token

/-! ## The code -/

/-- `Mutex`: its semaphore and the thread that is recorded as the holder. -/
structure Mutex (ι : Type) where
  mutex : Semaphore ι
  holdingThread : Option ι

namespace Mutex

/-- The statement that a thread executes next. -/
inductive Point
  /-- In neither operation. -/
  | idle
  /-- `this->holdingThread = currentThread` of `Lock`. -/
  | record
  /-- `this->mutex->P()`. -/
  | P
  /-- `if(currentThread == this->holdingThread)` of `Unlock`. -/
  | test
  /-- `this->mutex->V()`. -/
  | V
  /-- `this->holdingThread = NULL`. -/
  | clear
deriving DecidableEq, Repr

/-- The point is in `Unlock`. -/
def Point.unlocking : Point → Bool
  | .test => true
  | .V => true
  | .clear => true
  | _ => false

/-- `inside` after a statement: true once the `P` of a `Lock` is done. -/
def Point.entered : Point → Point → Bool → Bool
  | .P, .idle, _ => true
  | _, _, inside => inside

variable {ι : Type}

/-- A mutex right after its construction, which leaves `holdingThread` as it is. -/
def initial (holdingThread : Option ι) : Mutex ι := ⟨.initial 1, holdingThread⟩

section Code

variable [DecidableEq ι]

/-- The next statement of thread `t`; an operation that returns is back at `idle`. -/
def run (t : ι) (m : Mutex ι) : Point → Option (Mutex ι × Point)
  | .idle => none
  | .record => some ({ m with holdingThread := some t }, .P)
  | .P => (m.mutex.P t).map fun (s, taken) => ({ m with mutex := s }, if taken then .idle else .P)
  | .test => some (m, if m.holdingThread = some t then .V else .clear)
  | .V => some ({ m with mutex := m.mutex.V }, .clear)
  | .clear => some ({ m with holdingThread := none }, .idle)

end Code

/-! ## The threads -/

/-- A thread: whether it is between the return of its `Lock` and its next `Unlock`, and where
it is in the operation it executes. -/
structure Thread where
  inside : Bool
  point : Point
deriving DecidableEq, Repr

/-- What a thread can do: call an operation, or execute the next statement of one. -/
inductive Action
  | Lock
  | Unlock
  | run
deriving DecidableEq, Repr

/-- A mutex and the threads that use it. -/
abbrev System (ι : Type) := Config (Mutex ι) ι Thread

/-- A new mutex, and no thread in an operation. -/
def System.initial (holdingThread : Option ι) : System ι :=
  ⟨.initial holdingThread, fun _ => ⟨false, .idle⟩⟩

section Code

variable [DecidableEq ι]

/-- What thread `t` does to the mutex and to itself. -/
def act (t : ι) : Action → Mutex ι × Thread → Option (Mutex ι × Thread)
  | .Lock, (m, ⟨inside, .idle⟩) => some (m, ⟨inside, .record⟩)
  | .Unlock, (m, ⟨_, .idle⟩) => some (m, ⟨false, .test⟩)
  | .run, (m, ⟨inside, p⟩) =>
      (m.run t p).map fun (m', p') =>
        (m', ⟨Point.entered p p' inside, p'⟩)
  | _, _ => none

/-- One step of one thread. -/
def step (c : System ι) (a : ι × Action) : Option (System ι) := Threads.step act c a

/-- **What a step of a thread can be.** -/
inductive Acts (t : ι) (m : Mutex ι) : Thread → Action → Mutex ι → Thread → Prop
  | lock (inside : Bool) : Acts t m ⟨inside, .idle⟩ .Lock m ⟨inside, .record⟩
  | unlock (inside : Bool) : Acts t m ⟨inside, .idle⟩ .Unlock m ⟨false, .test⟩
  | record (inside : Bool) :
      Acts t m ⟨inside, .record⟩ .run { m with holdingThread := some t } ⟨inside, .P⟩
  | wait (inside : Bool) (h : m.mutex.value = 0) :
      Acts t m ⟨inside, .P⟩ .run
        { m with mutex := { m.mutex with queue := m.mutex.queue ++ [t] } } ⟨inside, .P⟩
  | take (inside : Bool) (h : 0 < m.mutex.value) :
      Acts t m ⟨inside, .P⟩ .run
        { m with mutex := { m.mutex with value := m.mutex.value - 1 } } ⟨true, .idle⟩
  | own (inside : Bool) (h : m.holdingThread = some t) :
      Acts t m ⟨inside, .test⟩ .run m ⟨inside, .V⟩
  | notOwn (inside : Bool) (h : m.holdingThread ≠ some t) :
      Acts t m ⟨inside, .test⟩ .run m ⟨inside, .clear⟩
  | V (inside : Bool) :
      Acts t m ⟨inside, .V⟩ .run { m with mutex := m.mutex.V } ⟨inside, .clear⟩
  | clear (inside : Bool) :
      Acts t m ⟨inside, .clear⟩ .run { m with holdingThread := none } ⟨inside, .idle⟩

theorem acts_of_act {t : ι} {m m' : Mutex ι} {x x' : Thread} {a : Action}
    (h : act t a (m, x) = some (m', x')) : Acts t m x a m' x' := by
  obtain ⟨inside, p⟩ := x
  cases a with
  | Lock =>
      cases p with
      | idle =>
          cases h
          exact .lock inside
      | _ => cases h
  | Unlock =>
      cases p with
      | idle =>
          cases h
          exact .unlock inside
      | _ => cases h
  | run =>
      cases p with
      | idle => cases h
      | record =>
          cases h
          exact .record inside
      | P =>
          obtain ⟨⟨m₁, p₁⟩, hrun, heq⟩ := Option.map_eq_some_iff.mp h
          obtain ⟨⟨s, taken⟩, hP, hs⟩ := Option.map_eq_some_iff.mp hrun
          rcases Semaphore.P_eq_some hP with ⟨rfl, hvalue, rfl⟩ | ⟨rfl, hvalue, rfl⟩
          · cases hs
            cases heq
            exact .wait inside hvalue
          · cases hs
            cases heq
            exact .take inside hvalue
      | test =>
          by_cases hholder : m.holdingThread = some t
          · rw [act, run, if_pos hholder] at h
            cases h
            exact .own inside hholder
          · rw [act, run, if_neg hholder] at h
            cases h
            exact .notOwn inside hholder
      | V =>
          cases h
          exact .V inside
      | clear =>
          cases h
          exact .clear inside

end Code

/-! ## Who has the token -/

/-- The thread has taken the semaphore and will give it back. -/
def Holds (m : Mutex ι) (t : ι) (x : Thread) : Prop :=
  x.inside = true ∨ x.point = .V ∨ (x.point = .test ∧ m.holdingThread = some t)

/-- A thread that unlocks the mutex is outside, and one that is recorded as the holder is inside,
on its way out, or waiting in its `P`. -/
def Placed (m : Mutex ι) (t : ι) (x : Thread) : Prop :=
  (x.point.unlocking = true → x.inside = false)
    ∧ (m.holdingThread = some t → x.inside = true ∨ x.point = .P ∨ x.point.unlocking = true)

/-- The semaphore is a token of the threads that hold it. -/
structure Inv (c : System ι) : Prop where
  token : Exclusive c.shared.mutex.value fun t => Holds c.shared t (c.threads t)
  placed : ∀ t, Placed c.shared t (c.threads t)

theorem inv_initial : Inv (System.initial none : System ι) where
  token := exclusive_free fun t h => by simp [Holds, System.initial] at h
  placed := fun t => ⟨fun h => (by cases h), fun h => (by cases h)⟩

variable {m m' : Mutex ι} {t u : ι} {x x' : Thread} {a : Action}

/-- A step records nobody but the thread that makes it. -/
theorem Acts.holdingThread (h : Acts t m x a m' x') (hu : u ≠ t)
    (hholder : m'.holdingThread = some u) : m.holdingThread = some u := by
  cases h with
  | record inside => exact absurd (Option.some.inj hholder).symm hu
  | clear inside => cases hholder
  | _ => exact hholder

/-- **What a step does with the token.** -/
theorem Acts.move (h : Acts t m x a m' x') (hx : Placed m t x) :
    Placed m' t x' ∧ Move m.mutex.value m'.mutex.value (Holds m t x) (Holds m' t x') := by
  obtain ⟨hout, hrec⟩ := hx
  cases h with
  | lock inside =>
      refine ⟨⟨fun h => (by cases h), fun h => ?_⟩, .stay rfl fun h => ?_⟩
      · exact .inl (by simpa [Point.unlocking] using hrec h)
      · exact .inl (by simpa [Holds] using h)
  | unlock inside =>
      refine ⟨⟨fun _ => rfl, fun _ => .inr (.inr rfl)⟩, .stay rfl fun h => ?_⟩
      -- who is recorded as the holder and in no operation is inside
      have hholder : m.holdingThread = some t := by simpa [Holds] using h
      exact .inl (by simpa [Point.unlocking] using hrec hholder)
  | record inside =>
      refine ⟨⟨fun h => (by cases h), fun _ => .inr (.inl rfl)⟩, .stay rfl fun h => ?_⟩
      exact .inl (by simpa [Holds] using h)
  | wait inside hvalue => exact ⟨⟨fun h => (by cases h), hrec⟩, .stay rfl id⟩
  | take inside hvalue => exact ⟨⟨fun h => (by cases h), fun _ => .inl rfl⟩, .take hvalue rfl⟩
  | own inside hholder =>
      refine ⟨⟨fun _ => hout rfl, fun _ => .inr (.inr rfl)⟩, .stay rfl fun _ => ?_⟩
      exact .inr (.inr ⟨rfl, hholder⟩)
  | notOwn inside hholder =>
      refine ⟨⟨fun _ => hout rfl, fun h => absurd h hholder⟩, .stay rfl fun h => ?_⟩
      exact .inl (by simpa [Holds] using h)
  | V inside =>
      have hin : inside = false := hout rfl
      refine ⟨⟨fun _ => hin, fun _ => .inr (.inr rfl)⟩, .give rfl (.inr (.inl rfl)) fun h => ?_⟩
      simp [Holds, hin] at h
  | clear inside =>
      have hin : inside = false := hout rfl
      refine ⟨⟨fun h => (by cases h), fun h => (by cases h)⟩, .stay rfl fun h => ?_⟩
      simp [Holds, hin] at h

section Exclusion

variable [DecidableEq ι]

/-- **The step lemma.** -/
theorem inv_step {c c' : System ι} {a : ι × Action} (hinv : Inv c) (h : step c a = some c') :
    Inv c' := by
  obtain ⟨m, x, hact, rfl⟩ := step_eq_some h
  have hacts := acts_of_act hact
  obtain ⟨hplaced, hmove⟩ := hacts.move (hinv.placed a.1)
  constructor
  · apply hinv.token.move _ hmove
    rintro u hu (hin | hV | ⟨htest, hholder⟩)
    · exact .inl hin
    · exact .inr (.inl hV)
    · exact .inr (.inr ⟨htest, hacts.holdingThread hu hholder⟩)
  · apply forall_update hplaced
    intro u hu
    exact ⟨(hinv.placed u).1, fun h => (hinv.placed u).2 (hacts.holdingThread hu h)⟩

/-- **The mutex excludes**, whatever the threads call: two threads are never between the return
of their `Lock` and their next `Unlock`. Nobody makes a `V` without the mutex: who is recorded
without having it waits inside `Lock`. -/
theorem exclusion {c : System ι} (h : Reach step always (System.initial none) c) {t u : ι}
    (ht : (c.threads t).inside = true) (hu : (c.threads u).inside = true) : t = u := by
  have hinv : Inv c := Reach.invariant Inv inv_initial (fun _ _ _ hs _ hstep => inv_step hs hstep) h
  exact hinv.token.unique t u (.inl ht) (.inl hu)

/-- Thread `1` unlocks a mutex that it does not have while thread `0` is inside, twice, and then
waits for it. -/
theorem exclusion_with_misuse :
    ∃ c, Reach step always (System.initial none : System ℕ) c ∧ (c.threads 0).inside = true
      ∧ (c.threads 1).point = .P ∧ ∀ t, (c.threads t).inside = true → t = 0 := by
  let as : List (ℕ × Action) :=
    [(0, .Lock), (0, .run), (0, .run), (1, .Unlock), (1, .run), (1, .run), (1, .Unlock), (1, .run),
      (1, .run), (1, .Lock), (1, .run), (1, .run)]
  obtain ⟨c, hc, h0, h1⟩ : ∃ c, exec step (System.initial none) as = some c
      ∧ (c.threads 0).inside = true ∧ (c.threads 1).point = .P := ⟨_, rfl, rfl, rfl⟩
  have hreach := Reach.of_exec (allOk_always as _) hc
  exact ⟨c, hreach, h0, h1, fun t ht => exclusion hreach ht h0⟩

end Exclusion

end Mutex

end LoadBalancer.NachOS
