/-
`Barrier` of `synch.cc`.

`Wait` counts down under one mutex and then polls the counter under another one. A thread is
somewhere in `Wait` and, inside of it, somewhere in an operation of one of the two mutexes;
its local state has the three places, and a step in a mutex is a step of `Mutex.lean`. The
`counter--` is a read and a write, between which another thread may run.

[`Barrier.wait_released`] is what a barrier is for: whoever gets past it, `count` calls have
counted down before.
-/
import LoadBalancer.Texto
import LoadBalancer.NachOS.MutexTurns

set_option autoImplicit false

namespace LoadBalancer.NachOS

open LoadBalancer.Transition LoadBalancer.Threads LoadBalancer.Token

/-! ## The code -/

/-- `Barrier`. -/
structure Barrier (ι : Type) where
  counter : ℤ
  contador : Mutex ι
  barrera : Mutex ι

namespace Barrier

/-- The statement of `Wait` that a thread executes next. -/
inductive Point
  /-- Not in `Wait`. -/
  | idle
  /-- In `this->contador->Lock()`. -/
  | lockContador
  /-- `this->counter--`, the read. -/
  | load
  /-- `this->counter--`, the write; `value` was read. -/
  | store (value : ℤ)
  /-- In `this->contador->Unlock()`. -/
  | unlockContador
  /-- The call of `WaitMutex`. -/
  | waitMutex
  /-- In `this->barrera->Lock()`. -/
  | lockBarrera
  /-- `int ret = this->counter`. -/
  | read
  /-- In `this->barrera->Unlock()`. -/
  | unlockBarrera (ret : ℤ)
  /-- `while(WaitMutex() > 0)`. -/
  | test (ret : ℤ)
deriving DecidableEq, Repr

variable {ι : Type}

/-- A barrier, with the history of the calls of `Wait` on it: how many have counted down and how
many have returned. -/
structure State (ι : Type) where
  barrier : Barrier ι
  decrements : ℕ
  returns : ℕ

/-- Where a thread is in `Wait`, and in each of the two mutexes. -/
structure Thread where
  contador : Mutex.Thread
  barrera : Mutex.Thread
  point : Point
deriving DecidableEq, Repr

def State.withContador (s : State ι) (m : Mutex ι) : State ι :=
  { s with barrier := { s.barrier with contador := m } }

def State.withBarrera (s : State ι) (m : Mutex ι) : State ι :=
  { s with barrier := { s.barrier with barrera := m } }

/-- The write of `this->counter--`. -/
def State.countDown (s : State ι) (counter : ℤ) : State ι :=
  { s with barrier := { s.barrier with counter := counter }, decrements := s.decrements + 1 }

/-- A return of `Wait`. -/
def State.release (s : State ι) : State ι := { s with returns := s.returns + 1 }

/-- A step of thread `t` in `contador`, and where it is in `Wait` then. -/
def onContador [DecidableEq ι] (t : ι) (a : Mutex.Action) (next : Mutex.Thread → Point)
    (s : State ι) (x : Thread) : Option (State ι × Thread) :=
  (Mutex.act t a (s.barrier.contador, x.contador)).map fun (m, y) =>
    (s.withContador m, { x with contador := y, point := next y })

/-- A step of thread `t` in `barrera`, and where it is in `Wait` then. -/
def onBarrera [DecidableEq ι] (t : ι) (a : Mutex.Action) (next : Mutex.Thread → Point)
    (s : State ι) (x : Thread) : Option (State ι × Thread) :=
  (Mutex.act t a (s.barrier.barrera, x.barrera)).map fun (m, y) =>
    (s.withBarrera m, { x with barrera := y, point := next y })

/-- The point behind an operation of a mutex, once that has returned. -/
def after (here next : Point) (y : Mutex.Thread) : Point := if y.point = .idle then next else here

/-- What a thread can do: call `Wait`, or execute the next statement of it. -/
inductive Action
  | Wait
  | run
deriving DecidableEq, Repr

/-- The next statement of thread `t`, which stands at `p`. -/
def run [DecidableEq ι] (t : ι) (s : State ι) (x : Thread) : Point → Option (State ι × Thread)
  | .idle => none
  | .lockContador => onContador t .run (after .lockContador .load) s x
  | .load => some (s, { x with point := .store s.barrier.counter })
  | .store value =>
      -- past `INT32_MIN` the decrement overflows
      if INT32_MIN < value then
        onContador t .Unlock (fun _ => .unlockContador) (s.countDown (value - 1)) x
      else none
  | .unlockContador => onContador t .run (after .unlockContador .waitMutex) s x
  | .waitMutex => onBarrera t .Lock (fun _ => .lockBarrera) s x
  | .lockBarrera => onBarrera t .run (after .lockBarrera .read) s x
  | .read => onBarrera t .Unlock (fun _ => .unlockBarrera s.barrier.counter) s x
  | .unlockBarrera ret => onBarrera t .run (after (.unlockBarrera ret) (.test ret)) s x
  | .test ret =>
      if 0 < ret then some (s, { x with point := .waitMutex })
      else some (s.release, { x with point := .idle })

/-- What thread `t` does to the barrier and to itself. -/
def act [DecidableEq ι] (t : ι) : Action → State ι × Thread → Option (State ι × Thread)
  | .Wait, (s, x) =>
      if x.point = .idle then onContador t .Lock (fun _ => .lockContador) s x else none
  | .run, (s, x) => run t s x x.point

/-- A barrier and the threads that wait at it. -/
abbrev System (ι : Type) := Config (State ι) ι Thread

/-- One step of one thread. -/
def step [DecidableEq ι] (c : System ι) (a : ι × Action) : Option (System ι) :=
  Threads.step act c a

/-- A barrier right after its construction, whatever its mutexes have recorded, and no thread in
`Wait`. -/
def System.initial (count : ℤ) (contador barrera : Option ι) : System ι where
  shared := ⟨⟨count, .initial contador, .initial barrera⟩, 0, 0⟩
  threads := fun _ => ⟨⟨false, .idle⟩, ⟨false, .idle⟩, .idle⟩

/-- **What a step of a thread can be.** -/
inductive Acts (t : ι) (s : State ι) (x : Thread) : Action → State ι → Thread → Prop
  | call {m : Mutex ι} {y : Mutex.Thread} (hp : x.point = .idle)
      (h : Mutex.Acts t s.barrier.contador x.contador .Lock m y) :
      Acts t s x .Wait (s.withContador m) { x with contador := y, point := .lockContador }
  | lockContador {m : Mutex ι} {y : Mutex.Thread} (hp : x.point = .lockContador)
      (h : Mutex.Acts t s.barrier.contador x.contador .run m y) :
      Acts t s x .run (s.withContador m)
        { x with contador := y, point := after .lockContador .load y }
  | load (hp : x.point = .load) : Acts t s x .run s { x with point := .store s.barrier.counter }
  | store {value : ℤ} {m : Mutex ι} {y : Mutex.Thread} (hp : x.point = .store value)
      (h : Mutex.Acts t s.barrier.contador x.contador .Unlock m y) :
      Acts t s x .run ((s.countDown (value - 1)).withContador m)
        { x with contador := y, point := .unlockContador }
  | unlockContador {m : Mutex ι} {y : Mutex.Thread} (hp : x.point = .unlockContador)
      (h : Mutex.Acts t s.barrier.contador x.contador .run m y) :
      Acts t s x .run (s.withContador m)
        { x with contador := y, point := after .unlockContador .waitMutex y }
  | waitMutex {m : Mutex ι} {y : Mutex.Thread} (hp : x.point = .waitMutex)
      (h : Mutex.Acts t s.barrier.barrera x.barrera .Lock m y) :
      Acts t s x .run (s.withBarrera m) { x with barrera := y, point := .lockBarrera }
  | lockBarrera {m : Mutex ι} {y : Mutex.Thread} (hp : x.point = .lockBarrera)
      (h : Mutex.Acts t s.barrier.barrera x.barrera .run m y) :
      Acts t s x .run (s.withBarrera m)
        { x with barrera := y, point := after .lockBarrera .read y }
  | read {m : Mutex ι} {y : Mutex.Thread} (hp : x.point = .read)
      (h : Mutex.Acts t s.barrier.barrera x.barrera .Unlock m y) :
      Acts t s x .run (s.withBarrera m)
        { x with barrera := y, point := .unlockBarrera s.barrier.counter }
  | unlockBarrera {ret : ℤ} {m : Mutex ι} {y : Mutex.Thread} (hp : x.point = .unlockBarrera ret)
      (h : Mutex.Acts t s.barrier.barrera x.barrera .run m y) :
      Acts t s x .run (s.withBarrera m)
        { x with barrera := y, point := after (.unlockBarrera ret) (.test ret) y }
  | again {ret : ℤ} (hp : x.point = .test ret) (h : 0 < ret) :
      Acts t s x .run s { x with point := .waitMutex }
  | released {ret : ℤ} (hp : x.point = .test ret) (h : ret ≤ 0) :
      Acts t s x .run s.release { x with point := .idle }

section Acts

variable [DecidableEq ι] {t : ι} {s s' : State ι} {x x' : Thread}

theorem onContador_eq_some {a : Mutex.Action} {next : Mutex.Thread → Point}
    (h : onContador t a next s x = some (s', x')) :
    ∃ m y, Mutex.Acts t s.barrier.contador x.contador a m y
      ∧ s' = s.withContador m ∧ x' = { x with contador := y, point := next y } := by
  obtain ⟨⟨m, y⟩, hact, heq⟩ := Option.map_eq_some_iff.mp h
  cases heq
  exact ⟨m, y, Mutex.acts_of_act hact, rfl, rfl⟩

theorem onBarrera_eq_some {a : Mutex.Action} {next : Mutex.Thread → Point}
    (h : onBarrera t a next s x = some (s', x')) :
    ∃ m y, Mutex.Acts t s.barrier.barrera x.barrera a m y
      ∧ s' = s.withBarrera m ∧ x' = { x with barrera := y, point := next y } := by
  obtain ⟨⟨m, y⟩, hact, heq⟩ := Option.map_eq_some_iff.mp h
  cases heq
  exact ⟨m, y, Mutex.acts_of_act hact, rfl, rfl⟩

theorem acts_of_act {a : Action} (h : act t a (s, x) = some (s', x')) : Acts t s x a s' x' := by
  cases a with
  | Wait =>
      simp only [act] at h
      split_ifs at h with hp
      obtain ⟨m, y, hm, rfl, rfl⟩ := onContador_eq_some h
      exact .call hp hm
  | run =>
      simp only [act] at h
      cases hp : x.point with
      | idle =>
          rw [hp] at h
          cases h
      | lockContador =>
          rw [hp, run] at h
          obtain ⟨m, y, hm, rfl, rfl⟩ := onContador_eq_some h
          exact .lockContador hp hm
      | load =>
          rw [hp] at h
          cases h
          exact .load hp
      | store value =>
          rw [hp, run] at h
          split_ifs at h
          obtain ⟨m, y, hm, rfl, rfl⟩ := onContador_eq_some h
          exact .store hp hm
      | unlockContador =>
          rw [hp, run] at h
          obtain ⟨m, y, hm, rfl, rfl⟩ := onContador_eq_some h
          exact .unlockContador hp hm
      | waitMutex =>
          rw [hp, run] at h
          obtain ⟨m, y, hm, rfl, rfl⟩ := onBarrera_eq_some h
          exact .waitMutex hp hm
      | lockBarrera =>
          rw [hp, run] at h
          obtain ⟨m, y, hm, rfl, rfl⟩ := onBarrera_eq_some h
          exact .lockBarrera hp hm
      | read =>
          rw [hp, run] at h
          obtain ⟨m, y, hm, rfl, rfl⟩ := onBarrera_eq_some h
          exact .read hp hm
      | unlockBarrera ret =>
          rw [hp, run] at h
          obtain ⟨m, y, hm, rfl, rfl⟩ := onBarrera_eq_some h
          exact .unlockBarrera hp hm
      | test ret =>
          rw [hp, run] at h
          split_ifs at h with hret
          · cases h
            exact .again hp hret
          · cases h
            exact .released hp (not_lt.mp hret)

end Acts

/-! ## The counter -/

/-- Where a thread is in `contador`, by the point it has reached, and what it knows of the
counter. -/
def Placed (counter : ℤ) (y : Mutex.Thread) : Point → Prop
  | .lockContador => y.inside = false ∧ (y.point = .record ∨ y.point = .P)
  | .load => y = ⟨true, .idle⟩
  -- nobody else writes the counter in between
  | .store value => y = ⟨true, .idle⟩ ∧ value = counter
  | .unlockContador => y.inside = false ∧ y.point.unlocking = true
  -- the counter may have gone on going down
  | .unlockBarrera ret => y = ⟨false, .idle⟩ ∧ counter ≤ ret
  | .test ret => y = ⟨false, .idle⟩ ∧ counter ≤ ret
  | _ => y = ⟨false, .idle⟩

section Placed

variable {counter : ℤ} {y : Mutex.Thread} {p : Point} {t : ι} {m m' : Mutex ι}

theorem Placed.orderly (h : Placed counter y p) : Mutex.Orderly y := by
  intro hne
  cases p with
  | lockContador => exact h.1
  | unlockContador => exact h.1
  | load => exact absurd (congrArg Mutex.Thread.point h) hne
  | store value => exact absurd (congrArg Mutex.Thread.point h.1) hne
  | unlockBarrera ret => exact congrArg Mutex.Thread.inside h.1
  | test ret => exact congrArg Mutex.Thread.inside h.1
  | idle | waitMutex | lockBarrera | read => exact congrArg Mutex.Thread.inside h

/-- What a thread without the mutex knows of the counter is still true when it goes down. -/
theorem Placed.countDown (h : Placed counter y p) (hy : ¬ Mutex.Owns y) :
    Placed (counter - 1) y p := by
  cases p with
  | store value => exact absurd (.inl (by rw [h.1])) hy
  | unlockBarrera ret => exact ⟨h.1, by have := h.2; omega⟩
  | test ret => exact ⟨h.1, by have := h.2; omega⟩
  | idle | lockContador | load | unlockContador | waitMutex | lockBarrera | read => exact h

/-- The thread is still in `Lock`, or it has the mutex. -/
theorem placed_lock {y' : Mutex.Thread} (h : Mutex.Acts t m y .run m' y')
    (hy : Placed counter y .lockContador) : Placed counter y' (after .lockContador .load y') := by
  obtain ⟨hin, hpoint⟩ := hy
  cases h with
  | record inside => exact ⟨hin, .inr rfl⟩
  | wait inside hvalue => exact ⟨hin, .inr rfl⟩
  | take inside hvalue => rfl
  | _ => rcases hpoint with hpoint | hpoint <;> cases hpoint

/-- The thread is still in `Unlock`, or it is done with the mutex. -/
theorem placed_unlock {y' : Mutex.Thread} (h : Mutex.Acts t m y .run m' y')
    (hy : Placed counter y .unlockContador) :
    Placed counter y' (after .unlockContador .waitMutex y') := by
  obtain ⟨hin, hpoint⟩ := hy
  cases h with
  | own inside hholder => exact ⟨hin, rfl⟩
  | notOwn inside hholder => exact ⟨hin, rfl⟩
  | V inside => exact ⟨hin, rfl⟩
  | clear inside =>
      obtain rfl : inside = false := hin
      rfl
  | _ => cases hpoint

end Placed

/-! ## What a step does -/

section Step

variable {t : ι} {s s' : State ι} {x x' : Thread} {a : Action}

/-- The step of `contador` that a step of `Wait` makes, if it makes one. -/
theorem Acts.contador (h : Acts t s x a s' x')
    (hx : Placed s.barrier.counter x.contador x.point) :
    (s'.barrier.contador = s.barrier.contador ∧ x'.contador = x.contador)
      ∨ ∃ b, Mutex.InTurn x.contador b
          ∧ Mutex.Acts t s.barrier.contador x.contador b s'.barrier.contador x'.contador := by
  cases h with
  | call hp h =>
      rw [hp] at hx
      exact .inr ⟨.Lock, congrArg Mutex.Thread.inside hx, h⟩
  | lockContador hp h => exact .inr ⟨.run, trivial, h⟩
  | store hp h =>
      rw [hp] at hx
      exact .inr ⟨.Unlock, congrArg Mutex.Thread.inside hx.1, h⟩
  | unlockContador hp h => exact .inr ⟨.run, trivial, h⟩
  | load | waitMutex | lockBarrera | read | unlockBarrera | again | released => exact .inl ⟨rfl, rfl⟩

/-- Where the thread is after the step. -/
theorem Acts.placed (h : Acts t s x a s' x')
    (hx : Placed s.barrier.counter x.contador x.point) :
    Placed s'.barrier.counter x'.contador x'.point := by
  cases h with
  | call hp h =>
      rw [hp] at hx
      have hin : x.contador.inside = false := congrArg Mutex.Thread.inside hx
      generalize x.contador = y₀ at h hin
      cases h with
      | lock inside => exact ⟨hin, .inl rfl⟩
  | lockContador hp h =>
      rw [hp] at hx
      exact placed_lock h hx
  | load hp =>
      rw [hp] at hx
      exact ⟨hx, rfl⟩
  | store hp h =>
      generalize x.contador = y₀ at h
      cases h with
      | unlock inside => exact ⟨rfl, rfl⟩
  | unlockContador hp h =>
      rw [hp] at hx
      exact placed_unlock h hx
  | waitMutex hp h =>
      rw [hp] at hx
      exact hx
  | lockBarrera hp h =>
      rw [hp] at hx
      dsimp only [after]
      split_ifs
      · exact hx
      · exact hx
  | read hp h =>
      rw [hp] at hx
      exact ⟨hx, le_refl _⟩
  | unlockBarrera hp h =>
      rw [hp] at hx
      dsimp only [after]
      split_ifs
      · exact hx
      · exact hx
  | again hp h =>
      rw [hp] at hx
      exact hx.1
  | released hp h =>
      rw [hp] at hx
      exact hx.1

/-- What happens to the counter: it goes down by one with every call that counts down, and nobody
returns before it has arrived at `0`. -/
theorem Acts.counter (h : Acts t s x a s' x')
    (hx : Placed s.barrier.counter x.contador x.point) :
    (s'.barrier.counter = s.barrier.counter ∧ s'.decrements = s.decrements
        ∧ (s'.returns = s.returns ∨ s.barrier.counter ≤ 0))
      ∨ (Mutex.Owns x.contador ∧ s'.barrier.counter = s.barrier.counter - 1
        ∧ s'.decrements = s.decrements + 1 ∧ s'.returns = s.returns) := by
  cases h with
  | store hp h =>
      rw [hp] at hx
      obtain ⟨hy, rfl⟩ := hx
      exact .inr ⟨.inl (by rw [hy]), rfl, rfl, rfl⟩
  | released hp h =>
      rw [hp] at hx
      exact .inl ⟨rfl, rfl, .inr (hx.2.trans h)⟩
  | _ => exact .inl ⟨rfl, rfl, .inl rfl⟩

end Step

/-! ## The result -/

/-- The counter is what is left of `count`. -/
structure Inv (count : ℤ) (c : System ι) : Prop where
  token : Exclusive c.shared.barrier.contador.mutex.value
    fun t => Mutex.Owns (c.threads t).contador
  placed : ∀ t, Placed c.shared.barrier.counter (c.threads t).contador (c.threads t).point
  counted : c.shared.barrier.counter = count - c.shared.decrements
  released : 0 < c.shared.returns → c.shared.barrier.counter ≤ 0

theorem inv_initial (count : ℤ) (contador barrera : Option ι) :
    Inv count (System.initial count contador barrera) where
  token := exclusive_free fun t h => by simp [Mutex.Owns, System.initial] at h
  placed := fun t => rfl
  counted := by simp [System.initial]
  released := fun h => (by cases h)

section Result

variable [DecidableEq ι] {count : ℤ} {contador barrera : Option ι} {c c' : System ι}

/-- **The step lemma.** -/
theorem inv_step {a : ι × Action} (hinv : Inv count c) (h : step c a = some c') :
    Inv count c' := by
  obtain ⟨s, x, hact, rfl⟩ := step_eq_some h
  have hacts := acts_of_act hact
  have hx := hinv.placed a.1
  have hcounted := hinv.counted
  have hreleased := hinv.released
  have hplaced := hacts.placed hx
  have htoken : Exclusive s.barrier.contador.mutex.value
      fun u => Mutex.Owns (Function.update c.threads a.1 x u).contador := by
    apply hinv.token.move_local (O := fun x : Thread => Mutex.Owns x.contador)
    rcases hacts.contador hx with ⟨hm, hy⟩ | ⟨b, hturn, hb⟩
    · exact .stay (by rw [hm]) fun h => by rwa [hy] at h
    · exact (hb.turn hx.orderly hturn).2
  -- the others still know what they knew, and the history goes with the counter
  have hrest : (∀ u, u ≠ a.1 →
        Placed s.barrier.counter (c.threads u).contador (c.threads u).point)
      ∧ s.barrier.counter = count - s.decrements ∧ (0 < s.returns → s.barrier.counter ≤ 0) := by
    rcases hacts.counter hx with ⟨hcounter, hdecr, hret⟩ | ⟨howns, hcounter, hdecr, hret⟩
    · rw [hcounter, hdecr]
      refine ⟨fun u _ => hinv.placed u, hcounted, fun hpos => ?_⟩
      rcases hret with hret | hzero
      · exact hreleased (hret ▸ hpos)
      · exact hzero
    · rw [hcounter, hdecr, hret]
      refine ⟨fun u hu => ?_, ?_, fun hpos => ?_⟩
      · exact (hinv.placed u).countDown fun hown => hu (hinv.token.unique u a.1 hown howns)
      · push_cast
        omega
      · have := hreleased hpos
        omega
  exact ⟨htoken, forall_update (P := fun _ (y : Thread) => Placed s.barrier.counter y.contador y.point)
    hplaced hrest.1, hrest.2.1, hrest.2.2⟩

/-- **Nobody gets past the barrier too early.** Of any number of threads, in any order of their
steps and whatever the two mutexes had recorded at first: when a call of `Wait` has returned,
at least `count` calls have counted down. The counter is lowered under the first mutex, and so no
two threads count as one. -/
theorem wait_released (h : Reach step always (System.initial count contador barrera) c)
    (hreturned : 0 < c.shared.returns) : count ≤ c.shared.decrements := by
  have hinv : Inv count c := Reach.invariant (Inv count) (inv_initial count contador barrera)
    (fun _ _ _ hs _ hstep => inv_step hs hstep) h
  have hcounted := hinv.counted
  have := hinv.released hreturned
  omega

/-- Thread `0` counts down and finds `1`; thread `1` counts down; thread `0` polls again and
returns. -/
theorem wait_released_two_threads :
    ∃ c, Reach step always (System.initial 2 none none : System ℕ) c ∧ c.shared.returns = 1
      ∧ (2 : ℤ) ≤ c.shared.decrements := by
  let as : List (ℕ × Action) :=
    (0, .Wait) :: List.replicate 15 (0, .run) ++ (1, .Wait) :: List.replicate 7 (1, .run)
      ++ List.replicate 8 (0, .run)
  obtain ⟨c, hc, hret⟩ : ∃ c, exec step (System.initial 2 none none) as = some c
      ∧ c.shared.returns = 1 := ⟨_, rfl, rfl⟩
  have hreach := Reach.of_exec (allOk_always as _) hc
  exact ⟨c, hreach, hret, wait_released hreach (by omega)⟩

end Result

end Barrier

end LoadBalancer.NachOS
