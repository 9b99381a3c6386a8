/-
`Semaphore` of `synch.cc`, as the threads of NachOS see it: two atomic operations.

`P` and `V` switch the interrupts off, so nothing happens between their statements. The one
place where a `P` gives the processor away is its `Sleep`, with the thread in the queue;
when a `V` takes the thread out of the queue it will test the value again, and may find that
another `P` was faster. A call of [`Semaphore.P`] is what happens from one such place to the
next.
-/
import Mathlib.Data.Nat.Notation
import Mathlib.Tactic.SplitIfs

set_option autoImplicit false

namespace LoadBalancer.NachOS

/-- `Semaphore`: its value and the threads that sleep in `P`, known by `ι`. -/
structure Semaphore (ι : Type) where
  value : ℕ
  queue : List ι

namespace Semaphore

variable {ι : Type}

/-- A semaphore right after its construction. -/
def initial (initialValue : ℕ) : Semaphore ι := ⟨initialValue, []⟩

/-- One turn of the `while` of `P`, by thread `t`, and whether it got the value. A thread that
sleeps makes no turn. -/
def P [DecidableEq ι] (t : ι) (s : Semaphore ι) : Option (Semaphore ι × Bool) :=
  if s.queue.contains t then none
  else if s.value = 0 then some ({ s with queue := s.queue ++ [t] }, false)
  else some ({ s with value := s.value - 1 }, true)

/-- `V`: the first thread of the queue, if any, becomes ready. -/
def V (s : Semaphore ι) : Semaphore ι := ⟨s.value + 1, s.queue.tail⟩

/-- What a turn of `P` does. -/
theorem P_eq_some [DecidableEq ι] {t : ι} {s s' : Semaphore ι} {taken : Bool}
    (h : s.P t = some (s', taken)) :
    (taken = false ∧ s.value = 0 ∧ s' = { s with queue := s.queue ++ [t] })
      ∨ (taken = true ∧ 0 < s.value ∧ s' = { s with value := s.value - 1 }) := by
  unfold P at h
  split_ifs at h with hqueue hvalue
  · cases h
    exact .inl ⟨rfl, hvalue, rfl⟩
  · cases h
    exact .inr ⟨rfl, Nat.pos_of_ne_zero hvalue, rfl⟩

end Semaphore

end LoadBalancer.NachOS
