/-
Threads that share a state.

A system of threads is a shared state and, for every thread, a local one: where it is in its
program, with its local variables. [`step`] lets one thread make one move, on the shared state
and its own local state; the other threads stay where they are. Which thread moves next is
part of the action, so the runs of `step` are all interleavings.
-/
import Mathlib.Logic.Function.Basic
import LoadBalancer.Lib.Transition

set_option autoImplicit false

namespace LoadBalancer.Threads

universe u v w x

/-- A shared state and the local states of the threads. -/
structure Config (σ : Type u) (ι : Type v) (β : Type w) where
  shared : σ
  threads : ι → β

variable {σ : Type u} {ι : Type v} {β : Type w} {α : Type x} [DecidableEq ι]

/-- One move of one thread; `act t a` is what thread `t` does when it takes action `a`. -/
def step (act : ι → α → σ × β → Option (σ × β)) (c : Config σ ι β) (a : ι × α) :
    Option (Config σ ι β) :=
  (act a.1 a.2 (c.shared, c.threads a.1)).map fun (s, l) =>
    ⟨s, Function.update c.threads a.1 l⟩

variable {act : ι → α → σ × β → Option (σ × β)} {c c' : Config σ ι β} {a : ι × α}

/-- What a move does: it changes the shared state and the local state of the thread that moves. -/
theorem step_eq_some (h : step act c a = some c') :
    ∃ s l, act a.1 a.2 (c.shared, c.threads a.1) = some (s, l)
      ∧ c' = ⟨s, Function.update c.threads a.1 l⟩ := by
  obtain ⟨⟨s, l⟩, hact, hc'⟩ := Option.map_eq_some_iff.mp h
  exact ⟨s, l, hact, hc'.symm⟩

/-- What holds of the threads before a move and of the one that moves afterwards. -/
theorem forall_update {P : ι → β → Prop} {threads : ι → β} {t : ι} {l : β} (ht : P t l)
    (hother : ∀ u, u ≠ t → P u (threads u)) (u : ι) : P u (Function.update threads t l u) :=
  (Function.forall_update_iff threads P).mpr ⟨ht, hother⟩ u

end LoadBalancer.Threads
