/-
One token.

A binary semaphore is a token that is either free or with one owner. `Holds t` is what the
state of a system says of an owner, and a move of the system takes the token, gives it back or
does neither: [`Exclusive`] is kept by all three, as long as the moves do not make owners
otherwise. [`Kept`] is the other half, that the token is not lost.

The owners are usually threads, and a move is one of a thread: it changes a shared state and
that thread's own. The rules for this case ask one thing of the other threads, that the move
makes none of them an owner.
-/
import Mathlib.Data.Nat.Notation
import Mathlib.Logic.Function.Basic
import Mathlib.Tactic.ByContra

set_option autoImplicit false

namespace LoadBalancer.Token

universe u v w

variable {ι : Type u} {free : ℕ} {Holds Holds' : ι → Prop} {t : ι}

/-- At most one token is free, and it has no owner then; otherwise it has one at most. -/
structure Exclusive (free : ℕ) (Holds : ι → Prop) : Prop where
  bound : free ≤ 1
  unique : ∀ t u, Holds t → Holds u → t = u
  idle : 0 < free → ∀ t, ¬ Holds t

/-- A free token that nobody has. -/
theorem exclusive_free (h : ∀ t, ¬ Holds t) : Exclusive 1 Holds where
  bound := Nat.le_refl 1
  unique := fun t _ ht _ => absurd ht (h t)
  idle := fun _ => h

/-- A move that makes no new owner. -/
theorem Exclusive.mono (h : Exclusive free Holds) (hle : ∀ u, Holds' u → Holds u) :
    Exclusive free Holds' where
  bound := h.bound
  unique := fun t u ht hu => h.unique t u (hle t ht) (hle u hu)
  idle := fun hfree u hu => h.idle hfree u (hle u hu)

/-- A move that takes the token. -/
theorem Exclusive.take (h : Exclusive free Holds) (hfree : 0 < free)
    (hle : ∀ u, Holds' u → u = t ∨ Holds u) : Exclusive (free - 1) Holds' := by
  have honly : ∀ u, Holds' u → u = t := fun u hu => (hle u hu).resolve_right (h.idle hfree u)
  have hbound := h.bound
  constructor
  · omega
  · intro u v hu hv
    rw [honly u hu, honly v hv]
  · intro hpos
    omega

/-- A token with an owner is not free. -/
theorem Exclusive.eq_zero (h : Exclusive free Holds) (ht : Holds t) : free = 0 := by
  by_contra hne
  exact h.idle (Nat.pos_of_ne_zero hne) t ht

/-- A move that gives the token back. -/
theorem Exclusive.give (h : Exclusive free Holds) (ht : Holds t)
    (hle : ∀ u, Holds' u → Holds u ∧ u ≠ t) : Exclusive (free + 1) Holds' := by
  have hnone : ∀ u, ¬ Holds' u := fun u hu => (hle u hu).2 (h.unique u t (hle u hu).1 ht)
  rw [h.eq_zero ht]
  exact exclusive_free hnone

/-- The token is free or with an owner. -/
def Kept (free : ℕ) (Holds : ι → Prop) : Prop := free = 1 ∨ ∃ t, Holds t

/-! ## Owners that are threads -/

section Threads

variable {σ : Type v} {β : Type w} [DecidableEq ι] {H : σ → ι → β → Prop} {s s' : σ}
  {threads : ι → β} {l : β}

/-- After a move of thread `t`, an owner is `t` or was one before. -/
theorem owner_update (hframe : ∀ u, u ≠ t → H s' u (threads u) → H s u (threads u)) {u : ι}
    (hu : H s' u (Function.update threads t l u)) :
    (u = t ∧ H s' t l) ∨ (u ≠ t ∧ H s u (threads u)) := by
  by_cases hut : u = t
  · subst hut
    rw [Function.update_self] at hu
    exact .inl ⟨rfl, hu⟩
  · rw [Function.update_of_ne hut] at hu
    exact .inr ⟨hut, hframe u hut hu⟩

/-- What a move does with the token: nothing, and then the thread that moves does not become
an owner; it takes it; or, as its owner, it gives it back. -/
inductive Move (free free' : ℕ) (before after : Prop) : Prop
  | stay (hfree : free' = free) (h : after → before)
  | take (hpos : 0 < free) (hfree : free' = free - 1)
  | give (hfree : free' = free + 1) (hbefore : before) (hafter : ¬ after)

/-- **The rule for a move of one thread.** -/
theorem Exclusive.move {free' : ℕ} (h : Exclusive free fun u => H s u (threads u))
    (hframe : ∀ u, u ≠ t → H s' u (threads u) → H s u (threads u))
    (hmove : Move free free' (H s t (threads t)) (H s' t l)) :
    Exclusive free' fun u => H s' u (Function.update threads t l u) := by
  cases hmove with
  | stay hfree hl =>
      rw [hfree]
      apply h.mono
      intro u hu
      rcases owner_update hframe hu with ⟨rfl, hu⟩ | ⟨-, hu⟩
      · exact hl hu
      · exact hu
  | take hpos hfree =>
      rw [hfree]
      apply h.take (t := t) hpos
      intro u hu
      rcases owner_update hframe hu with ⟨rfl, -⟩ | ⟨-, hu⟩
      · exact .inl rfl
      · exact .inr hu
  | give hfree hbefore hafter =>
      rw [hfree]
      apply h.give hbefore
      intro u hu
      rcases owner_update hframe hu with ⟨rfl, hu⟩ | ⟨hut, hu⟩
      · exact absurd hu hafter
      · exact ⟨hu, hut⟩

/-- The same where only the threads' own states say who has the token. -/
theorem Exclusive.move_local {O : β → Prop} {free' : ℕ} (h : Exclusive free fun u => O (threads u))
    (hmove : Move free free' (O (threads t)) (O l)) :
    Exclusive free' fun u => O (Function.update threads t l u) :=
  @Exclusive.move ι free t Unit β _ (fun _ _ x => O x) () () threads l free' h
    (fun _ _ hu => hu) hmove

/-- A move keeps the token if a thread that neither takes it nor gives it back stays an owner,
and one that takes it becomes one. -/
theorem Kept.move_local {O : β → Prop} {free' : ℕ} (h : Kept free fun u => O (threads u))
    (hex : Exclusive free fun u => O (threads u))
    (hmove : Move free free' (O (threads t)) (O l))
    (hstay : free' = free → O (threads t) → O l) (htake : free' < free → O l) :
    Kept free' fun u => O (Function.update threads t l u) := by
  have hself : O l → ∃ u, O (Function.update threads t l u) := fun hl =>
    ⟨t, by rwa [Function.update_self]⟩
  cases hmove with
  | stay hfree _ =>
      rw [Kept, hfree]
      refine h.imp_right ?_
      rintro ⟨u, hu⟩
      by_cases hut : u = t
      · subst hut
        exact hself (hstay hfree hu)
      · exact ⟨u, by rwa [Function.update_of_ne hut]⟩
  | take hpos hfree => exact .inr (hself (htake (by omega)))
  | give hfree hbefore _ =>
      have hzero : free = 0 := hex.eq_zero hbefore
      exact .inl (by omega)

end Threads

end LoadBalancer.Token
