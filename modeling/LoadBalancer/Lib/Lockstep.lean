/-
Two systems in lockstep.

[`ExceptRel`] relates two computations that both fail, or both succeed, with related outcomes; it
passes through sequencing ([`ExceptRel.bind`]). [`exec_component`] is about one component of a
system whose steps are those of its components, one at a time: if its own steps move what is seen of
it as it would move alone, and the steps of the others leave that, then every run shows it where its
own steps, and no others, have brought it.
-/
import LoadBalancer.Lib.Transition

set_option autoImplicit false

namespace LoadBalancer.Lockstep

open LoadBalancer.Transition

universe u v w

/-! ## Computations that may fail -/

section Computations

variable {ε ε' : Type u} {α α' β β' : Type v}

/-- Both fail or both succeed, with related outcomes. -/
inductive ExceptRel (E : ε → ε' → Prop) (A : α → α' → Prop) : Except ε α → Except ε' α' → Prop
  | error {e : ε} {e' : ε'} (h : E e e') : ExceptRel E A (.error e) (.error e')
  | ok {a : α} {a' : α'} (h : A a a') : ExceptRel E A (.ok a) (.ok a')

variable {E : ε → ε' → Prop} {A : α → α' → Prop} {B : β → β' → Prop}

/-- **Sequencing.** -/
theorem ExceptRel.bind {x : Except ε α} {x' : Except ε' α'} {f : α → Except ε β}
    {f' : α' → Except ε' β'} (hx : ExceptRel E A x x')
    (hf : ∀ a a', A a a' → ExceptRel E B (f a) (f' a')) :
    ExceptRel E B (x >>= f) (x' >>= f') := by
  cases hx with
  | error h => exact .error h
  | ok h => exact hf _ _ h

theorem ExceptRel.mono {E' : ε → ε' → Prop} {A' : α → α' → Prop} {x : Except ε α}
    {x' : Except ε' α'} (hx : ExceptRel E A x x') (hE : ∀ e e', E e e' → E' e e')
    (hA : ∀ a a', A a a' → A' a a') : ExceptRel E' A' x x' := by
  cases hx with
  | error h => exact .error (hE _ _ h)
  | ok h => exact .ok (hA _ _ h)

end Computations

/-! ## Components that take turns -/

section Interleaving

variable {σ : Type u} {α : Type v} {τ : Type w} {ι β : Type w} [DecidableEq ι]

/-- What one component does, of all that is done. -/
def turnsOf (i : ι) (turns : List (ι × β)) : List β :=
  turns.filterMap fun turn => if turn.1 = i then some turn.2 else none

theorem turnsOf_concat (i j : ι) (b : β) (turns : List (ι × β)) :
    turnsOf i (turns ++ [(j, b)]) = turnsOf i turns ++ if j = i then [b] else [] := by
  rw [turnsOf, List.filterMap_append, List.filterMap_cons]
  by_cases hji : j = i
  · rw [if_pos hji, if_pos hji]
    rfl
  · rw [if_neg hji, if_neg hji]
    rfl

variable {step : σ → α → Option σ} {alone : τ → β → Option τ} {actor : σ → α → σ → Option (ι × β)}

/-- **Interleaved runs.** `View s t` says that the component is seen in the state `t`. -/
theorem exec_component (i : ι) (View : σ → τ → Prop)
    (hown : ∀ s a s' t b, View s t → step s a = some s' → actor s a s' = some (i, b) →
      ∃ t', alone t b = some t' ∧ View s' t')
    (hother : ∀ s a s' t, View s t → step s a = some s' → (∀ b, actor s a s' ≠ some (i, b)) →
      View s' t)
    {s s' : σ} {t : τ} {as : List α} (hs : View s t) (hrun : exec step s as = some s') :
    ∃ t', View s' t' ∧ exec alone t (turnsOf i (observed step actor s as)) = some t' := by
  refine exec_observed (fun turns s => ∃ t', View s t'
    ∧ exec alone t (turnsOf i turns) = some t') ⟨t, hs, rfl⟩ ?_ hrun
  rintro turns s a s' ⟨u, hview, hturns⟩ hstep
  cases hactor : actor s a s' with
  | none =>
      rw [Option.toList_none, List.append_nil]
      refine ⟨u, hother s a s' u hview hstep fun b hb => ?_, hturns⟩
      rw [hactor] at hb
      cases hb
  | some turn =>
      obtain ⟨j, b⟩ := turn
      rw [Option.toList_some, turnsOf_concat]
      by_cases hji : j = i
      · obtain rfl := hji
        obtain ⟨u', halone, hview'⟩ := hown s a s' u b hview hstep hactor
        rw [if_pos rfl]
        exact ⟨u', hview', exec_concat_eq_some_iff.mpr ⟨_, hturns, halone⟩⟩
      · rw [if_neg hji, List.append_nil]
        refine ⟨u, hother s a s' u hview hstep fun c hc => hji ?_, hturns⟩
        rw [hactor] at hc
        exact congrArg Prod.fst (Option.some.inj hc)

end Interleaving

end LoadBalancer.Lockstep
