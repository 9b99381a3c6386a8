/-
Runs of a partial, labelled step function.

A system is given by `step : σ → α → Option σ`: at a state, an action either has
one successor or cannot be taken. What distinguishes one family of runs from
another -- no connection is refused, no entry is removed, every request uses one
method -- is a predicate on the steps, `ok : σ → α → Prop`, that looks at the
state *before* the step and at the action. [`Reach`] is the states reached by
runs all of whose steps are `ok`, and the one induction about runs is
[`Reach.invariant`]: every invariant of a system is a base case and a step lemma.

[`exec`] is the executable reading of a run, a fold over its actions, and
[`Reach.of_exec`] turns an evaluated run into a reachable state. [`observed`] is what is
seen of the steps of a run, in order, and [`Throughout`] what holds in all of its states.
-/
import Mathlib.Logic.Basic
import Mathlib.Data.List.Basic
import Mathlib.Data.List.Induction
import Mathlib.Data.List.Iterate
import Mathlib.Order.Basic

set_option autoImplicit false

namespace LoadBalancer.Transition

universe u v

variable {σ : Type u} {α : Type v}

/-! ## Reachable states -/

/-- The states reached from `s₀` by steps that are all `ok`. -/
inductive Reach (step : σ → α → Option σ) (ok : σ → α → Prop) (s₀ : σ) : σ → Prop
  | start : Reach step ok s₀ s₀
  | next {s s' : σ} {a : α} (hr : Reach step ok s₀ s) (hok : ok s a) (hs : step s a = some s') :
      Reach step ok s₀ s'

/-- Every step is allowed. -/
def always (_ : σ) (_ : α) : Prop := True

variable {step : σ → α → Option σ} {ok : σ → α → Prop} {s₀ s s' : σ}

/-- **The invariant rule.** What holds at the start and is kept by every `ok` step
holds in every state reached. -/
theorem Reach.invariant (Inv : σ → Prop) (h0 : Inv s₀)
    (hstep : ∀ s a s', Inv s → ok s a → step s a = some s' → Inv s')
    (h : Reach step ok s₀ s) : Inv s := by
  induction h with
  | start => exact h0
  | next _ hok hs ih => exact hstep _ _ _ ih hok hs

/-- Runs compose. -/
theorem Reach.trans {s₁ : σ} (h₁ : Reach step ok s₀ s₁) (h₂ : Reach step ok s₁ s) :
    Reach step ok s₀ s := by
  induction h₂ with
  | start => exact h₁
  | next _ hok hs ih => exact .next ih hok hs

/-! ## Executing a run -/

/-- The state after a list of actions, `none` as soon as one cannot be taken. -/
def exec (step : σ → α → Option σ) : σ → List α → Option σ
  | s, [] => some s
  | s, a :: as => (step s a).bind fun s' => exec step s' as

theorem exec_append (as bs : List α) (s : σ) :
    exec step s (as ++ bs) = (exec step s as).bind fun s' => exec step s' bs := by
  induction as generalizing s with
  | nil => rfl
  | cons a as ih =>
      rw [List.cons_append, exec, exec]
      cases step s a with
      | none => rfl
      | some t => exact ih t

/-- A run with one more action. -/
theorem exec_concat_eq_some_iff {as : List α} {a : α} :
    exec step s (as ++ [a]) = some s' ↔ ∃ t, exec step s as = some t ∧ step t a = some s' := by
  have hlast (t : σ) : exec step t [a] = step t a := Option.bind_fun_some (step t a)
  rw [exec_append, Option.bind_eq_some_iff]
  simp only [hlast]

/-- **The invariant rule with the history of the run.** What holds at the start and is kept
by one more action holds after every run, of the actions that were taken. -/
theorem exec_history (Inv : List α → σ → Prop) (h0 : Inv [] s₀)
    (hstep : ∀ as s a s', Inv as s → step s a = some s' → Inv (as ++ [a]) s') {as : List α}
    (h : exec step s₀ as = some s) : Inv as s := by
  induction as using List.reverseRecOn generalizing s with
  | nil =>
      rw [exec, Option.some.injEq] at h
      rw [← h]
      exact h0
  | append_singleton as a ih =>
      obtain ⟨t, ht, hlast⟩ := exec_concat_eq_some_iff.mp h
      exact hstep as t a s (ih ht) hlast

/-- Every step of the run that `as` makes from `s` is `ok`. -/
def AllOk (step : σ → α → Option σ) (ok : σ → α → Prop) : σ → List α → Prop
  | _, [] => True
  | s, a :: as => ok s a ∧ match step s a with
      | none => True
      | some s' => AllOk step ok s' as

instance AllOk.decidable [∀ s a, Decidable (ok s a)] :
    ∀ (s : σ) (as : List α), Decidable (AllOk step ok s as)
  | _, [] => isTrue trivial
  | s, a :: as =>
      have : Decidable (match step s a with
          | none => True
          | some s' => AllOk step ok s' as) :=
        match step s a with
        | none => isTrue trivial
        | some s' => AllOk.decidable s' as
      inferInstanceAs (Decidable (ok s a ∧ _))

theorem allOk_always (as : List α) (s : σ) : AllOk step always s as := by
  induction as generalizing s with
  | nil => trivial
  | cons a as ih =>
      refine ⟨trivial, ?_⟩
      split
      · trivial
      · exact ih _

theorem AllOk.mono {ok' : σ → α → Prop} {as : List α} (h : AllOk step ok s as)
    (himp : ∀ s a, ok s a → ok' s a) : AllOk step ok' s as := by
  induction as generalizing s with
  | nil => trivial
  | cons a as ih =>
      obtain ⟨hfirst, hrest⟩ := h
      refine ⟨himp s a hfirst, ?_⟩
      cases hs : step s a with
      | none => trivial
      | some s' =>
          rw [hs] at hrest
          exact ih hrest

/-- An evaluated run reaches the state it ends in. -/
theorem Reach.of_exec {as : List α} (hok : AllOk step ok s as) (h : exec step s as = some s') :
    Reach step ok s s' := by
  induction as generalizing s with
  | nil =>
      simp only [exec, Option.some.injEq] at h
      subst h
      exact .start
  | cons a as ih =>
      simp only [exec] at h
      obtain ⟨t, ht, hrest⟩ := Option.bind_eq_some_iff.mp h
      have hfirst : Reach step ok s t := .next .start hok.1 ht
      have htail : AllOk step ok t as := by
        have := hok.2
        rwa [ht] at this
      exact hfirst.trans (ih htail hrest)

/-- **The rule for two conditions on the steps.** If they agree at every state of an invariant,
and the invariant is kept by the steps that meet one of them, then all steps of a run meet the
one exactly when all of them meet the other. -/
theorem allOk_iff_allOk {P good : σ → α → Prop} (Inv : σ → Prop)
    (hiff : ∀ s a, Inv s → ok s a → (P s a ↔ good s a))
    (hinv : ∀ s a s', Inv s → ok s a → P s a → step s a = some s' → Inv s')
    {as : List α} (hs : Inv s) (hok : AllOk step ok s as) :
    AllOk step P s as ↔ AllOk step good s as := by
  induction as generalizing s with
  | nil => exact Iff.rfl
  | cons a as ih =>
      obtain ⟨hfirst, hlater⟩ := hok
      rw [AllOk, AllOk, ← hiff s a hs hfirst]
      apply and_congr_right
      intro hP
      cases ht : step s a with
      | none => exact Iff.rfl
      | some t =>
          rw [ht] at hlater
          exact ih (hinv s a t hs hfirst hP ht) hlater

/-- **The rule for a condition on the history.** If a condition on the state before a step is,
after every run, one on the actions taken so far, then all steps of a run meet it exactly when
all of its prefixes do. -/
theorem allOk_iff_history {P : σ → α → Prop} {Q : List α → α → Prop} (Inv : List α → σ → Prop)
    (h0 : Inv [] s₀)
    (hiff : ∀ as s a, Inv as s → ok s a → (P s a ↔ Q as a))
    (hstep : ∀ as s a, Inv as s → ok s a → P s a →
      ∃ s', step s a = some s' ∧ Inv (as ++ [a]) s')
    {as : List α} (hok : AllOk step ok s₀ as) :
    AllOk step P s₀ as ↔ ∀ pre a post, as = pre ++ a :: post → Q pre a := by
  -- the run so far is `done`, and `as` is what is still to come
  have main : ∀ (as done : List α) (s : σ), Inv done s → AllOk step ok s as →
      (AllOk step P s as ↔ ∀ pre a post, as = pre ++ a :: post → Q (done ++ pre) a) := by
    intro as
    induction as with
    | nil =>
        intro done s _ _
        refine iff_of_true trivial fun pre a post h => ?_
        exact absurd h.symm (List.append_ne_nil_of_right_ne_nil pre (List.cons_ne_nil a post))
    | cons b as ih =>
        rintro done s hinv ⟨hfirst, hlater⟩
        constructor
        · rintro ⟨hP, hall⟩ pre a post heq
          obtain ⟨t, ht, hinv'⟩ := hstep done s b hinv hfirst hP
          rw [ht] at hall hlater
          cases pre with
          | nil =>
              obtain ⟨rfl, rfl⟩ := List.cons.inj heq
              rw [List.append_nil]
              exact (hiff done s _ hinv hfirst).mp hP
          | cons c pre =>
              obtain ⟨rfl, htail⟩ := List.cons.inj heq
              have := (ih (done ++ [_]) t hinv' hlater).mp hall pre a post htail
              rwa [List.append_assoc, List.singleton_append] at this
        · intro hall
          have hQ : Q done b := by
            have := hall [] b as rfl
            rwa [List.append_nil] at this
          have hP := (hiff done s b hinv hfirst).mpr hQ
          obtain ⟨t, ht, hinv'⟩ := hstep done s b hinv hfirst hP
          rw [ht] at hlater
          refine ⟨hP, ?_⟩
          rw [ht]
          refine (ih (done ++ [b]) t hinv' hlater).mpr fun pre a post heq => ?_
          rw [List.append_assoc, List.singleton_append]
          exact hall (b :: pre) a post (by rw [heq, List.cons_append])
  have := main as [] s₀ h0 hok
  simpa only [List.nil_append] using this

/-! ## What is seen along a run -/

section Observed

universe w x

variable {β : Type w} {γ : Type x}

/-- What `obs` shows of the steps of the run that `as` makes from `s`, in order. -/
def observed (step : σ → α → Option σ) (obs : σ → α → σ → Option β) : σ → List α → List β
  | _, [] => []
  | s, a :: as => match step s a with
      | none => []
      | some s' => (obs s a s').toList ++ observed step obs s' as

theorem observed_append {obs : σ → α → σ → Option β} {as : List α} (bs : List α)
    (h : exec step s as = some s') :
    observed step obs s (as ++ bs) = observed step obs s as ++ observed step obs s' bs := by
  induction as generalizing s with
  | nil =>
      rw [exec, Option.some.injEq] at h
      subst h
      rfl
  | cons a as ih =>
      rw [exec] at h
      obtain ⟨t, ht, hrest⟩ := Option.bind_eq_some_iff.mp h
      rw [List.cons_append, observed, observed, ht]
      dsimp only
      rw [ih hrest, List.append_assoc]

/-- **The invariant rule with what was seen.** What holds at the start and is kept by one more
step, with what it shows, holds after every run, of all that the run shows. -/
theorem exec_observed {obs : σ → α → σ → Option β} (Inv : List β → σ → Prop) (h0 : Inv [] s₀)
    (hstep : ∀ tr s a s', Inv tr s → step s a = some s' → Inv (tr ++ (obs s a s').toList) s')
    {as : List α} (h : exec step s₀ as = some s) : Inv (observed step obs s₀ as) s := by
  induction as using List.reverseRecOn generalizing s with
  | nil =>
      rw [exec, Option.some.injEq] at h
      rw [← h]
      exact h0
  | append_singleton as a ih =>
      obtain ⟨t, ht, hlast⟩ := exec_concat_eq_some_iff.mp h
      have hshown : observed step obs t [a] = (obs t a s).toList := by
        rw [observed, hlast]
        exact List.append_nil _
      rw [observed_append [a] ht, hshown]
      exact hstep _ t a s (ih ht) hlast

/-- **The rule for a cursor.** If every step that shows something shows the cursor and moves
it on, and the others leave it where it is, the run shows the cursor's successive values. -/
theorem observed_eq_iterate {obs : σ → α → σ → Option β} (Inv : σ → Prop) (cursor : σ → γ)
    (next : γ → γ) (out : γ → β)
    (hstep : ∀ s a s', Inv s → ok s a → step s a = some s' →
      Inv s' ∧ (obs s a s' = none ∧ cursor s' = cursor s
        ∨ obs s a s' = some (out (cursor s)) ∧ cursor s' = next (cursor s)))
    {as : List α} (hs : Inv s) (hok : AllOk step ok s as) :
    observed step obs s as
      = (List.iterate next (cursor s) (observed step obs s as).length).map out := by
  induction as generalizing s with
  | nil => rfl
  | cons a as ih =>
      rw [observed]
      obtain ⟨hfirst, hrest⟩ := hok
      cases hs' : step s a with
      | none => rfl
      | some s' =>
          rw [hs'] at hrest
          obtain ⟨hinv, ⟨hobs, hcur⟩ | ⟨hobs, hcur⟩⟩ := hstep s a s' hs hfirst hs'
          · -- nothing is seen and the cursor stays
            dsimp only
            rw [hobs, Option.toList_none, List.nil_append, ← hcur]
            exact ih hinv hrest
          · dsimp only
            rw [hobs, Option.toList_some, List.singleton_append, List.length_cons,
              List.iterate, List.map_cons, ← hcur, ← ih hinv hrest]

end Observed

/-! ## What holds along a run -/

/-- `P` holds in every state of the run that `as` makes from `s`, the first and the last
included. -/
def Throughout (step : σ → α → Option σ) (P : σ → Prop) : σ → List α → Prop
  | s, [] => P s
  | s, a :: as => P s ∧ match step s a with
      | none => True
      | some s' => Throughout step P s' as

theorem Throughout.head {P : σ → Prop} {as : List α} (h : Throughout step P s as) : P s := by
  cases as with
  | nil => exact h
  | cons a as => exact h.1

/-- **The rule for an exact condition.** If, of the steps that are `ok`, exactly those that
are `good` keep `P`, then `P` holds throughout a run exactly when all of its steps are
`good`. -/
theorem throughout_iff_allOk {good : σ → α → Prop} (Inv P : σ → Prop)
    (hstep : ∀ s a s', Inv s → P s → ok s a → step s a = some s' → Inv s' ∧ (P s' ↔ good s a))
    {as : List α} (hs : Inv s) (hp : P s) (hok : AllOk step ok s as)
    (hrun : exec step s as = some s') : Throughout step P s as ↔ AllOk step good s as := by
  induction as generalizing s with
  | nil => exact ⟨fun _ => trivial, fun _ => hp⟩
  | cons a as ih =>
      rw [exec] at hrun
      obtain ⟨t, ht, hrest⟩ := Option.bind_eq_some_iff.mp hrun
      obtain ⟨hfirst, hlater⟩ := hok
      rw [ht] at hlater
      obtain ⟨hinv, hiff⟩ := hstep s a t hs hp hfirst ht
      rw [Throughout, AllOk, ht]
      dsimp only
      constructor
      · rintro ⟨-, hall⟩
        have hpt : P t := hall.head
        exact ⟨hiff.mp hpt, (ih hinv hpt hlater hrest).mp hall⟩
      · rintro ⟨hgood, hall⟩
        exact ⟨hp, (ih hinv (hiff.mpr hgood) hlater hrest).mpr hall⟩

/-- What lasts as long as `P` does is still there at the end of a run throughout which `P`
holds. -/
theorem Throughout.lasts {Base P Debt : σ → Prop}
    (hbase : ∀ s a s', Base s → ok s a → step s a = some s' → Base s')
    (hdebt : ∀ s a s', Base s → P s → P s' → ok s a → Debt s → step s a = some s' → Debt s')
    {as : List α} (hall : Throughout step P s as) (hs : Base s) (hd : Debt s)
    (hok : AllOk step ok s as) (hrun : exec step s as = some s') : Debt s' := by
  induction as generalizing s with
  | nil =>
      rw [exec, Option.some.injEq] at hrun
      exact hrun ▸ hd
  | cons a as ih =>
      obtain ⟨t, ht, hrest⟩ := Option.bind_eq_some_iff.mp hrun
      rw [AllOk, ht] at hok
      rw [Throughout, ht] at hall
      have hdt : Debt t := hdebt s a t hs hall.1 hall.2.head hok.1 hd ht
      exact ih hall.2 (hbase s a t hs hok.1 ht) hdt hok.2 hrest

/-- **The rule for an exact condition whose violations show later.** While all steps are `good`,
`P` holds; a step that is not leaves a debt, which no step can settle without breaking `P`. In
a run that ends without debt, `P` holds throughout exactly when all steps are `good`. -/
theorem throughout_iff_allOk_of_settled {good : σ → α → Prop} (Base Inv P Debt : σ → Prop)
    (hbase : ∀ s a s', Base s → ok s a → step s a = some s' → Base s')
    (hinv : ∀ s, Inv s → P s)
    (hgood : ∀ s a s', Inv s → ok s a → good s a → step s a = some s' → Inv s')
    (hbad : ∀ s a s', Base s → ok s a → ¬ good s a → step s a = some s' → Debt s')
    (hdebt : ∀ s a s', Base s → P s → P s' → ok s a → Debt s → step s a = some s' → Debt s')
    {as : List α} (hs : Base s) (hi : Inv s) (hok : AllOk step ok s as)
    (hrun : exec step s as = some s') :
    (AllOk step good s as → Throughout step P s as)
      ∧ (¬ Debt s' → Throughout step P s as → AllOk step good s as) := by
  induction as generalizing s with
  | nil => exact ⟨fun _ => hinv s hi, fun _ _ => trivial⟩
  | cons a as ih =>
      obtain ⟨t, ht, hrest⟩ := Option.bind_eq_some_iff.mp hrun
      rw [AllOk, ht] at hok
      have hbt := hbase s a t hs hok.1 ht
      rw [Throughout, AllOk, ht]
      dsimp only
      constructor
      · rintro ⟨hg, hall⟩
        exact ⟨hinv s hi, (ih hbt (hgood s a t hi hok.1 hg ht) hok.2 hrest).1 hall⟩
      · rintro hsettled ⟨-, hall⟩
        by_cases hg : good s a
        · exact ⟨hg, (ih hbt (hgood s a t hi hok.1 hg ht) hok.2 hrest).2 hsettled hall⟩
        · have hdt : Debt t := hbad s a t hs hok.1 hg ht
          exact absurd (hall.lasts hbase hdebt hbt hdt hok.2 hrest) hsettled

end LoadBalancer.Transition
