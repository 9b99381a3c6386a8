/-
Traces: what the steps of a run show, some of them more than one thing.

[`trace`] strings together what the steps show. [`Pending`] says that an event of one kind has been
seen since the last of another, and [`Separated`] that between two of the one kind there is always
one of the other; both are followed event by event ([`pending_concat`], [`separated_concat`]).
-/
import LoadBalancer.Lib.Transition

set_option autoImplicit false

namespace LoadBalancer.Events

open LoadBalancer.Transition

universe u v w

variable {σ : Type u} {α : Type v} {ε : Type w}

/-- What the run that `as` makes from `s` shows, if each step shows `events`. -/
def trace (step : σ → α → Option σ) (events : σ → α → List ε) (s : σ) (as : List α) : List ε :=
  (observed step (fun s a _ => some (events s a)) s as).flatten

/-- **The invariant rule with the trace.** -/
theorem exec_trace {step : σ → α → Option σ} {events : σ → α → List ε} {s₀ s : σ}
    (Inv : List ε → σ → Prop) (h0 : Inv [] s₀)
    (hstep : ∀ tr s a s', Inv tr s → step s a = some s' → Inv (tr ++ events s a) s') {as : List α}
    (h : exec step s₀ as = some s) : Inv (trace step events s₀ as) s := by
  refine exec_observed (fun tr s => Inv tr.flatten s) h0 (fun tr s a s' hinv hs => ?_) h
  rw [List.flatten_append, Option.toList_some, List.flatten_singleton]
  exact hstep _ _ _ _ hinv hs

variable {A B : ε → Prop} {l : List ε} {e : ε}

/-- An `A` has been seen, and no `B` since. -/
def Pending (A B : ε → Prop) (l : List ε) : Prop :=
  ∃ pre a post, l = pre ++ a :: post ∧ A a ∧ ∀ b ∈ post, ¬ B b

/-- Between two `A`s there is a `B`. -/
def Separated (A B : ε → Prop) (l : List ε) : Prop :=
  ∀ pre a mid a' post, l = pre ++ a :: (mid ++ a' :: post) → A a → A a' → ∃ b ∈ mid, B b

theorem not_pending_nil : ¬ Pending A B [] := by
  rintro ⟨pre, a, post, heq, -, -⟩
  exact absurd heq.symm (List.append_ne_nil_of_right_ne_nil _ (List.cons_ne_nil _ _))

theorem separated_nil : Separated A B [] := by
  intro pre a mid a' post heq
  exact absurd heq.symm (List.append_ne_nil_of_right_ne_nil _ (List.cons_ne_nil _ _))

/-- One more event. -/
theorem pending_concat : Pending A B (l ++ [e]) ↔ A e ∨ (Pending A B l ∧ ¬ B e) := by
  constructor
  · rintro ⟨pre, a, post, heq, ha, hpost⟩
    rcases List.eq_nil_or_concat post with rfl | ⟨mid, b, rfl⟩
    · obtain ⟨rfl, hlast⟩ := List.append_inj' heq rfl
      obtain rfl := List.singleton_inj.mp hlast
      exact .inl ha
    · rw [List.concat_eq_append] at heq hpost
      have hsplit : l ++ [e] = (pre ++ a :: mid) ++ [b] := by
        rw [heq, List.append_assoc, List.cons_append]
      obtain ⟨rfl, hlast⟩ := List.append_inj' hsplit rfl
      obtain rfl := List.singleton_inj.mp hlast
      exact .inr ⟨⟨pre, a, mid, rfl, ha, fun b hb => hpost b (List.mem_append_left _ hb)⟩,
        hpost e (List.mem_append_right _ (List.mem_singleton_self e))⟩
  · rintro (he | ⟨⟨pre, a, post, rfl, ha, hpost⟩, he⟩)
    · exact ⟨l, e, [], rfl, he, fun b hb => absurd hb List.not_mem_nil⟩
    · refine ⟨pre, a, post ++ [e], by rw [List.append_assoc, List.cons_append], ha, fun b hb => ?_⟩
      rcases List.mem_append.mp hb with hmem | hmem
      · exact hpost b hmem
      · rwa [List.mem_singleton.mp hmem]

/-- One more event: if it is an `A`, none may be pending. -/
theorem separated_concat :
    Separated A B (l ++ [e]) ↔ Separated A B l ∧ (A e → ¬ Pending A B l) := by
  constructor
  · intro h
    refine ⟨fun pre a mid a' post heq => ?_, ?_⟩
    · refine h pre a mid a' (post ++ [e]) ?_
      rw [heq, List.append_assoc, List.cons_append, List.append_assoc, List.cons_append]
    · rintro he ⟨pre, a, post, rfl, ha, hpost⟩
      obtain ⟨b, hb, hB⟩ := h pre a post e [] (by rw [List.append_assoc, List.cons_append]) ha he
      exact hpost b hb hB
  · rintro ⟨hl, he⟩ pre a mid a' post heq ha ha'
    rcases List.eq_nil_or_concat post with rfl | ⟨post, b, rfl⟩
    · have hsplit : l ++ [e] = (pre ++ a :: mid) ++ [a'] := by
        rw [heq, List.append_assoc, List.cons_append]
      obtain ⟨rfl, hlast⟩ := List.append_inj' hsplit rfl
      obtain rfl := List.singleton_inj.mp hlast
      by_contra hno
      exact he ha' ⟨pre, a, mid, rfl, ha, fun b hb hB => hno ⟨b, hb, hB⟩⟩
    · have hsplit : l ++ [e] = (pre ++ a :: (mid ++ a' :: post)) ++ [b] := by
        rw [heq, List.concat_eq_append, List.append_assoc, List.cons_append, List.append_assoc,
          List.cons_append]
      obtain ⟨rfl, -⟩ := List.append_inj' hsplit rfl
      exact hl pre a mid a' post rfl ha ha'

/-- Events of neither kind. -/
theorem pending_append {es : List ε} (h : ∀ e ∈ es, ¬ A e ∧ ¬ B e) :
    Pending A B (l ++ es) ↔ Pending A B l := by
  induction es generalizing l with
  | nil => rw [List.append_nil]
  | cons e es ih =>
      obtain ⟨hA, hB⟩ := h e List.mem_cons_self
      rw [← List.singleton_append, ← List.append_assoc,
        ih fun e he => h e (List.mem_cons_of_mem _ he), pending_concat, or_iff_right hA,
        and_iff_left hB]

theorem separated_append {es : List ε} (h : ∀ e ∈ es, ¬ A e) :
    Separated A B (l ++ es) ↔ Separated A B l := by
  induction es generalizing l with
  | nil => rw [List.append_nil]
  | cons e es ih =>
      rw [← List.singleton_append, ← List.append_assoc,
        ih fun e he => h e (List.mem_cons_of_mem _ he), separated_concat,
        and_iff_left fun hA => absurd hA (h e List.mem_cons_self)]

end LoadBalancer.Events
