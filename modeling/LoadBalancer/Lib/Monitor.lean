/-
Threads that share a state under one lock.

A thread is outside or inside. Outside it does not touch the shared state; it goes inside by taking
the lock, and gives it back as it goes out. [`Moves`] says what one move of one thread has to do:
what holds of a free monitor becomes what holds for the thread inside, that is kept by every move
inside, and becomes again what holds of a free monitor. [`Governed`] is then an invariant of every
interleaving ([`exec_governed`]), together with what the moves have shown so far.
-/
import LoadBalancer.Lib.Threads
import LoadBalancer.Lib.Token

set_option autoImplicit false

namespace LoadBalancer.Monitor

open LoadBalancer.Transition LoadBalancer.Threads LoadBalancer.Token

universe u v w x y

/-- What has to be said of a monitor: who is inside, how often the lock can be taken, and what holds,
of all that was shown, while it is free and for the thread inside. -/
structure Spec (σ : Type u) (β : Type v) (ε : Type w) where
  inside : β → Prop
  free : σ → ℕ
  Idle : List ε → σ → Prop
  Held : List ε → σ → β → Prop

variable {σ : Type u} {β : Type v} {ε : Type w}

/-- What a move of a thread does with the monitor, and what it shows. -/
inductive Moves (M : Spec σ β ε) (shown : List ε) (s s' : σ) (l l' : β) : Prop
  | outside (hl : ¬ M.inside l) (hl' : ¬ M.inside l') (hs : s' = s) (hshown : shown = [])
  | enter (hl : ¬ M.inside l) (hl' : M.inside l') (hpos : 0 < M.free s)
      (hfree : M.free s' = M.free s - 1)
      (h : ∀ tr, M.Idle tr s → M.Held (tr ++ shown) s' l')
  | stay (hl : M.inside l) (hl' : M.inside l') (hfree : M.free s' = M.free s)
      (h : ∀ tr, M.Held tr s l → M.Held (tr ++ shown) s' l')
  | leave (hl : M.inside l) (hl' : ¬ M.inside l') (hfree : M.free s = 0 → M.free s' = 1)
      (h : ∀ tr, M.Held tr s l → M.Idle (tr ++ shown) s')

variable {ι : Type x} {α : Type y}

/-- The lock is free or one thread is inside, and what was said holds. -/
structure Governed (M : Spec σ β ε) (tr : List ε) (c : Config σ ι β) : Prop where
  lock : Exclusive (M.free c.shared) fun t => M.inside (c.threads t)
  kept : Kept (M.free c.shared) fun t => M.inside (c.threads t)
  idle : 0 < M.free c.shared → M.Idle tr c.shared
  held : ∀ t, M.inside (c.threads t) → M.Held tr c.shared (c.threads t)

variable {M : Spec σ β ε} {tr shown : List ε} {s s' : σ} {l l' : β}

/-- The monitor is free, or what holds under its lock holds for a thread inside. -/
theorem Governed.idle_or_held {c : Config σ ι β} (h : Governed M tr c) :
    M.Idle tr c.shared ∨ ∃ t, M.inside (c.threads t) ∧ M.Held tr c.shared (c.threads t) := by
  rcases h.kept with hfree | ⟨t, ht⟩
  · exact .inl (h.idle (by omega))
  · exact .inr ⟨t, ht, h.held t ht⟩

/-! A move that shows nothing. -/

theorem Moves.enter_silent (hl : ¬ M.inside l) (hl' : M.inside l') (hpos : 0 < M.free s)
    (hfree : M.free s' = M.free s - 1) (hshown : shown = [])
    (h : ∀ tr, M.Idle tr s → M.Held tr s' l') : Moves M shown s s' l l' :=
  .enter hl hl' hpos hfree fun tr => by
    rw [hshown, List.append_nil]
    exact h tr

theorem Moves.stay_silent (hl : M.inside l) (hl' : M.inside l') (hfree : M.free s' = M.free s)
    (hshown : shown = []) (h : ∀ tr, M.Held tr s l → M.Held tr s' l') : Moves M shown s s' l l' :=
  .stay hl hl' hfree fun tr => by
    rw [hshown, List.append_nil]
    exact h tr

theorem Moves.leave_silent (hl : M.inside l) (hl' : ¬ M.inside l')
    (hfree : M.free s = 0 → M.free s' = 1) (hshown : shown = [])
    (h : ∀ tr, M.Held tr s l → M.Idle tr s') : Moves M shown s s' l l' :=
  .leave hl hl' hfree fun tr => by
    rw [hshown, List.append_nil]
    exact h tr

/-- A move and the lock, which the thread inside has. -/
theorem Moves.token (h : Moves M shown s s' l l') (hzero : M.inside l → M.free s = 0) :
    Move (M.free s) (M.free s') (M.inside l) (M.inside l') := by
  cases h with
  | outside hl hl' hs hshown => exact .stay (by rw [hs]) fun h => absurd h hl'
  | enter hl hl' hpos hfree h => exact .take hpos hfree
  | stay hl hl' hfree h => exact .stay hfree fun _ => hl
  | leave hl hl' hfree h => exact .give (by rw [hfree (hzero hl), hzero hl]) hl hl'

variable [DecidableEq ι]

/-- **The rule for a move of one thread.** -/
theorem Governed.move {c : Config σ ι β} {t : ι} (hinv : Governed M tr c)
    (h : Moves M shown c.shared s' (c.threads t) l') :
    Governed M (tr ++ shown) ⟨s', Function.update c.threads t l'⟩ := by
  have hlock : Exclusive (M.free s') fun u => M.inside (Function.update c.threads t l' u) :=
    hinv.lock.move_local (h.token hinv.lock.eq_zero)
  have hkept : Kept (M.free s') fun u => M.inside (Function.update c.threads t l' u) := by
    refine hinv.kept.move_local hinv.lock (h.token hinv.lock.eq_zero) ?_ ?_
    · intro heq hl
      cases h with
      | outside hout hl' hs hshown => exact absurd hl hout
      | enter hout hl' hpos hfree h => exact hl'
      | stay hin hl' hfree h => exact hl'
      | leave hin hl' hfree h =>
          have hzero := hinv.lock.eq_zero hl
          have hone := hfree hzero
          omega
    · intro hlt
      cases h with
      | outside hout hl' hs hshown => exact absurd hlt (by rw [hs]; exact lt_irrefl _)
      | enter hout hl' hpos hfree h => exact hl'
      | stay hin hl' hfree h => exact absurd hlt (by rw [hfree]; exact lt_irrefl _)
      | leave hin hl' hfree h =>
          have hzero := hinv.lock.eq_zero hin
          omega
  refine ⟨hlock, hkept, ?_, ?_⟩
  · intro hpos
    dsimp only at hpos ⊢
    cases h with
    | outside hl hl' hs hshown =>
        rw [hs, hshown, List.append_nil]
        exact hinv.idle (by rwa [← hs])
    | enter hl hl' hpos' hfree h =>
        -- the lock was taken, and there is only one
        have hbound := hinv.lock.bound
        omega
    | stay hl hl' hfree h =>
        have hzero := hinv.lock.eq_zero hl
        omega
    | leave hl hl' hfree h => exact h tr (hinv.held t hl)
  · intro u hu
    dsimp only at hu ⊢
    by_cases hut : u = t
    · subst hut
      rw [Function.update_self] at hu ⊢
      cases h with
      | outside hl hl' hs hshown => exact absurd hu hl'
      | enter hl hl' hpos hfree h => exact h tr (hinv.idle hpos)
      | stay hl hl' hfree h => exact h tr (hinv.held u hl)
      | leave hl hl' hfree h => exact absurd hu hl'
    · rw [Function.update_of_ne hut] at hu ⊢
      cases h with
      | outside hl hl' hs hshown =>
          rw [hs, hshown, List.append_nil]
          exact hinv.held u hu
      | enter hl hl' hpos hfree h => exact absurd hu (hinv.lock.idle hpos u)
      | stay hl hl' hfree h => exact absurd (hinv.lock.unique u t hu hl) hut
      | leave hl hl' hfree h => exact absurd (hinv.lock.unique u t hu hl) hut

/-- **What holds of a monitor, after every run.** -/
theorem exec_governed {act : ι → α → σ × β → Option (σ × β)} {obs : α → σ × β → Option ε}
    {c₀ c : Config σ ι β} (h0 : Governed M [] c₀)
    (hact : ∀ t a s l s' l', act t a (s, l) = some (s', l') →
      Moves M (obs a (s, l)).toList s s' l l')
    {as : List (ι × α)} (h : exec (Threads.step act) c₀ as = some c) :
    Governed M
      (observed (Threads.step act) (fun c a _ => obs a.2 (c.shared, c.threads a.1)) c₀ as) c := by
  refine exec_observed (Governed M) h0 ?_ h
  intro tr c a c' hinv hstep
  obtain ⟨s', l', hmove, rfl⟩ := step_eq_some hstep
  exact hinv.move (hact a.1 a.2 _ _ _ _ hmove)

end LoadBalancer.Monitor
