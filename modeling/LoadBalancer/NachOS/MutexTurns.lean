/-
`Mutex`, by threads that call `Lock` and `Unlock` in turns.

Used like that it excludes, whoever is recorded in it at the start
([`Mutex.exclusion_in_turns`]). What gets lost is the `V`: a thread that records itself in
`Lock`, or clears the record at the end of `Unlock`, while another thread is between its own
record and its test of it, makes that test fail. [`Mutex.lossless_iff`] says that nothing
else does.
-/
import LoadBalancer.NachOS.Mutex

set_option autoImplicit false

namespace LoadBalancer.NachOS

open LoadBalancer.Transition LoadBalancer.Threads LoadBalancer.Token

namespace Mutex

variable {ι : Type} {m m' : Mutex ι} {t u : ι} {x x' : Thread}

/-! ## Turns -/

/-- The thread calls `Lock` when it is outside and `Unlock` when it is inside. -/
def InTurn (x : Thread) : Action → Prop
  | .Lock => x.inside = false
  | .Unlock => x.inside = true
  | .run => True

instance (x : Thread) : ∀ a, Decidable (InTurn x a)
  | .Lock => inferInstanceAs (Decidable (_ = _))
  | .Unlock => inferInstanceAs (Decidable (_ = _))
  | .run => isTrue trivial

/-- Every thread does. -/
def Turns (c : System ι) (a : ι × Action) : Prop := InTurn (c.threads a.1) a.2

instance (c : System ι) (a : ι × Action) : Decidable (Turns c a) :=
  inferInstanceAs (Decidable (InTurn _ _))

/-- A thread inside a critical section is in no operation. -/
def Orderly (x : Thread) : Prop := x.point ≠ .idle → x.inside = false

/-- The thread has completed its `P` and not yet made, or passed up, its `V`. -/
def Owns (x : Thread) : Prop := x.inside = true ∨ x.point = .test ∨ x.point = .V

/-- **What a step does with the token.** -/
theorem Acts.turn {a : Action} (h : Acts t m x a m' x') (hx : Orderly x) (hturn : InTurn x a) :
    Orderly x' ∧ Move m.mutex.value m'.mutex.value (Owns x) (Owns x') := by
  cases h with
  | lock inside =>
      have hin : inside = false := hturn
      exact ⟨fun _ => hin, .stay rfl fun h => by simp [Owns, hin] at h⟩
  | unlock inside =>
      have hin : inside = true := hturn
      exact ⟨fun _ => rfl, .stay rfl fun _ => .inl hin⟩
  | record inside =>
      have hin : inside = false := hx nofun
      exact ⟨fun _ => hin, .stay rfl fun h => by simp [Owns, hin] at h⟩
  | wait inside hvalue => exact ⟨hx, .stay rfl id⟩
  | take inside hvalue => exact ⟨fun h => absurd rfl h, .take hvalue rfl⟩
  | own inside hholder => exact ⟨fun _ => hx nofun, .stay rfl fun _ => .inr (.inl rfl)⟩
  | notOwn inside hholder => exact ⟨fun _ => hx nofun, .stay rfl fun _ => .inr (.inl rfl)⟩
  | V inside =>
      have hin : inside = false := hx nofun
      exact ⟨fun _ => hin, .give rfl (.inr (.inr rfl)) fun h => by simp [Owns, hin] at h⟩
  | clear inside =>
      have hin : inside = false := hx nofun
      exact ⟨fun _ => hin, .stay rfl fun h => by simp [Owns, hin] at h⟩

/-- The semaphore is a token of the threads that own it. -/
structure TurnsInv (c : System ι) : Prop where
  token : Exclusive c.shared.mutex.value fun t => Owns (c.threads t)
  orderly : ∀ t, Orderly (c.threads t)

theorem turnsInv_initial (holdingThread : Option ι) :
    TurnsInv (System.initial holdingThread : System ι) where
  token := exclusive_free fun t h => by simp [Owns, System.initial] at h
  orderly := fun t h => absurd rfl h

section Exclusion

variable [DecidableEq ι] {c c' : System ι}

theorem turnsInv_step {a : ι × Action} (hinv : TurnsInv c) (hok : Turns c a)
    (h : step c a = some c') : TurnsInv c' := by
  obtain ⟨m, x, hact, rfl⟩ := step_eq_some h
  obtain ⟨horderly, hmove⟩ := (acts_of_act hact).turn (hinv.orderly a.1) hok
  exact ⟨hinv.token.move_local hmove, forall_update horderly fun u _ => hinv.orderly u⟩

/-- **In turns the mutex excludes**, whoever is recorded as the holder at first. -/
theorem exclusion_in_turns {holdingThread : Option ι}
    (h : Reach step Turns (System.initial holdingThread) c)
    (ht : (c.threads t).inside = true) (hu : (c.threads u).inside = true) : t = u := by
  have hinv : TurnsInv c := Reach.invariant TurnsInv (turnsInv_initial holdingThread)
    (fun _ _ _ => turnsInv_step) h
  exact hinv.token.unique t u (.inl ht) (.inl hu)

end Exclusion

/-! ## The `V` that is lost -/

/-- The thread has recorded itself and not yet tested the record. -/
def Pending (x : Thread) : Prop := x.point = .P ∨ x.inside = true ∨ x.point = .test

/-- The thread is between the completion of its `P` and the end of its `Unlock`. -/
def Between (x : Thread) : Prop := x.inside = true ∨ x.point.unlocking = true

/-- The mutex is free whenever no thread has it, and an `Unlock` finds its thread recorded, so that
it makes the `V`. -/
structure Lossless (c : System ι) : Prop where
  free : (∀ t, ¬ Between (c.threads t)) → c.shared.mutex.value = 1
  recorded : ∀ t, (c.threads t).point = .test → c.shared.holdingThread = some t

/-- A thread records itself, or clears the record, only while no other thread is between its own
record and its test. -/
def Undisturbed (c : System ι) (a : ι × Action) : Prop :=
  a.2 = .run → (c.threads a.1).point = .record ∨ (c.threads a.1).point = .clear →
    ∀ u, u ≠ a.1 → ¬ Pending (c.threads u)

instance (x : Thread) : Decidable (Pending x) := inferInstanceAs (Decidable (_ ∨ _ ∨ _))

instance (x : Thread) : Decidable (Between x) := inferInstanceAs (Decidable (_ ∨ _))

instance {n : ℕ} (c : System (Fin n)) (a : Fin n × Action) : Decidable (Undisturbed c a) :=
  inferInstanceAs (Decidable (_ → _ → ∀ u, u ≠ a.1 → ¬ Pending (c.threads u)))

/-- What holds while no thread is disturbed. -/
structure LosslessInv (c : System ι) : Prop where
  turns : TurnsInv c
  kept : Kept c.shared.mutex.value fun t => Owns (c.threads t)
  recorded : ∀ t, Pending (c.threads t) → c.shared.holdingThread = some t

theorem losslessInv_initial : LosslessInv (System.initial none : System ι) where
  turns := turnsInv_initial none
  kept := .inl rfl
  recorded := fun t h => by simp [Pending, System.initial] at h

theorem LosslessInv.lossless {c : System ι} (h : LosslessInv c) : Lossless c where
  free := by
    intro hnone
    rcases h.kept with hfree | ⟨t, hin | htest | hV⟩
    · exact hfree
    · exact absurd (.inl hin) (hnone t)
    · exact absurd (.inr (by rw [htest]; rfl)) (hnone t)
    · exact absurd (.inr (by rw [hV]; rfl)) (hnone t)
  recorded := fun t htest => h.recorded t (.inr (.inr htest))

/-- A thread that does not disturb the others leaves them recorded, and itself. -/
theorem Acts.recorded {a : Action} (h : Acts t m x a m' x') (hx : Orderly x) (hturn : InTurn x a)
    (hrec : Pending x → m.holdingThread = some t) (hpending : Pending x') :
    m'.holdingThread = some t := by
  cases h with
  | lock inside =>
      have hin : inside = false := hturn
      simp [Pending, hin] at hpending
  | unlock inside => exact hrec (.inr (.inl hturn))
  | record inside => rfl
  | wait inside hvalue => exact hrec (.inl rfl)
  | take inside hvalue => exact hrec (.inl rfl)
  | own inside hholder => exact hholder
  | notOwn inside hholder => exact hrec (.inr (.inr rfl))
  | V inside =>
      have hin : inside = false := hx nofun
      simp [Pending, hin] at hpending
  | clear inside =>
      have hin : inside = false := hx nofun
      simp [Pending, hin] at hpending

/-- Only a record or a clear changes who is recorded. -/
theorem Acts.holdingThread_eq {a : Action} (h : Acts t m x a m' x') :
    m'.holdingThread = m.holdingThread ∨ a = .run ∧ (x.point = .record ∨ x.point = .clear) := by
  cases h with
  | record inside => exact .inr ⟨rfl, .inl rfl⟩
  | clear inside => exact .inr ⟨rfl, .inr rfl⟩
  | _ => exact .inl rfl

/-- The owner stays the owner until it gives the token back, if it finds itself recorded. -/
theorem Acts.owns {a : Action} (h : Acts t m x a m' x') (hturn : InTurn x a)
    (hrec : Pending x → m.holdingThread = some t) :
    (m'.mutex.value = m.mutex.value → Owns x → Owns x')
      ∧ (m'.mutex.value < m.mutex.value → Owns x') := by
  cases h with
  | lock inside =>
      have hin : inside = false := hturn
      exact ⟨fun _ h => by simp [Owns, hin] at h, fun h => absurd h (Nat.lt_irrefl _)⟩
  | unlock inside => exact ⟨fun _ _ => .inr (.inl rfl), fun h => absurd h (Nat.lt_irrefl _)⟩
  | record inside =>
      refine ⟨fun _ h => ?_, fun h => absurd h (Nat.lt_irrefl _)⟩
      exact .inl (by simpa [Owns] using h)
  | wait inside hvalue => exact ⟨fun _ h => h, fun h => absurd h (Nat.lt_irrefl _)⟩
  | take inside hvalue => exact ⟨fun _ _ => .inl rfl, fun _ => .inl rfl⟩
  | own inside hholder => exact ⟨fun _ _ => .inr (.inr rfl), fun h => absurd h (Nat.lt_irrefl _)⟩
  | notOwn inside hholder => exact absurd (hrec (.inr (.inr rfl))) hholder
  | V inside =>
      refine ⟨fun h => ?_, fun h => ?_⟩ <;> simp [Semaphore.V] at h
  | clear inside =>
      refine ⟨fun _ h => ?_, fun h => absurd h (Nat.lt_irrefl _)⟩
      exact .inl (by simpa [Owns] using h)

section Lossless

variable [DecidableEq ι] {c c' : System ι} {a : ι × Action}

/-- **The step lemma.** -/
theorem losslessInv_step (hinv : LosslessInv c) (hturn : Turns c a) (hok : Undisturbed c a)
    (h : step c a = some c') : LosslessInv c' := by
  have hturns := turnsInv_step hinv.turns hturn h
  obtain ⟨m, x, hact, rfl⟩ := step_eq_some h
  have hacts := acts_of_act hact
  have horderly := hinv.turns.orderly a.1
  have hrec := hinv.recorded a.1
  obtain ⟨hstay, htake⟩ := hacts.owns hturn hrec
  refine ⟨hturns, ?_, ?_⟩
  · exact hinv.kept.move_local hinv.turns.token (hacts.turn horderly hturn).2 hstay htake
  · apply forall_update (P := fun u x => Pending x → m.holdingThread = some u)
    · exact hacts.recorded horderly hturn hrec
    · intro u hu hpending
      rcases hacts.holdingThread_eq with heq | ⟨hrun, hpoint⟩
      · rw [heq]
        exact hinv.recorded u hpending
      · exact absurd hpending (hok hrun hpoint u hu)

/-- A thread is about to miss itself in its test. -/
def Missed (c : System ι) : Prop :=
  ∃ u, Pending (c.threads u) ∧ c.shared.holdingThread ≠ some u

/-- A thread that disturbs another one makes it miss itself. -/
theorem missed_of_disturbed (hok : ¬ Undisturbed c a) (h : step c a = some c') : Missed c' := by
  simp only [Undisturbed, not_forall, not_not] at hok
  obtain ⟨hrun, hpoint, u, hu, hpending⟩ := hok
  obtain ⟨m, x, hact, rfl⟩ := step_eq_some h
  refine ⟨u, ?_, ?_⟩
  · dsimp only
    rwa [Function.update_of_ne hu]
  · have hacts := acts_of_act hact
    rw [hrun] at hacts
    generalize c.threads a.1 = x₀ at hpoint hacts
    cases hacts with
    | record inside => exact fun heq => hu (Option.some.inj heq).symm
    | clear inside => exact fun heq => (by cases heq)
    | _ => rcases hpoint with hpoint | hpoint <;> cases hpoint

/-- It goes on missing itself until it makes the test. -/
theorem missed_step (hinv : TurnsInv c) (hturn : Turns c a) (hbefore : Lossless c)
    (hafter : Lossless c') (hmissed : Missed c) (h : step c a = some c') : Missed c' := by
  obtain ⟨u, hpending, hholder⟩ := hmissed
  obtain ⟨m, x, hact, rfl⟩ := step_eq_some h
  have hacts := acts_of_act hact
  by_cases hu : u = a.1
  · subst hu
    have horderly := hinv.orderly a.1
    have htest := hbefore.recorded a.1
    have htest' := hafter.recorded a.1
    refine ⟨a.1, ?_⟩
    dsimp only at htest' ⊢
    rw [Function.update_self] at htest' ⊢
    have hturn : InTurn (c.threads a.1) a.2 := hturn
    generalize c.threads a.1 = x₀ at hacts hpending horderly htest hturn
    generalize a.2 = act at hacts hturn
    cases hacts with
    | lock inside =>
        have hin : inside = false := hturn
        simp [Pending, hin] at hpending
    | unlock inside => exact absurd (htest' rfl) hholder
    | wait inside hvalue => exact ⟨hpending, hholder⟩
    | take inside hvalue => exact ⟨.inr (.inl rfl), hholder⟩
    | own inside hown => exact absurd hown hholder
    | notOwn inside hown => exact absurd (htest rfl) hholder
    | record inside | V inside | clear inside =>
        have hin : inside = false := horderly nofun
        simp [Pending, hin] at hpending
  · refine ⟨u, ?_, fun heq => hholder (hacts.holdingThread hu heq)⟩
    dsimp only
    rwa [Function.update_of_ne hu]

/-- **When the mutex never stays locked without an owner.** Of threads that call `Lock` and
`Unlock` in turns: as long as no thread records itself or clears the record while another one
is between its own record and its test of it, the mutex is free whenever no thread has it,
and every `Unlock` makes the `V`. In a run at the end of which no thread is between the two,
this happens only so. The record is one for all threads, and a test that fails skips the `V`. -/
theorem lossless_iff {as : List (ι × Action)} (hturns : AllOk step Turns (System.initial none) as)
    (hrun : exec step (System.initial none) as = some c) :
    (AllOk step Undisturbed (System.initial none) as
        → Throughout step Lossless (System.initial none) as)
      ∧ ((∀ t, ¬ Pending (c.threads t)) → Throughout step Lossless (System.initial none) as
        → AllOk step Undisturbed (System.initial none) as) := by
  obtain ⟨hif, honly⟩ := throughout_iff_allOk_of_settled TurnsInv LosslessInv Lossless Missed
    (fun _ _ _ => turnsInv_step) (fun _ => LosslessInv.lossless) (fun _ _ _ => losslessInv_step)
    (fun _ _ _ _ _ => missed_of_disturbed)
    (fun _ _ _ hinv hbefore hafter hturn => missed_step hinv hturn hbefore hafter)
    (turnsInv_initial none) losslessInv_initial hturns hrun
  refine ⟨hif, fun hsettled => honly ?_⟩
  rintro ⟨u, hpending, -⟩
  exact hsettled u hpending

/-- The steps of a whole `Lock`, of a thread that does not have to wait, and of a whole `Unlock`
that makes the `V`. -/
def wholeTurn (t : ι) : List (ι × Action) :=
  [(t, .Lock), (t, .run), (t, .run), (t, .Unlock), (t, .run), (t, .run), (t, .run)]

/-- Two threads, one after the other. -/
theorem lossless_two_threads :
    Throughout step Lossless (System.initial none : System (Fin 2)) (wholeTurn 0 ++ wholeTurn 1) := by
  obtain ⟨c, hc⟩ : ∃ c, exec step (System.initial none : System (Fin 2))
      (wholeTurn 0 ++ wholeTurn 1) = some c := ⟨_, rfl⟩
  exact (lossless_iff (by decide +kernel) hc).1 (by decide +kernel)

/-- **The mutex can stay locked for ever.** Thread `1` records itself while thread `0` is inside
and sleeps in its `P`; the `Unlock` of thread `0` then makes no `V`. -/
theorem locked_without_owner :
    ¬ ∀ c : System (Fin 2), Reach step Turns (System.initial none) c →
      (∀ t, ¬ Between (c.threads t)) → c.shared.mutex.value = 1 := by
  intro hall
  let as : List (Fin 2 × Action) :=
    [(0, .Lock), (0, .run), (0, .run), (1, .Lock), (1, .run), (1, .run), (0, .Unlock), (0, .run),
      (0, .run)]
  obtain ⟨c, hc, hnone, hvalue⟩ : ∃ c, exec step (System.initial none) as = some c
      ∧ (∀ t, ¬ Between (c.threads t)) ∧ c.shared.mutex.value = 0 :=
    ⟨_, rfl, by decide, rfl⟩
  have hok : AllOk step Turns (System.initial none) as := by decide +kernel
  have := hall c (Reach.of_exec hok hc) hnone
  omega

end Lossless

end Mutex

end LoadBalancer.NachOS
