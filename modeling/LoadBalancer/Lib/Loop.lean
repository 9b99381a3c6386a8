/-
Loops that take one input a turn and stop when their body says so:

  `done = false; while(!done) { i = input(); ...; if(...) done = true; }`

Nothing but the body's own answer ends such a loop, so its inputs are an endless
sequence `ℕ → ι` and whether it terminates is a question about that sequence.
[`afterTurns`] runs it for a number of turns; a turn without a defined result leaves it
[`Outcome.undefined`] for good.

The rules take the loop's states, and what each turn answers, in closed form
([`Trace`]): with them the loop stops after a given turn exactly when every turn before
it is defined and goes on and that one is defined and stops ([`Trace.stopsAfter_iff`]),
and it terminates exactly when some turn says stop and all turns up to it are defined
([`Trace.terminates_iff`]). Without a closed form, an invariant of the turns is enough
([`stops_of_invariant`], [`not_terminates_of_invariant`]).
-/
import Mathlib.Order.Lattice.Nat

set_option autoImplicit false

namespace LoadBalancer.Loop

universe u v

variable {σ : Type u} {ι : Type v}

/-! ## The loop -/

/-- Where a loop is after some turns. -/
inductive Outcome (σ : Type u)
  | running (s : σ)
  | stopped (turns : ℕ) (s : σ)
  | undefined

/-- The loop after `n` turns. -/
def afterTurns (body : σ → ι → Option (σ × Bool)) (s₀ : σ) (input : ℕ → ι) : ℕ → Outcome σ
  | 0 => .running s₀
  | n + 1 =>
      match afterTurns body s₀ input n with
      | .running s =>
          match body s (input n) with
          | none => .undefined
          | some (s', true) => .stopped (n + 1) s'
          | some (s', false) => .running s'
      | .stopped turns s => .stopped turns s
      | .undefined => .undefined

/-- The loop stops with turn `n`, in state `s`. -/
def StopsAfter (body : σ → ι → Option (σ × Bool)) (s₀ : σ) (input : ℕ → ι) (n : ℕ) (s : σ) :
    Prop :=
  afterTurns body s₀ input n = .stopped n s

/-- The loop terminates. -/
def Terminates (body : σ → ι → Option (σ × Bool)) (s₀ : σ) (input : ℕ → ι) : Prop :=
  ∃ n s, StopsAfter body s₀ input n s

/-! ## Loops whose turns are known -/

/-- The turns of a loop in closed form: the state before each of them, whether it is
defined, and whether it says stop. -/
structure Trace (body : σ → ι → Option (σ × Bool)) (s₀ : σ) (input : ℕ → ι) (st : ℕ → σ)
    (ok stop : ℕ → Prop) : Prop where
  start : st 0 = s₀
  turn_stop : ∀ n, ok n → stop n → body (st n) (input n) = some (st (n + 1), true)
  turn_goes_on : ∀ n, ok n → ¬ stop n → body (st n) (input n) = some (st (n + 1), false)
  turn_undefined : ∀ n, ¬ ok n → body (st n) (input n) = none

variable {body : σ → ι → Option (σ × Bool)} {s₀ : σ} {input : ℕ → ι} {st : ℕ → σ}
  {ok stop : ℕ → Prop}

/-- A loop that has stopped did so within the turns it was given. -/
theorem turns_le_of_stopped {n turns : ℕ} {s : σ}
    (h : afterTurns body s₀ input n = .stopped turns s) : turns ≤ n := by
  induction n with
  | zero => cases h
  | succ n ih =>
      rw [afterTurns] at h
      split at h
      · split at h
        · cases h
        · cases h
          exact Nat.le_refl _
        · cases h
      · next t u heq =>
          cases h
          exact (ih heq).trans (Nat.le_succ n)
      · cases h

/-- **The loop is still running after the turns that are defined and go on**, and after no
others. -/
theorem Trace.running_iff (h : Trace body s₀ input st ok stop) (n : ℕ) (s : σ) :
    afterTurns body s₀ input n = .running s ↔ s = st n ∧ ∀ k < n, ok k ∧ ¬ stop k := by
  induction n generalizing s with
  | zero =>
      rw [afterTurns, Outcome.running.injEq, h.start]
      exact ⟨fun heq => ⟨heq.symm, fun k hk => absurd hk (Nat.not_lt_zero k)⟩, fun heq => heq.1.symm⟩
  | succ n ih =>
      rw [afterTurns]
      constructor
      · intro hs
        split at hs
        · next t heq =>
            obtain ⟨rfl, hpre⟩ := (ih t).mp heq
            by_cases hok : ok n
            · by_cases hstop : stop n
              · rw [h.turn_stop n hok hstop] at hs
                cases hs
              · rw [h.turn_goes_on n hok hstop] at hs
                cases hs
                refine ⟨rfl, fun k hk => ?_⟩
                rcases Nat.lt_succ_iff_lt_or_eq.mp hk with hk | rfl
                · exact hpre k hk
                · exact ⟨hok, hstop⟩
            · rw [h.turn_undefined n hok] at hs
              cases hs
        · cases hs
        · cases hs
      · rintro ⟨rfl, hpre⟩
        have hrun := (ih (st n)).mpr ⟨rfl, fun k hk => hpre k (Nat.lt_succ_of_lt hk)⟩
        obtain ⟨hok, hstop⟩ := hpre n (Nat.lt_succ_self n)
        rw [hrun]
        dsimp only
        rw [h.turn_goes_on n hok hstop]

/-- **When the loop stops.** -/
theorem Trace.stopsAfter_iff (h : Trace body s₀ input st ok stop) (n : ℕ) (s : σ) :
    StopsAfter body s₀ input (n + 1) s
      ↔ (∀ k < n, ok k ∧ ¬ stop k) ∧ ok n ∧ stop n ∧ s = st (n + 1) := by
  constructor
  · intro hs
    rw [StopsAfter, afterTurns] at hs
    -- turn `n` is the one that stopped it, so the loop was running before
    split at hs
    · next t heq =>
        obtain ⟨rfl, hpre⟩ := (h.running_iff n t).mp heq
        by_cases hok : ok n
        · by_cases hstop : stop n
          · rw [h.turn_stop n hok hstop] at hs
            cases hs
            exact ⟨hpre, hok, hstop, rfl⟩
          · rw [h.turn_goes_on n hok hstop] at hs
            cases hs
        · rw [h.turn_undefined n hok] at hs
          cases hs
    · next turns t heq =>
        -- it cannot have stopped before, at a later turn
        have := turns_le_of_stopped heq
        cases hs
        omega
    · cases hs
  · rintro ⟨hpre, hok, hstop, rfl⟩
    have hrun := (h.running_iff n (st n)).mpr ⟨rfl, hpre⟩
    rw [StopsAfter, afterTurns, hrun]
    dsimp only
    rw [h.turn_stop n hok hstop]

/-- **When the loop terminates**: some turn says stop, and all turns up to it are defined. -/
theorem Trace.terminates_iff (h : Trace body s₀ input st ok stop) :
    Terminates body s₀ input ↔ ∃ n, stop n ∧ ∀ k ≤ n, ok k := by
  constructor
  · rintro ⟨n, s, hs⟩
    cases n with
    | zero => cases hs
    | succ n =>
        obtain ⟨hpre, hok, hstop, -⟩ := (h.stopsAfter_iff n s).mp hs
        refine ⟨n, hstop, fun k hk => ?_⟩
        rcases Nat.lt_or_eq_of_le hk with hk | rfl
        · exact (hpre k hk).1
        · exact hok
  · rintro ⟨n, hstop, hok⟩
    -- the loop stops at the first turn that says so
    have hne : {k | stop k}.Nonempty := ⟨n, hstop⟩
    have hle : sInf {k | stop k} ≤ n := Nat.sInf_le hstop
    refine ⟨_, _, (h.stopsAfter_iff (sInf {k | stop k}) _).mpr
      ⟨fun k hk => ⟨hok k (by omega), Nat.notMem_of_lt_sInf hk⟩, hok _ hle, Nat.sInf_mem hne, rfl⟩⟩

/-! ## Loops that have stopped -/

/-- What has stopped stays so. -/
theorem afterTurns_stopped {n m turns : ℕ} {s : σ}
    (h : afterTurns body s₀ input n = .stopped turns s) (hle : n ≤ m) :
    afterTurns body s₀ input m = .stopped turns s := by
  induction m, hle using Nat.le_induction with
  | base => exact h
  | succ m _ ih => rw [afterTurns, ih]

/-- A loop stops in one state. -/
theorem StopsAfter.unique {n n' : ℕ} {s s' : σ} (h : StopsAfter body s₀ input n s)
    (h' : StopsAfter body s₀ input n' s') : s = s' := by
  have hlast := afterTurns_stopped h (le_max_left n n')
  rw [afterTurns_stopped h' (le_max_right n n')] at hlast
  cases hlast
  rfl

/-! ## Loops with an invariant

Where the states have no closed form, an invariant of the turns says what they have in common.
-/

/-- What was not defined stays so. -/
theorem afterTurns_undefined {n m : ℕ} (h : afterTurns body s₀ input n = .undefined)
    (hle : n ≤ m) : afterTurns body s₀ input m = .undefined := by
  induction m, hle using Nat.le_induction with
  | base => exact h
  | succ m _ ih => rw [afterTurns, ih]

section Invariant

variable {I : ℕ → σ → Prop} {Q : σ → Prop} {K : ℕ}

/-- The turns that go on keep the invariant. -/
theorem running_of_invariant (h0 : I 0 s₀)
    (hgo : ∀ k < K, ∀ s, I k s → ∃ s', body s (input k) = some (s', false) ∧ I (k + 1) s') {k : ℕ}
    (hk : k ≤ K) : ∃ s, afterTurns body s₀ input k = .running s ∧ I k s := by
  induction k with
  | zero => exact ⟨s₀, rfl, h0⟩
  | succ k ih =>
      obtain ⟨s, hrun, hI⟩ := ih (Nat.le_of_succ_le hk)
      obtain ⟨s', hbody, hI'⟩ := hgo k hk s hI
      refine ⟨s', ?_, hI'⟩
      rw [afterTurns, hrun]
      dsimp only
      rw [hbody]

/-- **A loop that keeps an invariant stops** with the turn that does. -/
theorem stops_of_invariant (h0 : I 0 s₀)
    (hgo : ∀ k < K, ∀ s, I k s → ∃ s', body s (input k) = some (s', false) ∧ I (k + 1) s')
    (hstop : ∀ s, I K s → ∃ s', body s (input K) = some (s', true) ∧ Q s') :
    ∃ s, StopsAfter body s₀ input (K + 1) s ∧ Q s := by
  obtain ⟨s, hrun, hI⟩ := running_of_invariant h0 hgo (Nat.le_refl K)
  obtain ⟨s', hbody, hQ⟩ := hstop s hI
  refine ⟨s', ?_, hQ⟩
  rw [StopsAfter, afterTurns, hrun]
  dsimp only
  rw [hbody]

/-- And it does not terminate behind a turn that has no result. -/
theorem not_terminates_of_invariant (h0 : I 0 s₀)
    (hgo : ∀ k < K, ∀ s, I k s → ∃ s', body s (input k) = some (s', false) ∧ I (k + 1) s')
    (hnone : ∀ s, I K s → body s (input K) = none) : ¬ Terminates body s₀ input := by
  rintro ⟨n, s, hs⟩
  rw [StopsAfter] at hs
  rcases Nat.lt_or_ge K n with hlt | hge
  · obtain ⟨t, hrun, hI⟩ := running_of_invariant h0 hgo (Nat.le_refl K)
    have hundefined : afterTurns body s₀ input (K + 1) = .undefined := by
      rw [afterTurns, hrun]
      dsimp only
      rw [hnone t hI]
    rw [afterTurns_undefined hundefined hlt] at hs
    cases hs
  · obtain ⟨t, hrun, -⟩ := running_of_invariant h0 hgo hge
    rw [hrun] at hs
    cases hs

end Invariant

end LoadBalancer.Loop
