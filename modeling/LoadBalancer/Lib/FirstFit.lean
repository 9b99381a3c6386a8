/-
First-fit allocation of numbers.

The free numbers are a finite set, and every request takes the least of them. [`serve`] is what
a row of requests takes. How many requests can be met is the number of free numbers, and how
many can be met with numbers below a bound is the number of those that are free
([`exists_serve_below_iff`]): a first fit takes the low numbers first. A range as long as the row
has all of them or misses one of its own numbers ([`range_taken_iff`]).
-/
import Mathlib.Data.Finset.Max
import Mathlib.Data.List.Nodup
import Mathlib.Order.Interval.Finset.Nat

set_option autoImplicit false

namespace LoadBalancer.FirstFit

/-- The numbers that `m` requests take, `none` when they run out. -/
def serve : ℕ → Finset ℕ → Option (List ℕ)
  | 0, _ => some []
  | m + 1, free =>
      if h : free.Nonempty then (serve m (free.erase (free.min' h))).map (free.min' h :: ·)
      else none

variable {m : ℕ} {free : Finset ℕ} {taken : List ℕ}

/-- What the first of several requests takes. -/
theorem serve_succ_eq_some_iff :
    serve (m + 1) free = some taken
      ↔ ∃ (h : free.Nonempty) (rest : List ℕ), serve m (free.erase (free.min' h)) = some rest
        ∧ taken = free.min' h :: rest := by
  rw [serve]
  split_ifs with h
  · rw [Option.map_eq_some_iff]
    constructor
    · rintro ⟨rest, hrest, rfl⟩
      exact ⟨h, rest, hrest, rfl⟩
    · rintro ⟨h', rest, hrest, rfl⟩
      exact ⟨rest, hrest, rfl⟩
  · exact iff_of_false (fun hnone => by cases hnone) fun ⟨hne, _⟩ => h hne

theorem length_of_serve (h : serve m free = some taken) : taken.length = m := by
  induction m generalizing free taken with
  | zero =>
      cases h
      rfl
  | succ m ih =>
      obtain ⟨hne, rest, hrest, rfl⟩ := serve_succ_eq_some_iff.mp h
      rw [List.length_cons, ih hrest]

/-- Only free numbers are taken. -/
theorem mem_of_serve (h : serve m free = some taken) : ∀ x ∈ taken, x ∈ free := by
  induction m generalizing free taken with
  | zero =>
      cases h
      exact fun x hx => absurd hx List.not_mem_nil
  | succ m ih =>
      obtain ⟨hne, rest, hrest, rfl⟩ := serve_succ_eq_some_iff.mp h
      intro x hx
      rcases List.mem_cons.mp hx with rfl | hx
      · exact free.min'_mem hne
      · exact Finset.mem_of_mem_erase (ih hrest x hx)

/-- The first number taken is the least one. -/
theorem head_le_of_serve {f : ℕ} {rest : List ℕ} (h : serve m free = some (f :: rest)) :
    ∀ x ∈ f :: rest, f ≤ x := by
  intro x hx
  cases m with
  | zero => cases h
  | succ m =>
      have hfree := mem_of_serve h x hx
      obtain ⟨hne, rest', -, heq⟩ := serve_succ_eq_some_iff.mp h
      rw [(List.cons.inj heq).1]
      exact free.min'_le x hfree

/-- No number is taken twice. -/
theorem nodup_of_serve (h : serve m free = some taken) : taken.Nodup := by
  induction m generalizing free taken with
  | zero =>
      cases h
      exact List.nodup_nil
  | succ m ih =>
      obtain ⟨hne, rest, hrest, rfl⟩ := serve_succ_eq_some_iff.mp h
      refine List.nodup_cons.mpr ⟨fun hmem => ?_, ih hrest⟩
      exact Finset.notMem_erase _ _ (mem_of_serve hrest _ hmem)

/-- **A range as long as what was taken**: all of it is taken exactly when nothing else is. -/
theorem range_taken_iff (h : serve m free = some taken) (a : ℕ) :
    (∀ i < m, a + i ∈ taken) ↔ ∀ x ∈ taken, a ≤ x ∧ x < a + m := by
  have hcard : taken.toFinset.card = (Finset.Ico a (a + m)).card := by
    rw [List.toFinset_card_of_nodup (nodup_of_serve h), length_of_serve h, Nat.card_Ico,
      Nat.add_sub_cancel_left]
  have hrange : (∀ i < m, a + i ∈ taken) ↔ Finset.Ico a (a + m) ⊆ taken.toFinset := by
    constructor
    · intro hall x hx
      obtain ⟨hlow, hhigh⟩ := Finset.mem_Ico.mp hx
      obtain ⟨i, rfl⟩ := Nat.exists_eq_add_of_le hlow
      exact List.mem_toFinset.mpr (hall i (by omega))
    · intro hsub i hi
      exact List.mem_toFinset.mp
        (hsub (Finset.mem_Ico.mpr ⟨Nat.le_add_right a i, Nat.add_lt_add_left hi a⟩))
  have htaken : (∀ x ∈ taken, a ≤ x ∧ x < a + m) ↔ taken.toFinset ⊆ Finset.Ico a (a + m) := by
    simp only [Finset.subset_iff, List.mem_toFinset, Finset.mem_Ico]
  rw [hrange, htaken, Finset.subset_iff_eq_of_card_le hcard.le,
    Finset.subset_iff_eq_of_card_le hcard.ge, eq_comm]

/-- **How many requests can be met below a bound**: as many as there are free numbers below it. -/
theorem exists_serve_below_iff (m : ℕ) (free : Finset ℕ) (N : ℕ) :
    (∃ taken, serve m free = some taken ∧ ∀ x ∈ taken, x < N)
      ↔ m ≤ (free.filter (· < N)).card := by
  induction m generalizing free with
  | zero =>
      refine iff_of_true ⟨[], rfl, fun x hx => absurd hx List.not_mem_nil⟩ (Nat.zero_le _)
  | succ m ih =>
      by_cases hne : free.Nonempty
      · have hstep : (∃ taken, serve (m + 1) free = some taken ∧ ∀ x ∈ taken, x < N)
            ↔ free.min' hne < N ∧ m ≤ ((free.erase (free.min' hne)).filter (· < N)).card := by
          rw [← ih]
          constructor
          · rintro ⟨taken, htaken, hlt⟩
            obtain ⟨hne, rest, hrest, rfl⟩ := serve_succ_eq_some_iff.mp htaken
            exact ⟨hlt _ List.mem_cons_self, rest, hrest,
              fun x hx => hlt x (List.mem_cons_of_mem _ hx)⟩
          · rintro ⟨hmin, rest, hrest, hlt⟩
            exact ⟨_, serve_succ_eq_some_iff.mpr ⟨hne, rest, hrest, rfl⟩,
              List.forall_mem_cons.mpr ⟨hmin, hlt⟩⟩
        rw [hstep, Finset.filter_erase]
        by_cases hmin : free.min' hne < N
        · -- the least number is one of those below the bound
          have hmem : free.min' hne ∈ free.filter (· < N) :=
            Finset.mem_filter.mpr ⟨free.min'_mem hne, hmin⟩
          rw [Finset.card_erase_of_mem hmem]
          have hpos : 0 < (free.filter (· < N)).card := Finset.card_pos.mpr ⟨_, hmem⟩
          omega
        · have hempty : free.filter (· < N) = ∅ := by
            rw [Finset.filter_eq_empty_iff]
            intro x hx hlt
            exact hmin (lt_of_le_of_lt (free.min'_le x hx) hlt)
          rw [hempty, Finset.card_empty]
          exact iff_of_false (fun h => hmin h.1) (by omega)
      · rw [Finset.not_nonempty_iff_eq_empty.mp hne, Finset.filter_empty, Finset.card_empty]
        refine iff_of_false ?_ (by omega)
        rintro ⟨taken, htaken, -⟩
        obtain ⟨h, -⟩ := serve_succ_eq_some_iff.mp htaken
        exact Finset.not_nonempty_empty h

end LoadBalancer.FirstFit
