/-
A cursor that goes round a ring of `n` places.

[`next`] is the usual increment with a wrap at the end. After `k` steps from `c` the cursor
is at `(c + k) % n` ([`iterate_next`]), and in any number of consecutive steps two places are
visited equally often up to one visit ([`count_iterate_le`]).
-/
import Mathlib.Data.Int.CardIntervalMod
import Mathlib.Data.List.Iterate

set_option autoImplicit false

namespace LoadBalancer.Rotation

/-- The place after `c`. -/
def next (n c : ℕ) : ℕ := if c + 1 ≥ n then 0 else c + 1

theorem next_eq_mod {n c : ℕ} (h : c < n) : next n c = (c + 1) % n := by
  unfold next
  split_ifs with hend
  · have : c + 1 = n := by omega
    rw [this, Nat.mod_self]
  · rw [Nat.mod_eq_of_lt (by omega)]

/-- **After `k` steps** the cursor is `k` places further, modulo the size of the ring. -/
theorem iterate_next {n c : ℕ} (h : c < n) (k : ℕ) : (next n)^[k] c = (c + k) % n := by
  induction k with
  | zero => rw [Function.iterate_zero, id, Nat.add_zero, Nat.mod_eq_of_lt h]
  | succ k ih =>
      rw [Function.iterate_succ_apply', ih, next_eq_mod (Nat.mod_lt _ (by omega)), Nat.mod_add_mod,
        Nat.add_assoc]

/-- The number of members of a list of consecutive numbers with a property. -/
theorem countP_range_eq_count (p : ℕ → Prop) [DecidablePred p] (m : ℕ) :
    (List.range m).countP (fun k => decide (p k)) = Nat.count p m := by
  induction m with
  | zero => rfl
  | succ m ih => simp [List.range_succ, List.countP_append, Nat.count_succ, ih]

/-- How often a place is visited: once a round, and once more at most. -/
theorem count_iterate {n c i : ℕ} (hc : c < n) (hi : i < n) (m : ℕ) :
    ∃ extra ≤ 1, (List.iterate (next n) c m).count i = m / n + extra := by
  have hplace : ∀ k, (next n)^[k] c = i ↔ k ≡ i + (n - c) [MOD n] := by
    intro k
    rw [iterate_next hc, ← Nat.ModEq.add_iff_left (Nat.ModEq.refl c)]
    have hsum : c + (i + (n - c)) = i + n := by omega
    rw [hsum, Nat.ModEq, Nat.add_mod_right, Nat.mod_eq_of_lt hi]
  have hcount : (List.iterate (next n) c m).count i = Nat.count (· ≡ i + (n - c) [MOD n]) m := by
    rw [← List.range_map_iterate, List.count, List.countP_map, ← countP_range_eq_count]
    apply List.countP_congr
    intro k _
    simp [hplace]
  rw [hcount, Nat.count_modEq_card m (by omega)]
  refine ⟨_, ?_, rfl⟩
  split_ifs <;> omega

/-- **Fairness**: two places are visited equally often, up to one visit. -/
theorem count_iterate_le {n c i j : ℕ} (hc : c < n) (hi : i < n) (hj : j < n) (m : ℕ) :
    (List.iterate (next n) c m).count i ≤ (List.iterate (next n) c m).count j + 1 := by
  obtain ⟨ei, hei, hcounti⟩ := count_iterate hc hi m
  obtain ⟨ej, -, hcountj⟩ := count_iterate hc hj m
  omega

end LoadBalancer.Rotation
