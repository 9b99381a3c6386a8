/-
Reference counts.

A resource is known by its holders' references to it, and a counter is kept for each resource;
a resource is marked as in use while its counter is positive. [`Balanced`] says that the
counters are the numbers of references. Taking a reference to a resource, free or in use, and
giving one back keep the balance, whatever the order in which the references of different
holders are taken and given back: only their number matters ([`Balanced.perm`]).
-/
import Mathlib.Data.Int.Notation
import Mathlib.Logic.Function.Basic
import Mathlib.Data.List.Count

set_option autoImplicit false

namespace LoadBalancer.RefCount

universe u

variable {ρ : Type u} [DecidableEq ρ]

/-- The counters count the references, and what is in use is what is counted. -/
structure Balanced (count : ρ → ℤ) (used : ρ → Prop) (refs : List ρ) : Prop where
  count_eq : ∀ r, count r = refs.count r
  used_iff : ∀ r, used r ↔ 0 < count r

variable {count : ρ → ℤ} {used : ρ → Prop} {refs : List ρ}

/-- Nothing is counted, and nothing is in use. -/
theorem Balanced.nil : Balanced (fun _ : ρ => 0) (fun _ => False) [] where
  count_eq _ := rfl
  used_iff _ := by simp

theorem Balanced.perm (h : Balanced count used refs) {refs' : List ρ} (hperm : refs.Perm refs') :
    Balanced count used refs' where
  count_eq r := by rw [h.count_eq, hperm.count_eq]
  used_iff := h.used_iff

/-- In use is what there is a reference to. -/
theorem Balanced.used_iff_mem (h : Balanced count used refs) (r : ρ) : used r ↔ r ∈ refs := by
  rw [h.used_iff, h.count_eq, Int.natCast_pos, List.count_pos_iff]

/-- **A new reference**: the counter goes up and the resource is in use, if it was not before. -/
theorem Balanced.acquire (h : Balanced count used refs) (r : ρ) {used' : ρ → Prop}
    (hused : ∀ x, used' x ↔ x = r ∨ used x) :
    Balanced (Function.update count r (count r + 1)) used' (r :: refs) where
  count_eq x := by
    by_cases hx : x = r
    · subst hx
      rw [Function.update_self, h.count_eq, List.count_cons_self]
      push_cast
      rfl
    · rw [Function.update_of_ne hx, h.count_eq, List.count_cons_of_ne (Ne.symm hx)]
  used_iff x := by
    rw [hused]
    by_cases hx : x = r
    · subst hx
      rw [Function.update_self, h.count_eq]
      exact iff_of_true (.inl rfl) (by omega)
    · rw [Function.update_of_ne hx, h.used_iff, or_iff_right hx]

/-- A new reference to a resource that is in use already. -/
theorem Balanced.share (h : Balanced count used refs) {r : ρ} (hr : r ∈ refs) :
    Balanced (Function.update count r (count r + 1)) used (r :: refs) := by
  apply h.acquire r
  intro x
  constructor
  · exact .inr
  · rintro (rfl | hx)
    · exact (h.used_iff_mem x).mpr hr
    · exact hx

/-- **A reference given back**: the counter goes down, and with the last reference the resource
is free. -/
theorem Balanced.release {r : ρ} (h : Balanced count used (r :: refs)) {used' : ρ → Prop}
    (hused : ∀ x, used' x ↔ used x ∧ (x = r → count r - 1 ≠ 0)) :
    Balanced (Function.update count r (count r - 1)) used' refs where
  count_eq x := by
    by_cases hx : x = r
    · subst hx
      rw [Function.update_self, h.count_eq, List.count_cons_self]
      push_cast
      omega
    · rw [Function.update_of_ne hx, h.count_eq, List.count_cons_of_ne (Ne.symm hx)]
  used_iff x := by
    rw [hused, h.used_iff]
    by_cases hx : x = r
    · subst hx
      rw [Function.update_self, h.count_eq, List.count_cons_self]
      push_cast
      constructor
      · rintro ⟨-, hne⟩
        have := hne rfl
        omega
      · intro hpos
        exact ⟨by omega, fun _ => by omega⟩
    · rw [Function.update_of_ne hx]
      exact and_iff_left fun heq => absurd heq hx

end LoadBalancer.RefCount
