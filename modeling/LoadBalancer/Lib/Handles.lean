/-
A table of handles: small numbers, each free or open with an owner.

Opening takes the lowest free number; closing frees a number, whoever holds it, and
closing a free one does nothing. What a number means is therefore a matter of when it is
used, and the only facts needed about the table are who owns a number after each of the
two operations ([`owner_openAs`], [`owner_close`]).
-/
import Mathlib.Data.List.Basic

set_option autoImplicit false

namespace LoadBalancer.Handles

universe u

variable {ω : Type u}

/-- The owners of the numbers `0, 1, 2, …`, `none` where a number is free. -/
abbrev Table (ω : Type u) := List (Option ω)

/-- Who holds a number. -/
def owner (t : Table ω) (n : ℕ) : Option ω := (t[n]?).join

/-- The lowest free number. -/
def lowestFree : Table ω → ℕ
  | [] => 0
  | none :: _ => 0
  | some _ :: t => lowestFree t + 1

/-- Open the lowest free number. -/
def openAs (o : ω) : Table ω → Table ω
  | [] => [some o]
  | none :: t => some o :: t
  | some p :: t => some p :: openAs o t

/-- Close a number. -/
def close (n : ℕ) (t : Table ω) : Table ω := t.set n none

@[simp] theorem owner_nil (n : ℕ) : owner ([] : Table ω) n = none := rfl

@[simp] theorem owner_cons_zero (o : Option ω) (t : Table ω) : owner (o :: t) 0 = o := rfl

@[simp] theorem owner_cons_succ (o : Option ω) (t : Table ω) (n : ℕ) :
    owner (o :: t) (n + 1) = owner t n := rfl

theorem owner_lowestFree (t : Table ω) : owner t (lowestFree t) = none := by
  induction t with
  | nil => rfl
  | cons o t ih =>
      cases o with
      | none => rfl
      | some p => exact ih

/-- **After opening**: the lowest free number has the new owner, and every other keeps its own. -/
theorem owner_openAs (o : ω) (t : Table ω) (n : ℕ) :
    owner (openAs o t) n = if n = lowestFree t then some o else owner t n := by
  induction t generalizing n with
  | nil => cases n <;> rfl
  | cons p t ih =>
      cases p with
      | none => cases n <;> rfl
      | some p =>
          cases n with
          | zero => rfl
          | succ n =>
              rw [openAs, owner_cons_succ, owner_cons_succ, ih, lowestFree]
              simp only [Nat.succ.injEq]

theorem owner_openAs_eq_some_iff {o p : ω} {t : Table ω} {n : ℕ} :
    owner (openAs o t) n = some p ↔ n = lowestFree t ∧ o = p ∨ owner t n = some p := by
  rw [owner_openAs]
  split
  · next h =>
      subst h
      rw [owner_lowestFree]
      simp
  · next h => simp [h]

/-- **After closing**: the number is free, and every other keeps its owner. -/
theorem owner_close (m : ℕ) (t : Table ω) (n : ℕ) :
    owner (close m t) n = if n = m then none else owner t n := by
  unfold owner close
  rw [List.getElem?_set]
  by_cases h : m = n
  · subst h
    rw [if_pos rfl, if_pos rfl]
    split <;> rfl
  · rw [if_neg h, if_neg (Ne.symm h)]

theorem owner_close_eq_some_iff {p : ω} {t : Table ω} {m n : ℕ} :
    owner (close m t) n = some p ↔ n ≠ m ∧ owner t n = some p := by
  rw [owner_close]
  split
  · next h => simp [h]
  · next h => simp [h]

/-- Closing what was opened last. -/
theorem owner_close_openAs (o : ω) (t : Table ω) (n : ℕ) :
    owner (close (lowestFree t) (openAs o t)) n = owner t n := by
  rw [owner_close, owner_openAs]
  split
  · next h => rw [h, owner_lowestFree]
  · rfl

theorem owner_close_congr {t t' : Table ω} (h : ∀ n, owner t n = owner t' n) {m n : ℕ} :
    owner (close m t) n = owner (close m t') n := by
  rw [owner_close, owner_close, h]

theorem mem_of_owner {p : ω} {t : Table ω} {n : ℕ} (h : owner t n = some p) : some p ∈ t := by
  unfold owner at h
  exact List.mem_of_getElem? (Option.join_eq_some_iff.mp h)

/-! ## How many numbers an owner holds -/

variable [DecidableEq ω]

theorem count_openAs_self (o : ω) (t : Table ω) :
    (openAs o t).count (some o) = t.count (some o) + 1 := by
  induction t with
  | nil => simp [openAs]
  | cons q t ih =>
      cases q with
      | none => simp [openAs]
      | some q => simp only [openAs, List.count_cons, ih, Nat.add_right_comm]

theorem count_openAs_of_ne {o p : ω} (h : o ≠ p) (t : Table ω) :
    (openAs o t).count (some p) = t.count (some p) := by
  induction t with
  | nil => simp [openAs, h]
  | cons q t ih =>
      cases q with
      | none => simp [openAs, h]
      | some q => simp only [openAs, List.count_cons, ih]

/-- Closing a number takes it from whoever owns it. -/
theorem count_close (n : ℕ) (p : ω) (t : Table ω) :
    (close n t).count (some p) + (if owner t n = some p then 1 else 0) = t.count (some p) := by
  induction t generalizing n with
  | nil => rfl
  | cons q t ih =>
      cases n with
      | zero =>
          by_cases hq : q = some p
          · simp [close, hq]
          · simp [close, hq]
      | succ n =>
          have hrec := ih n
          rw [owner_cons_succ]
          simp only [close, List.set_cons_succ, List.count_cons] at hrec ⊢
          omega

theorem count_close_of_owner {n : ℕ} {p : ω} {t : Table ω} (h : owner t n = some p) :
    (close n t).count (some p) + 1 = t.count (some p) := by
  have := count_close n p t
  rwa [if_pos h] at this

theorem count_close_of_ne {n : ℕ} {p : ω} {t : Table ω} (h : owner t n ≠ some p) :
    (close n t).count (some p) = t.count (some p) := by
  have := count_close n p t
  rwa [if_neg h, Nat.add_zero] at this

theorem count_eq_zero_iff {p : ω} {t : Table ω} :
    t.count (some p) = 0 ↔ ∀ n, owner t n ≠ some p := by
  rw [List.count_eq_zero, List.mem_iff_getElem?, not_exists]
  exact forall_congr' fun n => not_congr Option.join_eq_some_iff.symm

end LoadBalancer.Handles
