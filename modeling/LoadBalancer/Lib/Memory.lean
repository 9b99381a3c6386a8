/-
Memory as a function of its addresses.

[`store`] puts a row of values at an address, and [`load`] reads a row. What is read back is what
was stored ([`load_store`]), a part of a row is a row ([`load_drop`], [`load_take`]), and addresses
outside the row keep what they had ([`store_of_lt`], [`store_of_le`]).
-/
import Mathlib.Logic.Function.Basic
import Mathlib.Data.List.Basic
import Mathlib.Data.Nat.Notation

set_option autoImplicit false

namespace LoadBalancer.Memory

universe u

variable {β : Type u}

/-- The memory with the values of `row` from address `a` on. -/
def store (mem : ℕ → β) (a : ℕ) (row : List β) : ℕ → β := fun i =>
  if a ≤ i then (row[i - a]?).getD (mem i) else mem i

/-- The `n` values from address `a` on. -/
def load (mem : ℕ → β) (a : ℕ) : ℕ → List β
  | 0 => []
  | n + 1 => mem a :: load mem (a + 1) n

variable {mem mem' : ℕ → β} {a i k n : ℕ} {row : List β}

/-! ## One address -/

theorem store_of_lt (h : i < a) : store mem a row i = mem i := if_neg (Nat.not_le.mpr h)

theorem store_of_le (h : a + row.length ≤ i) : store mem a row i = mem i := by
  have ha : a ≤ i := by omega
  have hnone : row[i - a]? = none := List.getElem?_eq_none (by omega)
  rw [store, if_pos ha, hnone, Option.getD_none]

theorem store_add (h : k < row.length) : store mem a row (a + k) = row[k] := by
  rw [store, if_pos (Nat.le_add_right a k), Nat.add_sub_cancel_left, List.getElem?_eq_getElem h,
    Option.getD_some]

/-- A row that repeats one value. -/
theorem store_replicate (mem : ℕ → β) (a n : ℕ) (x : β) (i : ℕ) :
    store mem a (List.replicate n x) i = if a ≤ i ∧ i < a + n then x else mem i := by
  unfold store
  rw [List.getElem?_replicate]
  by_cases hi : a ≤ i ∧ i < a + n
  · rw [if_pos hi.1, if_pos (by omega), if_pos hi, Option.getD_some]
  · rw [if_neg hi]
    split_ifs with ha hn
    · exact absurd ⟨ha, by omega⟩ hi
    · rfl
    · rfl

@[simp] theorem store_nil (mem : ℕ → β) (a : ℕ) : store mem a [] = mem := by
  funext i
  rcases Nat.lt_or_ge i a with hi | hi
  · exact store_of_lt hi
  · exact store_of_le hi

/-- A row is stored one value after the other. -/
theorem store_cons (mem : ℕ → β) (a : ℕ) (x : β) (row : List β) :
    store mem a (x :: row) = store (Function.update mem a x) (a + 1) row := by
  funext i
  rcases Nat.lt_trichotomy i a with hi | rfl | hi
  · rw [store_of_lt hi, store_of_lt (by omega), Function.update_of_ne (by omega)]
  · have := @store_add _ mem i 0 (x :: row) (Nat.succ_pos _)
    rw [Nat.add_zero] at this
    rw [this, store_of_lt (by omega), Function.update_self, List.getElem_cons_zero]
  · obtain ⟨k, rfl⟩ := Nat.exists_eq_add_of_lt hi
    have hcast : a + k + 1 = a + 1 + k := by omega
    rcases Nat.lt_or_ge k row.length with hk | hk
    · rw [hcast, store_add hk, show a + 1 + k = a + (k + 1) by omega,
        store_add (by rw [List.length_cons]; omega), List.getElem_cons_succ]
    · rw [store_of_le (by rw [List.length_cons]; omega), store_of_le (by omega),
        Function.update_of_ne (by omega)]

/-! ## Rows -/

@[simp] theorem length_load (mem : ℕ → β) (a n : ℕ) : (load mem a n).length = n := by
  induction n generalizing a with
  | zero => rfl
  | succ n ih => rw [load, List.length_cons, ih]

theorem load_ne_nil (mem : ℕ → β) (a : ℕ) (h : 0 < n) : load mem a n ≠ [] := by
  rwa [← List.length_pos_iff, length_load]

theorem getElem_load (h : k < (load mem a n).length) : (load mem a n)[k] = mem (a + k) := by
  induction n generalizing a k with
  | zero => exact absurd h (Nat.not_lt_zero k)
  | succ n ih =>
      cases k with
      | zero => rfl
      | succ k =>
          simp only [load, List.getElem_cons_succ]
          rw [ih, Nat.add_right_comm, Nat.add_assoc]

/-- Rows of equal values. -/
theorem load_congr {b : ℕ} (h : ∀ i < n, mem (a + i) = mem' (b + i)) :
    load mem a n = load mem' b n := by
  apply List.ext_getElem
  · rw [length_load, length_load]
  · intro i hi hi'
    rw [getElem_load, getElem_load]
    exact h i (by rwa [length_load] at hi)

theorem getElem?_load (mem : ℕ → β) (a : ℕ) (h : i < n) :
    (load mem a n)[i]? = some (mem (a + i)) := by
  rw [List.getElem?_eq_getElem (by rwa [length_load]), getElem_load]

/-- **What was stored is read back.** -/
theorem load_store (mem : ℕ → β) (a : ℕ) (row : List β) :
    load (store mem a row) a row.length = row := by
  apply List.ext_getElem
  · exact length_load _ _ _
  · intro k hk hk'
    rw [getElem_load, store_add hk']

/-- A part of a row that is read. -/
theorem load_drop (mem : ℕ → β) (a k n : ℕ) : (load mem a (k + n)).drop k = load mem (a + k) n := by
  apply List.ext_getElem
  · simp
  · intro j hj hj'
    rw [List.getElem_drop, getElem_load, getElem_load, Nat.add_assoc]

/-- Behind the row there is nothing. -/
theorem load_drop_of_le (mem : ℕ → β) (a : ℕ) (h : n ≤ k) : (load mem a n).drop k = [] :=
  List.drop_of_length_le (by rwa [length_load])

theorem load_take (mem : ℕ → β) (a k n : ℕ) : (load mem a (k + n)).take k = load mem a k := by
  apply List.ext_getElem
  · simp
  · intro j hj hj'
    rw [List.getElem_take, getElem_load, getElem_load]

/-- The two parts of a row that was stored. -/
theorem load_store_append_left (mem : ℕ → β) (a : ℕ) (row row' : List β) :
    load (store mem a (row ++ row')) a row.length = row := by
  have hall := load_store mem a (row ++ row')
  rw [List.length_append] at hall
  rw [← load_take _ a row.length row'.length, hall, List.take_left]

theorem load_store_append_right (mem : ℕ → β) (a : ℕ) (row row' : List β) :
    load (store mem a (row ++ row')) (a + row.length) row'.length = row' := by
  have hall := load_store mem a (row ++ row')
  rw [List.length_append] at hall
  rw [← load_drop, hall, List.drop_left]

end LoadBalancer.Memory
