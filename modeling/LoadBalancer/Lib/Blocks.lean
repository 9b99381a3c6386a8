/-
Files that are made of blocks.

A device has numbered blocks of `size` values, and a file is a table of block numbers. [`view`] is
the value at a place of the file. [`gather`] reads a row of its blocks into a buffer
([`gather_apply`]), and [`scatter`] writes a buffer to them ([`view_scatter`]); blocks that the
table does not name are left alone ([`scatter_of_forall_ne`]). A row that is stored in the middle of
another one is an [`overwrite`].
-/
import LoadBalancer.Lib.Memory
import Mathlib.Tactic.SplitIfs
import Mathlib.Tactic.Ring

set_option autoImplicit false

namespace LoadBalancer.Blocks

open LoadBalancer.Memory

universe u

variable {β : Type u} {size : ℕ}

/-- The value at a place of a file. -/
def view (size : ℕ) (disk : ℕ → ℕ → β) (table : ℕ → ℕ) (i : ℕ) : β :=
  disk (table (i / size)) (i % size)

/-- The blocks of a file from block `first` on, one behind the other in a buffer. -/
def gather (size : ℕ) (disk : ℕ → ℕ → β) (table : ℕ → ℕ) (first : ℕ) : ℕ → (ℕ → β) → ℕ → β
  | 0, buf => buf
  | n + 1, buf =>
      store (gather size disk table first n buf) (n * size) (load (disk (table (first + n))) 0 size)

/-- A buffer, to the blocks of a file from block `first` on. -/
def scatter (size : ℕ) (buf : ℕ → β) (table : ℕ → ℕ) (first : ℕ) :
    ℕ → (ℕ → ℕ → β) → ℕ → ℕ → β
  | 0, disk => disk
  | n + 1, disk =>
      let disk := scatter size buf table first n disk
      Function.update disk (table (first + n))
        (store (disk (table (first + n))) 0 (load buf (n * size) size))

variable {disk disk' : ℕ → ℕ → β} {table table' : ℕ → ℕ} {first n m i : ℕ} {buf : ℕ → β}

/-- A place in a block of the file. -/
theorem view_add (hi : i < size) (k : ℕ) :
    view size disk table (k * size + i) = disk (table k) i := by
  unfold view
  rw [Nat.mul_comm, Nat.mul_add_div (Nat.zero_lt_of_lt hi), Nat.div_eq_of_lt hi, Nat.add_zero,
    Nat.mul_add_mod, Nat.mod_eq_of_lt hi]

/-- Only the blocks of the file matter. -/
theorem view_congr (hi : i < m * size) (h : ∀ k < m, disk' (table k) = disk (table k)) :
    view size disk' table i = view size disk table i := by
  unfold view
  rw [h _ (Nat.div_lt_of_lt_mul (by rwa [Nat.mul_comm]))]

/-- **What is in the buffer**: the blocks that were read, and behind them what was there before. -/
theorem gather_apply (n : ℕ) (buf : ℕ → β) (i : ℕ) :
    gather size disk table first n buf i
      = if i < n * size then view size disk table (first * size + i) else buf i := by
  induction n with
  | zero =>
      rw [Nat.zero_mul, if_neg (Nat.not_lt_zero i)]
      rfl
  | succ n ih =>
      have hsplit : (n + 1) * size = n * size + size := by ring
      rw [gather]
      rcases Nat.lt_or_ge i (n * size) with hlt | hge
      · rw [store_of_lt hlt, ih, if_pos hlt, if_pos (by omega)]
      · obtain ⟨k, rfl⟩ := Nat.exists_eq_add_of_le hge
        by_cases hk : k < size
        · have hplace : first * size + (n * size + k) = (first + n) * size + k := by ring
          rw [store_add (by rwa [length_load]), getElem_load, if_pos (by omega), hplace,
            view_add hk, Nat.zero_add]
        · rw [store_of_le (by rw [length_load]; omega), ih, if_neg (by omega), if_neg (by omega)]

/-- **The other blocks** are left alone. -/
theorem scatter_of_forall_ne {b : ℕ} (h : ∀ k < n, b ≠ table (first + k)) :
    scatter size buf table first n disk b = disk b := by
  induction n with
  | zero => rfl
  | succ n ih =>
      rw [scatter, Function.update_of_ne (h n (Nat.lt_succ_self n))]
      exact ih fun k hk => h k (Nat.lt_succ_of_lt hk)

/-- **What is in the file afterwards**, if it names no block twice. -/
theorem view_scatter (hinj : ∀ j < m, ∀ k < m, table j = table k → j = k) (hn : first + n ≤ m)
    (hi : i < m * size) :
    view size (scatter size buf table first n disk) table i
      = if first * size ≤ i ∧ i < (first + n) * size then buf (i - first * size)
        else view size disk table i := by
  have hsize : 0 < size := Nat.pos_of_ne_zero fun h => by simp [h] at hi
  obtain ⟨k, r, hr, rfl⟩ : ∃ k r, r < size ∧ i = k * size + r :=
    ⟨i / size, i % size, Nat.mod_lt i hsize, (Nat.div_add_mod' i size).symm⟩
  have hk : k < m := by
    by_contra hge
    have := Nat.mul_le_mul_right size (Nat.not_lt.mp hge)
    omega
  rw [view_add hr, view_add hr]
  induction n with
  | zero =>
      rw [Nat.add_zero, if_neg (by omega)]
      rfl
  | succ n ih =>
      have hsplit : (first + (n + 1)) * size = (first + n) * size + size := by ring
      have hold := ih (by omega)
      rw [scatter]
      by_cases heq : k = first + n
      · -- the last block that is written
        subst heq
        have hplace : (first + n) * size + r = first * size + (n * size + r) := by ring
        have hstore : store (scatter size buf table first n disk (table (first + n))) 0
            (load buf (n * size) size) (0 + r) = buf (n * size + r) := by
          rw [store_add (by rwa [length_load]), getElem_load]
        rw [Nat.zero_add] at hstore
        rw [Function.update_self, hstore, if_pos (by omega), hplace, Nat.add_sub_cancel_left]
      · have hne : table k ≠ table (first + n) :=
          fun h => heq (hinj k hk (first + n) (by omega) h)
        rw [Function.update_of_ne hne, hold]
        have hiff : (first * size ≤ k * size + r ∧ k * size + r < (first + n) * size)
            ↔ (first * size ≤ k * size + r ∧ k * size + r < (first + (n + 1)) * size) := by
          refine and_congr_right fun _ => ?_
          rw [hsplit]
          refine ⟨fun hlt => by omega, fun hlt => ?_⟩
          -- no place of block `k` is in block `first + n`
          by_contra hge
          have hle : first + n ≤ k := by
            by_contra hlt'
            have := Nat.mul_le_mul_right size (show k + 1 ≤ first + n by omega)
            rw [Nat.succ_mul] at this
            omega
          have := Nat.mul_le_mul_right size (show first + n + 1 ≤ k by omega)
          rw [Nat.succ_mul] at this
          omega
        rw [if_congr hiff rfl rfl]

/-! ## A row in the middle of another one -/

section

/-- A row with the values of another one from place `p` on, as far as there are places. -/
def overwrite (l : List β) (p : ℕ) (row : List β) : List β :=
  l.take p ++ row.take (l.length - p) ++ l.drop (p + row.length)

variable {l row : List β} {p : ℕ}

@[simp] theorem length_overwrite : (overwrite l p row).length = l.length := by
  simp only [overwrite, List.length_append, List.length_take, List.length_drop]
  omega

@[simp] theorem overwrite_nil (l : List β) (p : ℕ) : overwrite l p [] = l := by
  rw [overwrite, List.take_nil, List.append_nil, List.length_nil, Nat.add_zero,
    List.take_append_drop]

/-- Behind the end there are no places. -/
theorem overwrite_of_length_le (h : l.length ≤ p) (row : List β) : overwrite l p row = l := by
  rw [overwrite, List.take_of_length_le h, Nat.sub_eq_zero_of_le h, List.take_zero,
    List.append_nil, List.drop_of_length_le (by omega), List.append_nil]

theorem overwrite_all (h : row.length = l.length) : overwrite l 0 row = row := by
  rw [overwrite, List.take_zero, List.nil_append, Nat.sub_zero, List.take_of_length_le h.le,
    List.drop_of_length_le (by omega), List.append_nil]

theorem getElem?_overwrite (hi : i < l.length) :
    (overwrite l p row)[i]? = if p ≤ i ∧ i < p + row.length then row[i - p]? else l[i]? := by
  have htake : (l.take p).length = min p l.length := List.length_take
  have hmid : (row.take (l.length - p)).length = min (l.length - p) row.length := List.length_take
  rw [overwrite, List.append_assoc]
  rcases Nat.lt_or_ge i p with hp | hp
  · rw [List.getElem?_append_left (by omega), List.getElem?_take_of_lt hp, if_neg (by omega)]
  · rw [List.getElem?_append_right (by omega), htake, Nat.min_eq_left (by omega)]
    by_cases hrow : i < p + row.length
    · rw [List.getElem?_append_left (by omega), List.getElem?_take_of_lt (by omega),
        if_pos ⟨hp, hrow⟩]
    · rw [List.getElem?_append_right (by omega), List.getElem?_drop, hmid, if_neg (by omega)]
      congr 1
      omega

/-- **A row that is stored in the middle of another one.** -/
theorem load_store_add (mem : ℕ → β) (a p n : ℕ) (row : List β) :
    load (store mem (a + p) row) a n = overwrite (load mem a n) p row := by
  apply List.ext_getElem?
  intro i
  rcases Nat.lt_or_ge i n with hi | hi
  · rw [getElem?_load _ _ hi, getElem?_overwrite (by rwa [length_load]), getElem?_load _ _ hi,
      store]
    by_cases hrow : p ≤ i ∧ i < p + row.length
    · rw [if_pos hrow, if_pos (by omega), show a + i - (a + p) = i - p by omega,
        List.getElem?_eq_getElem (by omega), Option.getD_some]
    · rw [if_neg hrow]
      split_ifs with hp
      · rw [List.getElem?_eq_none (by omega), Option.getD_none]
      · rfl
  · rw [List.getElem?_eq_none (by rwa [length_load]),
      List.getElem?_eq_none (by rwa [length_overwrite, length_load])]

end

end LoadBalancer.Blocks
