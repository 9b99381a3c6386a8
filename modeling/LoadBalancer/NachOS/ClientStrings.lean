/-
The functions on texts of `client.c`, a user program that can only include `syscall.h`.

`len` goes on to the first NUL in the memory of the program, which may be far behind the array
that it was given. `find` looks for a text in what `len` measured, and so never finds one behind a
NUL ([`Sees.find`]). `clear` fills an array with NULs ([`Sees.clear`]).
-/
import LoadBalancer.Lib.Search
import LoadBalancer.NachOS.Machine

set_option autoImplicit false

namespace LoadBalancer.NachOS

open LoadBalancer.Memory LoadBalancer.Search

/-! ## The functions -/

/-- A `char` of the program's memory. At a page fault the instruction is started again for ever. -/
def Machine.charAt (addr : ℤ) (m : Machine) : Option (Byte × Machine) :=
  (m.ReadMem addr).bind fun (value, m) => value.map fun value => (BitVec.ofInt 8 value, m)

/-- A `char` into the program's memory. -/
def Machine.setChar (addr : ℤ) (c : Byte) (m : Machine) : Option Machine :=
  (m.WriteMem addr c.toInt).bind fun (done, m) => if done then some m else none

namespace Client

/-- The loop of `len`. Every turn reads another address, so there are fewer turns than addresses,
unless one of them is outside the memory. -/
def len.loop (param : ℤ) : ℕ → ℤ → Machine → Option (ℤ × Machine)
  | 0, _, _ => none
  | turns + 1, counter, m =>
      (m.charAt (param + counter)).bind fun (c, m) =>
        -- `--counter` takes back the step behind the NUL
        if c ≠ 0 then len.loop param turns (counter + 1) m else some (counter, m)

/-- `len`. -/
def len (param : ℤ) (m : Machine) : Option (ℤ × Machine) := len.loop param MemorySize 0 m

/-- The inner loop of `find`, with `i + j` in `pos` and what is left of the splitter: it ends with
`true` where the function returns. The splitters of the program are not empty. -/
def find.inner (str str_size : ℤ) : List Byte → ℤ → Machine → Option (Bool × Machine)
  | [], _, m => some (true, m)
  | c :: splitter, pos, m =>
      (m.charAt (str + pos)).bind fun (b, m) =>
        if b = c ∧ pos < str_size then find.inner str str_size splitter (pos + 1) m
        else some (false, m)

/-- The outer loop of `find`. -/
def find.outer (str str_size : ℤ) (splitter : List Byte) : ℕ → ℤ → Machine → Option (ℤ × Machine)
  | 0, _, m => some (-1, m)
  | limit + 1, i, m =>
      if i < str_size then
        (find.inner str str_size splitter i m).bind fun (found, m) =>
          if found then some (i, m) else find.outer str str_size splitter limit (i + 1) m
      else some (-1, m)

/-- `find`. -/
def find (str : ℤ) (splitter : List Byte) (limit : ℕ) (m : Machine) : Option (ℤ × Machine) :=
  (len str m).bind fun (str_size, m) => find.outer str str_size splitter limit 0 m

/-- `clear`: a NUL to every place, one after the other. -/
def clear (buffer : ℤ) : ℕ → Machine → Option Machine
  | 0, m => some m
  | size + 1, m => (m.setChar buffer 0).bind (clear (buffer + 1) size)

/-- What the outer loop returns for an occurrence, `i` turns behind it and up to `limit` to go. -/
def position (i limit : ℕ) : Option ℕ → ℤ
  | none => -1
  | some p => if p < limit then ((i + p : ℕ) : ℤ) else -1

theorem position_no_turns (i : ℕ) (found : Option ℕ) : position i 0 found = -1 := by
  cases found with
  | none => rfl
  | some p => rw [position, if_neg (Nat.not_lt_zero p)]

/-- A turn that does not find the splitter. -/
theorem position_succ (i limit : ℕ) (found : Option ℕ) :
    position i (limit + 1) (found.map (· + 1)) = position (i + 1) limit found := by
  cases found with
  | none => rfl
  | some p =>
      have hsum : i + (p + 1) = i + 1 + p := by omega
      rw [Option.map_some, position, position, hsum]
      exact if_congr Nat.add_lt_add_iff_right rfl rfl

end Client

/-! ## Texts in the memory -/

/-- A text of `k` characters begins at the address `a`, with a NUL behind it. -/
structure TextAt (n : ℕ) (mem : ℕ → Byte) (a k : ℕ) : Prop where
  inside : a + k < n
  ends : mem (a + k) = 0
  before : ∀ j < k, mem (a + j) ≠ 0

/-- Where there is a NUL, a text begins at every address before it. -/
theorem exists_textAt {n : ℕ} {mem : ℕ → Byte} {a v : ℕ} (ha : a ≤ v) (hv : v < n)
    (hnul : mem v = 0) : ∃ k, TextAt n mem a k := by
  have hex : ∃ k, mem (a + k) = 0 := ⟨v - a, by rw [Nat.add_sub_cancel' ha, hnul]⟩
  have hle : Nat.find hex ≤ v - a := Nat.find_le (by rw [Nat.add_sub_cancel' ha, hnul])
  exact ⟨Nat.find hex, by omega, Nat.find_spec hex, fun j hj => Nat.find_min hex hj⟩

/-- The text, from one of its characters on. -/
theorem drop_load {mem : ℕ → Byte} {a k q : ℕ} (hq : q < k) :
    (load mem a k).drop q = mem (a + q) :: (load mem a k).drop (q + 1) := by
  have hlen : q < (load mem a k).length := by rwa [length_load]
  rw [List.drop_eq_getElem_cons hlen, getElem_load]

namespace Sees

open Client

variable {m : Machine} {n : ℕ} {mem : ℕ → Byte}

theorem charAt (h : Sees m n mem) {v : ℕ} (hv : v < n) :
    ∃ m', m.charAt v = some (mem v, m') ∧ Sees m' n mem := by
  obtain ⟨m', hread, h'⟩ := h.readMem hv
  refine ⟨m', ?_, h'⟩
  rw [Machine.charAt, hread, Option.bind_some]
  dsimp only
  rw [Option.map_some, BitVec.ofInt_toInt]

theorem setChar (h : Sees m n mem) {v : ℕ} (hv : v < n) (c : Byte) :
    ∃ m', m.setChar v c = some m' ∧ Sees m' n (Function.update mem v c) := by
  obtain ⟨m', hwrite, h'⟩ := h.writeMem hv c.toInt
  rw [BitVec.ofInt_toInt] at h'
  refine ⟨m', ?_, h'⟩
  rw [Machine.setChar, hwrite, Option.bind_some]
  exact if_pos rfl

/-- The memory of a program is not larger than that of the machine. -/
theorem size_le (h : Sees m n mem) : n ≤ MemorySize := by
  rw [← h.size]
  exact Nat.mul_le_mul_right PageSize h.mapped.length_le

theorem len_loop (h : Sees m n mem) {a k : ℕ} (ht : TextAt n mem a k) {counter turns : ℕ}
    (hcounter : counter ≤ k) (hturns : k < counter + turns) :
    ∃ m', len.loop a turns counter m = some ((k : ℤ), m') ∧ Sees m' n mem := by
  induction turns generalizing m counter with
  | zero => omega
  | succ turns ih =>
      obtain ⟨m₁, hread, h₁⟩ := h.charAt (v := a + counter) (by have := ht.inside; omega)
      rw [Int.natCast_add] at hread
      rw [len.loop, hread, Option.bind_some]
      dsimp only
      rcases Nat.lt_or_eq_of_le hcounter with hlt | rfl
      · rw [if_pos (ht.before counter hlt), ← Int.natCast_succ]
        exact ih h₁ (by omega) (by omega)
      · rw [if_neg (not_not_intro ht.ends)]
        exact ⟨m₁, rfl, h₁⟩

/-- **`len` measures the text.** -/
theorem len (h : Sees m n mem) {a k : ℕ} (ht : TextAt n mem a k) :
    ∃ m', Client.len a m = some ((k : ℤ), m') ∧ Sees m' n mem := by
  have hsize := h.size_le
  have hk := ht.inside
  exact h.len_loop ht (Nat.zero_le k) (by omega)

/-- The inner loop compares the splitter with the text. -/
theorem find_inner (h : Sees m n mem) {a k : ℕ} (ht : TextAt n mem a k) (splitter : List Byte)
    {pos : ℕ} (hpos : pos ≤ k) :
    ∃ m', find.inner a k splitter pos m
        = some (decide (splitter <+: (load mem a k).drop pos), m') ∧ Sees m' n mem := by
  induction splitter generalizing m pos with
  | nil => exact ⟨m, by rw [find.inner, decide_eq_true List.nil_prefix], h⟩
  | cons c splitter ih =>
      obtain ⟨m₁, hread, h₁⟩ := h.charAt (v := a + pos) (by have := ht.inside; omega)
      rw [Int.natCast_add] at hread
      rw [find.inner, hread, Option.bind_some]
      dsimp only
      rcases Nat.lt_or_eq_of_le hpos with hlt | rfl
      · rw [drop_load hlt]
        by_cases hc : mem (a + pos) = c
        · have hiff : c :: splitter <+: mem (a + pos) :: (load mem a k).drop (pos + 1)
              ↔ splitter <+: (load mem a k).drop (pos + 1) := by
            rw [List.cons_prefix_cons, and_iff_right hc.symm]
          rw [if_pos ⟨hc, by omega⟩, decide_eq_decide.mpr hiff, ← Int.natCast_succ]
          exact ih h₁ hlt
        · have hno : ¬ c :: splitter <+: mem (a + pos) :: (load mem a k).drop (pos + 1) :=
            fun hpre => hc (List.cons_prefix_cons.mp hpre).1.symm
          rw [if_neg fun hand => hc hand.1, decide_eq_false hno]
          exact ⟨m₁, rfl, h₁⟩
      · -- the NUL is not part of the text
        have hno : ¬ c :: splitter <+: (load mem a pos).drop pos := by
          rw [load_drop_of_le mem a (Nat.le_refl pos), List.prefix_nil]
          exact List.cons_ne_nil c splitter
        rw [if_neg fun hand => absurd hand.2 (Int.lt_irrefl _), decide_eq_false hno]
        exact ⟨m₁, rfl, h₁⟩

/-- The outer loop looks for the first occurrence. -/
theorem find_outer (h : Sees m n mem) {a k : ℕ} (ht : TextAt n mem a k) {splitter : List Byte}
    (hne : splitter ≠ []) (limit : ℕ) {i : ℕ} (hi : i ≤ k) :
    ∃ m', find.outer a k splitter limit i m
        = some (position i limit (Search.find splitter ((load mem a k).drop i)), m')
      ∧ Sees m' n mem := by
  induction limit generalizing m i with
  | zero =>
      rw [find.outer, position_no_turns]
      exact ⟨m, rfl, h⟩
  | succ limit ih =>
      rw [find.outer]
      rcases Nat.lt_or_eq_of_le hi with hlt | rfl
      · obtain ⟨m₁, hinner, h₁⟩ := h.find_inner ht splitter hi
        rw [if_pos (by omega), hinner, Option.bind_some]
        dsimp only
        rw [drop_load hlt, find_cons, ← drop_load hlt]
        by_cases hpre : splitter <+: (load mem a k).drop i
        · rw [decide_eq_true hpre, if_pos rfl, if_pos hpre, position, if_pos (Nat.succ_pos limit)]
          exact ⟨m₁, rfl, h₁⟩
        · rw [decide_eq_false hpre, if_neg (by decide), if_neg hpre, position_succ,
            ← Int.natCast_succ]
          exact ih h₁ hlt
      · -- the end of the text
        rw [if_neg (Int.lt_irrefl _), load_drop_of_le mem a (Nat.le_refl i), find_nil, if_neg hne]
        exact ⟨m, rfl, h⟩

/-- **`find` finds the first occurrence in the text**, if that is below the limit. -/
theorem find (h : Sees m n mem) {a k : ℕ} (ht : TextAt n mem a k) {splitter : List Byte}
    (hne : splitter ≠ []) (limit : ℕ) :
    ∃ m', Client.find a splitter limit m
        = some (position 0 limit (Search.find splitter (load mem a k)), m')
      ∧ Sees m' n mem := by
  obtain ⟨m₁, hlen, h₁⟩ := h.len ht
  obtain ⟨m₂, houter, h₂⟩ := h₁.find_outer ht hne limit (Nat.zero_le k)
  refine ⟨m₂, ?_, h₂⟩
  rw [Client.find, hlen, Option.bind_some]
  exact houter

/-- `clear` stores NULs. -/
theorem clear (h : Sees m n mem) {a size : ℕ} (ha : a + size ≤ n) :
    ∃ m', Client.clear a size m = some m'
      ∧ Sees m' n (store mem a (List.replicate size 0)) := by
  induction size generalizing m mem a with
  | zero =>
      rw [List.replicate_zero, store_nil]
      exact ⟨m, rfl, h⟩
  | succ size ih =>
      obtain ⟨m₁, hset, h₁⟩ := h.setChar (v := a) (by omega) 0
      obtain ⟨m₂, hrest, h₂⟩ := ih h₁ (a := a + 1) (by omega)
      refine ⟨m₂, ?_, ?_⟩
      · rw [Client.clear, hset, Option.bind_some, ← Int.natCast_succ]
        exact hrest
      · rw [List.replicate_succ, store_cons]
        exact h₂

end Sees

end LoadBalancer.NachOS
