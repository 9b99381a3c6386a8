/-
`BitMap` of `bitmap.cc`, and `divRoundUp` of `utility.h`.

A bit map is an array of words, and `Mark`, `Clear` and `Test` go to a word and a place in it.
What they do to the bits is one lemma for each ([`BitMap.bit_mark`], [`BitMap.bit_clear`]).
`Find` is a first fit: a row of calls takes what [`FirstFit.serve`] takes from the set of the
clear bits ([`BitMap.finds_of_serve`]), and answers `-1` when they run out.
-/
import Mathlib.Data.Finset.Max
import Mathlib.Logic.Function.Basic
import LoadBalancer.Lib.FirstFit

set_option autoImplicit false

namespace LoadBalancer.NachOS

open LoadBalancer.FirstFit

/-- `divRoundUp`. -/
def divRoundUp (n s : ℤ) : ℤ := n.tdiv s + if n.tmod s > 0 then 1 else 0

/-- `BitsInWord`. -/
def BitsInWord : ℕ := 32

/-- `BitMap`: `map[n]` for the words that there are. -/
structure BitMap (numBits : ℕ) where
  map : ℕ → BitVec 32

namespace BitMap

variable {numBits : ℕ}

/-- A bit map right after its construction: `Clear(i)` for every bit. -/
def initial : BitMap numBits := ⟨fun _ => 0⟩

/-- `map[n / BitsInWord] & (1 << (n % BitsInWord))`. -/
def bit (b : BitMap numBits) (n : ℕ) : Bool :=
  b.map (n / BitsInWord) &&& (1#32 <<< (n % BitsInWord)) != 0

/-- `map[n / BitsInWord] |= 1 << (n % BitsInWord)`. -/
def mark (b : BitMap numBits) (n : ℕ) : BitMap numBits where
  map := Function.update b.map (n / BitsInWord)
    (b.map (n / BitsInWord) ||| (1#32 <<< (n % BitsInWord)))

/-- `map[n / BitsInWord] &= ~(1 << (n % BitsInWord))`. -/
def clear (b : BitMap numBits) (n : ℕ) : BitMap numBits where
  map := Function.update b.map (n / BitsInWord)
    (b.map (n / BitsInWord) &&& ~~~(1#32 <<< (n % BitsInWord)))

/-- `ASSERT(which >= 0 && which < numBits)`. -/
def Admits (numBits : ℕ) (which : ℤ) : Prop := 0 ≤ which ∧ which < numBits

instance (which : ℤ) : Decidable (Admits numBits which) := inferInstanceAs (Decidable (_ ∧ _))

/-- `Mark`. -/
def Mark (b : BitMap numBits) (which : ℤ) : Option (BitMap numBits) :=
  if Admits numBits which then some (b.mark which.toNat) else none

/-- `Clear`. -/
def Clear (b : BitMap numBits) (which : ℤ) : Option (BitMap numBits) :=
  if Admits numBits which then some (b.clear which.toNat) else none

/-- `Test`. -/
def Test (b : BitMap numBits) (which : ℤ) : Option Bool :=
  if Admits numBits which then some (b.bit which.toNat) else none

/-- `Find`: the bit map afterwards and the number of the first clear bit, or `-1`. -/
def Find (b : BitMap numBits) : BitMap numBits × ℤ :=
  match (List.range numBits).find? fun i => !b.bit i with
  | some i => (b.mark i, i)
  | none => (b, -1)

/-- `NumClear`. -/
def NumClear (b : BitMap numBits) : ℕ := (List.range numBits).countP fun i => !b.bit i

/-! ## The bits -/

theorem bit_eq (b : BitMap numBits) (n : ℕ) :
    b.bit n = (b.map (n / BitsInWord)).getLsbD (n % BitsInWord) := by
  have hlt : n % BitsInWord < 32 := Nat.mod_lt n (by decide)
  have hone : BitVec.twoPow 32 (n % BitsInWord) ≠ 0#32 := by
    intro h
    have := congrArg (BitVec.getLsbD · (n % BitsInWord)) h
    simp [hlt] at this
  unfold bit
  rw [← BitVec.twoPow_eq, BitVec.and_twoPow, Bool.eq_iff_iff, bne_iff_ne]
  split_ifs with h
  · exact iff_of_true hone h
  · exact iff_of_false (fun hne => hne rfl) h

/-- A bit is known by its word and its place in it. -/
theorem eq_iff_div_mod {m n : ℕ} :
    m = n ↔ m / BitsInWord = n / BitsInWord ∧ m % BitsInWord = n % BitsInWord := by
  constructor
  · rintro rfl
    exact ⟨rfl, rfl⟩
  · rintro ⟨hdiv, hmod⟩
    rw [← Nat.div_add_mod m BitsInWord, hdiv, hmod, Nat.div_add_mod]

/-- **After `Mark`**: the bit is set, and every other is as it was. -/
theorem bit_mark (b : BitMap numBits) (n m : ℕ) : (b.mark n).bit m = (decide (m = n) || b.bit m) := by
  have hlt : n % BitsInWord < 32 := Nat.mod_lt n (by decide)
  rw [bit_eq, bit_eq, mark]
  dsimp only
  by_cases hword : m / BitsInWord = n / BitsInWord
  · rw [hword, Function.update_self, ← BitVec.twoPow_eq, BitVec.getLsbD_or, BitVec.getLsbD_twoPow,
      Bool.or_comm]
    simp only [hlt, decide_true, Bool.true_and, eq_iff_div_mod (m := m), hword, true_and,
      eq_comm]
  · rw [Function.update_of_ne hword]
    have hne : m ≠ n := fun h => hword (by rw [h])
    rw [decide_eq_false hne, Bool.false_or]

/-- **After `Clear`**: the bit is clear, and every other is as it was. -/
theorem bit_clear (b : BitMap numBits) (n m : ℕ) :
    (b.clear n).bit m = (decide (m ≠ n) && b.bit m) := by
  have hn : n % BitsInWord < 32 := Nat.mod_lt n (by decide)
  have hm : m % BitsInWord < 32 := Nat.mod_lt m (by decide)
  rw [bit_eq, bit_eq, clear]
  dsimp only
  by_cases hword : m / BitsInWord = n / BitsInWord
  · rw [hword, Function.update_self, ← BitVec.twoPow_eq, BitVec.getLsbD_and, BitVec.getLsbD_not,
      BitVec.getLsbD_twoPow, Bool.and_comm]
    simp only [hn, hm, decide_true, Bool.true_and, ne_eq, eq_iff_div_mod (m := m), hword,
      true_and, eq_comm, decide_not]
  · rw [Function.update_of_ne hword]
    have hne : m ≠ n := fun h => hword (by rw [h])
    rw [decide_eq_true hne, Bool.true_and]

@[simp] theorem bit_initial (n : ℕ) : (initial : BitMap numBits).bit n = false := by
  rw [bit_eq]
  exact BitVec.getLsbD_zero

/-! ## `Find` -/

/-- The numbers of the clear bits. -/
def free (b : BitMap numBits) : Finset ℕ := (Finset.range numBits).filter fun n => b.bit n = false

theorem mem_free {b : BitMap numBits} {n : ℕ} : n ∈ b.free ↔ n < numBits ∧ b.bit n = false := by
  rw [free, Finset.mem_filter, Finset.mem_range]

theorem numClear_eq (b : BitMap numBits) : b.NumClear = b.free.card := by
  have hfilter : (List.range numBits).filter (fun i => !b.bit i)
      = (List.range numBits).filter fun i => decide (b.bit i = false) :=
    List.filter_congr fun i _ => by cases b.bit i <;> rfl
  rw [NumClear, List.countP_eq_length_filter, hfilter]
  rfl

theorem card_free_le (b : BitMap numBits) : b.free.card ≤ numBits := by
  have h := Finset.card_filter_le (Finset.range numBits) fun n => b.bit n = false
  rwa [Finset.card_range] at h

theorem free_mark (b : BitMap numBits) (n : ℕ) : (b.mark n).free = b.free.erase n := by
  ext m
  rw [mem_free, Finset.mem_erase, mem_free, bit_mark, Bool.or_eq_false_iff, decide_eq_false_iff_not]
  exact and_left_comm

theorem free_clear (b : BitMap numBits) {n : ℕ} (hn : n < numBits) :
    (b.clear n).free = insert n b.free := by
  ext m
  rw [mem_free, Finset.mem_insert, mem_free, bit_clear, Bool.and_eq_false_iff,
    decide_eq_false_iff_not, not_not]
  by_cases hm : m = n
  · rw [hm]
    exact ⟨fun _ => Or.inl rfl, fun _ => ⟨hn, Or.inl rfl⟩⟩
  · simp only [hm, false_or]

/-- **`Find` is a first fit**: it takes the least clear bit. -/
theorem find_of_nonempty {b : BitMap numBits} (h : b.free.Nonempty) :
    b.Find = (b.mark (b.free.min' h), (b.free.min' h : ℤ)) := by
  obtain ⟨hlt, hbit⟩ := mem_free.mp (b.free.min'_mem h)
  have hfind : ((List.range numBits).find? fun i => !b.bit i) = some (b.free.min' h) := by
    rw [List.find?_range_eq_some]
    refine ⟨by rw [hbit]; rfl, List.mem_range.mpr hlt, fun j hj => ?_⟩
    cases hset : b.bit j with
    | true => rfl
    | false =>
        have hmem : j ∈ b.free := mem_free.mpr ⟨hj.trans hlt, hset⟩
        exact absurd (b.free.min'_le j hmem) (Nat.not_le.mpr hj)
  rw [Find, hfind]

/-- With no bit clear it answers `-1`. -/
theorem find_of_empty {b : BitMap numBits} (h : b.free = ∅) : b.Find = (b, -1) := by
  have hfind : ((List.range numBits).find? fun i => !b.bit i) = none := by
    rw [List.find?_eq_none]
    intro n hn hclear
    have hmem : n ∈ b.free := mem_free.mpr ⟨List.mem_range.mp hn, by simpa using hclear⟩
    rw [h] at hmem
    exact Finset.notMem_empty n hmem
  rw [Find, hfind]

/-! ## A row of `Find`s -/

/-- The answers of `n` calls. -/
def finds : ℕ → BitMap numBits → List ℤ
  | 0, _ => []
  | n + 1, b => b.Find.2 :: finds n b.Find.1

@[simp] theorem length_finds (n : ℕ) (b : BitMap numBits) : (b.finds n).length = n := by
  induction n generalizing b with
  | zero => rfl
  | succ n ih => rw [finds, List.length_cons, ih]

/-- **As long as there are clear bits, the answers are those of a first fit.** -/
theorem finds_of_serve {n : ℕ} {b : BitMap numBits} {taken : List ℕ}
    (h : serve n b.free = some taken) : b.finds n = taken.map fun p : ℕ => (p : ℤ) := by
  induction n generalizing b taken with
  | zero =>
      cases h
      rfl
  | succ n ih =>
      obtain ⟨hne, rest, hrest, rfl⟩ := serve_succ_eq_some_iff.mp h
      rw [← free_mark] at hrest
      rw [finds, find_of_nonempty hne, ih hrest, List.map_cons]

/-- After that they are `-1`. -/
theorem neg_one_mem_finds {n : ℕ} {b : BitMap numBits} (h : serve n b.free = none) :
    -1 ∈ b.finds n := by
  induction n generalizing b with
  | zero => cases h
  | succ n ih =>
      rw [finds]
      by_cases hne : b.free.Nonempty
      · rw [find_of_nonempty hne]
        rw [serve, dif_pos hne, Option.map_eq_none_iff, ← free_mark] at h
        exact List.mem_cons_of_mem _ (ih h)
      · rw [find_of_empty (Finset.not_nonempty_iff_eq_empty.mp hne)]
        exact List.mem_cons_self

/-- The answers are indices of a table of `N` entries exactly when a first fit stays in it. -/
theorem forall_finds_iff {n N : ℕ} {b : BitMap numBits} :
    (∀ p ∈ b.finds n, Admits N p) ↔ ∃ taken, serve n b.free = some taken ∧ ∀ x ∈ taken, x < N := by
  cases hserve : serve n b.free with
  | none =>
      refine iff_of_false (fun h => ?_) ?_
      · exact absurd (h _ (neg_one_mem_finds hserve)).1 (by decide)
      · rintro ⟨taken, htaken, -⟩
        exact nomatch htaken
  | some taken =>
      rw [finds_of_serve hserve, List.forall_mem_map]
      constructor
      · exact fun h => ⟨taken, rfl, fun x hx => Int.ofNat_lt.mp (h x hx).2⟩
      · rintro ⟨_, htaken, hlt⟩ x hx
        cases htaken
        exact ⟨Int.natCast_nonneg x, Int.ofNat_lt.mpr (hlt x hx)⟩

/-- Enough clear bits are enough for a first fit. -/
theorem exists_serve_of_le {n : ℕ} {b : BitMap numBits} (h : n ≤ b.free.card) :
    ∃ taken, serve n b.free = some taken := by
  have hall : b.free.filter (· < numBits) = b.free :=
    Finset.filter_true_of_mem fun x hx => (mem_free.mp hx).1
  obtain ⟨taken, htaken, -⟩ := (exists_serve_below_iff n b.free numBits).mpr (by rwa [hall])
  exact ⟨taken, htaken⟩

/-- As long as no answer is `-1`, the first fit is served. -/
theorem exists_serve {n : ℕ} {b : BitMap numBits} (h : -1 ∉ b.finds n) :
    ∃ taken, serve n b.free = some taken := by
  cases hserve : serve n b.free with
  | none => exact absurd (neg_one_mem_finds hserve) h
  | some taken => exact ⟨taken, rfl⟩

end BitMap

end LoadBalancer.NachOS
