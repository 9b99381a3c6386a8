/-
Substring search, as a left-to-right scan.

[`find`] returns the first position at which a pattern is a prefix of what is left
of the text -- what `std::string::find` and `strstr` compute. Its two readings are
[`find_eq_some_iff`] (a position, and no earlier one) and [`find_eq_none_iff`] (no
occurrence at all); everything else here is about where the first occurrence is in
a text that was *built* around it, which is what a parser's round trip needs.

Nothing is assumed of the alphabet but decidable equality.
-/
import Mathlib.Data.List.Basic
import Mathlib.Data.List.Infix
import Mathlib.Data.List.TakeWhile

set_option autoImplicit false

namespace LoadBalancer.Search

universe u

variable {α : Type u} [DecidableEq α]

/-! ## The scan -/

/-- The first position of `text` at which `pat` occurs. -/
def find (pat : List α) : List α → Option ℕ
  | [] => if pat = [] then some 0 else none
  | c :: text => if pat <+: c :: text then some 0 else (find pat text).map (· + 1)

theorem find_nil (pat : List α) : find pat [] = if pat = [] then some 0 else none := rfl

theorem find_cons (pat : List α) (c : α) (text : List α) :
    find pat (c :: text)
      = if pat <+: c :: text then some 0 else (find pat text).map (· + 1) := rfl

/-- **The scan finds the first occurrence.** -/
theorem find_eq_some_iff (pat : List α) (text : List α) (p : ℕ) :
    find pat text = some p
      ↔ p ≤ text.length ∧ pat <+: text.drop p ∧ ∀ k < p, ¬ pat <+: text.drop k := by
  induction text generalizing p with
  | nil =>
      rw [find_nil]
      constructor
      · intro h
        split_ifs at h with hp
        obtain rfl : 0 = p := by simpa using h
        refine ⟨Nat.le_refl 0, ?_, fun k hk => absurd hk (Nat.not_lt_zero k)⟩
        simp [hp]
      · rintro ⟨hp, hpre, -⟩
        obtain rfl : p = 0 := by simpa using hp
        have hnil : pat = [] := by simpa using hpre
        simp [hnil]
  | cons c text ih =>
      rw [find_cons]
      by_cases hpre : pat <+: c :: text
      · rw [if_pos hpre]
        constructor
        · intro h
          obtain rfl : 0 = p := by simpa using h
          exact ⟨Nat.zero_le _, hpre, fun k hk => absurd hk (Nat.not_lt_zero k)⟩
        · rintro ⟨-, -, hmin⟩
          rcases Nat.eq_zero_or_pos p with rfl | hpos
          · rfl
          · exact absurd hpre (hmin 0 hpos)
      · rw [if_neg hpre, Option.map_eq_some_iff]
        constructor
        · rintro ⟨q, hq, rfl⟩
          obtain ⟨hle, hq1, hq2⟩ := (ih q).mp hq
          refine ⟨by simpa using hle, by simpa using hq1, fun k hk => ?_⟩
          -- position `0` was tested by this turn, the others by the rest of the scan
          rcases k with _ | k
          · simpa using hpre
          · simpa using hq2 k (by omega)
        · rintro ⟨hle, hp1, hp2⟩
          rcases p with _ | p
          · exact absurd (by simpa using hp1) hpre
          · refine ⟨p, (ih p).mpr ⟨by simpa using hle, by simpa using hp1, fun k hk => ?_⟩, rfl⟩
            simpa using hp2 (k + 1) (by omega)

omit [DecidableEq α] in
/-- A prefix of a tail occurs in the text. -/
theorem infix_of_isPrefix_drop {pat text : List α} {p : ℕ} (h : pat <+: text.drop p) :
    pat <:+: text :=
  h.isInfix.trans (List.drop_suffix p text).isInfix

omit [DecidableEq α] in
/-- A pattern occurs in a text exactly when it is a prefix of one of its tails. -/
theorem infix_iff_exists_drop (pat text : List α) :
    pat <:+: text ↔ ∃ p, p ≤ text.length ∧ pat <+: text.drop p := by
  constructor
  · rintro ⟨pre, post, rfl⟩
    refine ⟨pre.length, by simp, post, ?_⟩
    simp
  · rintro ⟨p, -, hp⟩
    exact infix_of_isPrefix_drop hp

/-- **The scan fails exactly when the pattern does not occur.** -/
theorem find_eq_none_iff (pat text : List α) : find pat text = none ↔ ¬ pat <:+: text := by
  induction text with
  | nil =>
      rw [find_nil]
      by_cases h : pat = [] <;> simp [h]
  | cons c text ih =>
      rw [find_cons]
      by_cases h : pat <+: c :: text
      · simp [h, h.isInfix]
      · rw [if_neg h, Option.map_eq_none_iff, ih, List.infix_cons_iff]
        simp [h]

theorem find_isSome_iff (pat text : List α) : (find pat text).isSome ↔ pat <:+: text := by
  rw [← not_iff_not, ← find_eq_none_iff]
  simp

/-- Where the scan fails, the pattern is at no position. -/
theorem not_isPrefix_drop_of_find {pat text : List α} (h : find pat text = none) (p : ℕ) :
    ¬ pat <+: text.drop p :=
  fun hpre => (find_eq_none_iff pat text).mp h (infix_of_isPrefix_drop hpre)

/-- An occurrence is where the scan stops, or after it. -/
theorem find_le_of_isPrefix {pat text : List α} {p q : ℕ} (h : find pat text = some p)
    (hq : pat <+: text.drop q) : p ≤ q := by
  by_contra hlt
  exact ((find_eq_some_iff pat text p).mp h).2.2 q (by omega) hq

/-- What follows the text does not move the first occurrence. -/
theorem find_append_of_eq_some {pat text : List α} {p : ℕ} (h : find pat text = some p)
    (rest : List α) : find pat (text ++ rest) = some p := by
  obtain ⟨hp, hpre, hfirst⟩ := (find_eq_some_iff pat text p).mp h
  have hlen := hpre.length_le
  rw [find_eq_some_iff, List.drop_append_of_le_length hp]
  refine ⟨?_, hpre.trans (List.prefix_append _ _), fun q hq hin => hfirst q hq ?_⟩
  · rw [List.length_append]
    omega
  · -- an earlier occurrence would end before the text does
    rw [List.drop_append_of_le_length (by omega)] at hin
    apply List.prefix_of_prefix_length_le hin (List.prefix_append _ _)
    rw [List.length_drop] at hlen ⊢
    omega

/-- An occurrence that ends inside the first of two texts is found there. -/
theorem find_eq_some_of_append {pat text rest : List α} {p : ℕ}
    (h : find pat (text ++ rest) = some p) (hp : p + pat.length ≤ text.length) :
    find pat text = some p := by
  have hdrop {k : ℕ} (hk : k ≤ text.length) : (text ++ rest).drop k = text.drop k ++ rest :=
    List.drop_append_of_le_length hk
  obtain ⟨-, hpre, hfirst⟩ := (find_eq_some_iff pat _ p).mp h
  rw [hdrop (by omega)] at hpre
  refine (find_eq_some_iff pat text p).mpr ⟨by omega, ?_, fun k hk hin => hfirst k hk ?_⟩
  · apply List.prefix_of_prefix_length_le hpre (List.prefix_append _ _)
    rw [List.length_drop]
    omega
  · rw [hdrop (by omega)]
    exact hin.trans (List.prefix_append _ _)

/-! ## The first occurrence in a text built around it -/

/-- A text without the first element of the pattern only moves the first occurrence. -/
theorem find_append_of_not_mem {a : α} {p l : List α} (h : a ∉ l) (t : List α) :
    find (a :: p) (l ++ t) = (find (a :: p) t).map (· + l.length) := by
  induction l with
  | nil => simp
  | cons c l ih =>
      simp only [List.mem_cons, not_or] at h
      rw [List.cons_append, find_cons, if_neg, ih h.2, Option.map_map]
      · rfl
      · rw [List.cons_prefix_cons]
        exact fun hc => h.1 hc.1

/-- A pattern is found right behind a text without its first element. -/
theorem find_cons_append {a : α} {p l r : List α} (h : a ∉ l) :
    find (a :: p) (l ++ (a :: p) ++ r) = some l.length := by
  have hfirst : find (a :: p) ((a :: p) ++ r) = some 0 := by
    have hpre : a :: p <+: a :: (p ++ r) := List.prefix_append (a :: p) r
    rw [List.cons_append, find_cons, if_pos hpre]
  rw [List.append_assoc, find_append_of_not_mem h, hfirst, Option.map_some, Nat.zero_add]

/-- A one-element pattern is found at its first member. -/
theorem find_singleton_append {a : α} {l r : List α} (h : a ∉ l) :
    find [a] (l ++ a :: r) = some l.length := by
  have := find_cons_append (p := []) (r := r) h
  rwa [List.append_assoc] at this

theorem find_singleton_none {a : α} {l : List α} (h : a ∉ l) : find [a] l = none := by
  rw [find_eq_none_iff]
  rintro ⟨pre, post, rfl⟩
  exact h (by simp)

/-- A pattern of two different elements cannot begin inside the text before it, so in
`l ++ [a, b] ++ r` it is found right after `l` if it does not occur in `l`. -/
theorem find_pair_append {a b : α} (hab : a ≠ b) {l r : List α} (h : ¬ [a, b] <:+: l) :
    find [a, b] (l ++ a :: b :: r) = some l.length := by
  induction l with
  | nil => simp [find_cons]
  | cons c l ih =>
      have htail : ¬ [a, b] <:+: l := fun hl => h (hl.trans (List.suffix_cons c l).isInfix)
      rw [List.cons_append, find_cons, if_neg, ih htail]
      · rfl
      · intro hpre
        rw [List.cons_prefix_cons] at hpre
        obtain ⟨rfl, hpre⟩ := hpre
        cases l with
        | nil =>
            -- the pattern would straddle the boundary: its second element is `a`
            simp only [List.nil_append, List.cons_prefix_cons] at hpre
            exact hab hpre.1.symm
        | cons d l =>
            simp only [List.cons_append, List.cons_prefix_cons] at hpre
            obtain ⟨rfl, -⟩ := hpre
            exact h ⟨[], l, rfl⟩

omit [DecidableEq α] in
/-- Text without the pattern's first element, put in front, adds no occurrence. -/
theorem not_infix_append_of_not_mem {a : α} {pat l r : List α} (hl : a ∉ l)
    (h : ¬ a :: pat <:+: r) : ¬ a :: pat <:+: l ++ r := by
  induction l with
  | nil => exact h
  | cons c l ih =>
      simp only [List.mem_cons, not_or] at hl
      rw [List.cons_append, List.infix_cons_iff, not_or]
      refine ⟨fun hpre => hl.1 ?_, ih hl.2⟩
      rw [List.cons_prefix_cons] at hpre
      exact hpre.1

/-- What the scan skips does not contain the pattern. -/
theorem not_infix_take_of_find {pat text : List α} {p : ℕ} (hne : pat ≠ [])
    (h : find pat text = some p) : ¬ pat <:+: text.take p := by
  intro hin
  obtain ⟨q, hq, hpre⟩ := (infix_iff_exists_drop _ _).mp hin
  have hlen : pat.length ≤ ((text.take p).drop q).length := hpre.length_le
  have hpos : 0 < pat.length := List.length_pos_iff.mpr hne
  -- it would start before `p` and be found there
  have hqp : q < p := by
    simp only [List.length_drop, List.length_take] at hlen
    omega
  have htext : pat <+: text.drop q := by
    rw [List.drop_take] at hpre
    exact hpre.trans (List.take_prefix _ _)
  exact absurd (find_le_of_isPrefix h htext) (by omega)

/-- The text is what the scan skips, the pattern, and the rest. -/
theorem eq_append_of_find {pat text : List α} {p : ℕ} (h : find pat text = some p) :
    text = text.take p ++ pat ++ text.drop (p + pat.length) := by
  obtain ⟨-, ⟨rest, hrest⟩, -⟩ := (find_eq_some_iff pat text p).mp h
  have hdrop : text.drop (p + pat.length) = rest := by
    rw [← List.drop_drop, ← hrest, List.drop_left]
  rw [hdrop, List.append_assoc, hrest, List.take_append_drop]

/-- A pattern that is found at the end of the text is at no other place. -/
theorem isPrefix_drop_iff_of_find {pat text : List α} {p k : ℕ} (hne : pat ≠ [])
    (h : find pat text = some p) (hend : p + pat.length = text.length) :
    pat <+: text.drop k ↔ k + pat.length = text.length := by
  have hpos : 0 < pat.length := List.length_pos_iff.mpr hne
  constructor
  · intro hpre
    have hle := find_le_of_isPrefix h hpre
    have hroom := hpre.length_le
    rw [List.length_drop] at hroom
    omega
  · intro hk
    have hkp : k = p := by omega
    rw [hkp]
    exact ((find_eq_some_iff pat text p).mp h).2.1

/-! ## Lines

A text of lines, each ended by the pair `[a, b]` and none of them empty, with one more pair
at the end: the doubled pair occurs there and nowhere before. -/

section Lines

variable {a b : α} {l r : List α}

/-- The doubled pair, right after a text without its first element. -/
theorem find_doubled_append (h : a ∉ l) :
    find [a, b, a, b] (l ++ a :: b :: a :: b :: r) = some l.length := by
  have := find_cons_append (p := [b, a, b]) (r := r) h
  rwa [List.append_assoc] at this

/-- After one pair only, the scan goes on behind it. -/
theorem find_doubled_line (hab : a ≠ b) (hl : a ∉ l) (hr : r.head? ≠ some a) :
    find [a, b, a, b] (l ++ a :: b :: r) = (find [a, b, a, b] r).map (· + (l.length + 2)) := by
  induction l with
  | nil =>
      have hfirst : ¬ [a, b, a, b] <+: a :: b :: r := by
        rw [List.cons_prefix_cons, List.cons_prefix_cons]
        rintro ⟨-, -, t, rfl⟩
        exact hr rfl
      have hsecond : ¬ [a, b, a, b] <+: b :: r := by
        rw [List.cons_prefix_cons]
        exact fun h => hab h.1
      rw [List.nil_append, find_cons, if_neg hfirst, find_cons, if_neg hsecond, Option.map_map]
      rfl
  | cons c l ih =>
      simp only [List.mem_cons, not_or] at hl
      have hc : ¬ [a, b, a, b] <+: c :: (l ++ a :: b :: r) := by
        rw [List.cons_prefix_cons]
        exact fun h => hl.1 h.1
      rw [List.cons_append, find_cons, if_neg hc, ih hl.2, Option.map_map, List.length_cons]
      congr 1

/-- **The end of the lines** is where the doubled pair is found, whatever follows. -/
theorem find_doubled_lines (hab : a ≠ b) {line : List α} {lines : List (List α)}
    (h : ∀ l ∈ line :: lines, a ∉ l ∧ l ≠ []) (rest : List α) :
    find [a, b, a, b] ((line :: lines).flatMap (· ++ [a, b]) ++ a :: b :: rest)
      = some (((line :: lines).flatMap (· ++ [a, b])).length - 2) := by
  induction lines generalizing line with
  | nil =>
      have hline := find_doubled_append (b := b) (r := rest) (h line (by simp)).1
      simpa using hline
  | cons next lines ih =>
      have hrec := ih fun l hl => h l (List.mem_cons_of_mem _ hl)
      obtain ⟨hnext, hne⟩ := h next (by simp)
      -- the next line is not empty, and does not begin with `a`
      have hhead : ((next :: lines).flatMap (· ++ [a, b]) ++ a :: b :: rest).head? ≠ some a := by
        cases next with
        | nil => exact absurd rfl hne
        | cons c next =>
            simp only [List.mem_cons, not_or] at hnext
            simpa using Ne.symm hnext.1
      rw [List.flatMap_cons, List.append_assoc, List.append_assoc, List.cons_append,
        List.cons_append, List.nil_append, find_doubled_line hab (h line (by simp)).1 hhead, hrec]
      simp only [List.flatMap_cons, List.length_append, List.length_cons, List.length_nil,
        Option.map_some, Option.some.injEq]
      omega

/-- The same of the whole block, the last pair included. -/
theorem find_doubled_block (hab : a ≠ b) {line : List α} {lines : List (List α)}
    (h : ∀ l ∈ line :: lines, a ∉ l ∧ l ≠ []) (rest : List α) :
    ∃ p, find [a, b, a, b] ((line :: lines).flatMap (· ++ [a, b]) ++ [a, b] ++ rest) = some p
      ∧ p + 4 = ((line :: lines).flatMap (· ++ [a, b]) ++ [a, b]).length := by
  refine ⟨((line :: lines).flatMap (· ++ [a, b])).length - 2, ?_, ?_⟩
  · rw [List.append_assoc]
    exact find_doubled_lines hab h rest
  · simp only [List.flatMap_cons, List.length_append, List.length_cons, List.length_nil]
    omega

end Lines

end LoadBalancer.Search
