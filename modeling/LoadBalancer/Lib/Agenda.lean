/-
Agendas: what is to happen, with its time, in the order of time.

[`insert`] puts an entry behind those of the same time. Taking the first entry out and putting it
back therefore turns the entries of the earliest time by one place ([`insert_turns`]). [`due`]
counts the entries whose time has come; inserting a later one does not change it.
-/
import Mathlib.Data.List.Count
import Mathlib.Data.List.Rotate
import Mathlib.Data.List.Sort

set_option autoImplicit false

namespace LoadBalancer.Agenda

universe u v

variable {τ : Type u} {ε : Type v} [LinearOrder τ]

/-- With the entry put in front of the first later one. -/
abbrev insert (t : τ) (e : ε) (q : List (τ × ε)) : List (τ × ε) :=
  q.orderedInsert (fun x y => x.1 < y.1) (t, e)

/-- In the order of time. -/
def Ordered (q : List (τ × ε)) : Prop := q.Pairwise fun x y => x.1 ≤ y.1

/-- How many entries have come. -/
def due (now : τ) (q : List (τ × ε)) : ℕ := q.countP fun x => decide (x.1 ≤ now)

variable {t now : τ} {e : ε} {q : List (τ × ε)} {x : τ × ε}

theorem insert_perm (t : τ) (e : ε) (q : List (τ × ε)) : (insert t e q).Perm ((t, e) :: q) :=
  List.perm_orderedInsert _ _ _

theorem mem_insert : x ∈ insert t e q ↔ x = (t, e) ∨ x ∈ q :=
  (insert_perm t e q).mem_iff.trans List.mem_cons

/-- **Inserting keeps the order.** -/
theorem Ordered.insert (h : Ordered q) (t : τ) (e : ε) : Ordered (insert t e q) := by
  induction q with
  | nil => exact List.pairwise_singleton _ _
  | cons y q ih =>
      obtain ⟨hhead, htail⟩ := List.pairwise_cons.mp h
      rw [Agenda.insert, List.orderedInsert_cons]
      by_cases hlt : t < y.1
      · rw [if_pos hlt]
        refine List.pairwise_cons.mpr ⟨fun z hz => ?_, h⟩
        rcases List.mem_cons.mp hz with rfl | hmem
        · exact hlt.le
        · exact hlt.le.trans (hhead z hmem)
      · rw [if_neg hlt]
        refine List.pairwise_cons.mpr ⟨fun z hz => ?_, ih htail⟩
        rcases mem_insert.mp hz with rfl | hmem
        · exact not_lt.mp hlt
        · exact hhead z hmem

/-- The first entry is the earliest. -/
theorem Ordered.head_le (h : Ordered (x :: q)) : ∀ y ∈ q, x.1 ≤ y.1 := (List.pairwise_cons.mp h).1

theorem Ordered.tail (h : Ordered (x :: q)) : Ordered q := (List.pairwise_cons.mp h).2

theorem due_insert (h : now < t) (e : ε) (q : List (τ × ε)) :
    due now (insert t e q) = due now q := by
  rw [due, (insert_perm t e q).countP_eq, List.countP_cons_of_neg (by simpa using h)]
  rfl

theorem due_cons_of_le (h : x.1 ≤ now) (q : List (τ × ε)) : due now (x :: q) = due now q + 1 :=
  List.countP_cons_of_pos (by simpa using h)

theorem due_le_length (now : τ) (q : List (τ × ε)) : due now q ≤ q.length := List.countP_le_length

/-- **An entry that is put back** goes behind those of its time. -/
theorem insert_turns {same later : List (τ × ε)} (hsame : ∀ y ∈ same, y.1 = t)
    (hlater : ∀ y ∈ later, t < y.1) :
    insert t e (same ++ later) = same ++ (t, e) :: later := by
  induction same with
  | nil =>
      cases later with
      | nil => rfl
      | cons y later =>
          rw [List.nil_append, insert, List.orderedInsert_cons,
            if_pos (hlater y List.mem_cons_self), List.nil_append]
  | cons y same ih =>
      have hy : ¬ t < y.1 := by
        rw [hsame y List.mem_cons_self]
        exact lt_irrefl t
      rw [List.cons_append, insert, List.orderedInsert_cons, if_neg hy, List.cons_append]
      exact congrArg (y :: ·) (ih fun z hz => hsame z (List.mem_cons_of_mem _ hz))

end LoadBalancer.Agenda
