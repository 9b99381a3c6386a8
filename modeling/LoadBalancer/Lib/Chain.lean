/-
Chains of cells in a heap.

A heap gives what is in use at each address, and a cell says where the next one is. A [`Segment`]
is the cells on the way from one pointer to another; one that ends in the null pointer is a chain,
and the pointer to its first cell determines it ([`Segment.unique`]), so that no address is on it
twice ([`Segment.nodup`]). Writing to an address that is not on the way leaves a segment as it is
([`Segment.frame`]), and a segment may be cut at any of its cells ([`segment_append`]).
-/
import Mathlib.Data.List.Basic
import Mathlib.Data.List.Nodup
import Mathlib.Logic.Function.Basic

set_option autoImplicit false

namespace LoadBalancer.Chain

universe u v

variable {A : Type u} {ν : Type v} {next : ν → Option A}

/-- From `p` to `q` through `cells`: their addresses, and what is there. -/
def Segment (next : ν → Option A) (heap : A → Option ν) : Option A → List (A × ν) → Option A → Prop
  | p, [], q => p = q
  | p, (a, n) :: cells, q => p = some a ∧ heap a = some n ∧ Segment next heap (next n) cells q

variable {heap heap' : A → Option ν} {p q : Option A} {cells cells' : List (A × ν)} {a : A} {n : ν}

theorem segment_nil : Segment next heap p [] q ↔ p = q := Iff.rfl

theorem segment_cons :
    Segment next heap p ((a, n) :: cells) q
      ↔ p = some a ∧ heap a = some n ∧ Segment next heap (next n) cells q := Iff.rfl

/-- Segments are put together where one ends and the other begins. -/
theorem segment_append :
    Segment next heap p (cells ++ cells') q
      ↔ ∃ m, Segment next heap p cells m ∧ Segment next heap m cells' q := by
  induction cells generalizing p with
  | nil => exact ⟨fun h => ⟨p, rfl, h⟩, fun ⟨m, hm, h⟩ => by rwa [segment_nil.mp hm]⟩
  | cons cell cells ih =>
      obtain ⟨b, k⟩ := cell
      rw [List.cons_append, segment_cons, ih]
      constructor
      · rintro ⟨hp, hb, m, hfirst, hrest⟩
        exact ⟨m, ⟨hp, hb, hfirst⟩, hrest⟩
      · rintro ⟨m, ⟨hp, hb, hfirst⟩, hrest⟩
        exact ⟨hp, hb, m, hfirst, hrest⟩

/-- A segment and one more cell. -/
theorem segment_concat :
    Segment next heap p (cells ++ [(a, n)]) q
      ↔ Segment next heap p cells (some a) ∧ heap a = some n ∧ next n = q := by
  rw [segment_append]
  constructor
  · rintro ⟨m, hfirst, rfl, ha, hq⟩
    exact ⟨hfirst, ha, hq⟩
  · rintro ⟨hfirst, ha, hq⟩
    exact ⟨some a, hfirst, rfl, ha, hq⟩

/-- What is on the way is in use. -/
theorem Segment.get (h : Segment next heap p cells q) {cell : A × ν} (hcell : cell ∈ cells) :
    heap cell.1 = some cell.2 := by
  induction cells generalizing p with
  | nil => exact absurd hcell List.not_mem_nil
  | cons first cells ih =>
      obtain ⟨-, hfirst, hrest⟩ := h
      rcases List.mem_cons.mp hcell with rfl | hmem
      · exact hfirst
      · exact ih hrest hmem

/-- **The frame rule.** A segment is there in every heap that has its cells. -/
theorem Segment.frame (h : Segment next heap p cells q)
    (hsame : ∀ cell ∈ cells, heap' cell.1 = heap cell.1) : Segment next heap' p cells q := by
  induction cells generalizing p with
  | nil => exact h
  | cons first cells ih =>
      obtain ⟨hp, hfirst, hrest⟩ := h
      exact ⟨hp, (hsame first List.mem_cons_self).trans hfirst,
        ih hrest fun cell hcell => hsame cell (List.mem_cons_of_mem _ hcell)⟩

/-! ## Chains -/

/-- **A chain is determined by its first cell.** -/
theorem Segment.unique (h : Segment next heap p cells none) (h' : Segment next heap p cells' none) :
    cells = cells' := by
  induction cells generalizing p cells' with
  | nil =>
      cases cells' with
      | nil => rfl
      | cons cell cells' => cases (segment_nil.mp h).symm.trans h'.1
  | cons cell cells ih =>
      obtain ⟨a, n⟩ := cell
      obtain ⟨rfl, ha, hrest⟩ := h
      cases cells' with
      | nil => cases h'
      | cons cell' cells' =>
          obtain ⟨b, k⟩ := cell'
          obtain ⟨hb, hk, hrest'⟩ := h'
          cases hb
          rw [ha] at hk
          cases hk
          rw [ih hrest hrest']

/-- No cell is on a chain twice: behind both of its places there would be the same chain. -/
theorem Segment.nodup (h : Segment next heap p cells none) : (cells.map Prod.fst).Nodup := by
  induction cells generalizing p with
  | nil => exact List.nodup_nil
  | cons cell cells ih =>
      obtain ⟨a, n⟩ := cell
      rw [List.map_cons, List.nodup_cons]
      refine ⟨fun hmem => ?_, ih h.2.2⟩
      obtain ⟨cell', hcell', heq⟩ := List.mem_map.mp hmem
      obtain ⟨before, behind, rfl⟩ := List.append_of_mem hcell'
      obtain ⟨hp, ha, hrest⟩ := h
      obtain ⟨m, -, htail⟩ := segment_append.mp hrest
      obtain ⟨b, k⟩ := cell'
      change b = a at heq
      subst heq
      have hwhole : Segment next heap (some b) ((b, n) :: (before ++ (b, k) :: behind)) none :=
        ⟨rfl, ha, hrest⟩
      have htail' : Segment next heap (some b) ((b, k) :: behind) none := ⟨rfl, htail.2⟩
      have hlength := congrArg List.length (hwhole.unique htail')
      simp only [List.length_cons, List.length_append] at hlength
      omega

/-- The first cell. -/
theorem Segment.head? (h : Segment next heap p cells none) : p = cells.head?.map Prod.fst := by
  cases cells with
  | nil => exact h
  | cons cell cells => exact h.1

variable [DecidableEq A]

/-- Writing where the way does not go. -/
theorem Segment.update (h : Segment next heap p cells q) (ha : a ∉ cells.map Prod.fst)
    (x : Option ν) : Segment next (Function.update heap a x) p cells q := by
  refine h.frame fun cell hcell => Function.update_of_ne ?_ ..
  rintro rfl
  exact ha (List.mem_map_of_mem hcell)

/-- **A cell is inserted** behind one of a chain, at an address that is not in use. -/
theorem Segment.insert {e : A} {m c : ν}
    (h : Segment next heap p (cells ++ (a, n) :: cells') none) (he : heap e = none)
    (hm : next m = some e) (hc : next c = next n) :
    Segment next (Function.update (Function.update heap e (some c)) a (some m)) p
      (cells ++ (a, m) :: (e, c) :: cells') none := by
  have hnodup := h.nodup
  have hfree : ∀ cell ∈ cells ++ (a, n) :: cells', cell.1 ≠ e := by
    rintro cell hcell rfl
    rw [h.get hcell] at he
    cases he
  rw [List.map_append, List.map_cons, List.nodup_middle, List.nodup_cons, List.mem_append,
    not_or] at hnodup
  obtain ⟨hbefore, hbehind⟩ := hnodup.1
  have hsplit := segment_append.mp h
  obtain ⟨_, hfirst, rfl, -, hrest⟩ := hsplit
  have hne : e ≠ a := (hfree (a, n) (List.mem_append_right _ List.mem_cons_self)).symm
  -- the new cell is on neither side
  have hoff {row : List (A × ν)} (hrow : ∀ cell ∈ row, cell ∈ cells ++ (a, n) :: cells') :
      e ∉ row.map Prod.fst := by
    intro hmem
    obtain ⟨cell, hcell, heq⟩ := List.mem_map.mp hmem
    exact hfree cell (hrow cell hcell) heq
  refine segment_append.mpr ⟨some a, (hfirst.update (hoff fun cell hcell =>
    List.mem_append_left _ hcell) _).update hbefore _, rfl, Function.update_self .., hm, ?_, ?_⟩
  · rw [Function.update_of_ne hne, Function.update_self]
  · rw [hc]
    exact (hrest.update (hoff fun cell hcell =>
      List.mem_append_right _ (List.mem_cons_of_mem _ hcell)) _).update hbehind _

end LoadBalancer.Chain
