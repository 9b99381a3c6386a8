/-
A tree of entries by their paths, of which one kind, `dir`, may have entries below it.

A directory is made under a directory ([`DirTree.make`]), and so is an entry of any kind
([`DirTree.put`]). [`Adds`] compares two trees: of a given set of paths those without an entry have
become directories, and nothing else is different.
It composes ([`Adds.trans`]), the second tree is determined by it ([`Adds.unique`]), and it is the
same tree if nothing was missing ([`Adds.eq_self`]).

Names and entries are arbitrary; how a path is written is nowhere said.
-/
import Mathlib.Data.Set.Basic

set_option autoImplicit false

namespace LoadBalancer.Tree

universe u v

/-- What is at each path; where something is below, there is a directory. -/
@[ext]
structure DirTree (ν : Type u) (ε : Type v) (dir : ε) where
  entry : List ν → Option ε
  parent : ∀ path name, entry (path ++ [name]) ≠ none → entry path = some dir

variable {ν : Type u} {ε : Type v} {dir : ε}

namespace DirTree

/-- Whatever is above an entry is a directory. -/
theorem entry_of_append (t : DirTree ν ε dir) (path : List ν) {rest : List ν} (hne : rest ≠ [])
    (h : t.entry (path ++ rest) ≠ none) : t.entry path = some dir := by
  induction rest generalizing path with
  | nil => exact absurd rfl hne
  | cons name rest ih =>
      have hpath : path ++ name :: rest = (path ++ [name]) ++ rest := by
        rw [List.append_assoc, List.singleton_append]
      apply t.parent path name
      by_cases hrest : rest = []
      · rwa [hrest] at h
      · rw [ih (path ++ [name]) hrest (hpath ▸ h)]
        exact Option.some_ne_none dir

/-- A directory with everything above it. -/
theorem entry_of_append_dir (t : DirTree ν ε dir) (path rest : List ν)
    (h : t.entry (path ++ rest) = some dir) : t.entry path = some dir := by
  by_cases hne : rest = []
  · rwa [hne, List.append_nil] at h
  · exact t.entry_of_append path hne (by rw [h]; exact Option.some_ne_none dir)

variable [DecidableEq ν]

/-- A directory under a directory. -/
def make (t : DirTree ν ε dir) (path : List ν) (name : ν) (h : t.entry path = some dir) :
    DirTree ν ε dir where
  entry p := if p = path ++ [name] then some dir else t.entry p
  parent := by
    intro p n hne
    by_cases hp : p ++ [n] = path ++ [name]
    · obtain ⟨rfl, -⟩ := List.append_inj' hp rfl
      rw [h, ite_self]
    · rw [if_neg hp] at hne
      rw [t.parent p n hne, ite_self]

/-- Any entry under a directory, where there was none: nothing can be below it. -/
def put (t : DirTree ν ε dir) (path : List ν) (name : ν) (e : ε) (h : t.entry path = some dir)
    (hnew : t.entry (path ++ [name]) = none) : DirTree ν ε dir where
  entry p := if p = path ++ [name] then some e else t.entry p
  parent := by
    intro p n hne
    by_cases hp : p ++ [n] = path ++ [name]
    · obtain ⟨rfl, -⟩ := List.append_inj' hp rfl
      have hother : p ≠ p ++ [name] := by simp
      rw [if_neg hother, h]
    · rw [if_neg hp] at hne
      have hparent := t.parent p n hne
      have hother : p ≠ path ++ [name] := by
        rintro rfl
        rw [hnew] at hparent
        cases hparent
      rw [if_neg hother, hparent]

theorem entry_put_self (t : DirTree ν ε dir) (path : List ν) (name : ν) (e : ε)
    (h : t.entry path = some dir) (hnew : t.entry (path ++ [name]) = none) :
    (t.put path name e h hnew).entry (path ++ [name]) = some e := if_pos rfl

theorem entry_put_of_ne (t : DirTree ν ε dir) (path : List ν) (name : ν) (e : ε)
    (h : t.entry path = some dir) (hnew : t.entry (path ++ [name]) = none) {p : List ν}
    (hp : p ≠ path ++ [name]) : (t.put path name e h hnew).entry p = t.entry p := if_neg hp

end DirTree

/-! ## Adding directories -/

/-- Directories are made at those of the paths where there is nothing, and nothing else changes. -/
structure Adds (s : Set (List ν)) (t t' : DirTree ν ε dir) : Prop where
  added : ∀ p ∈ s, t.entry p = none → t'.entry p = some dir
  kept : ∀ p, (p ∈ s → t.entry p ≠ none) → t'.entry p = t.entry p

namespace Adds

variable {s s' : Set (List ν)} {t t' t'' : DirTree ν ε dir}

theorem refl (h : ∀ p ∈ s, t.entry p ≠ none) : Adds s t t where
  added p hp hnone := absurd hnone (h p hp)
  kept _ _ := rfl

theorem make [DecidableEq ν] {path : List ν} {name : ν} (h : t.entry path = some dir)
    (hnone : t.entry (path ++ [name]) = none) :
    Adds {path ++ [name]} t (t.make path name h) where
  added _ hp _ := if_pos hp
  kept _ hp := if_neg fun heq => hp heq (heq ▸ hnone)

/-- What was there still is. -/
theorem entry_of_some (h : Adds s t t') {p : List ν} {e : ε} (he : t.entry p = some e) :
    t'.entry p = some e := by
  rw [h.kept p fun _ => by rw [he]; exact Option.some_ne_none e, he]

/-- What is there now was there, or is one of the directories. -/
theorem mem_of_none (h : Adds s t t') {p : List ν} (hnone : t.entry p = none)
    (hne : t'.entry p ≠ none) : p ∈ s := by
  by_contra hp
  exact hne ((h.kept p fun hin => absurd hin hp).trans hnone)

/-- At a path that is not in the set nothing has changed. -/
theorem entry_of_not_mem (h : Adds s t t') {p : List ν} (hp : p ∉ s) : t'.entry p = t.entry p :=
  h.kept p fun hin => absurd hin hp

/-- A path of the set at which there was no other entry is a directory. -/
theorem entry_of_mem (h : Adds s t t') {p : List ν} (hp : p ∈ s)
    (hentry : t.entry p = none ∨ t.entry p = some dir) : t'.entry p = some dir := by
  rcases hentry with hnone | hsome
  · exact h.added p hp hnone
  · exact h.entry_of_some hsome

/-- **First some directories, then others.** -/
theorem trans (h : Adds s t t') (h' : Adds s' t' t'') : Adds (s ∪ s') t t'' where
  added p hp hnone := by
    by_cases hs : p ∈ s
    · exact h'.entry_of_some (h.added p hs hnone)
    · rw [← h.entry_of_not_mem hs] at hnone
      exact h'.added p (hp.resolve_left hs) hnone
  kept p hp := by
    have hfirst : t'.entry p = t.entry p := h.kept p fun hs => hp (.inl hs)
    rw [← hfirst]
    exact h'.kept p fun hs => by rw [hfirst]; exact hp (.inr hs)

/-- A set may be larger by paths that are there. -/
theorem mono (h : Adds s t t') (hs : ∀ p ∈ s, p ∈ s') (hmore : ∀ p ∈ s', p ∉ s → t.entry p ≠ none) :
    Adds s' t t' where
  added p hp hnone := by
    by_cases hin : p ∈ s
    · exact h.added p hin hnone
    · exact absurd hnone (hmore p hp hin)
  kept p hp := h.kept p fun hin => hp (hs p hin)

/-- **There is one such tree.** -/
theorem unique (h : Adds s t t') (h' : Adds s t t'') : t' = t'' := by
  ext1
  funext p
  by_cases hp : p ∈ s ∧ t.entry p = none
  · rw [h.added p hp.1 hp.2, h'.added p hp.1 hp.2]
  · have hkept : p ∈ s → t.entry p ≠ none := fun hs hnone => hp ⟨hs, hnone⟩
    rw [h.kept p hkept, h'.kept p hkept]

/-- **With nothing missing, nothing is made.** -/
theorem eq_self (h : Adds s t t') (hs : ∀ p ∈ s, t.entry p ≠ none) : t' = t := h.unique (refl hs)

end Adds

end LoadBalancer.Tree
