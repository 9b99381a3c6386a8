/-
A registry of keys that a log of additions and removals keeps.

The registry is a list: an addition appends its key unless it is there already, a removal
erases it. [`Registers`] says what the list of a log is without replaying it -- which keys,
each once, and in which order -- and [`registers_replay`] is that the replay is that list.

Everything is by induction on the log from its end: what one more event does to "the last
event about `k` adds it" ([`lastAdds_append`]) and to "`k` was last added at `i`"
([`addedAt_append`]).
-/
import Mathlib.Data.List.Basic
import Mathlib.Data.List.Induction
import Mathlib.Data.List.Nodup
import Mathlib.Order.Basic

set_option autoImplicit false

namespace LoadBalancer.Registry

universe u

variable {κ : Type u}

/-! ## The log and its replay -/

inductive Event (κ : Type u)
  | add (k : κ)
  | remove (k : κ)
deriving DecidableEq

/-- The key that an event is about. -/
def Event.key : Event κ → κ
  | .add k => k
  | .remove k => k

/-- What one event does to the registry. -/
def apply [DecidableEq κ] (keys : List κ) : Event κ → List κ
  | .add k => if k ∈ keys then keys else keys ++ [k]
  | .remove k => keys.erase k

/-- The registry after a log. -/
def replay [DecidableEq κ] (log : List (Event κ)) : List κ := log.foldl apply []

theorem replay_append [DecidableEq κ] (log : List (Event κ)) (e : Event κ) :
    replay (log ++ [e]) = apply (replay log) e := by
  simp only [replay, List.foldl_append, List.foldl_cons, List.foldl_nil]

section Apply

variable [DecidableEq κ] {keys : List κ} {k : κ}

theorem apply_add_of_mem (h : k ∈ keys) : apply keys (.add k) = keys := if_pos h

theorem apply_add_of_not_mem (h : k ∉ keys) : apply keys (.add k) = keys ++ [k] := if_neg h

theorem apply_remove_of_not_mem (h : k ∉ keys) : apply keys (.remove k) = keys :=
  List.erase_of_not_mem h

/-- An event leaves every key once. -/
theorem nodup_apply (h : keys.Nodup) (e : Event κ) : (apply keys e).Nodup := by
  cases e with
  | add k =>
      by_cases hk : k ∈ keys
      · rw [apply_add_of_mem hk]
        exact h
      · rw [apply_add_of_not_mem hk, ← List.concat_eq_append]
        exact h.concat hk
  | remove k => exact h.erase k

/-- The keys after an event. -/
theorem mem_apply (h : keys.Nodup) {e : Event κ} :
    k ∈ apply keys e ↔ e = .add k ∨ e.key ≠ k ∧ k ∈ keys := by
  cases e with
  | add k' =>
      by_cases hk' : k' ∈ keys
      · rw [apply_add_of_mem hk']
        by_cases heq : k' = k
        · subst heq
          simp [hk']
        · simp [Event.key, heq]
      · rw [apply_add_of_not_mem hk', List.mem_append, List.mem_singleton]
        by_cases heq : k' = k
        · subst heq
          simp
        · simp [Event.key, heq, Ne.symm heq]
  | remove k' =>
      rw [apply, h.mem_erase_iff]
      simp [Event.key, ne_comm]

/-- A removal by position: the first one that holds the key. -/
theorem apply_remove_of_first {i : ℕ} (hi : i < keys.length) (hk : keys[i] = k)
    (hfirst : ∀ j (hj : j < i), keys[j] ≠ k) : apply keys (.remove k) = keys.eraseIdx i := by
  have hidx : keys.idxOf? k = some i := List.idxOf?_eq_some_iff.mpr ⟨hi, hk, hfirst⟩
  rw [apply, List.erase_eq_eraseIdx, hidx]

end Apply

/-! ## What the log says about a key -/

/-- The last event about `k` adds it. -/
def LastAdds (log : List (Event κ)) (k : κ) : Prop :=
  ∃ before after, log = before ++ .add k :: after ∧ ∀ e ∈ after, e.key ≠ k

/-- `k` was last added at position `i`: it was not there, and nothing removes it afterwards. -/
structure AddedAt (log : List (Event κ)) (k : κ) (i : ℕ) : Prop where
  adds : log[i]? = some (.add k)
  absent : ¬ LastAdds (log.take i) k
  kept : .remove k ∉ log.drop (i + 1)

theorem not_lastAdds_nil (k : κ) : ¬ LastAdds [] k := by
  rintro ⟨before, after, h, -⟩
  simp at h

theorem lastAdds_append {log : List (Event κ)} {e : Event κ} {k : κ} :
    LastAdds (log ++ [e]) k ↔ e = .add k ∨ e.key ≠ k ∧ LastAdds log k := by
  constructor
  · rintro ⟨before, after, h, hafter⟩
    -- what is behind the last addition is empty, or ends with `e`
    induction after using List.reverseRecOn with
    | nil =>
        have := (List.append_inj' h rfl).2
        exact .inl (List.singleton_inj.mp this)
    | append_singleton after last _ =>
        rw [← List.cons_append, ← List.append_assoc] at h
        obtain ⟨hlog, hlast⟩ := List.append_inj' h rfl
        have he : e = last := List.singleton_inj.mp hlast
        rw [List.forall_mem_append] at hafter
        rw [he]
        exact .inr ⟨hafter.2 last (List.mem_singleton_self last), before, after, hlog, hafter.1⟩
  · rintro (he | ⟨he, before, after, h, hafter⟩)
    · rw [he]
      exact ⟨log, [], rfl, fun _ h => absurd h List.not_mem_nil⟩
    · refine ⟨before, after ++ [e], by rw [h, List.append_assoc, List.cons_append], ?_⟩
      rw [List.forall_mem_append, List.forall_mem_singleton]
      exact ⟨hafter, he⟩

theorem addedAt_append {log : List (Event κ)} {e : Event κ} {k : κ} {i : ℕ} :
    AddedAt (log ++ [e]) k i
      ↔ AddedAt log k i ∧ e ≠ .remove k ∨ i = log.length ∧ e = .add k ∧ ¬ LastAdds log k := by
  by_cases hi : i < log.length
  · have hget : (log ++ [e])[i]? = log[i]? := List.getElem?_append_left hi
    have htake : (log ++ [e]).take i = log.take i :=
      List.take_append_of_le_length (Nat.le_of_lt hi)
    have hdrop : (log ++ [e]).drop (i + 1) = log.drop (i + 1) ++ [e] :=
      List.drop_append_of_le_length hi
    constructor
    · intro h
      refine .inl ⟨⟨?_, ?_, ?_⟩, ?_⟩
      · rw [← hget]
        exact h.adds
      · rw [← htake]
        exact h.absent
      · intro hmem
        apply h.kept
        rw [hdrop]
        exact List.mem_append_left _ hmem
      · intro he
        apply h.kept
        rw [hdrop, he]
        exact List.mem_append_right _ (List.mem_singleton_self _)
    · rintro (⟨h, he⟩ | ⟨heq, -⟩)
      · refine ⟨?_, ?_, ?_⟩
        · rw [hget]
          exact h.adds
        · rw [htake]
          exact h.absent
        · rw [hdrop, List.mem_append, List.mem_singleton]
          rintro (hmem | hmem)
          · exact h.kept hmem
          · exact he hmem.symm
      · omega
  · -- position `i` is not in `log`: it is that of `e`, or past it
    constructor
    · intro h
      have hlt : i < (log ++ [e]).length := (List.getElem?_eq_some_iff.mp h.adds).1
      have heq : i = log.length := by
        rw [List.length_append, List.length_singleton] at hlt
        omega
      subst heq
      refine .inr ⟨rfl, ?_, ?_⟩
      · have := h.adds
        rwa [List.getElem?_concat_length, Option.some.injEq] at this
      · have := h.absent
        rwa [List.take_left] at this
    · rintro (⟨h, -⟩ | ⟨rfl, rfl, habsent⟩)
      · exact absurd (List.getElem?_eq_some_iff.mp h.adds).1 hi
      · refine ⟨List.getElem?_concat_length, ?_, ?_⟩
        · rwa [List.take_left]
        · rw [List.drop_of_length_le (by simp)]
          exact List.not_mem_nil

theorem AddedAt.lastAdds {log : List (Event κ)} {k : κ} {i : ℕ} (h : AddedAt log k i) :
    LastAdds log k := by
  induction log using List.reverseRecOn with
  | nil => exact absurd h.adds (by simp)
  | append_singleton log e ih =>
      rw [lastAdds_append]
      rcases addedAt_append.mp h with ⟨hlog, he⟩ | ⟨-, he, -⟩
      · by_cases hkey : e.key = k
        · -- about `k` and no removal
          cases e with
          | add k' => exact .inl (congrArg _ hkey)
          | remove k' => exact absurd (congrArg _ hkey) he
        · exact .inr ⟨hkey, ih hlog⟩
      · exact .inl he

/-- A key whose last event adds it was last added somewhere. -/
theorem LastAdds.exists_addedAt {log : List (Event κ)} {k : κ} (h : LastAdds log k) :
    ∃ i, AddedAt log k i := by
  induction log using List.reverseRecOn with
  | nil => exact absurd h (not_lastAdds_nil k)
  | append_singleton log e ih =>
      by_cases hlog : LastAdds log k
      · obtain ⟨i, hi⟩ := ih hlog
        refine ⟨i, addedAt_append.mpr (.inl ⟨hi, ?_⟩)⟩
        rintro rfl
        rcases lastAdds_append.mp h with he | ⟨hkey, -⟩
        · cases he
        · exact hkey rfl
      · rcases lastAdds_append.mp h with he | ⟨-, h'⟩
        · exact ⟨log.length, addedAt_append.mpr (.inr ⟨rfl, he, hlog⟩)⟩
        · exact absurd h' hlog

/-! ## What the replay is -/

/-- `keys` is what `log` leaves: the keys whose last event adds them, each once, in the order
in which they were last added. -/
structure Registers (log : List (Event κ)) (keys : List κ) : Prop where
  mem_iff : ∀ k, k ∈ keys ↔ LastAdds log k
  nodup : keys.Nodup
  added : ∀ k ∈ keys, ∃ i, AddedAt log k i
  order : keys.Pairwise fun k k' => ∀ i i', AddedAt log k i → AddedAt log k' i' → i < i'

/-- What is in the registry was added before the next event. -/
theorem Registers.addedAt_of_append {log : List (Event κ)} {keys : List κ} {e : Event κ} {k : κ}
    {i : ℕ} (h : Registers log keys) (hk : k ∈ keys) (hi : AddedAt (log ++ [e]) k i) :
    AddedAt log k i := by
  rcases addedAt_append.mp hi with ⟨hlog, -⟩ | ⟨-, -, habsent⟩
  · exact hlog
  · exact absurd ((h.mem_iff k).mp hk) habsent

/-- The next event changes nothing in the order of what is in the registry. -/
theorem Registers.order_append {log : List (Event κ)} {keys : List κ} (h : Registers log keys)
    (e : Event κ) :
    keys.Pairwise fun k k' =>
      ∀ i i', AddedAt (log ++ [e]) k i → AddedAt (log ++ [e]) k' i' → i < i' := by
  apply h.order.imp_of_mem
  intro k k' hk hk' hlt i i' hi hi'
  exact hlt i i' (h.addedAt_of_append hk hi) (h.addedAt_of_append hk' hi')

variable [DecidableEq κ]

/-- What one more event keeps. -/
theorem Registers.apply {log : List (Event κ)} {keys : List κ} (h : Registers log keys)
    (e : Event κ) : Registers (log ++ [e]) (apply keys e) := by
  have hmem : ∀ k, k ∈ Registry.apply keys e ↔ LastAdds (log ++ [e]) k := by
    intro k
    rw [mem_apply h.nodup, lastAdds_append, h.mem_iff]
  refine ⟨hmem, nodup_apply h.nodup e, ?_, ?_⟩
  · intro k hk
    exact ((hmem k).mp hk).exists_addedAt
  · cases e with
    | add k =>
        by_cases hk : k ∈ keys
        · rw [apply_add_of_mem hk]
          exact h.order_append _
        · -- a new key goes to the end of the list, and is the last one that the log adds
          rw [apply_add_of_not_mem hk, List.pairwise_append]
          refine ⟨h.order_append _, List.pairwise_singleton _ _, ?_⟩
          intro k₁ h₁ k₂ h₂ i i' hi hi'
          have hlt : i < log.length :=
            (List.getElem?_eq_some_iff.mp (h.addedAt_of_append h₁ hi).adds).1
          rw [List.mem_singleton.mp h₂] at hi'
          rcases addedAt_append.mp hi' with ⟨hlog, -⟩ | ⟨heq, -⟩
          · exact absurd ((h.mem_iff k).mpr hlog.lastAdds) hk
          · rw [heq]
            exact hlt
    | remove k => exact (h.order_append _).sublist List.erase_sublist

/-- **The replay of a log** is the list that the log describes. -/
theorem registers_replay (log : List (Event κ)) : Registers log (replay log) := by
  induction log using List.reverseRecOn with
  | nil =>
      refine ⟨?_, List.nodup_nil, ?_, List.Pairwise.nil⟩
      · intro k
        simp [replay, not_lastAdds_nil]
      · intro k hk
        exact absurd hk List.not_mem_nil
  | append_singleton log e ih =>
      rw [replay_append]
      exact ih.apply e

end LoadBalancer.Registry
