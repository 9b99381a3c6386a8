/-
Walking a path: a name goes down, `..` goes up, and the root is its own parent.

[`resolve`] walks from a directory, [`net`] sums a path up without one: how many levels it
climbs above where it starts, and the names it then goes down. The two agree
([`resolve_eq_net`]), so where a path ends, from any directory, is read off its net climb
and its names ([`prefix_resolve_iff`]).

Directories and names are lists over an arbitrary type; nothing here knows how a path is
written.
-/
import Mathlib.Data.List.Basic
import Mathlib.Data.List.Infix
import Mathlib.Data.List.Induction

set_option autoImplicit false

namespace LoadBalancer.Path

universe u

/-- A component of a path. -/
inductive Move (ν : Type u)
  /-- `.`, or nothing between two separators. -/
  | stay
  /-- `..`. -/
  | up
  | name (n : ν)
deriving DecidableEq

variable {ν : Type u}

/-! ## Walking from a directory -/

/-- One component, from the directory `dir`. -/
def enter (dir : List ν) : Move ν → List ν
  | .stay => dir
  | .up => dir.dropLast
  | .name n => dir ++ [n]

/-- The directory or file that a path leads to from `start`. -/
def resolve (start : List ν) (parts : List (Move ν)) : List ν := parts.foldl enter start

/-! ## Walking from nowhere -/

/-- How far up a path goes from where it starts, and the names it goes down from there. -/
structure Net (ν : Type u) where
  climb : ℕ
  names : List ν

/-- One component more: `..` takes back a name, or climbs when there is none. -/
def Net.enter (net : Net ν) : Move ν → Net ν
  | .stay => net
  | .up => if net.names.isEmpty then ⟨net.climb + 1, []⟩ else ⟨net.climb, net.names.dropLast⟩
  | .name n => ⟨net.climb, net.names ++ [n]⟩

/-- The net effect of a path. -/
def net (parts : List (Move ν)) : Net ν := parts.foldl Net.enter ⟨0, []⟩

theorem net_concat (parts : List (Move ν)) (p : Move ν) :
    net (parts ++ [p]) = (net parts).enter p := by
  rw [net, List.foldl_append]
  rfl

/-- **Where a path ends**: as many levels of `start` as it does not climb, and its names. -/
theorem resolve_eq_net (start : List ν) (parts : List (Move ν)) :
    resolve start parts
      = start.take (start.length - (net parts).climb) ++ (net parts).names := by
  induction parts using List.reverseRecOn with
  | nil => simp [resolve, net]
  | append_singleton parts p ih =>
      have hstep : resolve start (parts ++ [p]) = enter (resolve start parts) p := by
        rw [resolve, List.foldl_append]
        rfl
      rw [hstep, ih, net_concat]
      cases p with
      | stay => rfl
      | name n => simp only [enter, Net.enter, List.append_assoc]
      | up =>
          simp only [enter, Net.enter]
          split_ifs with hempty
          · -- nothing to take back: one level of `start` less
            rw [List.isEmpty_iff] at hempty
            rw [hempty, List.append_nil, List.append_nil, List.dropLast_eq_take, List.take_take,
              List.length_take]
            congr 1
            dsimp only
            omega
          -- the last name is taken back, and `start` is not touched
          · rw [List.isEmpty_iff] at hempty
            exact List.dropLast_append_of_ne_nil hempty

/-- **When a path leads below `start ++ below`**: the names it goes down begin with the levels
of `start` that it climbed, and `below`. -/
theorem prefix_resolve_iff (start below : List ν) (parts : List (Move ν)) :
    start ++ below <+: resolve start parts
      ↔ start.drop (start.length - (net parts).climb) ++ below <+: (net parts).names := by
  have hsplit : start ++ below = start.take (start.length - (net parts).climb)
      ++ (start.drop (start.length - (net parts).climb) ++ below) := by
    rw [← List.append_assoc, List.take_append_drop]
  rw [resolve_eq_net, hsplit]
  exact List.prefix_append_right_inj _

/-- A path without `..` climbs nowhere and keeps all its names, in order. -/
theorem net_of_forall_ne_up {parts : List (Move ν)} (h : ∀ p ∈ parts, p ≠ .up) :
    net parts = ⟨0, parts.filterMap fun
      | .name n => some n
      | _ => none⟩ := by
  induction parts using List.reverseRecOn with
  | nil => rfl
  | append_singleton parts p ih =>
      rw [net_concat, ih fun q hq => h q (by simp [hq]), List.filterMap_append]
      cases p with
      | stay => simp [Net.enter]
      | up => exact absurd rfl (h .up (by simp))
      | name n => rfl

/-- A name in front is there at the end, unless the rest climbs: then its first step up takes the
name back, and the rest climbs one level less. -/
theorem net_cons_name (n : ν) (parts : List (Move ν)) :
    net (.name n :: parts)
      = if (net parts).climb = 0 then ⟨0, n :: (net parts).names⟩
        else ⟨(net parts).climb - 1, (net parts).names⟩ := by
  induction parts using List.reverseRecOn with
  | nil => rfl
  | append_singleton parts p ih =>
      rw [← List.cons_append, net_concat, net_concat, ih]
      obtain ⟨climb, names⟩ := net parts
      cases p with
      | stay => rfl
      | name m =>
          by_cases hclimb : climb = 0
          · subst hclimb
            rfl
          · simp only [Net.enter, hclimb, if_false]
      | up =>
          cases names with
          | nil =>
              -- the step up takes `n` back, or climbs as it does without `n`
              by_cases hclimb : climb = 0
              · subst hclimb
                rfl
              · simp only [Net.enter, hclimb, if_false, List.isEmpty_nil, if_true,
                  Nat.add_one_ne_zero, Net.mk.injEq, and_true]
                omega
          | cons m names =>
              by_cases hclimb : climb = 0
              · subst hclimb
                rfl
              · simp [Net.enter, hclimb]

/-- A step that stays changes nothing. -/
theorem net_concat_stay (parts : List (Move ν)) : net (parts ++ [.stay]) = net parts :=
  net_concat parts .stay

/-- **What is below a directory is reached through one that is below it**: only a last component
with the name of the directory itself gets there from outside. -/
theorem prefix_names_of_concat {below : List ν} {last : ν} {parts : List (Move ν)} {p : Move ν}
    (hp : p ≠ .name last) (h : below ++ [last] <+: (net (parts ++ [p])).names) :
    (net (parts ++ [p])).climb = (net parts).climb ∧ below ++ [last] <+: (net parts).names := by
  rw [net_concat] at h ⊢
  generalize net parts = sum at h ⊢
  cases p with
  | stay => exact ⟨rfl, h⟩
  | name m =>
      refine ⟨rfl, (List.prefix_concat_iff.mp h).resolve_left fun heq => hp ?_⟩
      have hlast : [last] = [m] := (List.append_inj' heq rfl).2
      rw [List.singleton_inj.mp hlast]
  | up =>
      dsimp only [Net.enter] at h ⊢
      split_ifs at h ⊢ with hempty
      · exact absurd (List.prefix_nil.mp h) (List.concat_ne_nil _ _)
      · exact ⟨rfl, h.trans (List.dropLast_prefix _)⟩

end LoadBalancer.Path
