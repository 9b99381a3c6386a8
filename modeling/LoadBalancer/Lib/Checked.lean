/-
Programs that check an access before they make it.

A program is a value of `Except ε`: its result, or the first access that is not allowed.
[`Safe`] says that there is no such access. The rules follow the program: a check in front of the
rest asks for its condition ([`check_bind_eq_ok_iff`]), and a step with a result hands it on
([`safe_bind_iff`]).
-/
import Mathlib.Tactic.SplitIfs

set_option autoImplicit false

namespace LoadBalancer.Checked

universe u

variable {ε : Type u} {α β : Type}

/-- The access `e`, which is allowed when `ok`. -/
def check (ok : Prop) [Decidable ok] (e : ε) : Except ε Unit := if ok then .ok () else .error e

/-- Every access of the program is allowed. -/
def Safe (prog : Except ε α) : Prop := ∃ a, prog = .ok a

theorem bind_eq_ok_iff {prog : Except ε α} {rest : α → Except ε β} {b : β} :
    prog >>= rest = .ok b ↔ ∃ a, prog = .ok a ∧ rest a = .ok b := by
  cases prog with
  | error e =>
      constructor
      · intro h
        cases h
      · rintro ⟨a, h, -⟩
        cases h
  | ok a =>
      constructor
      · exact fun h => ⟨a, rfl, h⟩
      · rintro ⟨a', h, hrest⟩
        cases h
        exact hrest

/-- A program that fails, or the rest of one that does not. -/
theorem bind_eq_error_iff {prog : Except ε α} {rest : α → Except ε β} {e : ε} :
    prog >>= rest = .error e ↔ prog = .error e ∨ ∃ a, prog = .ok a ∧ rest a = .error e := by
  cases prog with
  | error e' =>
      constructor
      · intro h
        cases h
        exact .inl rfl
      · rintro (h | ⟨a, h, -⟩)
        · cases h
          rfl
        · cases h
  | ok a =>
      constructor
      · exact fun h => .inr ⟨a, rfl, h⟩
      · rintro (h | ⟨a', h, hrest⟩)
        · cases h
        · cases h
          exact hrest

/-- **A program and the rest of it.** -/
theorem safe_bind_iff {prog : Except ε α} {rest : α → Except ε β} :
    Safe (prog >>= rest) ↔ ∃ a, prog = .ok a ∧ Safe (rest a) := by
  constructor
  · rintro ⟨b, hb⟩
    obtain ⟨a, ha, hrest⟩ := bind_eq_ok_iff.mp hb
    exact ⟨a, ha, b, hrest⟩
  · rintro ⟨a, ha, b, hrest⟩
    exact ⟨b, bind_eq_ok_iff.mpr ⟨a, ha, hrest⟩⟩

theorem check_eq_ok_iff {ok : Prop} [Decidable ok] {e : ε} {u : Unit} :
    check ok e = .ok u ↔ ok := by
  unfold check
  split_ifs with h
  · exact ⟨fun _ => h, fun _ => rfl⟩
  · constructor
    · intro heq
      cases heq
    · exact fun hok => absurd hok h

/-- **A check in front of a program.** -/
theorem check_bind_eq_ok_iff {ok : Prop} [Decidable ok] {e : ε} {rest : Unit → Except ε β} {b : β} :
    check ok e >>= rest = .ok b ↔ ok ∧ rest () = .ok b := by
  rw [bind_eq_ok_iff]
  constructor
  · rintro ⟨u, hu, hrest⟩
    exact ⟨check_eq_ok_iff.mp hu, hrest⟩
  · rintro ⟨hok, hrest⟩
    exact ⟨(), check_eq_ok_iff.mpr hok, hrest⟩

end LoadBalancer.Checked
