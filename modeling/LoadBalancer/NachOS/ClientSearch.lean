/-
What the client's `find` reads.

Here the splitter is in the memory of the program too, as the text is, and every character that is
read is written down: through which parameter, and which one of it. The two counters are indices of
characters that are read, and there are `MemorySize` of those, so no `int` overflows.

The NUL of the text is read, and ends the inner loop, because the splitter has no NUL before its
end; the character behind it is not ([`Sees.traced_find`]). Apart from the reads, `len` is the one of
`ClientStrings.lean` ([`Client.Traced.len_machine`]), and `find` returns what the one with constant
splitters does ([`Sees.traced_find_eq`]).
-/
import LoadBalancer.NachOS.ClientStrings

set_option autoImplicit false

namespace LoadBalancer.NachOS

open LoadBalancer.Memory LoadBalancer.Search

namespace Client

/-! ## The functions -/

/-- The parameters of `find` that point to characters. -/
inductive Param
  | str
  | splitter
deriving DecidableEq, Repr

/-- The machine, and what was read so far. -/
structure Traced where
  machine : Machine
  reads : List (Param × ℤ)

namespace Traced

/-- `param[index]`, for a parameter that points to `addr`. -/
def charAt (param : Param) (addr index : ℤ) (t : Traced) : Option (Byte × Traced) :=
  (t.machine.charAt (addr + index)).map fun (c, machine) =>
    (c, { machine := machine, reads := t.reads ++ [(param, index)] })

/-- The loop of `len`. -/
def len.loop (param : Param) (addr : ℤ) : ℕ → ℤ → Traced → Option (ℤ × Traced)
  | 0, _, _ => none
  | turns + 1, counter, t =>
      (t.charAt param addr counter).bind fun (c, t) =>
        if c ≠ 0 then len.loop param addr turns (counter + 1) t else some (counter, t)

/-- `len`, of one of the parameters of `find`. -/
def len (param : Param) (addr : ℤ) (t : Traced) : Option (ℤ × Traced) :=
  len.loop param addr MemorySize 0 t

/-- The inner loop of `find`: it ends with `true` where the function returns. Both characters are
read before the bound is tested. -/
def find.inner (str splitter str_size splitter_size i : ℤ) :
    ℕ → ℤ → Traced → Option (Bool × Traced)
  | 0, _, _ => none
  | turns + 1, j, t =>
      (t.charAt .str str (i + j)).bind fun (b, t) =>
        (t.charAt .splitter splitter j).bind fun (c, t) =>
          if b = c ∧ i + j < str_size then
            if j + 1 = splitter_size then some (true, t)
            else find.inner str splitter str_size splitter_size i turns (j + 1) t
          else some (false, t)

/-- The outer loop of `find`. -/
def find.outer (str splitter str_size splitter_size limit : ℤ) :
    ℕ → ℤ → Traced → Option (ℤ × Traced)
  | 0, _, _ => none
  | turns + 1, i, t =>
      if i < limit ∧ i < str_size then
        (find.inner str splitter str_size splitter_size i MemorySize 0 t).bind fun (found, t) =>
          if found then some (i, t)
          else find.outer str splitter str_size splitter_size limit turns (i + 1) t
      else some (-1, t)

/-- `find`. -/
def find (str splitter limit : ℤ) (m : Machine) : Option (ℤ × Traced) :=
  (len .str str { machine := m, reads := [] }).bind fun (str_size, t) =>
    (len .splitter splitter t).bind fun (splitter_size, t) =>
      find.outer str splitter str_size splitter_size limit MemorySize 0 t

/-- Without the reads, this is the `len` of `ClientStrings.lean`, on every machine. -/
theorem len_loop_machine (param : Param) (addr : ℤ) (turns : ℕ) (counter : ℤ) (t : Traced) :
    (len.loop param addr turns counter t).map (fun r => (r.1, r.2.machine))
      = Client.len.loop addr turns counter t.machine := by
  induction turns generalizing counter t with
  | zero => rfl
  | succ turns ih =>
      rw [len.loop, Client.len.loop, Traced.charAt, Option.bind_map, Option.map_bind]
      refine Option.bind_congr fun r _ => ?_
      obtain ⟨c, machine⟩ := r
      dsimp only [Function.comp_apply]
      split_ifs
      · exact ih _ _
      · rfl

theorem len_machine (param : Param) (addr : ℤ) (t : Traced) :
    (len param addr t).map (fun r => (r.1, r.2.machine)) = Client.len addr t.machine :=
  len_loop_machine param addr MemorySize 0 t

end Traced

/-- The NUL of a text of `k` characters and of a splitter of `l`. -/
def Param.nul (k l : ℕ) : Param → ℕ
  | .str => k
  | .splitter => l

/-- A program that sees its memory, and read nothing behind the NULs. -/
structure Traced.Inside (t : Traced) (n : ℕ) (mem : ℕ → Byte) (nul : Param → ℕ) : Prop where
  sees : Sees t.machine n mem
  reads : ∀ r ∈ t.reads, 0 ≤ r.2 ∧ r.2 ≤ nul r.1

namespace Traced.Inside

variable {t : Traced} {n : ℕ} {mem : ℕ → Byte} {nul : Param → ℕ}

/-- A character of a text, or its NUL. -/
theorem charAt (h : t.Inside n mem nul) (param : Param) {a x : ℕ}
    (ht : TextAt n mem a (nul param)) (hx : x ≤ nul param) :
    ∃ t', t.charAt param a x = some (mem (a + x), t') ∧ t'.Inside n mem nul := by
  obtain ⟨m', hread, hm'⟩ := h.sees.charAt (v := a + x) (by have := ht.inside; omega)
  rw [Int.natCast_add] at hread
  refine ⟨⟨m', t.reads ++ [(param, (x : ℤ))]⟩, ?_, hm', fun r hr => ?_⟩
  · rw [Traced.charAt, hread, Option.map_some]
  · rcases List.mem_append.mp hr with hr | hr
    · exact h.reads r hr
    · rw [List.mem_singleton.mp hr]
      exact ⟨Int.natCast_nonneg x, Int.ofNat_le.mpr hx⟩

theorem len_loop (h : t.Inside n mem nul) (param : Param) {a : ℕ}
    (ht : TextAt n mem a (nul param)) {counter turns : ℕ} (hcounter : counter ≤ nul param)
    (hturns : nul param < counter + turns) :
    ∃ t', len.loop param a turns counter t = some ((nul param : ℤ), t') ∧ t'.Inside n mem nul := by
  induction turns generalizing t counter with
  | zero => omega
  | succ turns ih =>
      obtain ⟨t₁, hread, h₁⟩ := h.charAt param ht hcounter
      rw [len.loop, hread, Option.bind_some]
      dsimp only
      rcases Nat.lt_or_eq_of_le hcounter with hlt | hend
      · rw [if_pos (ht.before counter hlt), ← Int.natCast_succ]
        exact ih h₁ (by omega) (by omega)
      · rw [hend, if_neg (not_not_intro ht.ends)]
        exact ⟨t₁, rfl, h₁⟩

/-- `len` measures a text, and reads its NUL last. -/
theorem len (h : t.Inside n mem nul) (param : Param) {a : ℕ} (ht : TextAt n mem a (nul param)) :
    ∃ t', Traced.len param a t = some ((nul param : ℤ), t') ∧ t'.Inside n mem nul := by
  have hsize := h.sees.size_le
  have hk := ht.inside
  exact h.len_loop param ht (Nat.zero_le _) (by omega)

variable {a b k l : ℕ}

/-- The inner loop compares what is left of the splitter with what is left of the text. -/
theorem find_inner (h : t.Inside n mem (Param.nul k l)) (hstr : TextAt n mem a k)
    (hsplitter : TextAt n mem b l) {i j turns : ℕ} (hi : i + j ≤ k) (hj : j < l)
    (hturns : l ≤ j + turns) :
    ∃ t', find.inner a b k l i turns j t
        = some (decide ((load mem b l).drop j <+: (load mem a k).drop (i + j)), t')
      ∧ t'.Inside n mem (Param.nul k l) := by
  induction turns generalizing t j with
  | zero => omega
  | succ turns ih =>
      obtain ⟨t₁, hread₁, h₁⟩ := h.charAt .str hstr hi
      obtain ⟨t₂, hread₂, h₂⟩ := h₁.charAt .splitter hsplitter (Nat.le_of_lt hj)
      rw [Int.natCast_add] at hread₁
      rw [find.inner, hread₁, Option.bind_some]
      dsimp only
      rw [hread₂, Option.bind_some, drop_load hj]
      dsimp only
      rcases Nat.lt_or_eq_of_le hi with hlt | hend
      · rw [drop_load hlt]
        by_cases hc : mem (a + (i + j)) = mem (b + j)
        · have hiff : mem (b + j) :: (load mem b l).drop (j + 1)
                <+: mem (a + (i + j)) :: (load mem a k).drop (i + j + 1)
              ↔ (load mem b l).drop (j + 1) <+: (load mem a k).drop (i + j + 1) := by
            rw [List.cons_prefix_cons, and_iff_right hc.symm]
          rw [if_pos ⟨hc, by omega⟩, decide_eq_decide.mpr hiff]
          rcases Nat.lt_or_eq_of_le (Nat.succ_le_of_lt hj) with hmore | hlast
          · rw [if_neg (by omega), ← Int.natCast_succ]
            exact ih h₂ (by omega) hmore (by omega)
          · -- the splitter ends here
            have hnil : (load mem b l).drop (j + 1) = [] := load_drop_of_le mem b (by omega)
            rw [if_pos (by omega), hnil, decide_eq_true List.nil_prefix]
            exact ⟨t₂, rfl, h₂⟩
        · have hno : ¬ mem (b + j) :: (load mem b l).drop (j + 1)
              <+: mem (a + (i + j)) :: (load mem a k).drop (i + j + 1) :=
            fun hpre => hc (List.cons_prefix_cons.mp hpre).1.symm
          rw [if_neg fun hand => hc hand.1, decide_eq_false hno]
          exact ⟨t₂, rfl, h₂⟩
      · -- the text ends here, and the NUL is not in the splitter
        have hnil : (load mem a k).drop (i + j) = [] := load_drop_of_le mem a (by omega)
        have hno : ¬ mem (b + j) :: (load mem b l).drop (j + 1)
            <+: (load mem a k).drop (i + j) := by
          rw [hnil, List.prefix_nil]
          exact List.cons_ne_nil _ _
        rw [if_neg fun hand => absurd hand.2 (by omega), decide_eq_false hno]
        exact ⟨t₂, rfl, h₂⟩

/-- From the beginning of the splitter, and with turns enough. -/
theorem find_inner_start (h : t.Inside n mem (Param.nul k l)) (hstr : TextAt n mem a k)
    (hsplitter : TextAt n mem b l) (hl : 0 < l) {i : ℕ} (hi : i ≤ k) :
    ∃ t', find.inner a b k l i MemorySize 0 t
        = some (decide (load mem b l <+: (load mem a k).drop i), t')
      ∧ t'.Inside n mem (Param.nul k l) := by
  have hsize := h.sees.size_le
  have hroom := hsplitter.inside
  exact h.find_inner hstr hsplitter hi hl (show l ≤ 0 + MemorySize by omega)

/-- The outer loop looks for the first occurrence. -/
theorem find_outer (h : t.Inside n mem (Param.nul k l)) (hstr : TextAt n mem a k)
    (hsplitter : TextAt n mem b l) (hl : 0 < l) (limit : ℕ) {i turns : ℕ} (hi : i ≤ k)
    (hturns : k < i + turns) :
    ∃ t', find.outer a b k l limit turns i t
        = some (position i (limit - i) (Search.find (load mem b l) ((load mem a k).drop i)), t')
      ∧ t'.Inside n mem (Param.nul k l) := by
  induction turns generalizing t i with
  | zero => omega
  | succ turns ih =>
      rw [find.outer]
      by_cases hlimit : i < limit
      · -- one turn of those that the limit allows
        obtain ⟨left, hleft⟩ := Nat.exists_eq_add_of_lt hlimit
        have hnow : limit - i = left + 1 := by omega
        have hnext : limit - (i + 1) = left := by omega
        rw [hnow]
        rcases Nat.lt_or_eq_of_le hi with hlt | hend
        · obtain ⟨t₁, hinner, h₁⟩ := h.find_inner_start hstr hsplitter hl hi
          rw [if_pos ⟨by omega, by omega⟩, hinner, Option.bind_some]
          dsimp only
          rw [drop_load hlt, find_cons, ← drop_load hlt]
          by_cases hpre : load mem b l <+: (load mem a k).drop i
          · rw [decide_eq_true hpre, if_pos rfl, if_pos hpre, position,
              if_pos (Nat.succ_pos left)]
            exact ⟨t₁, rfl, h₁⟩
          · rw [decide_eq_false hpre, if_neg (by decide), if_neg hpre, position_succ, ← hnext,
              ← Int.natCast_succ]
            exact ih h₁ hlt (by omega)
        · -- the end of the text
          have hnil : (load mem a k).drop i = [] := load_drop_of_le mem a (by omega)
          rw [if_neg fun hand => absurd hand.2 (by omega), hnil, find_nil,
            if_neg (load_ne_nil mem b hl)]
          exact ⟨t, rfl, h⟩
      · rw [if_neg fun hand => absurd hand.1 (by omega), Nat.sub_eq_zero_of_le (by omega),
          position_no_turns]
        exact ⟨t, rfl, h⟩

end Traced.Inside

end Client

namespace Sees

open Client

variable {m : Machine} {n : ℕ} {mem : ℕ → Byte} {a b k l : ℕ}

/-- The whole of `find`. -/
theorem traced_find (h : Sees m n mem) (hstr : TextAt n mem a k) (hsplitter : TextAt n mem b l)
    (hl : 0 < l) (limit : ℕ) :
    ∃ t, Traced.find a b limit m
        = some (position 0 limit (Search.find (load mem b l) (load mem a k)), t)
      ∧ t.Inside n mem (Param.nul k l) := by
  have hstart : Traced.Inside ⟨m, []⟩ n mem (Param.nul k l) :=
    ⟨h, fun r hr => absurd hr List.not_mem_nil⟩
  obtain ⟨t₁, hlen₁, h₁⟩ := hstart.len .str hstr
  obtain ⟨t₂, hlen₂, h₂⟩ := h₁.len .splitter hsplitter
  have hsize := h.size_le
  have hroom := hstr.inside
  obtain ⟨t₃, houter, h₃⟩ := h₂.find_outer hstr hsplitter hl limit (Nat.zero_le k)
    (show k < 0 + MemorySize by omega)
  refine ⟨t₃, ?_, h₃⟩
  rw [Traced.find, hlen₁, Option.bind_some]
  dsimp only
  rw [hlen₂, Option.bind_some]
  exact houter

/-- The splitter in the memory is found where its characters are. -/
theorem traced_find_eq (h : Sees m n mem) (hstr : TextAt n mem a k)
    (hsplitter : TextAt n mem b l) (hl : 0 < l) (limit : ℕ) :
    ∃ i m' t, Client.find a (load mem b l) limit m = some (i, m')
      ∧ Traced.find a b limit m = some (i, t) := by
  obtain ⟨m', hfind, -⟩ := h.find hstr (load_ne_nil mem b hl) limit
  obtain ⟨t, htraced, -⟩ := h.traced_find hstr hsplitter hl limit
  exact ⟨_, m', t, hfind, htraced⟩

end Sees

namespace Client

/-! ## The result -/

variable {m : Machine} {n : ℕ} {mem : ℕ → Byte} {a b k l : ℕ}

/-- The splitter, of `l` characters, is in the text at its position `p`, with all of them. -/
def OccursAt (mem : ℕ → Byte) (a k b l p : ℕ) : Prop :=
  p + l ≤ k ∧ ∀ j < l, mem (a + (p + j)) = mem (b + j)

theorem occursAt_iff (hl : 0 < l) (p : ℕ) :
    OccursAt mem a k b l p ↔ load mem b l <+: (load mem a k).drop p := by
  constructor
  · rintro ⟨hroom, hsame⟩
    obtain ⟨rest, rfl⟩ := Nat.exists_eq_add_of_le hroom
    have heq : load mem b l = load mem (a + p) l := by
      apply List.ext_getElem
      · rw [length_load, length_load]
      · intro j hj hj'
        rw [getElem_load, getElem_load, Nat.add_assoc]
        rw [length_load] at hj
        exact (hsame j hj).symm
    rw [Nat.add_assoc, load_drop, heq, ← load_take mem (a + p) l rest]
    exact List.take_prefix _ _
  · intro hpre
    have hroom := hpre.length_le
    rw [length_load, List.length_drop, length_load] at hroom
    refine ⟨by omega, fun j hj => ?_⟩
    have hchar := hpre.getElem (i := j) (by rwa [length_load])
    rw [getElem_load, List.getElem_drop, getElem_load] at hchar
    exact hchar.symm

/-- **`find` returns the least position below the limit at which all of the splitter is in the
text**, or `-1`, and reads no character behind a NUL. The NUL of the text ends the comparison,
because the splitter has none before its end. -/
theorem traced_find_least (h : Sees m n mem) (hstr : TextAt n mem a k)
    (hsplitter : TextAt n mem b l) (hl : 0 < l) {limit : ℤ} (hlimit : 0 ≤ limit) :
    ∃ i t, Traced.find a b limit m = some (i, t)
      ∧ ((∃ p : ℕ, i = p ∧ i < limit ∧ OccursAt mem a k b l p
            ∧ ∀ q < p, ¬ OccursAt mem a k b l q)
          ∨ i = -1 ∧ ∀ p : ℕ, (p : ℤ) < limit → ¬ OccursAt mem a k b l p)
      ∧ ∀ r ∈ t.reads, 0 ≤ r.2 ∧ r.2 ≤ Param.nul k l r.1 := by
  obtain ⟨turns, rfl⟩ := Int.eq_ofNat_of_zero_le hlimit
  obtain ⟨t, hfind, ht⟩ := h.traced_find hstr hsplitter hl turns
  refine ⟨_, t, hfind, ?_, ht.reads⟩
  simp only [occursAt_iff hl]
  cases hcase : Search.find (load mem b l) (load mem a k) with
  | none =>
      exact .inr ⟨rfl, fun p _ => not_isPrefix_drop_of_find hcase p⟩
  | some p =>
      obtain ⟨-, hpre, hfirst⟩ := (find_eq_some_iff _ _ _).mp hcase
      rw [position, Nat.zero_add]
      by_cases hp : p < turns
      · rw [if_pos hp]
        exact .inl ⟨p, rfl, Int.ofNat_lt.mpr hp, hpre, hfirst⟩
      · -- the first occurrence is not below the limit, and no other one is before it
        rw [if_neg hp]
        exact .inr ⟨rfl, fun q hq => hfirst q (by omega)⟩

/-- The texts `aab` and `ab`, in the one page of a program. -/
def searched : Machine where
  mainMemory := store (fun _ => 0) 0 [97, 97, 98, 0, 97, 98]
  pageTable := [⟨0, 0, true, false, false, false⟩]

theorem sees_searched : Sees searched PageSize searched.mainMemory := by
  refine ⟨⟨by decide, by decide, by decide⟩, Nat.one_mul PageSize, fun v hv => ?_⟩
  -- the only frame is the first one
  have hphysical : physical [0] v = v := by
    rw [physical, Nat.div_eq_of_lt hv, Nat.mod_eq_of_lt hv]
    exact (congrArg (· + v) (Nat.zero_mul PageSize)).trans (Nat.zero_add v)
  exact congrArg searched.mainMemory hphysical

/-- `find("aab", "ab", 2)`. -/
theorem traced_find_least_ab :
    ∃ i t, Traced.find (0 : ℕ) (4 : ℕ) 2 searched = some (i, t)
      ∧ ((∃ p : ℕ, i = p ∧ i < 2 ∧ OccursAt searched.mainMemory 0 3 4 2 p
            ∧ ∀ q < p, ¬ OccursAt searched.mainMemory 0 3 4 2 q)
          ∨ i = -1 ∧ ∀ p : ℕ, (p : ℤ) < 2 → ¬ OccursAt searched.mainMemory 0 3 4 2 p)
      ∧ ∀ r ∈ t.reads, 0 ≤ r.2 ∧ r.2 ≤ Param.nul 3 2 r.1 :=
  traced_find_least sees_searched ⟨by decide, by decide, by decide⟩
    ⟨by decide, by decide, by decide⟩ (by decide) (by decide)

end Client

end LoadBalancer.NachOS
