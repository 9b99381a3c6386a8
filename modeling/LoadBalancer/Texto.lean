/-
The C++ vocabulary the program is written in: characters, `std::string`, C strings,
and the conversions between `int` and `size_t`.

A `char` is a `Char` and a `std::string` is the list of its characters. The code
compares characters for equality and does nothing else with them, apart from
`tolower` and `atoi`, so nothing depends on there being 256 of them. Positions are
natural numbers; where the source keeps one in an `int` *and* relies on what the
conversion does to `npos`, the definition goes through [`aInt`] and [`aSizeT`].
-/
import Mathlib.Data.Int.Basic
import Mathlib.Data.List.TakeWhile
import LoadBalancer.Lib.Search

set_option autoImplicit false

namespace LoadBalancer

open LoadBalancer.Search

/-- `std::string`. -/
abbrev Texto := List Char

/-- The zero byte that ends a C string. -/
def NUL : Char := Char.ofNat 0

/-- `InterpreteHTTP::CRLF`. -/
def CRLF : Texto := ['\r', '\n']

/-- `InterpreteHTTP::DOUBLECRLF`. -/
def DOUBLECRLF : Texto := ['\r', '\n', '\r', '\n']

/-! ## C strings -/

/-- What a C function sees of `t.c_str()`: the text up to its first zero byte. -/
def c_str (t : Texto) : Texto := t.takeWhile (· ≠ NUL)

/-- An array of `char` read as a C string. Without a zero byte the read runs past the
end of the array, which has no defined result. -/
def leerCadena (memoria : List Char) : Option Texto :=
  if NUL ∈ memoria then some (c_str memoria) else none

theorem leerCadena_of_mem {memoria : List Char} (h : NUL ∈ memoria) :
    leerCadena memoria = some (c_str memoria) := if_pos h

theorem leerCadena_of_not_mem {memoria : List Char} (h : NUL ∉ memoria) :
    leerCadena memoria = none := if_neg h

theorem c_str_isPrefix (t : Texto) : c_str t <+: t := List.takeWhile_prefix _

theorem c_str_cons (c : Char) (t : Texto) :
    c_str (c :: t) = if c = NUL then [] else c :: c_str t := by
  unfold c_str
  by_cases h : c = NUL <;> simp [h]

/-- The C string of `a ++ b` is that of `a` if `a` holds a zero byte. -/
theorem c_str_append_of_mem {a b : Texto} (h : NUL ∈ a) : c_str (a ++ b) = c_str a := by
  induction a with
  | nil => simp at h
  | cons c a ih =>
      rw [List.cons_append, c_str_cons, c_str_cons]
      by_cases hc : c = NUL
      · rw [if_pos hc, if_pos hc]
      · rw [if_neg hc, if_neg hc, ih ((List.mem_cons.mp h).resolve_left (Ne.symm hc))]

/-- The C string of `a ++ b` runs on into `b` if `a` holds no zero byte. -/
theorem c_str_append_of_not_mem {a b : Texto} (h : NUL ∉ a) : c_str (a ++ b) = a ++ c_str b := by
  induction a with
  | nil => rfl
  | cons c a ih =>
      simp only [List.mem_cons, not_or] at h
      rw [List.cons_append, c_str_cons, if_neg (Ne.symm h.1), ih h.2, List.cons_append]

/-- Without a zero byte a text is its own C string. -/
theorem c_str_of_not_mem {t : Texto} (h : NUL ∉ t) : c_str t = t := by
  have happ := c_str_append_of_not_mem (b := []) h
  rw [List.append_nil] at happ
  exact happ.trans (List.append_nil t)

/-- A C string has no terminator in it. -/
theorem nul_not_mem_c_str (t : Texto) : NUL ∉ c_str t := by
  intro h
  simpa using List.mem_takeWhile_imp h

/-! ## `int` and `size_t` -/

/-- `INT32_MAX`. -/
def INT32_MAX : ℤ := 2147483647

/-- `INT32_MIN`. -/
def INT32_MIN : ℤ := -2147483648

/-- The conversion of an integer value to `int`. -/
def aInt (n : ℤ) : ℤ := Int.bmod n 4294967296

/-- The conversion of an integer value to `size_t`. -/
def aSizeT (n : ℤ) : ℕ := (n % 18446744073709551616).toNat

/-- A value in the range of `int` is kept. -/
theorem aInt_of_lt {n : ℤ} (h0 : 0 ≤ n) (h : n < 2147483648) : aInt n = n := by
  unfold aInt
  rw [Int.bmod_def]
  split_ifs <;> omega

/-- A value in the range of `size_t` is kept. -/
theorem aSizeT_natCast {n : ℕ} (h : n < 18446744073709551616) : aSizeT n = n := by
  unfold aSizeT
  omega

/-- `std::string::npos`. -/
def npos : ℕ := 18446744073709551615

/-- `text.find(pat, desde)`, as the `size_t` the call returns. -/
def findDesde (pat text : Texto) (desde : ℕ) : ℕ :=
  match find pat (text.drop desde) with
  | none => npos
  | some p => desde + p

/-! ## Pieces -/

/-- A piece between two separators has none in it. -/
theorem not_mem_of_mem_splitOn {c : Char} {texto pieza : Texto} (h : pieza ∈ texto.splitOn c) :
    c ∉ pieza := by
  induction texto generalizing pieza with
  | nil =>
      rw [List.splitOn_nil, List.mem_singleton] at h
      rw [h]
      exact List.not_mem_nil
  | cons x resto ih =>
      rw [List.splitOn_cons_eq_if_modifyHead] at h
      by_cases hx : x = c
      · rw [if_pos (by simpa using hx), List.mem_cons] at h
        rcases h with rfl | h
        · exact List.not_mem_nil
        · exact ih h
      · rw [if_neg (by simpa using hx)] at h
        -- the character goes to the first piece
        obtain ⟨primera, piezas, heq⟩ := List.exists_cons_of_ne_nil (List.splitOn_ne_nil c resto)
        rw [heq, List.modifyHead_cons, List.mem_cons] at h
        rcases h with rfl | h
        · rw [List.mem_cons, not_or]
          exact ⟨Ne.symm hx, ih (by rw [heq]; exact List.mem_cons_self)⟩
        · exact ih (by rw [heq]; exact List.mem_cons_of_mem _ h)

/-- Pieces with a separator behind each, and a rest. -/
theorem intercalate_concat (separador : Texto) (piezas : List Texto) (resto : Texto) :
    separador.intercalate (piezas ++ [resto]) = piezas.flatMap (· ++ separador) ++ resto := by
  induction piezas with
  | nil => rw [List.nil_append, List.intercalate_singleton, List.flatMap_nil, List.nil_append]
  | cons pieza piezas ih =>
      have hne : piezas ++ [resto] ≠ [] :=
        List.append_ne_nil_of_right_ne_nil piezas (List.cons_ne_nil resto [])
      rw [List.cons_append, List.intercalate_cons_of_ne_nil hne, ih, List.flatMap_cons,
        List.append_assoc, List.append_assoc, List.append_assoc]

/-- Without a rest there is one separator more than joins them. -/
theorem intercalate_append {piezas : List Texto} (h : piezas ≠ []) (separador : Texto) :
    separador.intercalate piezas ++ separador = piezas.flatMap (· ++ separador) := by
  rw [← List.dropLast_append_getLast h, intercalate_concat, List.flatMap_append,
    List.flatMap_singleton, List.append_assoc]

end LoadBalancer
