/-
`Utilidades.cpp`: cutting texts, header values, and the pseudo-random choice; and
the `atoi` of the C library that both servers apply to a port.
-/
import LoadBalancer.Texto

set_option autoImplicit false

namespace LoadBalancer

open LoadBalancer.Search

namespace Utilidades

/-! ## `split` -/

/-- The loop of `split`, with `cortes` cuts still allowed, and the final
`if(line.compare("") != 0)`. -/
def split.bucle (delimitador : Texto) : ℕ → Texto → List Texto
  | 0, line => if line ≠ [] then [line] else []
  | cortes + 1, line =>
      match find delimitador line with
      | none => if line ≠ [] then [line] else []
      | some posicion =>
          line.take posicion
            :: split.bucle delimitador cortes (line.drop (posicion + delimitador.length))

/-- `split(line, delimitador, veces)`: the counter runs from `0` while it is below
`veces + 1`, so there are up to `veces + 1` cuts. -/
def split (line delimitador : Texto) (veces : ℕ) : List Texto :=
  if 0 < line.length then split.bucle delimitador (veces + 1) line else []

/-- A cut at the delimiter's first occurrence. -/
theorem split.bucle_cut {delimitador line : Texto} {posicion cortes : ℕ}
    (h : find delimitador line = some posicion) :
    split.bucle delimitador (cortes + 1) line
      = line.take posicion
        :: split.bucle delimitador cortes (line.drop (posicion + delimitador.length)) := by
  rw [split.bucle, h]

/-- Without an occurrence the loop breaks, and what is left is the last piece. -/
theorem split.bucle_break {delimitador line : Texto} {cortes : ℕ}
    (h : find delimitador line = none) :
    split.bucle delimitador cortes line = if line ≠ [] then [line] else [] := by
  cases cortes with
  | zero => rfl
  | succ cortes => rw [split.bucle, h]

/-- A cut at a `CRLF` that follows a text without one. -/
theorem split.bucle_crlf {linea resto : Texto} (h : ¬ CRLF <:+: linea) (cortes : ℕ) :
    split.bucle CRLF (cortes + 1) (linea ++ CRLF ++ resto)
      = linea :: split.bucle CRLF cortes resto := by
  have hfind : find CRLF (linea ++ CRLF ++ resto) = some linea.length := by
    rw [List.append_assoc]
    exact find_pair_append (by decide) h
  rw [split.bucle_cut hfind, List.append_assoc, List.take_left, ← List.drop_drop, List.drop_left]
  rfl

/-- **The first cut** of a text that has a `CRLF`, whatever follows. -/
theorem split_crlf {linea resto : Texto} (h : ¬ CRLF <:+: linea) (veces : ℕ) :
    split (linea ++ CRLF ++ resto) CRLF veces = linea :: split.bucle CRLF veces resto := by
  have hpos : 0 < (linea ++ CRLF ++ resto).length := by
    rw [List.length_append, List.length_append]
    have : CRLF.length = 2 := rfl
    omega
  rw [split, if_pos hpos, split.bucle_crlf h]

/-- **A text with a `CRLFCRLF` has two pieces at least.** -/
theorem split_of_doublecrlf {line : Texto} (h : DOUBLECRLF <:+: line) :
    ∃ primera segunda resto, split line CRLF 1 = primera :: segunda :: resto := by
  obtain ⟨q, hq, hpre⟩ := (infix_iff_exists_drop _ _).mp h
  have hfirst : CRLF <+: line.drop q := (show CRLF <+: DOUBLECRLF by decide).trans hpre
  -- the second `CRLF` of the four characters is behind the first cut, wherever that is
  have hsecond : CRLF <+: line.drop (q + 2) := by
    obtain ⟨t, ht⟩ := hpre
    rw [← List.drop_drop, ← ht]
    exact List.prefix_append CRLF t
  obtain ⟨p, hp⟩ : ∃ p, find CRLF line = some p := by
    rw [← Option.isSome_iff_exists, find_isSome_iff]
    exact infix_of_isPrefix_drop hfirst
  have hle := find_le_of_isPrefix hp hfirst
  obtain ⟨d, hd⟩ : ∃ d, find CRLF (line.drop (p + CRLF.length)) = some d := by
    rw [← Option.isSome_iff_exists, find_isSome_iff]
    have heq : q + 2 = p + CRLF.length + (q - p) := by
      have : CRLF.length = 2 := rfl
      omega
    rw [heq, ← List.drop_drop] at hsecond
    exact infix_of_isPrefix_drop hsecond
  have hpos : 0 < line.length := by
    rw [List.length_pos_iff]
    rintro rfl
    cases hp
  rw [split, if_pos hpos, split.bucle_cut hp, split.bucle_cut hd]
  exact ⟨_, _, _, rfl⟩

/-- What is not empty has a piece. -/
theorem split.bucle_ne_nil {delimitador line : Texto} (h : line ≠ []) (cortes : ℕ) :
    split.bucle delimitador cortes line ≠ [] := by
  cases hfind : find delimitador line with
  | none =>
      rw [split.bucle_break hfind, if_pos h]
      exact List.cons_ne_nil _ _
  | some posicion =>
      cases cortes with
      | zero =>
          rw [split.bucle, if_pos h]
          exact List.cons_ne_nil _ _
      | succ cortes =>
          rw [split.bucle_cut hfind]
          exact List.cons_ne_nil _ _

/-- The pieces together are no longer than the text: a cut takes the delimiter out of it. -/
theorem split.length_flatten_bucle_le (delimitador : Texto) (cortes : ℕ) (line : Texto) :
    (split.bucle delimitador cortes line).flatten.length ≤ line.length := by
  have hfin (line : Texto) :
      ((if line ≠ [] then [line] else []) : List Texto).flatten.length ≤ line.length := by
    split_ifs
    · rw [List.flatten_singleton]
    · exact Nat.zero_le _
  induction cortes generalizing line with
  | zero => exact hfin line
  | succ cortes ih =>
      cases hfind : find delimitador line with
      | none =>
          rw [split.bucle_break hfind]
          exact hfin line
      | some posicion =>
          have hresto := ih (line.drop (posicion + delimitador.length))
          rw [split.bucle_cut hfind, List.flatten_cons, List.length_append, List.length_take]
          rw [List.length_drop] at hresto
          omega

/-- No piece is longer than the text, with the pieces in front of it and behind. -/
theorem length_flatten_split_le (line delimitador : Texto) (veces : ℕ) :
    (split line delimitador veces).flatten.length ≤ line.length := by
  unfold split
  split_ifs
  · exact split.length_flatten_bucle_le _ _ _
  · exact Nat.zero_le _

theorem split_ne_nil {line : Texto} (h : line ≠ []) (delimitador : Texto) (veces : ℕ) :
    split line delimitador veces ≠ [] := by
  rw [split, if_pos (List.length_pos_iff.mpr h)]
  exact split.bucle_ne_nil h _

/-- A cut at a delimiter of one character that follows a text without it. -/
theorem split.bucle_singleton {c : Char} {parte resto : Texto} (h : c ∉ parte) (cortes : ℕ) :
    split.bucle [c] (cortes + 1) (parte ++ c :: resto)
      = parte :: split.bucle [c] cortes resto := by
  rw [split.bucle_cut (find_singleton_append h), List.take_left, List.length_singleton,
    ← List.drop_drop, List.drop_left]
  rfl

/-- In front of a text, what does not hold the delimiter's first character stays with the first
piece, and moves no cut. -/
theorem split.bucle_append {c : Char} {p parte : Texto} (h : c ∉ parte) (hne : parte ≠ [])
    (cortes : ℕ) (resto : Texto) :
    split.bucle (c :: p) cortes (parte ++ resto)
      = (parte ++ (split.bucle (c :: p) cortes resto).headD [])
        :: (split.bucle (c :: p) cortes resto).tail := by
  -- where there is no cut, all of it is one piece
  have hsin : (if parte ++ resto ≠ [] then [parte ++ resto] else [])
      = (parte ++ (if resto ≠ [] then [resto] else []).headD [])
        :: (if resto ≠ [] then [resto] else []).tail := by
    rw [if_pos (List.append_ne_nil_of_left_ne_nil hne resto)]
    by_cases hresto : resto = []
    · rw [if_neg (not_not_intro hresto), hresto]
      rfl
    · rw [if_pos hresto]
      rfl
  cases cortes with
  | zero => exact hsin
  | succ cortes =>
      have hfind := find_append_of_not_mem (p := p) h resto
      cases hcase : find (c :: p) resto with
      | none =>
          rw [hcase, Option.map_none] at hfind
          rw [split.bucle_break hfind, split.bucle_break hcase]
          exact hsin
      | some posicion =>
          rw [hcase, Option.map_some, Nat.add_comm] at hfind
          rw [split.bucle_cut hfind, split.bucle_cut hcase, List.take_length_add_append,
            Nat.add_assoc, List.drop_length_add_append]
          rfl

/-! ## `extraerValorHeader` -/

/-- `extraerValorHeader(header, clave)`. The two closing positions are kept in an `int`,
so a failed `find` (`npos`) becomes `-1`; the differences are then taken in `size_t`, and
the smaller one goes through an `int` again on its way into `substr`. -/
def extraerValorHeader (header clave : Texto) : Texto :=
  match find clave header with
  | none => []
  | some p =>
      let posicion := p + clave.length
      let posicionCierre_1 := aInt (findDesde CRLF header posicion)
      let posicionCierre_2 := aInt (findDesde [';'] header posicion)
      -- `std::min` of two `size_t`, kept in an `int`
      let size := aInt ↑(min (aSizeT (posicionCierre_1 - posicion))
        (aSizeT (posicionCierre_2 - posicion)))
      (header.drop posicion).take (aSizeT size)

/-- The room that a closing position leaves for the value: what is before it, or, without one,
more than there is. -/
theorem hueco_cierre {pat header : Texto} {posicion : ℕ} (hpos : posicion ≤ header.length)
    (hlen : header.length < 2147483648) :
    aSizeT (aInt (findDesde pat header posicion) - posicion)
      = match find pat (header.drop posicion) with
        | none => 18446744073709551615 - posicion
        | some d => d := by
  unfold findDesde
  cases hfind : find pat (header.drop posicion) with
  | none =>
      -- `npos` becomes `-1`, and the difference wraps around to almost `2 ^ 64`
      have hnpos : aInt npos = -1 := by decide
      have hmod : (-1 - (posicion : ℤ)) % 18446744073709551616
          = 18446744073709551615 - posicion := by omega
      dsimp only
      rw [hnpos, aSizeT, hmod, Int.toNat_sub']
      rfl
  | some d =>
      have hd := ((find_eq_some_iff _ _ _).mp hfind).1
      rw [List.length_drop] at hd
      dsimp only
      rw [aInt_of_lt (by omega) (by omega)]
      unfold aSizeT
      omega

/-- **The value of a header**, in a text shorter than `2^31`: everything from the end of the
key's first occurrence to the next `CRLF` or `;`, or to the end. -/
theorem extraerValorHeader_eq {header clave : Texto} {p : ℕ} (hlen : header.length < 2147483648)
    (hfind : find clave header = some p) :
    extraerValorHeader header clave
      = (header.drop (p + clave.length)).take
          (min ((find CRLF (header.drop (p + clave.length))).getD header.length)
            ((find [';'] (header.drop (p + clave.length))).getD header.length)) := by
  obtain ⟨hp, hpre, -⟩ := (find_eq_some_iff _ _ _).mp hfind
  have hpos : p + clave.length ≤ header.length := by
    have := hpre.length_le
    rw [List.length_drop] at this
    omega
  rw [extraerValorHeader, hfind]
  dsimp only
  rw [hueco_cierre hpos hlen, hueco_cierre hpos hlen]
  generalize hresto : header.drop (p + clave.length) = resto
  have hlargo : resto.length ≤ header.length := by
    rw [← hresto, List.length_drop]
    omega
  -- from here on everything is about the text behind the key
  -- a closing position that is found is a small number
  have hd : ∀ {pat : Texto} {d : ℕ}, find pat resto = some d → d ≤ resto.length :=
    fun h => ((find_eq_some_iff _ _ _).mp h).1
  have hchico : ∀ {d : ℕ}, d ≤ resto.length → aSizeT (aInt (d : ℤ)) = d := fun h => by
    rw [aInt_of_lt (by omega) (by omega), aSizeT_natCast (by omega)]
  have hcabe : ∀ {d : ℕ}, d ≤ resto.length → d ≤ 18446744073709551615 - (p + clave.length) :=
    fun h => Nat.le_sub_of_add_le (by omega)
  cases h1 : find CRLF resto with
  | none =>
      cases h2 : find [';'] resto with
      | none =>
          -- no closing position: the size is larger than what is left
          have hsize : aSizeT (aInt ((18446744073709551615 - (p + clave.length) : ℕ) : ℤ))
              = 18446744073709551615 - (p + clave.length) := by
            unfold aSizeT aInt
            rw [Int.bmod_def]
            split_ifs <;> omega
          dsimp only [Option.getD]
          rw [Nat.min_self, Nat.min_self, hsize, List.take_of_length_le (by omega),
            List.take_of_length_le hlargo]
      | some d =>
          have := hd h2
          dsimp only [Option.getD]
          rw [Nat.min_eq_right (hcabe this), hchico this, Nat.min_eq_right (by omega)]
  | some d =>
      have hd1 := hd h1
      cases h2 : find [';'] resto with
      | none =>
          dsimp only [Option.getD]
          rw [Nat.min_eq_left (hcabe hd1), hchico hd1, Nat.min_eq_left (by omega)]
      | some d' =>
          have hd2 := hd h2
          dsimp only [Option.getD]
          rw [hchico (by omega)]

/-- What `texto` has up to the nearest `CRLF` or `;` is `valor`; or all of it, without either. -/
structure HastaCierre (texto valor : Texto) : Prop where
  prefijo : valor <+: texto
  sin_cierre : ∀ k < valor.length, ¬ CRLF <+: texto.drop k ∧ ¬ [';'] <+: texto.drop k
  cierre : valor.length < texto.length →
    CRLF <+: texto.drop valor.length ∨ [';'] <+: texto.drop valor.length

/-- A closing position, as far as there is text: nothing closes before it, and there it does. -/
theorem cierre_getD {pat texto : Texto} {n : ℕ} (hn : texto.length ≤ n) :
    (∀ k < (find pat texto).getD n, ¬ pat <+: texto.drop k)
      ∧ ((find pat texto).getD n < texto.length → pat <+: texto.drop ((find pat texto).getD n)) := by
  cases hfind : find pat texto with
  | none =>
      rw [Option.getD_none]
      exact ⟨fun k _ => not_isPrefix_drop_of_find hfind k, fun hlt => by omega⟩
  | some p =>
      obtain ⟨-, hpre, hfirst⟩ := (find_eq_some_iff pat texto p).mp hfind
      rw [Option.getD_some]
      exact ⟨hfirst, fun _ => hpre⟩

/-- **`extraerValorHeader` returns the value of the key**, in a text shorter than `2^31`: nothing
without the key, and what follows its first occurrence, up to where that closes. Below `2^31` no
position is lost in an `int`. -/
theorem extraerValorHeader_hasta_cierre {header clave : Texto} (hlen : header.length < 2147483648) :
    (¬ clave <:+: header → extraerValorHeader header clave = [])
      ∧ (clave <:+: header → ∃ p, clave <+: header.drop p ∧ (∀ k < p, ¬ clave <+: header.drop k)
        ∧ HastaCierre (header.drop (p + clave.length)) (extraerValorHeader header clave)) := by
  constructor
  · intro hno
    rw [extraerValorHeader, (find_eq_none_iff clave header).mpr hno]
  · intro hin
    obtain ⟨p, hfind⟩ := Option.isSome_iff_exists.mp ((find_isSome_iff clave header).mpr hin)
    obtain ⟨-, hpre, hfirst⟩ := (find_eq_some_iff clave header p).mp hfind
    refine ⟨p, hpre, hfirst, ?_⟩
    rw [extraerValorHeader_eq hlen hfind]
    generalize hresto : header.drop (p + clave.length) = resto
    have hlargo : resto.length ≤ header.length := by
      rw [← hresto, List.length_drop]
      omega
    obtain ⟨hantes1, hen1⟩ := @cierre_getD CRLF _ _ hlargo
    obtain ⟨hantes2, hen2⟩ := @cierre_getD [';'] _ _ hlargo
    generalize (find CRLF resto).getD header.length = d1 at hantes1 hen1 ⊢
    generalize (find [';'] resto).getD header.length = d2 at hantes2 hen2 ⊢
    refine ⟨List.take_prefix _ _, fun k hk => ?_, fun hk => ?_⟩
    · rw [List.length_take] at hk
      exact ⟨hantes1 k (by omega), hantes2 k (by omega)⟩
    · rw [List.length_take] at hk ⊢
      have hmin : min (min d1 d2) resto.length = min d1 d2 := by omega
      rw [hmin]
      -- the nearer of the two is where the value ends
      rcases Nat.le_total d1 d2 with hle | hle
      · rw [Nat.min_eq_left hle]
        exact .inl (hen1 (by omega))
      · rw [Nat.min_eq_right hle]
        exact .inr (hen2 (by omega))

/-- The length of a content, up to the `CRLF` behind it. -/
theorem extraerValorHeader_hasta_crlf :
    HastaCierre ['7', '\r', '\n'] (extraerValorHeader ['a', ':', '7', '\r', '\n'] ['a', ':']) := by
  obtain ⟨p, hpre, hfirst, hvalor⟩ := (@extraerValorHeader_hasta_cierre
    ['a', ':', '7', '\r', '\n'] ['a', ':'] (by decide)).2 (by decide)
  have hp : p = 0 := by
    by_contra hne
    exact hfirst 0 (Nat.pos_of_ne_zero hne) (by decide)
  rw [hp] at hvalor
  exact hvalor

/-! ## Numbers -/

/-- `getNumeroRandom(minimo, maximo)`, with `azar` the value `rand()` returned. The
remainder by zero has no result. -/
def getNumeroRandom (azar : ℕ) (minimo maximo : ℤ) : Option ℤ :=
  if maximo - minimo + 1 = 0 then none else some (minimo + azar % (maximo - minimo + 1))

theorem getNumeroRandom_bounds {azar : ℕ} {minimo maximo r : ℤ} (hle : minimo ≤ maximo)
    (h : getNumeroRandom azar minimo maximo = some r) : minimo ≤ r ∧ r ≤ maximo := by
  unfold getNumeroRandom at h
  rw [if_neg (by omega)] at h
  obtain rfl : minimo + azar % (maximo - minimo + 1) = r := by simpa using h
  have h0 := Int.emod_nonneg (azar : ℤ) (b := maximo - minimo + 1) (by omega)
  have h1 := Int.emod_lt_of_pos (azar : ℤ) (b := maximo - minimo + 1) (by omega)
  omega

/-- `isspace` in the C locale. -/
def isspace (c : Char) : Bool :=
  c = ' ' || c = '\t' || c = '\n' || c = '\r' || c = Char.ofNat 11 || c = Char.ofNat 12

/-- The value of the decimal digits a text begins with. -/
def valorDigitos : ℕ → Texto → ℕ
  | acc, [] => acc
  | acc, c :: cs => if c.isDigit then valorDigitos (acc * 10 + (c.toNat - 48)) cs else acc

/-- `atoi`: blanks, an optional sign, digits; the `long` that is read saturates, and is
then converted to `int`. -/
def atoi (t : Texto) : ℤ :=
  let resto := t.dropWhile isspace
  let valor : ℤ := match resto with
    | '-' :: cs => -(valorDigitos 0 cs : ℤ)
    | '+' :: cs => valorDigitos 0 cs
    | cs => valorDigitos 0 cs
  aInt (max (-9223372036854775808) (min 9223372036854775807 valor))

/-! ## Decimal integers -/

/-- The decimal integers, with an optional sign, and their values. -/
inductive Entero : Texto → ℤ → Prop
  | digitos {ds : Texto} (hne : ds ≠ []) (h : ∀ c ∈ ds, c.isDigit = true) :
      Entero ds (Nat.ofDigitChars 10 ds 0)
  | mas {ds : Texto} (hne : ds ≠ []) (h : ∀ c ∈ ds, c.isDigit = true) :
      Entero ('+' :: ds) (Nat.ofDigitChars 10 ds 0)
  | menos {ds : Texto} (hne : ds ≠ []) (h : ∀ c ∈ ds, c.isDigit = true) :
      Entero ('-' :: ds) (-(Nat.ofDigitChars 10 ds 0 : ℤ))

/-- Only blanks. -/
def Blancos (t : Texto) : Prop := ∀ c ∈ t, isspace c = true

theorem isspace_of_isDigit {c : Char} (h : c.isDigit = true) : isspace c = false := by
  by_contra hsp
  simp only [isspace, Bool.not_eq_false, Bool.or_eq_true, decide_eq_true_eq] at hsp
  rcases hsp with ((((rfl | rfl) | rfl) | rfl) | rfl) | rfl <;> revert h <;> decide

theorem isDigit_of_isspace {c : Char} (h : isspace c = true) : c.isDigit = false := by
  by_contra hdig
  rw [isspace_of_isDigit (by simpa using hdig)] at h
  cases h

/-- The digits end at the first character that is none. -/
theorem valorDigitos_append {ds resto : Texto} (h : ∀ c ∈ ds, c.isDigit = true)
    (hresto : ∀ c, resto.head? = some c → c.isDigit = false) (acc : ℕ) :
    valorDigitos acc (ds ++ resto) = Nat.ofDigitChars 10 ds acc := by
  induction ds generalizing acc with
  | nil =>
      cases resto with
      | nil => rw [List.nil_append, valorDigitos, Nat.ofDigitChars_nil]
      | cons c cs =>
          rw [List.nil_append, valorDigitos, if_neg (by rw [hresto c rfl]; decide),
            Nat.ofDigitChars_nil]
  | cons c cs ih =>
      rw [List.cons_append, valorDigitos, if_pos (h c List.mem_cons_self),
        ih fun d hd => h d (List.mem_cons_of_mem c hd), Nat.ofDigitChars_cons]
      rw [Nat.mul_comm]
      rfl

/-- Blanks in front of a text that does not begin with one. -/
theorem dropWhile_blancos {antes t : Texto} (h : Blancos antes)
    (ht : ∀ c, t.head? = some c → isspace c = false) : (antes ++ t).dropWhile isspace = t := by
  rw [List.dropWhile_append_of_pos h]
  cases t with
  | nil => rfl
  | cons c cs => rw [List.dropWhile_cons_of_neg (by rw [ht c rfl]; decide)]

/-- What follows the digits of an integer is no digit. -/
theorem Blancos.head_no_digito {t : Texto} (h : Blancos t) (c : Char) (hc : t.head? = some c) :
    c.isDigit = false :=
  isDigit_of_isspace (h c (List.mem_of_head? hc))

/-- An integer begins with no blank. -/
theorem Entero.head_no_blanco {entero : Texto} {n : ℤ} (h : Entero entero n) (resto : Texto) (c : Char)
    (hc : (entero ++ resto).head? = some c) : isspace c = false := by
  cases h with
  | digitos hne h =>
      obtain ⟨d, ds, rfl⟩ := List.exists_cons_of_ne_nil hne
      obtain rfl : d = c := Option.some.inj hc
      exact isspace_of_isDigit (h d List.mem_cons_self)
  | mas hne h =>
      obtain rfl : '+' = c := Option.some.inj hc
      decide
  | menos hne h =>
      obtain rfl : '-' = c := Option.some.inj hc
      decide

/-- **`atoi` reads an integer between blanks.** -/
theorem atoi_entero {antes entero despues : Texto} {n : ℤ} (hantes : Blancos antes)
    (hdespues : Blancos despues) (h : Entero entero n) :
    atoi (antes ++ entero ++ despues)
      = aInt (max (-9223372036854775808) (min 9223372036854775807 n)) := by
  unfold atoi
  rw [List.append_assoc, dropWhile_blancos hantes (h.head_no_blanco despues)]
  cases h with
  | digitos hne h =>
      obtain ⟨d, ds, rfl⟩ := List.exists_cons_of_ne_nil hne
      have hd : d.isDigit = true := h d List.mem_cons_self
      rw [← valorDigitos_append h hdespues.head_no_digito]
      dsimp only
      split
      · next heq =>
          obtain rfl := (List.cons.inj heq).1
          exact absurd hd (by decide)
      · next heq =>
          obtain rfl := (List.cons.inj heq).1
          exact absurd hd (by decide)
      · rfl
  | mas hne h => rw [← valorDigitos_append h hdespues.head_no_digito]; rfl
  | menos hne h => rw [← valorDigitos_append h hdespues.head_no_digito]; rfl

theorem Entero.ne_nil {entero : Texto} {n : ℤ} (h : Entero entero n) : entero ≠ [] := by
  cases h with
  | digitos hne h => exact hne
  | mas hne h => exact List.cons_ne_nil _ _
  | menos hne h => exact List.cons_ne_nil _ _

/-- The characters of an integer between blanks. -/
theorem mem_entero {antes entero despues : Texto} {n : ℤ} {c : Char} (hantes : Blancos antes)
    (hdespues : Blancos despues) (h : Entero entero n) (hc : c ∈ antes ++ entero ++ despues) :
    isspace c = true ∨ c.isDigit = true ∨ c = '+' ∨ c = '-' := by
  rw [List.mem_append, List.mem_append] at hc
  rcases hc with (hc | hc) | hc
  · exact .inl (hantes c hc)
  · cases h with
    | digitos hne h => exact .inr (.inl (h c hc))
    | mas hne h =>
        rcases List.mem_cons.mp hc with rfl | hc
        · exact .inr (.inr (.inl rfl))
        · exact .inr (.inl (h c hc))
    | menos hne h =>
        rcases List.mem_cons.mp hc with rfl | hc
        · exact .inr (.inr (.inr rfl))
        · exact .inr (.inl (h c hc))
  · exact .inl (hdespues c hc)

/-- None of them is the zero byte. -/
theorem nul_not_mem_entero {antes entero despues : Texto} {n : ℤ} (hantes : Blancos antes)
    (hdespues : Blancos despues) (h : Entero entero n) : NUL ∉ antes ++ entero ++ despues :=
  fun hnul => absurd (mem_entero hantes hdespues h hnul) (by decide)

/-! ## `to_string` -/

/-- `std::to_string` of a number that is not negative. -/
def to_string (n : ℕ) : Texto := (toString n).toList

theorem to_string_eq (n : ℕ) : to_string n = Nat.toDigits 10 n := by
  rw [to_string, Nat.toString_eq_repr, Nat.toList_repr]

theorem isDigit_of_mem_to_string {n : ℕ} {c : Char} (h : c ∈ to_string n) : c.isDigit = true := by
  rw [to_string_eq] at h
  exact Nat.isDigit_of_mem_toDigits (by decide) (by decide) h

/-- A text of digits has no blanks and no sign in front of them. -/
theorem atoi_digitos {t : Texto} (h : ∀ c ∈ t, c.isDigit = true) (hne : t ≠ []) :
    atoi t = aInt (max (-9223372036854775808)
      (min 9223372036854775807 (Nat.ofDigitChars 10 t 0 : ℤ))) := by
  have hnada : Blancos [] := fun c hc => nomatch hc
  have hatoi := atoi_entero hnada hnada (.digitos hne h)
  rwa [List.nil_append, List.append_nil] at hatoi

/-- **`atoi` reads back what `to_string` wrote**, in the range of `int`. -/
theorem atoi_to_string {n : ℕ} (h : n < 2147483648) : atoi (to_string n) = n := by
  have hne : to_string n ≠ [] := by
    rw [to_string_eq]
    exact Nat.toDigits_ne_nil
  have hrango : max (-9223372036854775808) (min 9223372036854775807 (n : ℤ)) = n := by omega
  rw [atoi_digitos (fun c hc => isDigit_of_mem_to_string hc) hne, to_string_eq,
    Nat.ofDigitChars_ten_toDigits, hrango, aInt_of_lt (by omega) (by omega)]

end Utilidades

end LoadBalancer
