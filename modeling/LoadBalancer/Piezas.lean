/-
What `split` makes of a line, for any delimiter that is not empty and any number of cuts.

The loop is the one of `Utilidades.lean`, with the local variables that the source has, since how
many cuts were made and what is left behind the last one are part of the result's meaning. The two
are the same ([`ConCuenta.split_eq`]), and the pieces are what one expects
([`ConCuenta.split_cortada`]): only the last can hold the delimiter, and joined they are the line.

Behind every turn the pieces that are cut off, each with its delimiter, and what is left of the line
are the line ([`ConCuenta.Cortando`]). This is all that the loop needs: the delimiter may overlap
itself, because a cut is made at its *first* occurrence.
-/
import LoadBalancer.Utilidades

set_option autoImplicit false

namespace LoadBalancer

open LoadBalancer.Search

namespace Utilidades.ConCuenta

/-! ## The function -/

/-- The local variables of `split`. -/
structure Locales where
  contador : ℤ
  line : Texto
  hileras : List Texto
deriving DecidableEq, Repr

/-- The loop. `veces+1` is a number here: the callers pass 1, 2 and 3, and for `INT_MAX`, where the
language leaves the sum undefined, the compiled loop compares `contador <= veces`, which is this. -/
def split.bucle (delimitador : Texto) (veces : ℤ) (l : Locales) : Locales :=
  if l.contador < veces + 1 then
    match find delimitador l.line with
    | none => l
    | some posicion =>
        split.bucle delimitador veces
          { contador := l.contador + 1
            line := l.line.drop (posicion + delimitador.length)
            hileras := l.hileras ++ [l.line.take posicion] }
  else l
termination_by (veces + 1 - l.contador).toNat
decreasing_by omega

/-- The local variables behind the loop, which is skipped for an empty line. -/
def split.locales (line delimitador : Texto) (veces : ℤ) : Locales :=
  if 0 < line.length then split.bucle delimitador veces ⟨0, line, []⟩ else ⟨0, line, []⟩

/-- `split(line, delimitador, veces)`. An empty line has no last piece either. -/
def split (line delimitador : Texto) (veces : ℤ) : List Texto :=
  let l := split.locales line delimitador veces
  if l.line ≠ [] then l.hileras ++ [l.line] else l.hileras

/-! ## The loop -/

section Bucle

variable {delimitador : Texto} {veces : ℤ} {l : Locales}

/-- A cut. -/
theorem split.bucle_cut (hlt : l.contador < veces + 1) {posicion : ℕ}
    (h : find delimitador l.line = some posicion) :
    split.bucle delimitador veces l
      = split.bucle delimitador veces
          { contador := l.contador + 1
            line := l.line.drop (posicion + delimitador.length)
            hileras := l.hileras ++ [l.line.take posicion] } := by
  rw [split.bucle, if_pos hlt, h]

/-- The `break`. -/
theorem split.bucle_break (h : find delimitador l.line = none) :
    split.bucle delimitador veces l = l := by
  rw [split.bucle, h]
  exact ite_self _

/-- All the cuts are made. -/
theorem split.bucle_done (hge : ¬ l.contador < veces + 1) :
    split.bucle delimitador veces l = l := by
  rw [split.bucle, if_neg hge]

/-- The line while it is cut. -/
structure Cortando (line delimitador : Texto) (veces : ℤ) (l : Locales) : Prop where
  cuenta : l.contador = l.hileras.length
  tope : l.contador ≤ veces + 1
  sueltas : ∀ hilera ∈ l.hileras, ¬ delimitador <:+: hilera
  unidas : l.hileras.flatMap (· ++ delimitador) ++ l.line = line

variable {line : Texto}

/-- A cut keeps the line. -/
theorem Cortando.cut {posicion : ℕ} (h : Cortando line delimitador veces l)
    (hne : delimitador ≠ []) (hlt : l.contador < veces + 1)
    (hfind : find delimitador l.line = some posicion) :
    Cortando line delimitador veces
      { contador := l.contador + 1
        line := l.line.drop (posicion + delimitador.length)
        hileras := l.hileras ++ [l.line.take posicion] } where
  cuenta := by
    rw [List.length_append, List.length_singleton, h.cuenta]
    rfl
  tope := by
    dsimp only
    omega
  sueltas := by
    intro hilera hmem
    rcases List.mem_append.mp hmem with hmem | hmem
    · exact h.sueltas hilera hmem
    · rw [List.mem_singleton.mp hmem]
      exact not_infix_take_of_find hne hfind
  unidas := by
    have hparts := eq_append_of_find hfind
    rw [List.flatMap_append, List.flatMap_singleton, List.append_assoc, ← hparts, h.unidas]

/-- **The loop ends**, with the line cut, and with the delimiter in what is left only where no more
cuts are allowed. -/
theorem Cortando.bucle (h : Cortando line delimitador veces l) (hne : delimitador ≠ []) :
    Cortando line delimitador veces (split.bucle delimitador veces l)
      ∧ (delimitador <:+: (split.bucle delimitador veces l).line →
        (split.bucle delimitador veces l).contador = veces + 1) := by
  -- by the number of cuts that are left
  generalize hquedan : (veces + 1 - l.contador).toNat = quedan
  induction quedan generalizing l with
  | zero =>
      have htope := h.tope
      rw [split.bucle_done (by omega)]
      exact ⟨h, fun _ => by omega⟩
  | succ quedan ih =>
      have hlt : l.contador < veces + 1 := by omega
      cases hfind : find delimitador l.line with
      | none =>
          have hno := (find_eq_none_iff delimitador l.line).mp hfind
          rw [split.bucle_break hfind]
          exact ⟨h, fun hin => absurd hin hno⟩
      | some posicion =>
          rw [split.bucle_cut hlt hfind]
          exact ih (h.cut hne hlt hfind) (by dsimp only; omega)

end Bucle

/-! ## The pieces -/

/-- What `split` makes of a line, with `l` its local variables behind the loop: `l.contador` cuts
were made, and `l.line` is the text after the last one. -/
structure Cortada (line delimitador : Texto) (veces : ℤ) (l : Locales) (hileras : List Texto) :
    Prop where
  /-- Only the last piece can hold the delimiter. -/
  sueltas : ∀ hilera ∈ hileras.dropLast, ¬ delimitador <:+: hilera
  /-- Where it does, all the cuts were made. -/
  ultima : ∀ hilera, hileras.getLast? = some hilera → delimitador <:+: hilera →
    l.contador = veces + 1
  /-- Joined, the pieces are the line, up to the delimiter of a cut without anything behind it. -/
  unidas :
    if 0 < l.contador ∧ l.line = [] then delimitador.intercalate hileras ++ delimitador = line
    else delimitador.intercalate hileras = line

/-- The last piece is what is left of the line, unless that is empty. -/
theorem Cortando.cortada {line delimitador : Texto} {veces : ℤ} {l : Locales}
    (h : Cortando line delimitador veces l) (hquedan : delimitador <:+: l.line →
      l.contador = veces + 1) :
    Cortada line delimitador veces l
      (if l.line ≠ [] then l.hileras ++ [l.line] else l.hileras) := by
  by_cases hline : l.line = []
  · rw [if_neg (not_not_intro hline)]
    refine ⟨fun hilera hmem => h.sueltas hilera (List.mem_of_mem_dropLast hmem), ?_, ?_⟩
    · intro hilera hlast hin
      exact absurd hin (h.sueltas hilera (List.mem_of_getLast? hlast))
    · have hunidas := h.unidas
      rw [hline, List.append_nil] at hunidas
      by_cases hhileras : l.hileras = []
      · have hcero : ¬ (0 < l.contador ∧ l.line = []) := by
          rw [h.cuenta, hhileras]
          exact fun hand => absurd hand.1 (by decide)
        rw [if_neg hcero, ← hunidas, hhileras]
        rfl
      · have hpos : 0 < l.contador := by
          have := List.length_pos_iff.mpr hhileras
          rw [h.cuenta]
          omega
        rw [if_pos ⟨hpos, hline⟩, intercalate_append hhileras, hunidas]
  · rw [if_pos hline]
    refine ⟨?_, ?_, ?_⟩
    · rw [List.dropLast_concat]
      exact h.sueltas
    · intro hilera hlast hin
      rw [List.getLast?_concat] at hlast
      obtain rfl : l.line = hilera := Option.some.inj hlast
      exact hquedan hin
    · rw [if_neg fun hand => hline hand.2, intercalate_concat, h.unidas]

/-! ## The result -/

/-- Before the loop. -/
theorem cortando_inicial (line delimitador : Texto) {veces : ℤ} (h0 : 0 ≤ veces) :
    Cortando line delimitador veces ⟨0, line, []⟩ where
  cuenta := rfl
  tope := by
    dsimp only
    omega
  sueltas := fun hilera hmem => absurd hmem List.not_mem_nil
  unidas := rfl

/-- **`split` cuts the line into its pieces.** For every line, every delimiter that is not empty and
every number of cuts: an empty line makes no turn, and any other is cut by the loop. -/
theorem split_cortada {line delimitador : Texto} (hne : delimitador ≠ []) {veces : ℤ}
    (h0 : 0 ≤ veces) :
    Cortada line delimitador veces (split.locales line delimitador veces)
      (split line delimitador veces) := by
  have hinicial := cortando_inicial line delimitador h0
  by_cases hline : 0 < line.length
  · have hlocales : split.locales line delimitador veces
        = split.bucle delimitador veces ⟨0, line, []⟩ := by
      rw [split.locales, if_pos hline]
    obtain ⟨hcortando, hquedan⟩ := hinicial.bucle hne
    rw [split, hlocales]
    exact hcortando.cortada hquedan
  · have hlocales : split.locales line delimitador veces = ⟨0, line, []⟩ := by
      rw [split.locales, if_neg hline]
    rw [split, hlocales]
    refine hinicial.cortada fun hin => ?_
    -- nothing is in an empty text but an empty one
    have hnil : line = [] := by
      rwa [List.length_pos_iff, not_not] at hline
    dsimp only at hin
    rw [hnil] at hin
    exact absurd (List.infix_nil.mp hin) hne

/-- A delimiter that overlaps itself, and one cut fewer than it could be cut. -/
theorem split_cortada_solapada :
    split.locales "aaab--aa".toList "aa".toList 0 = ⟨1, "ab--aa".toList, [[]]⟩
      ∧ Cortada "aaab--aa".toList "aa".toList 0 ⟨1, "ab--aa".toList, [[]]⟩
        [[], "ab--aa".toList] := by
  have hcortada := @split_cortada "aaab--aa".toList "aa".toList (by decide) 0 (by decide)
  have hlocales : split.locales "aaab--aa".toList "aa".toList 0 = ⟨1, "ab--aa".toList, [[]]⟩ := by
    have hfind : find "aa".toList "aaab--aa".toList = some 0 := by decide
    rw [split.locales, if_pos (by decide), split.bucle_cut (by decide) hfind,
      split.bucle_done (by decide)]
    rfl
  rw [split, hlocales] at hcortada
  exact ⟨hlocales, hcortada⟩

/-! ## Without the local variables -/

/-- The loop of `Utilidades.lean` makes the same pieces. -/
theorem split.bucle_eq {delimitador : Texto} {veces : ℤ} (cortes : ℕ) (l : Locales)
    (hcortes : l.contador + cortes = veces + 1) :
    (if (split.bucle delimitador veces l).line ≠ [] then
        (split.bucle delimitador veces l).hileras ++ [(split.bucle delimitador veces l).line]
      else (split.bucle delimitador veces l).hileras)
      = l.hileras ++ Utilidades.split.bucle delimitador cortes l.line := by
  have hlast (l : Locales) : (if l.line ≠ [] then l.hileras ++ [l.line] else l.hileras)
      = l.hileras ++ if l.line ≠ [] then [l.line] else [] := by
    rw [apply_ite (l.hileras ++ ·), List.append_nil]
  induction cortes generalizing l with
  | zero =>
      rw [split.bucle_done (by omega), hlast]
      rfl
  | succ cortes ih =>
      cases hfind : find delimitador l.line with
      | none =>
          rw [split.bucle_break hfind, Utilidades.split.bucle_break hfind, hlast]
      | some posicion =>
          rw [split.bucle_cut (by omega) hfind, ih _ (by dsimp only; omega),
            Utilidades.split.bucle_cut hfind, List.append_assoc]
          rfl

/-- **This is the `split` of `Utilidades.lean`.** -/
theorem split_eq (line delimitador : Texto) (veces : ℕ) :
    split line delimitador veces = Utilidades.split line delimitador veces := by
  rw [split, split.locales, Utilidades.split]
  by_cases hline : 0 < line.length
  · rw [if_pos hline, if_pos hline]
    exact split.bucle_eq (veces + 1) ⟨0, line, []⟩ (by dsimp only; omega)
  · rw [if_neg hline, if_neg hline]
    have hnil : line = [] := by
      rwa [List.length_pos_iff, not_not] at hline
    exact if_neg (not_not_intro hnil)

end Utilidades.ConCuenta

end LoadBalancer
