/-
The cutting loop of `FileSystem.cpp`, with its counters in `int`.

`setRuta` and `crearDirectorios` cut a path at every `/` with the same loop, which keeps what `find`
returns in `int posicion` and compares it with `npos`; `Utilidades::split` keeps it in a `size_t`.
As long as every component is shorter than `2 ^ 31` bytes nothing is lost
([`FileSystem.ConInt.partir_de_cortas`]), and `setRuta` is the one of `FileSystem.lean`
([`FileSystem.ConInt.setRuta_eq`]). The first component that is not ends the loop
([`FileSystem.ConInt.partir_de_larga`]): at once when the position is `-1` as an `int`, after the
rest of the text when it is negative, and after a part of the component otherwise. What the loop
leaves of any path is [`FileSystem.ConInt.quedan`], and
[`FileSystem.ConInt.setRuta_eq_quedan`] is `setRuta` in these terms.

[`FileSystem.ConInt.setRuta_conserva_iff`] says for which paths `rutaDirectorios` and
`nombreArchivo` are the path.
-/
import LoadBalancer.FileSystem

set_option autoImplicit false

namespace LoadBalancer

open LoadBalancer.Search

/-! ## `int` positions -/

/-- The conversion to `int` gives an `int`. -/
theorem aInt_rango (n : ℤ) : -2147483648 ≤ aInt n ∧ aInt n < 2147483648 := by
  unfold aInt
  rw [Int.bmod_def]
  split_ifs <;> omega

/-- A number in the lower half of the range of an `unsigned` is kept. -/
theorem aInt_of_mod_lt {n : ℕ} (h : n % 4294967296 < 2147483648) :
    aInt n = (n % 4294967296 : ℕ) := by
  unfold aInt
  rw [Int.bmod_def]
  split_ifs <;> omega

/-- One in the upper half becomes negative. -/
theorem aInt_of_le_mod {n : ℕ} (h : 2147483648 ≤ n % 4294967296) :
    aInt n = (n % 4294967296 : ℕ) - 4294967296 := by
  unfold aInt
  rw [Int.bmod_def]
  split_ifs <;> omega

/-- As a `size_t`, only `-1` is `npos`. -/
theorem aSizeT_aInt_eq_npos_iff {n : ℤ} : aSizeT (aInt n) = npos ↔ aInt n = -1 := by
  have hrango := aInt_rango n
  unfold aSizeT npos
  omega

/-- `std::string::max_size()`. -/
def max_size : ℕ := 9223372036854775807

namespace FileSystem.ConInt

/-! ## The code -/

/-- The loop: `contador` is an `int`, and so is `posicion`. Every turn shortens the text. -/
def partir.bucle : ℕ → ℤ → Texto → Option (List Texto)
  | 0, _, _ => none
  | vueltas + 1, contador, rutaAbsoluta =>
      let posicion : ℤ := aInt (findDesde ['/'] rutaAbsoluta 0)
      if aSizeT posicion = npos then some []
      -- `contador++`
      else if contador = INT32_MAX then none
      else
        (partir.bucle vueltas (contador + 1)
          (rutaAbsoluta.drop (aSizeT ((aSizeT posicion : ℤ) + 1)))).map
          (rutaAbsoluta.take (aSizeT posicion) :: ·)

def partir (rutaAbsoluta : Texto) : Option (List Texto) :=
  partir.bucle (rutaAbsoluta.length + 1) 0 rutaAbsoluta

/-- `esDirectorio`: the loop over the characters counts in an `int` up to the length. -/
def esDirectorio (fs : FileSystem) : Option Bool :=
  fs.directorios.getLast?.bind fun dato =>
    if INT32_MAX < dato.length then none else some (!dato.contains '.')

/-- `setNombre`: the loop over the directories counts in an `int` up to their number less one. -/
def setNombre (ruta : Texto) (esDirectorio : Bool) (fs : FileSystem) : Option FileSystem :=
  if esDirectorio = false ∧ INT32_MAX + 1 < fs.directorios.length then none
  else FileSystem.setNombre ruta esDirectorio fs

/-- `setRuta`. -/
def setRuta (sis : Sistema) (ruta : Texto) (fs : FileSystem) : Option FileSystem :=
  let rutaAbsoluta := if ruta.head? = some '/' then ruta.tail else ruta
  match rutaAbsoluta.getLast? with
  | none => none
  | some ultimo =>
      let rutaAbsoluta := if ultimo ≠ '/' then rutaAbsoluta ++ ['/'] else rutaAbsoluta
      (partir rutaAbsoluta).bind fun directorios =>
        let fs := { fs with rutaDirectorios := [], directorios := directorios }
        (esDirectorio fs).bind fun esDirectorio =>
          (setNombre rutaAbsoluta esDirectorio fs).map (abrir sis)

/-! ## One component -/

/-- The text in front of the first `/` is at hand. -/
theorem findDesde_barra {pieza resto : Texto} (h : '/' ∉ pieza) :
    findDesde ['/'] (pieza ++ '/' :: resto) 0 = pieza.length := by
  unfold findDesde
  rw [List.drop_zero, find_singleton_append h]
  exact Nat.zero_add _

section Componente

variable {pieza : Texto} (h : '/' ∉ pieza) (resto : Texto) (vueltas : ℕ) (contador : ℤ)

include h

/-- A turn, up to what `posicion` is as an `int`. -/
theorem bucle_barra :
    partir.bucle (vueltas + 1) contador (pieza ++ '/' :: resto)
      = if aInt pieza.length = -1 then some []
        else if contador = INT32_MAX then none
        else
          (partir.bucle vueltas (contador + 1)
            ((pieza ++ '/' :: resto).drop (aSizeT ((aSizeT (aInt pieza.length) : ℤ) + 1)))).map
            ((pieza ++ '/' :: resto).take (aSizeT (aInt pieza.length)) :: ·) := by
  rw [partir.bucle, findDesde_barra h]
  by_cases hfin : aInt pieza.length = -1
  · rw [if_pos hfin, if_pos (aSizeT_aInt_eq_npos_iff.mpr hfin)]
  · rw [if_neg hfin, if_neg (mt aSizeT_aInt_eq_npos_iff.mp hfin)]

/-- A component shorter than `2 ^ 31` bytes goes into the vector, and out of the text. -/
theorem bucle_corta (hlargo : pieza.length ≤ INT32_MAX) :
    partir.bucle (vueltas + 1) contador (pieza ++ '/' :: resto)
      = if contador = INT32_MAX then none
        else (partir.bucle vueltas (contador + 1) resto).map (pieza :: ·) := by
  have hmax : INT32_MAX = 2147483647 := rfl
  have hint : aInt pieza.length = pieza.length := aInt_of_lt (by omega) (by omega)
  have hpos : aSizeT (pieza.length : ℤ) = pieza.length := aSizeT_natCast (by omega)
  have hcorte : aSizeT ((pieza.length : ℤ) + 1) = pieza.length + 1 := by
    unfold aSizeT
    omega
  rw [bucle_barra h, hint, hpos, hcorte, if_neg (by omega), List.take_left, ← List.drop_drop,
    List.drop_left]
  rfl

/-- A component of `-1` bytes ends the loop. -/
theorem bucle_menos_uno (hlargo : pieza.length % 4294967296 = 4294967295) :
    partir.bucle (vueltas + 1) contador (pieza ++ '/' :: resto) = some [] := by
  have hint : aInt pieza.length = -1 := by
    rw [aInt_of_le_mod (by omega), hlargo]
    rfl
  rw [bucle_barra h, if_pos hint]

/-- A long component of which the `int` is not negative: only so much of it is cut off, and from
there it is `-1` to the `/`. -/
theorem bucle_trozo (hlargo : INT32_MAX < pieza.length)
    (hmod : (pieza.length % 4294967296 : ℕ) ≤ INT32_MAX) :
    partir.bucle (vueltas + 2) contador (pieza ++ '/' :: resto)
      = if contador = INT32_MAX then none
        else some [pieza.take (pieza.length % 4294967296)] := by
  have hmax : INT32_MAX = 2147483647 := rfl
  have hint := @aInt_of_mod_lt pieza.length (by omega)
  generalize hr : pieza.length % 4294967296 = r at hint hmod ⊢
  have hpos : aSizeT (r : ℤ) = r := aSizeT_natCast (by omega)
  have hcorte : aSizeT ((r : ℤ) + 1) = r + 1 := by
    unfold aSizeT
    omega
  have hr' : r + 1 ≤ pieza.length := by omega
  have hsobra : '/' ∉ pieza.drop (r + 1) := fun hmem => h (List.mem_of_mem_drop hmem)
  have hlen : (pieza.drop (r + 1)).length % 4294967296 = 4294967295 := by
    rw [List.length_drop]
    omega
  rw [bucle_barra h, hint, hpos, hcorte, if_neg (by omega), List.take_append_of_le_length (by omega),
    List.drop_append_of_le_length hr', bucle_menos_uno hsobra _ _ _ hlen]
  rfl

/-- A long component of which the `int` is negative: as a `size_t` it is more than any text has, and
the whole text is taken for the last component. -/
theorem bucle_todo (hmod : INT32_MAX < (pieza.length % 4294967296 : ℕ))
    (hlargo : pieza.length % 4294967296 ≠ 4294967295)
    (hcabe : (pieza ++ '/' :: resto).length ≤ max_size) :
    partir.bucle (vueltas + 2) contador (pieza ++ '/' :: resto)
      = if contador = INT32_MAX then none else some [pieza ++ '/' :: resto] := by
  have hmax : INT32_MAX = 2147483647 := rfl
  unfold max_size at hcabe
  have hint := @aInt_of_le_mod pieza.length (by omega)
  generalize hr : pieza.length % 4294967296 = r at hint hmod hlargo
  have hpos : aSizeT ((r : ℤ) - 4294967296) = 18446744069414584320 + r := by
    unfold aSizeT
    omega
  have hcorte : aSizeT (((18446744069414584320 + r : ℕ) : ℤ) + 1) = 18446744069414584321 + r := by
    unfold aSizeT
    omega
  rw [bucle_barra h, hint, hpos, hcorte, if_neg (by omega), List.take_of_length_le (by omega),
    List.drop_of_length_le (by omega)]
  rfl

end Componente

/-! ## The whole path -/

/-- A component that the loop cuts off as it is: shorter than `2 ^ 31` bytes. -/
def Corta (c : Texto) : Prop := c.length ≤ INT32_MAX

instance decidableCorta (c : Texto) : Decidable (Corta c) :=
  inferInstanceAs (Decidable ((c.length : ℤ) ≤ INT32_MAX))

/-- A path with a `/` at the end is its components, each with a `/`. -/
theorem flatMap_splitOn (p : Texto) : (p.splitOn '/').flatMap (· ++ ['/']) = p ++ ['/'] := by
  have hne := List.splitOn_ne_nil '/' p
  conv_lhs => rw [← List.dropLast_append_getLast hne]
  rw [List.flatMap_append, List.flatMap_singleton, ← List.append_assoc,
    flatMap_dropLast_append_getLast, List.intercalate_splitOn]

/-- There are no more components than characters, with their `/`. -/
theorem length_le_length_flatMap (cs : List Texto) :
    cs.length ≤ (cs.flatMap (· ++ ['/'])).length := by
  induction cs with
  | nil => exact Nat.le_refl 0
  | cons c cs ih =>
      rw [List.flatMap_cons, List.length_append, List.length_append, List.length_cons,
        List.length_singleton]
      omega

theorem bucle_nil (vueltas : ℕ) (contador : ℤ) :
    partir.bucle (vueltas + 1) contador [] = some [] := by
  have hint : aInt (findDesde ['/'] [] 0 : ℕ) = -1 := by decide
  rw [partir.bucle, if_pos (aSizeT_aInt_eq_npos_iff.mpr hint)]

/-- The components up to the first long one, one turn each. -/
theorem bucle_cortas {antes : List Texto} (h : ∀ c ∈ antes, '/' ∉ c ∧ Corta c) (resto : Texto)
    (vueltas : ℕ) {contador : ℤ} (hcontador : contador ≤ INT32_MAX) :
    partir.bucle (antes.length + vueltas) contador (antes.flatMap (· ++ ['/']) ++ resto)
      = if INT32_MAX < contador + antes.length then none
        else (partir.bucle vueltas (contador + antes.length) resto).map (antes ++ ·) := by
  induction antes generalizing contador with
  | nil =>
      have hsuma : contador + (([] : List Texto).length : ℤ) = contador := Int.add_zero contador
      rw [hsuma, List.length_nil, Nat.zero_add, if_neg (by omega), List.flatMap_nil,
        List.nil_append]
      cases partir.bucle vueltas contador resto with
      | none => rfl
      | some v => rfl
  | cons c antes ih =>
      obtain ⟨hbarra, hcorta⟩ := h c List.mem_cons_self
      have hvueltas : (c :: antes).length + vueltas = antes.length + vueltas + 1 := by
        rw [List.length_cons]
        omega
      have htexto : (c :: antes).flatMap (· ++ ['/']) ++ resto
          = c ++ '/' :: (antes.flatMap (· ++ ['/']) ++ resto) := by
        rw [List.flatMap_cons, List.append_assoc, List.append_assoc]
        rfl
      have hlargo : ((c :: antes).length : ℤ) = antes.length + 1 := Int.natCast_succ antes.length
      rw [hvueltas, htexto, bucle_corta hbarra _ _ _ hcorta, hlargo]
      by_cases hfin : contador = INT32_MAX
      · rw [if_pos hfin, if_pos (by omega)]
      · have hsuma : contador + 1 + (antes.length : ℤ) = contador + ((antes.length : ℤ) + 1) := by
          omega
        rw [if_neg hfin, ih (fun d hd => h d (List.mem_cons_of_mem _ hd)) (by omega), hsuma]
        by_cases hdesborda : INT32_MAX < contador + ((antes.length : ℤ) + 1)
        · rw [if_pos hdesborda, if_pos hdesborda]
          rfl
        · rw [if_neg hdesborda, if_neg hdesborda, Option.map_map]
          rfl

/-- **A path without a long component is cut at every `/`**, if the counter holds their number. -/
theorem partir_de_cortas {p : Texto} (h : ∀ c ∈ p.splitOn '/', Corta c) :
    partir (p ++ ['/'])
      = if INT32_MAX < (p.splitOn '/').length then none else some (p.splitOn '/') := by
  have hlen := length_le_length_flatMap (p.splitOn '/')
  have hcortas := bucle_cortas (fun c hc => ⟨not_mem_of_mem_splitOn hc, h c hc⟩) []
    ((p ++ ['/']).length - (p.splitOn '/').length + 1) (show (0 : ℤ) ≤ INT32_MAX by decide)
  rw [flatMap_splitOn] at hlen
  rw [flatMap_splitOn, List.append_nil, bucle_nil, Option.map_some, List.append_nil,
    Int.zero_add,
    ← Nat.add_assoc, Nat.add_sub_cancel' hlen] at hcortas
  exact hcortas

/-- What the loop takes for the last component when it comes to a long one. -/
def ultimaPieza (larga : Texto) (despues : List Texto) : Texto :=
  if (larga.length % 4294967296 : ℕ) ≤ INT32_MAX then larga.take (larga.length % 4294967296)
  else (larga :: despues).flatMap (· ++ ['/'])

/-- With a negative length, the last component is what the text has left, and that is long. -/
theorem not_corta_ultimaPieza {larga : Texto} {despues : List Texto} (hlarga : ¬ Corta larga)
    (hmod : ¬ ((larga.length % 4294967296 : ℕ) : ℤ) ≤ INT32_MAX) :
    ¬ Corta (ultimaPieza larga despues) := by
  unfold Corta at hlarga ⊢
  rw [ultimaPieza, if_neg hmod, List.flatMap_cons, List.length_append, List.length_append]
  omega

/-- **The first long component ends the loop.** -/
theorem partir_de_larga {p larga : Texto} {antes despues : List Texto}
    (hp : p.splitOn '/' = antes ++ larga :: despues) (hantes : ∀ c ∈ antes, Corta c)
    (hlarga : ¬ Corta larga) (hcabe : p.length < max_size) :
    partir (p ++ ['/'])
      = if larga.length % 4294967296 = 4294967295 then
          if INT32_MAX < antes.length then none else some antes
        else if INT32_MAX ≤ antes.length then none
        else some (antes ++ [ultimaPieza larga despues]) := by
  have hmax : INT32_MAX = 2147483647 := rfl
  have hbarra : ∀ c ∈ antes ++ larga :: despues, '/' ∉ c := fun c hc =>
    not_mem_of_mem_splitOn (by rw [hp]; exact hc)
  have hlen := length_le_length_flatMap (p.splitOn '/')
  have htexto := flatMap_splitOn p
  rw [htexto, hp, List.length_append, List.length_cons] at hlen
  rw [hp, List.flatMap_append] at htexto
  have hresto : (larga :: despues).flatMap (· ++ ['/'])
      = larga ++ '/' :: despues.flatMap (· ++ ['/']) := by
    rw [List.flatMap_cons, List.append_assoc]
    rfl
  have hcaberesto : (larga ++ '/' :: despues.flatMap (· ++ ['/'])).length ≤ max_size := by
    have htotal := congrArg List.length htexto
    have hmas : (p ++ ['/']).length = p.length + 1 := List.length_append
    rw [hresto, List.length_append] at htotal
    omega
  have hvueltas : (p ++ ['/']).length + 1
      = antes.length + ((p ++ ['/']).length - antes.length - 1 + 2) := by omega
  have hcortas := bucle_cortas
    (fun c hc => ⟨hbarra c (List.mem_append_left _ hc), hantes c hc⟩)
    ((larga :: despues).flatMap (· ++ ['/'])) ((p ++ ['/']).length - antes.length - 1 + 2)
    (show (0 : ℤ) ≤ INT32_MAX by decide)
  have hlargabarra : '/' ∉ larga := hbarra larga (by simp)
  have hlargo : INT32_MAX < larga.length := by
    unfold Corta at hlarga
    omega
  rw [htexto, Int.zero_add, ← hvueltas, hresto] at hcortas
  rw [partir, hcortas]
  by_cases hfin : larga.length % 4294967296 = 4294967295
  · rw [if_pos hfin, bucle_menos_uno hlargabarra _ _ _ hfin, Option.map_some, List.append_nil]
  · -- one more component, which the counter has to have room for
    rw [if_neg hfin, ultimaPieza, hresto]
    have hjunta {v : List Texto} :
        (if INT32_MAX < (antes.length : ℤ) then none
          else (if (antes.length : ℤ) = INT32_MAX then none else some v).map (antes ++ ·))
          = if INT32_MAX ≤ (antes.length : ℤ) then none else some (antes ++ v) := by
      split_ifs with h1 h2 h3 h4 h5
      · rfl
      · omega
      · rfl
      · omega
      · omega
      · rfl
    by_cases hmod : ((larga.length % 4294967296 : ℕ) : ℤ) ≤ INT32_MAX
    · rw [if_pos hmod, bucle_trozo hlargabarra _ _ _ hlargo hmod, hjunta]
    · rw [if_neg hmod, bucle_todo hlargabarra _ _ _ (by omega) hfin hcaberesto, hjunta]

/-- A path without long components, or with a first one. -/
theorem cortas_o_larga (cs : List Texto) :
    (∀ c ∈ cs, Corta c)
      ∨ ∃ antes larga despues, cs = antes ++ larga :: despues ∧ (∀ c ∈ antes, Corta c)
        ∧ ¬ Corta larga := by
  cases hfind : cs.find? (fun c => decide (¬ Corta c)) with
  | none =>
      left
      intro c hc
      have := List.find?_eq_none.mp hfind c hc
      simpa using this
  | some larga =>
      obtain ⟨hlarga, antes, despues, hcs, hantes⟩ := List.find?_eq_some_iff_append.mp hfind
      refine .inr ⟨antes, larga, despues, hcs, fun c hc => ?_, of_decide_eq_true hlarga⟩
      simpa using hantes c hc

/-! ## `setRuta` -/

/-- The members when the path has been cut. -/
def cortada (v : List Texto) (fs : FileSystem) : FileSystem :=
  { fs with rutaDirectorios := [], directorios := v }

/-- What `setRuta` does with the vector. -/
def nombrar (sis : Sistema) (p : Texto) (v : List Texto) (fs : FileSystem) : Option FileSystem :=
  (esDirectorio (cortada v fs)).bind fun esDirectorio =>
    (setNombre (p ++ ['/']) esDirectorio (cortada v fs)).map (abrir sis)

theorem length_sinBarras_le (ruta : Texto) : (sinBarras ruta).length ≤ ruta.length := by
  have hprimera : (if ruta.head? = some '/' then ruta.tail else ruta).length ≤ ruta.length := by
    split_ifs
    · rw [List.length_tail]
      omega
    · exact Nat.le_refl _
  unfold sinBarras
  dsimp only
  split_ifs at hprimera ⊢
  all_goals
    try rw [List.length_dropLast]
    omega

/-- There is a last character to look at. -/
theorem sinPrimera_ne_nil {ruta : Texto} (hne : ruta ≠ []) (hbarra : ruta ≠ ['/']) :
    (if ruta.head? = some '/' then ruta.tail else ruta) ≠ [] := by
  cases ruta with
  | nil => exact absurd rfl hne
  | cons c resto =>
      split_ifs with h
      · rintro rfl
        cases h
        exact hbarra rfl
      · exact hne

/-- `setRuta` up to the vector. -/
theorem setRuta_eq_bind (sis : Sistema) {ruta : Texto} (fs : FileSystem) (hne : ruta ≠ [])
    (hbarra : ruta ≠ ['/']) :
    setRuta sis ruta fs
      = (partir (sinBarras ruta ++ ['/'])).bind fun v => nombrar sis (sinBarras ruta) v fs := by
  obtain ⟨ultimo, hultimo, hruta⟩ := exists_rutaAbsoluta (sinPrimera_ne_nil hne hbarra)
  unfold setRuta
  dsimp only
  rw [hultimo]
  dsimp only
  rw [hruta]
  rfl

/-- There is no last entry in an empty vector. -/
theorem nombrar_de_nada (sis : Sistema) (p : Texto) {v : List Texto} (fs : FileSystem)
    (hv : v.getLast? = none) : nombrar sis p v fs = none := by
  unfold nombrar esDirectorio cortada
  rw [hv, Option.bind_none, Option.bind_none]

section Nombrar

variable (sis : Sistema) (p : Texto) {v : List Texto} {ultimo : Texto} (fs : FileSystem)
  (hv : v.getLast? = some ultimo)

include hv

/-- A last entry of `2 ^ 31` bytes is too long for the counter of `esDirectorio`. -/
theorem nombrar_de_larga (h : ¬ Corta ultimo) : nombrar sis p v fs = none := by
  unfold Corta at h
  unfold nombrar esDirectorio cortada
  rw [hv, Option.bind_some, if_pos (by omega), Option.bind_none]

/-- Otherwise a dot in it decides. -/
theorem nombrar_de_corta (h : Corta ultimo) (hlargo : v.length ≤ INT32_MAX) :
    nombrar sis p v fs
      = some (abrir sis
          (if '.' ∈ ultimo then
            { cortada v fs with
              rutaDirectorios := v.dropLast.flatMap (· ++ ['/']), nombreArchivo := ultimo }
          else { cortada v fs with rutaDirectorios := p ++ ['/'], nombreArchivo := [] })) := by
  unfold Corta at h
  have hcabe (e : Bool) :
      ¬ (e = false ∧ INT32_MAX + 1 < ((cortada v fs).directorios.length : ℤ)) := by
    rintro ⟨-, hmas⟩
    have : (cortada v fs).directorios = v := rfl
    rw [this] at hmas
    omega
  unfold nombrar esDirectorio
  rw [show (cortada v fs).directorios = v from rfl, hv, Option.bind_some, if_neg (by omega),
    Option.bind_some, setNombre, if_neg (hcabe _)]
  by_cases hpunto : '.' ∈ ultimo
  · rw [if_pos hpunto, List.contains_eq_mem, decide_eq_true hpunto, Bool.not_true]
    unfold FileSystem.setNombre
    rw [if_neg Bool.false_ne_true, show (cortada v fs).directorios = v from rfl, hv]
    rfl
  · rw [if_neg hpunto, List.contains_eq_mem, decide_eq_false hpunto, Bool.not_false]
    rfl

end Nombrar

/-- **`setRuta` is the one of `FileSystem.lean`**, unless a component is long or there are too
many. -/
theorem setRuta_eq (sis : Sistema) {ruta : Texto} (fs : FileSystem) (hne : ruta ≠ [])
    (hbarra : ruta ≠ ['/']) (hcortas : ∀ c ∈ (sinBarras ruta).splitOn '/', Corta c)
    (hlargo : ((sinBarras ruta).splitOn '/').length ≤ INT32_MAX) :
    setRuta sis ruta fs = FileSystem.setRuta sis ruta fs := by
  have hultimo : ((sinBarras ruta).splitOn '/').getLast?
      = some (ultimoComponente (sinBarras ruta)) :=
    List.getLast?_eq_some_getLast _
  rw [FileSystem.setRuta_eq sis fs (sinPrimera_ne_nil hne hbarra), setRuta_eq_bind sis fs hne hbarra,
    partir_de_cortas hcortas, if_neg (by omega), Option.bind_some,
    nombrar_de_corta sis _ fs hultimo (hcortas _ (List.mem_of_getLast? hultimo)) hlargo]
  by_cases hpunto : '.' ∈ ultimoComponente (sinBarras ruta)
  · rw [if_pos hpunto, flatMap_dropLast_splitOn, directorioDe, nombreDe, if_pos hpunto,
      if_pos hpunto]
    rfl
  · rw [if_neg hpunto, directorioDe, nombreDe, if_neg hpunto, if_neg hpunto]
    rfl

/-! ## `extensionArchivo` -/

/-- `extensionArchivo`, with the position of the dot in an `int`. -/
def extensionArchivo (fs : FileSystem) : FileSystem :=
  let posicion : ℤ := aInt (findDesde ['.'] fs.nombreArchivo 0)
  { fs with extension := (fs.nombreArchivo.drop (aSizeT (posicion + 1))).map Char.toLower }

/-- The dot of a short name has its place in an `int`, and `npos` becomes `-1` and the place `0`. -/
theorem extensionArchivo_eq {fs : FileSystem} (h : Corta fs.nombreArchivo) :
    extensionArchivo fs = FileSystem.extensionArchivo fs := by
  unfold extensionArchivo FileSystem.extensionArchivo findDesde
  rw [List.drop_zero]
  cases hfind : find ['.'] fs.nombreArchivo with
  | none => rfl
  | some posicion =>
      have hlargo := congrArg List.length (eq_append_of_find hfind)
      simp only [List.length_append, List.length_take, List.length_drop,
        List.length_singleton] at hlargo
      have hmax : INT32_MAX = 2147483647 := rfl
      unfold Corta at h
      have hint : aInt posicion = posicion := aInt_of_lt (by omega) (by omega)
      have hcorte : aSizeT ((posicion : ℤ) + 1) = posicion + 1 := by
        unfold aSizeT
        omega
      dsimp only
      rw [Nat.zero_add, hint, hcorte]

/-- `setNombre` sets a short name, or none. -/
theorem corta_of_nombrar {sis : Sistema} {p : Texto} {v : List Texto} {fs fs' : FileSystem}
    (h : nombrar sis p v fs = some fs') : Corta fs'.nombreArchivo := by
  cases hultimo : v.getLast? with
  | none =>
      rw [nombrar_de_nada sis p fs hultimo] at h
      cases h
  | some ultimo =>
      by_cases hcorta : Corta ultimo
      · have hcuenta : ¬ INT32_MAX < (ultimo.length : ℤ) := Int.not_lt.mpr hcorta
        unfold nombrar esDirectorio at h
        rw [show (cortada v fs).directorios = v from rfl, hultimo, Option.bind_some, if_neg hcuenta,
          Option.bind_some] at h
        obtain ⟨nombrada, hnombrada, rfl⟩ := Option.map_eq_some_iff.mp h
        unfold setNombre FileSystem.setNombre at hnombrada
        rw [abrir_nombreArchivo]
        split_ifs at hnombrada
        · cases hnombrada
          exact (by decide : Corta [])
        · rw [show (cortada v fs).directorios = v from rfl, hultimo] at hnombrada
          cases hnombrada
          exact hcorta
      · rw [nombrar_de_larga sis p fs hultimo hcorta] at h
        cases h

/-- **Behind `setRuta` the `int` makes no difference to the extension**: a name that would not fit
has been too long for `esDirectorio` already. -/
theorem extensionArchivo_of_setRuta {sis : Sistema} {ruta : Texto} {fs fs' : FileSystem}
    (h : setRuta sis ruta fs = some fs') :
    extensionArchivo fs' = FileSystem.extensionArchivo fs' := by
  have hne : ruta ≠ [] := by
    rintro rfl
    cases h
  have hbarra : ruta ≠ ['/'] := by
    rintro rfl
    cases h
  rw [setRuta_eq_bind sis fs hne hbarra] at h
  obtain ⟨v, -, hv⟩ := Option.bind_eq_some_iff.mp h
  exact extensionArchivo_eq (corta_of_nombrar hv)

/-! ## Any path -/

/-- What the `int`s leave of the components: those in front of the first long one, and of that one
as much as its length is as an `int`. At `-1` that is nothing; a negative length makes one entry of
the rest of the path, which is too long for `esDirectorio`. -/
def quedan : List Texto → Option (List Texto)
  | [] => some []
  | c :: cs =>
      if Corta c then (quedan cs).map (c :: ·)
      else if c.length % 4294967296 = 4294967295 then some []
      else if (c.length % 4294967296 : ℕ) ≤ INT32_MAX then
        some [c.take (c.length % 4294967296)]
      else none

theorem quedan_append {antes : List Texto} (h : ∀ c ∈ antes, Corta c) (resto : List Texto) :
    quedan (antes ++ resto) = (quedan resto).map (antes ++ ·) := by
  induction antes with
  | nil =>
      rw [List.nil_append]
      cases quedan resto with
      | none => rfl
      | some v => rfl
  | cons c antes ih =>
      rw [List.cons_append, quedan, if_pos (h c List.mem_cons_self),
        ih fun d hd => h d (List.mem_cons_of_mem _ hd), Option.map_map]
      rfl

/-- Short components all stay. -/
theorem quedan_de_cortas {cs : List Texto} (h : ∀ c ∈ cs, Corta c) : quedan cs = some cs := by
  have happ := quedan_append h []
  rw [List.append_nil] at happ
  rw [happ, quedan, Option.map_some, List.append_nil]

/-- What stays is short. -/
theorem corta_of_mem_quedan {cs v : List Texto} (h : quedan cs = some v) {c : Texto} (hc : c ∈ v) :
    Corta c := by
  induction cs generalizing v with
  | nil =>
      cases h
      cases hc
  | cons d cs ih =>
      unfold quedan at h
      split_ifs at h with hcorta hmenos hmod
      · obtain ⟨v', hv', rfl⟩ := Option.map_eq_some_iff.mp h
        rcases List.mem_cons.mp hc with rfl | hc
        · exact hcorta
        · exact ih hv' hc
      · cases h
        cases hc
      · cases h
        rw [List.mem_singleton.mp hc]
        unfold Corta
        rw [List.length_take]
        omega

/-- What stays of the first component is the beginning of it, or nothing is left at all. -/
theorem prefix_of_quedan_cons {c : Texto} {cs v : List Texto} {primera : Texto}
    (h : quedan (c :: cs) = some (primera :: v)) :
    primera <+: c ∧ (v ≠ [] → primera = c) := by
  unfold quedan at h
  split_ifs at h with hcorta hmenos hmod
  · obtain ⟨v', -, heq⟩ := Option.map_eq_some_iff.mp h
    cases heq
    exact ⟨List.prefix_refl _, fun _ => rfl⟩
  · cases h
  · cases h
    exact ⟨List.take_prefix _ _, fun hne => absurd rfl hne⟩

/-- The vector of the loop is what stays, as far as `setRuta` has a result with it. -/
theorem partir_bind_nombrar (sis : Sistema) {p : Texto} (fs : FileSystem)
    (hcabe : p.length < max_size) :
    ((partir (p ++ ['/'])).bind fun v => nombrar sis p v fs)
      = (quedan (p.splitOn '/')).bind fun v =>
          if INT32_MAX < v.length then none else nombrar sis p v fs := by
  rcases cortas_o_larga (p.splitOn '/') with hcortas | ⟨antes, larga, despues, hp, hantes, hlarga⟩
  · rw [partir_de_cortas hcortas, quedan_de_cortas hcortas, Option.bind_some]
    split_ifs
    · rfl
    · rfl
  rw [partir_de_larga hp hantes hlarga hcabe, hp, quedan_append hantes, quedan, if_neg hlarga]
  by_cases hmenos : larga.length % 4294967296 = 4294967295
  · rw [if_pos hmenos, if_pos hmenos, Option.map_some, Option.bind_some, List.append_nil]
    split_ifs
    · rfl
    · rfl
  rw [if_neg hmenos, if_neg hmenos]
  by_cases hmod : ((larga.length % 4294967296 : ℕ) : ℤ) ≤ INT32_MAX
  · have hlen : ((antes ++ [larga.take (larga.length % 4294967296)]).length : ℤ)
        = antes.length + 1 := by
      rw [List.length_append, List.length_singleton]
      rfl
    rw [if_pos hmod, Option.map_some, Option.bind_some, hlen, ultimaPieza, if_pos hmod]
    by_cases hmas : INT32_MAX ≤ (antes.length : ℤ)
    · rw [if_pos hmas, if_pos (by omega), Option.bind_none]
    · rw [if_neg hmas, if_neg (by omega), Option.bind_some]
  · rw [if_neg hmod, Option.map_none, Option.bind_none]
    split_ifs
    · rfl
    · -- an entry that `esDirectorio` cannot count through
      rw [Option.bind_some]
      exact nombrar_de_larga sis p fs List.getLast?_concat (not_corta_ultimaPieza hlarga hmod)

/-- **`setRuta` on any path**, long components or not. -/
theorem setRuta_eq_quedan (sis : Sistema) {ruta : Texto} (fs : FileSystem) (hne : ruta ≠ [])
    (hbarra : ruta ≠ ['/']) (hcabe : (sinBarras ruta).length < max_size) :
    setRuta sis ruta fs
      = (quedan ((sinBarras ruta).splitOn '/')).bind fun v =>
          if INT32_MAX < v.length then none else nombrar sis (sinBarras ruta) v fs := by
  rw [setRuta_eq_bind sis fs hne hbarra, partir_bind_nombrar sis fs hcabe]

/-! ## What is kept of the path -/

/-- The directory and the name are the path: cut in front of its last component when that holds a
dot, and all of it, with a `/`, when it does not. -/
structure Conserva (p : Texto) (fs : FileSystem) : Prop where
  nombre : '.' ∈ ultimoComponente p →
    fs.rutaDirectorios ++ fs.nombreArchivo = p ∧ fs.nombreArchivo = ultimoComponente p
  directorio : '.' ∉ ultimoComponente p →
    fs.rutaDirectorios = p ++ ['/'] ∧ fs.nombreArchivo = []

/-- What `FileSystem.setRuta_eq` says of the two names is that nothing is lost. -/
theorem conserva_de {p : Texto} {fs : FileSystem} (hruta : fs.rutaDirectorios = directorioDe p)
    (hnombre : fs.nombreArchivo = nombreDe p) : Conserva p fs where
  nombre h := by
    rw [hruta, hnombre]
    exact ⟨directorioDe_append_nombreDe h, if_pos h⟩
  directorio h := by
    rw [hruta, hnombre]
    exact ⟨if_neg h, if_neg h⟩

/-- With a vector that has lost something, only a path whose last component has no dot is kept, and
only if the last entry has none. -/
theorem conserva_de_vector_iff (sis : Sistema) {p : Texto} {v : List Texto} {ultimo : Texto}
    (fs : FileSystem) (hv : v.getLast? = some ultimo) (hcorta : Corta ultimo)
    (hlargo : v.length ≤ INT32_MAX)
    (hpierde : (v.flatMap (· ++ ['/'])).length < (p ++ ['/']).length) :
    (∃ fs', nombrar sis p v fs = some fs' ∧ Conserva p fs')
      ↔ '.' ∉ ultimoComponente p ∧ '.' ∉ ultimo := by
  have hsome : (∃ fs', nombrar sis p v fs = some fs' ∧ Conserva p fs') ↔ Conserva p (abrir sis
      (if '.' ∈ ultimo then
        { cortada v fs with
          rutaDirectorios := v.dropLast.flatMap (· ++ ['/']), nombreArchivo := ultimo }
      else { cortada v fs with rutaDirectorios := p ++ ['/'], nombreArchivo := [] })) := by
    rw [nombrar_de_corta sis p fs hv hcorta hlargo]
    constructor
    · rintro ⟨fs', h, hconserva⟩
      cases h
      exact hconserva
    · exact fun h => ⟨_, rfl, h⟩
  rw [hsome]
  by_cases hpunto : '.' ∈ ultimo
  · -- the last entry is taken for the name: it is not empty, and the two together are too short
    rw [if_pos hpunto]
    constructor
    · rintro ⟨hnombre, hdirectorio⟩
      rw [abrir_rutaDirectorios, abrir_nombreArchivo] at hnombre hdirectorio
      by_cases hp : '.' ∈ ultimoComponente p
      · have hlen : (v.dropLast.flatMap (· ++ ['/']) ++ ultimo).length = p.length :=
          congrArg List.length (hnombre hp).1
        have hv' : v.flatMap (· ++ ['/']) = v.dropLast.flatMap (· ++ ['/']) ++ ultimo ++ ['/'] := by
          conv_lhs => rw [← List.dropLast_append_getLast? ultimo hv]
          rw [List.flatMap_append, List.flatMap_singleton, List.append_assoc]
        rw [hv', List.length_append, hlen, List.length_append] at hpierde
        omega
      · have hnil := (hdirectorio hp).2
        dsimp only at hnil
        rw [hnil] at hpunto
        cases hpunto
    · exact fun h => absurd hpunto h.2
  · rw [if_neg hpunto]
    constructor
    · rintro ⟨hnombre, -⟩
      rw [abrir_rutaDirectorios, abrir_nombreArchivo] at hnombre
      refine ⟨fun hp => ?_, hpunto⟩
      have hlen := congrArg List.length (hnombre hp).1
      simp at hlen
    · rintro ⟨hp, -⟩
      exact
        { nombre := fun h => absurd h hp
          directorio := fun _ => by
            rw [abrir_rutaDirectorios, abrir_nombreArchivo]
            exact ⟨rfl, rfl⟩ }

/-- Every component is shorter than `2 ^ 31` bytes, and there are fewer than `2 ^ 31` of them. -/
def TodasCortas (p : Texto) : Prop :=
  (p.splitOn '/').length ≤ INT32_MAX ∧ ∀ c ∈ p.splitOn '/', Corta c

/-- The last component has no dot, and neither has what stands last in the vector, where the first
long component ended the loop: the component before it, if its own length is `-1` as an `int`; or
as much of it as that `int` says, if it is not negative. -/
def SinPuntos (p : Texto) : Prop :=
  '.' ∉ ultimoComponente p
    ∧ ∃ antes larga despues, p.splitOn '/' = antes ++ larga :: despues
      ∧ (∀ c ∈ antes, Corta c) ∧ ¬ Corta larga
      ∧ ((larga.length % 4294967296 = 4294967295 ∧ antes.length ≤ INT32_MAX
            ∧ ∃ ultimo, antes.getLast? = some ultimo ∧ '.' ∉ ultimo)
          ∨ ((larga.length % 4294967296 : ℕ) ≤ INT32_MAX ∧ antes.length < INT32_MAX
            ∧ '.' ∉ larga.take (larga.length % 4294967296)))

/-- There is no result to keep anything. -/
theorem not_conserva_none (p : Texto) :
    ¬ ∃ fs', (none : Option FileSystem) = some fs' ∧ Conserva p fs' := by
  rintro ⟨fs', h, -⟩
  cases h

section Larga

variable (sis : Sistema) {p larga : Texto} {antes despues : List Texto} (fs : FileSystem)
  (hp : p.splitOn '/' = antes ++ larga :: despues)

include hp

/-- The components in front of the long one, it, and what is behind. -/
theorem length_eq_de_larga : (p ++ ['/']).length
    = (antes.flatMap (· ++ ['/'])).length + (larga.length + 1)
      + (despues.flatMap (· ++ ['/'])).length := by
  rw [← flatMap_splitOn p, hp, List.flatMap_append, List.length_append, List.flatMap_cons,
    List.length_append, List.length_append, List.length_singleton, Nat.add_assoc, Nat.add_assoc,
    Nat.add_assoc]

/-- Where the vector ends in front of it, the component before decides. -/
theorem conserva_de_antes_iff (hantes : ∀ c ∈ antes, Corta c) (hcuantos : antes.length ≤ INT32_MAX) :
    (∃ fs', nombrar sis p antes fs = some fs' ∧ Conserva p fs')
      ↔ '.' ∉ ultimoComponente p ∧ ∃ ultimo, antes.getLast? = some ultimo ∧ '.' ∉ ultimo := by
  have hpierde : (antes.flatMap (· ++ ['/'])).length < (p ++ ['/']).length := by
    rw [length_eq_de_larga hp]
    omega
  have hultima {ultimo : Texto} (h : antes.getLast? = some ultimo) :=
    conserva_de_vector_iff sis fs h (hantes ultimo (List.mem_of_getLast? h)) hcuantos hpierde
  constructor
  · intro h
    cases hultimo : antes.getLast? with
    | none =>
        rw [nombrar_de_nada sis p fs hultimo] at h
        exact absurd h (not_conserva_none p)
    | some ultimo =>
        rw [hultima hultimo] at h
        exact ⟨h.1, ultimo, rfl, h.2⟩
  · rintro ⟨hpunto, ultimo, hultimo, hsin⟩
    exact (hultima hultimo).mpr ⟨hpunto, hsin⟩

variable (hlarga : ¬ Corta larga)

include hlarga

/-- Where it ends with a part of it, this part. -/
theorem conserva_de_trozo_iff (hmod : (larga.length % 4294967296 : ℕ) ≤ INT32_MAX)
    (hcuantos : antes.length < INT32_MAX) :
    (∃ fs', nombrar sis p (antes ++ [larga.take (larga.length % 4294967296)]) fs = some fs'
        ∧ Conserva p fs')
      ↔ '.' ∉ ultimoComponente p ∧ '.' ∉ larga.take (larga.length % 4294967296) := by
  have hcorta : Corta (larga.take (larga.length % 4294967296)) := by
    unfold Corta
    rw [List.length_take]
    omega
  have hlen : (antes ++ [larga.take (larga.length % 4294967296)]).length = antes.length + 1 :=
    List.length_append
  have hpierde : ((antes ++ [larga.take (larga.length % 4294967296)]).flatMap
      (· ++ ['/'])).length < (p ++ ['/']).length := by
    unfold Corta at hlarga
    rw [length_eq_de_larga hp, List.flatMap_append, List.flatMap_singleton, List.length_append,
      List.length_append, List.length_take, List.length_singleton]
    omega
  exact conserva_de_vector_iff sis fs List.getLast?_concat hcorta (by omega) hpierde

omit hp in
/-- Where it ends with the rest of the text, that is too long for `esDirectorio`. -/
theorem nombrar_de_resto (hmod : ¬ ((larga.length % 4294967296 : ℕ) : ℤ) ≤ INT32_MAX) :
    nombrar sis p (antes ++ [ultimaPieza larga despues]) fs = none :=
  nombrar_de_larga sis p fs List.getLast?_concat (not_corta_ultimaPieza hlarga hmod)

/-- **What is left of the path at the first long component**, however long it is. -/
theorem conserva_de_larga_iff (hantes : ∀ c ∈ antes, Corta c) (hcabe : p.length < max_size) :
    (∃ fs', ((partir (p ++ ['/'])).bind fun v => nombrar sis p v fs) = some fs' ∧ Conserva p fs')
      ↔ '.' ∉ ultimoComponente p
        ∧ ((larga.length % 4294967296 = 4294967295 ∧ antes.length ≤ INT32_MAX
              ∧ ∃ ultimo, antes.getLast? = some ultimo ∧ '.' ∉ ultimo)
            ∨ ((larga.length % 4294967296 : ℕ) ≤ INT32_MAX ∧ antes.length < INT32_MAX
              ∧ '.' ∉ larga.take (larga.length % 4294967296))) := by
  have hmax : INT32_MAX = 2147483647 := rfl
  rw [partir_de_larga hp hantes hlarga hcabe]
  by_cases hfin : larga.length % 4294967296 = 4294967295
  · rw [if_pos hfin]
    by_cases hmas : INT32_MAX < antes.length
    · rw [if_pos hmas, Option.bind_none, iff_false_left (not_conserva_none p)]
      rintro ⟨-, ⟨-, hcuantos, -⟩ | ⟨hmod, -⟩⟩
      · omega
      · omega
    · rw [if_neg hmas, Option.bind_some, conserva_de_antes_iff sis fs hp hantes (by omega)]
      constructor
      · rintro ⟨hpunto, hultimo⟩
        exact ⟨hpunto, .inl ⟨hfin, by omega, hultimo⟩⟩
      · rintro ⟨hpunto, ⟨-, -, hultimo⟩ | ⟨hmod, -⟩⟩
        · exact ⟨hpunto, hultimo⟩
        · omega
  rw [if_neg hfin]
  by_cases hmas : INT32_MAX ≤ antes.length
  · -- no room for one entry more
    rw [if_pos hmas, Option.bind_none, iff_false_left (not_conserva_none p)]
    rintro ⟨-, ⟨hmenos, -⟩ | ⟨-, hcuantos, -⟩⟩
    · exact hfin hmenos
    · omega
  rw [if_neg hmas, Option.bind_some]
  by_cases hmod : ((larga.length % 4294967296 : ℕ) : ℤ) ≤ INT32_MAX
  · have hpieza : ultimaPieza larga despues = larga.take (larga.length % 4294967296) := if_pos hmod
    rw [hpieza, conserva_de_trozo_iff sis fs hp hlarga hmod (by omega)]
    constructor
    · rintro ⟨hpunto, hsin⟩
      exact ⟨hpunto, .inr ⟨hmod, by omega, hsin⟩⟩
    · rintro ⟨hpunto, ⟨hmenos, -⟩ | ⟨-, -, hsin⟩⟩
      · exact absurd hmenos hfin
      · exact ⟨hpunto, hsin⟩
  · rw [nombrar_de_resto sis fs hlarga hmod, iff_false_left (not_conserva_none p)]
    rintro ⟨-, ⟨hmenos, -⟩ | ⟨hmod', -⟩⟩
    · exact hfin hmenos
    · exact hmod hmod'

end Larga

/-- **Which paths `setRuta` keeps**: for every path, system of files and state of the members. The
loop keeps a `size_t` in an `int`, so that the first component of `2 ^ 31` bytes is its last. -/
theorem setRuta_conserva_iff (sis : Sistema) {ruta : Texto} (fs : FileSystem) (hne : ruta ≠ [])
    (hbarra : ruta ≠ ['/']) (hcabe : ruta.length < max_size) :
    (∃ fs', setRuta sis ruta fs = some fs' ∧ Conserva (sinBarras ruta) fs')
      ↔ TodasCortas (sinBarras ruta) ∨ SinPuntos (sinBarras ruta) := by
  have hlargo : (sinBarras ruta).length < max_size :=
    Nat.lt_of_le_of_lt (length_sinBarras_le ruta) hcabe
  constructor
  · intro h
    rcases cortas_o_larga ((sinBarras ruta).splitOn '/') with hcortas | hprimera
    · -- cut at every `/`, the counter has to reach the end
      left
      refine ⟨?_, hcortas⟩
      obtain ⟨fs', hfs', -⟩ := h
      rw [setRuta_eq_bind sis fs hne hbarra, partir_de_cortas hcortas] at hfs'
      split_ifs at hfs' with hmas
      · cases hfs'
      · omega
    · right
      obtain ⟨antes, larga, despues, hp, hantes, hlarga⟩ := hprimera
      rw [setRuta_eq_bind sis fs hne hbarra,
        conserva_de_larga_iff sis fs hp hlarga hantes hlargo] at h
      exact ⟨h.1, antes, larga, despues, hp, hantes, hlarga, h.2⟩
  · rintro (⟨htodas, hcortas⟩ | ⟨hpunto, antes, larga, despues, hp, hantes, hlarga, hresto⟩)
    · rw [setRuta_eq sis fs hne hbarra hcortas htodas,
        FileSystem.setRuta_eq sis fs (sinPrimera_ne_nil hne hbarra)]
      exact ⟨_, rfl, conserva_de (abrir_rutaDirectorios _ _) (abrir_nombreArchivo _ _)⟩
    · rw [setRuta_eq_bind sis fs hne hbarra, conserva_de_larga_iff sis fs hp hlarga hantes hlargo]
      exact ⟨hpunto, hresto⟩

/-- A file in a directory. -/
theorem setRuta_conserva_fichero :
    ∃ fs', setRuta .sinArchivos "/a/b.c".toList .nuevo = some fs'
      ∧ Conserva (sinBarras "/a/b.c".toList) fs' :=
  (setRuta_conserva_iff .sinArchivos .nuevo (by decide) (by decide) (by decide)).mpr
    (.inl ⟨by decide, by decide⟩)

/-- Behind a component of `2 ^ 32` bytes, which is `0` as an `int`, a file name is lost. -/
theorem not_conserva_de_enorme {a : Texto} (hbarra : '/' ∉ a) (hlargo : a.length = 4294967296)
    (sis : Sistema) (fs : FileSystem) :
    a ++ "/b.c".toList ≠ [] ∧ a ++ "/b.c".toList ≠ ['/'] ∧ (a ++ "/b.c".toList).length < max_size
      ∧ ¬ ∃ fs', setRuta sis (a ++ "/b.c".toList) fs = some fs'
        ∧ Conserva (sinBarras (a ++ "/b.c".toList)) fs' := by
  have hhead : (a ++ "/b.c".toList).head? ≠ some '/' := by
    cases a with
    | nil => cases hlargo
    | cons c a =>
        rintro h
        cases h
        exact hbarra List.mem_cons_self
  have hlast : (a ++ "/b.c".toList).getLast? ≠ some '/' := by
    rw [List.getLast?_append, show "/b.c".toList.getLast? = some 'c' from rfl, Option.some_or]
    decide
  have hsin : sinBarras (a ++ "/b.c".toList) = a ++ "/b.c".toList := by
    unfold sinBarras
    dsimp only
    rw [if_neg hhead, if_neg hlast]
  have hcortada : (a ++ "/b.c".toList).splitOn '/' = [] ++ a :: ["b.c".toList] := by
    rw [show "/b.c".toList = '/' :: "b.c".toList from rfl,
      List.splitOn_append_cons_self_of_not_mem hbarra]
    rfl
  have hne : a ++ "/b.c".toList ≠ [] := by simp
  have hsola : a ++ "/b.c".toList ≠ ['/'] := by
    intro h
    have := congrArg List.length h
    rw [List.length_append, hlargo] at this
    cases this
  have hcabe : (a ++ "/b.c".toList).length < max_size := by
    rw [List.length_append, hlargo]
    decide
  have hlarga : ¬ Corta a := by
    unfold Corta
    rw [hlargo]
    decide
  have hultimo : ultimoComponente (a ++ "/b.c".toList) = "b.c".toList := by
    have h : ((a ++ "/b.c".toList).splitOn '/').getLast?
        = some (ultimoComponente (a ++ "/b.c".toList)) := List.getLast?_eq_some_getLast _
    rw [hcortada] at h
    exact (Option.some.inj h).symm
  refine ⟨hne, hsola, hcabe, ?_⟩
  rw [setRuta_eq_bind sis fs hne hsola, hsin,
    conserva_de_larga_iff sis fs hcortada hlarga (fun c hc => by cases hc) hcabe, hultimo]
  rintro ⟨hpunto, -⟩
  exact hpunto (by decide)

/-- **A path with a component of `2 ^ 32` bytes.** -/
theorem setRuta_no_conserva :
    ¬ ∀ (sis : Sistema) (ruta : Texto) (fs : FileSystem), ruta ≠ [] → ruta ≠ ['/'] →
      ruta.length < max_size →
      ∃ fs', setRuta sis ruta fs = some fs' ∧ Conserva (sinBarras ruta) fs' := by
  intro hall
  have hbarra : '/' ∉ List.replicate 4294967296 'a' := by
    rw [List.mem_replicate]
    decide
  have hlargo : (List.replicate 4294967296 'a').length = 4294967296 := List.length_replicate
  obtain ⟨hne, hsola, hcabe, hno⟩ := not_conserva_de_enorme hbarra hlargo .sinArchivos .nuevo
  exact hno (hall .sinArchivos _ .nuevo hne hsola hcabe)

end FileSystem.ConInt

end LoadBalancer
