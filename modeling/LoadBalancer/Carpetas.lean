/-
`crearDirectorios`: every directory on the way, and then the last one.

The path is cut by the loop of `setRuta` (`Componentes.lean`), and the pieces are put together again
one at a time: at each of these paths `mkdir` is called if `opendir` fails. The result of `mkdir` is
only printed.

The directories are a tree (`Lib/Tree.lean`) with a place in it, the working directory. `opendir`
succeeds on what is a directory, and `mkdir` where there is a directory above and no entry with the
name; there are no other limits, and no links. `crearDirectorios` makes the prefixes of the path
that are missing ([`FileSystem.crearDirectorios_crea`]), as long as no component has `2 ^ 31` bytes:
that is where the `int` of the cutting loop ends, and no file system has names of that length. What
becomes of longer ones, on which paths and trees, is [`FileSystem.crearDirectorios_iff`].
-/
import Mathlib.Data.List.DropRight
import LoadBalancer.Componentes
import LoadBalancer.Lib.Tree

set_option autoImplicit false

namespace LoadBalancer

open LoadBalancer.Search LoadBalancer.Tree

/-! ## The directories -/

/-- What there can be at a path. -/
inductive EntradaDisco
  | carpeta
  | otra
deriving DecidableEq, Repr

/-- The entries of the system, by their names from the root on, and the working directory. -/
structure Disco where
  arbol : DirTree Texto EntradaDisco .carpeta
  actual : List Texto
  actual_carpeta : arbol.entry actual = some .carpeta

namespace Disco

/-- One component of a path, from a directory. -/
def entra (d : Disco) (carpeta : List Texto) (componente : Texto) : Option (List Texto) :=
  if componente = [] ∨ componente = ['.'] then some carpeta
  else if componente = ['.', '.'] then some carpeta.dropLast
  else if d.arbol.entry (carpeta ++ [componente]) = some .carpeta then some (carpeta ++ [componente])
  else none

/-- The directory that a path leads to. -/
def camina (d : Disco) (carpeta : List Texto) (componentes : List Texto) : Option (List Texto) :=
  componentes.foldlM d.entra carpeta

/-- Where a path begins. -/
def inicio (d : Disco) (ruta : Texto) : List Texto := if ruta.head? = some '/' then [] else d.actual

/-- Whether `opendir` succeeds. There is no empty path. -/
def opendir (d : Disco) (ruta : Texto) : Bool :=
  decide (ruta ≠ []) && (d.camina (d.inicio ruta) (ruta.splitOn '/')).isSome

/-- The tree with one directory more. -/
def conCarpeta (d : Disco) (padre : List Texto) (nombre : Texto)
    (h : d.arbol.entry padre = some .carpeta) : Disco where
  arbol := d.arbol.make padre nombre h
  actual := d.actual
  actual_carpeta := by
    show (if d.actual = padre ++ [nombre] then some EntradaDisco.carpeta
      else d.arbol.entry d.actual) = _
    rw [d.actual_carpeta, ite_self]

/-- `mkdir`; `none` is `-1`. Separators at the end of the path do not count. -/
def mkdir (d : Disco) (ruta : Texto) : Option Disco :=
  let componentes := (ruta.splitOn '/').rdropWhile (· = [])
  match componentes.getLast? with
  | none => none
  | some nombre =>
      if nombre = ['.'] ∨ nombre = ['.', '.'] then none
      else
        (d.camina (d.inicio ruta) componentes.dropLast).bind fun padre =>
          if h : d.arbol.entry padre = some .carpeta ∧ d.arbol.entry (padre ++ [nombre]) = none then
            some (d.conCarpeta padre nombre h.1)
          else none

end Disco

/-! ## The code -/

namespace FileSystem

/-- `if(! opendir(carpetaAnidada)) mkdir(carpetaAnidada)`: the result is not looked at. -/
def asegurar (carpetaAnidada : Texto) (d : Disco) : Disco :=
  if d.opendir (c_str carpetaAnidada) then d else (d.mkdir (c_str carpetaAnidada)).getD d

/-- The loop of `crearDirectorios`: `i` is an `int`, from `1` to the size of the vector, and there
is one turn more than there are components to append. -/
def crearDirectorios.bucle (dirPorCrear : List Texto) : ℕ → ℕ → Texto → Disco → Option Disco
  | 0, _, _, _ => none
  | vueltas + 1, i, carpetaAnidada, d =>
      if i ≤ dirPorCrear.length then
        let d := asegurar carpetaAnidada d
        -- both branches append the next component, if there is one
        let carpetaAnidada :=
          match dirPorCrear[i]? with
          | some dir => carpetaAnidada ++ '/' :: dir
          | none => carpetaAnidada
        if (i : ℤ) = INT32_MAX then none
        else crearDirectorios.bucle dirPorCrear vueltas (i + 1) carpetaAnidada d
      else some d

/-- `crearDirectorios`. `dirPorCrear[0]` has to be there. -/
def crearDirectorios (rutaDirPorCrear : Texto) (d : Disco) : Option Disco :=
  let rutaAbsoluta :=
    if rutaDirPorCrear.head? = some '/' then rutaDirPorCrear.tail else rutaDirPorCrear
  match rutaAbsoluta.getLast? with
  | none => none
  | some ultimo =>
      let rutaAbsoluta := if ultimo ≠ '/' then rutaAbsoluta ++ ['/'] else rutaAbsoluta
      (ConInt.partir rutaAbsoluta).bind fun dirPorCrear =>
        match dirPorCrear with
        | [] => none
        | primera :: _ =>
            if 1 < dirPorCrear.length then
              crearDirectorios.bucle dirPorCrear (dirPorCrear.length + 1) 1 primera d
            else some (asegurar primera d)

/-! ## The loop -/

/-- What is tried from one component on. -/
def crearDesde : Texto → List Texto → Disco → Disco
  | carpetaAnidada, [], d => asegurar carpetaAnidada d
  | carpetaAnidada, dir :: resto, d =>
      crearDesde (carpetaAnidada ++ '/' :: dir) resto (asegurar carpetaAnidada d)

/-- All the directories of the vector, one inside the other. -/
def crearTodas : List Texto → Disco → Disco
  | [], d => d
  | primera :: resto, d => crearDesde primera resto d

/-- A turn for each component that is left, and one more; `i` ends one above the size. -/
theorem bucle_eq {v hechas resto : List Texto} (hv : v = hechas ++ resto) (carpetaAnidada : Texto)
    (d : Disco) (hint : hechas.length ≤ INT32_MAX) :
    crearDirectorios.bucle v (resto.length + 2) hechas.length carpetaAnidada d
      = if INT32_MAX ≤ v.length then none else some (crearDesde carpetaAnidada resto d) := by
  induction resto generalizing hechas carpetaAnidada d with
  | nil =>
      rw [List.append_nil] at hv
      subst hv
      rw [crearDirectorios.bucle, if_pos (Nat.le_refl _), List.getElem?_eq_none (Nat.le_refl _)]
      dsimp only
      by_cases hfin : (v.length : ℤ) = INT32_MAX
      · rw [if_pos hfin, if_pos (by omega)]
      · rw [if_neg hfin, if_neg (by omega), crearDirectorios.bucle, if_neg (by omega)]
        rfl
  | cons dir resto ih =>
      have hv' : v = (hechas ++ [dir]) ++ resto := by rw [hv, List.append_assoc]; rfl
      have hlen : v.length = hechas.length + (resto.length + 1) := by
        rw [hv, List.length_append, List.length_cons]
      have hdir : v[hechas.length]? = some dir := by
        rw [hv, List.getElem?_append_right (Nat.le_refl _), Nat.sub_self]
        rfl
      have hpaso : (hechas ++ [dir]).length = hechas.length + 1 := List.length_append
      rw [List.length_cons, crearDirectorios.bucle, if_pos (by omega), hdir]
      dsimp only
      by_cases hfin : (hechas.length : ℤ) = INT32_MAX
      · rw [if_pos hfin, if_pos (by omega)]
      · rw [if_neg hfin, ← hpaso, ih hv' _ _ (by omega)]
        rfl

/-- The path of the first components, without a `/` at either end. -/
def unir (componentes : List Texto) : Texto := ['/'].intercalate componentes

theorem unir_cons (primera : Texto) (resto : List Texto) :
    unir (primera :: resto) = primera ++ resto.flatMap ('/' :: ·) := by
  induction resto generalizing primera with
  | nil =>
      rw [unir, List.intercalate_singleton, List.flatMap_nil, List.append_nil]
  | cons dir resto ih =>
      rw [unir, List.intercalate_cons_of_ne_nil (List.cons_ne_nil _ _), ← unir, ih,
        List.flatMap_cons, List.append_assoc]
      rfl

theorem unir_concat (antes : List Texto) (ultima : Texto) :
    unir (antes ++ [ultima]) = antes.flatMap (· ++ ['/']) ++ ultima := by
  have hjunta := flatMap_dropLast_append_getLast (List.concat_ne_nil ultima antes)
  rw [List.dropLast_concat, List.getLast_concat] at hjunta
  exact hjunta.symm

theorem crearDesde_concat (carpetaAnidada : Texto) (resto : List Texto) (ultima : Texto)
    (d : Disco) :
    crearDesde carpetaAnidada (resto ++ [ultima]) d
      = asegurar (carpetaAnidada ++ (resto ++ [ultima]).flatMap ('/' :: ·))
          (crearDesde carpetaAnidada resto d) := by
  induction resto generalizing carpetaAnidada d with
  | nil =>
      rw [List.nil_append, List.flatMap_singleton]
      rfl
  | cons dir resto ih =>
      rw [List.cons_append, crearDesde, ih, List.flatMap_cons, List.append_assoc]
      rfl

/-- **The last directory is made when all the others have been.** -/
theorem crearTodas_concat (antes : List Texto) (ultima : Texto) (d : Disco) :
    crearTodas (antes ++ [ultima]) d = asegurar (unir (antes ++ [ultima])) (crearTodas antes d) := by
  cases antes with
  | nil =>
      rw [List.nil_append, unir, List.intercalate_singleton]
      rfl
  | cons primera resto =>
      rw [List.cons_append, crearTodas, crearDesde_concat, unir_cons]
      rfl

/-- **`crearDirectorios` up to the vector**: there has to be a first entry, and `i` has to get past
the last one. -/
theorem crearDirectorios_eq {ruta : Texto} (d : Disco) (hne : ruta ≠ []) (hbarra : ruta ≠ ['/']) :
    crearDirectorios ruta d
      = (ConInt.partir (sinBarras ruta ++ ['/'])).bind fun v =>
          if v = [] ∨ INT32_MAX ≤ v.length then none else some (crearTodas v d) := by
  obtain ⟨ultimo, hultimo, hruta⟩ := exists_rutaAbsoluta (ConInt.sinPrimera_ne_nil hne hbarra)
  unfold crearDirectorios
  dsimp only
  rw [hultimo]
  dsimp only
  rw [hruta]
  congr 1
  funext v
  cases v with
  | nil => rw [if_pos (.inl rfl)]
  | cons primera resto =>
      have hmax : INT32_MAX = 2147483647 := rfl
      have hbucle := @bucle_eq (primera :: resto) [primera] resto rfl primera d
        (show (1 : ℤ) ≤ _ by omega)
      have hor : ((primera :: resto = []) ∨ INT32_MAX ≤ (primera :: resto).length)
          ↔ INT32_MAX ≤ (primera :: resto).length := or_iff_right (List.cons_ne_nil _ _)
      dsimp only
      rw [if_congr hor rfl rfl]
      by_cases hmas : 1 < (primera :: resto).length
      · rw [if_pos hmas]
        exact hbucle
      · -- one component only: no loop, and no counter
        obtain rfl : resto = [] := by
          rw [List.length_cons] at hmas
          exact List.length_eq_zero_iff.mp (by omega)
        rw [if_neg hmas, if_neg (by rw [List.length_singleton]; omega)]
        rfl

/-! ## Texts of components -/

/-- The name of an entry, which is not `.` or `..`. -/
structure Nombre (c : Texto) : Prop where
  ne_nil : c ≠ []
  ne_punto : c ≠ ['.']
  ne_puntos : c ≠ ['.', '.']
  sin_barra : '/' ∉ c
  sin_nul : NUL ∉ c

theorem nombre_iff {c : Texto} :
    Nombre c ↔ c ≠ [] ∧ c ≠ ['.'] ∧ c ≠ ['.', '.'] ∧ '/' ∉ c ∧ NUL ∉ c :=
  ⟨fun h => ⟨h.ne_nil, h.ne_punto, h.ne_puntos, h.sin_barra, h.sin_nul⟩,
    fun ⟨h1, h2, h3, h4, h5⟩ => ⟨h1, h2, h3, h4, h5⟩⟩

instance decidableNombre (c : Texto) : Decidable (Nombre c) := decidable_of_iff _ nombre_iff.symm

theorem splitOn_unir {cs : List Texto} (hne : cs ≠ []) (h : ∀ c ∈ cs, '/' ∉ c) :
    (unir cs).splitOn '/' = cs := List.splitOn_intercalate '/' h hne

theorem nul_not_mem_unir {cs : List Texto} (h : ∀ c ∈ cs, NUL ∉ c) : NUL ∉ unir cs := by
  cases cs with
  | nil => exact List.not_mem_nil
  | cons primera resto =>
      rw [unir_cons, List.mem_append, List.mem_flatMap]
      rintro (hmem | ⟨c, hc, hmem⟩)
      · exact h primera List.mem_cons_self hmem
      · rcases List.mem_cons.mp hmem with hbarra | hmem
        · cases hbarra
        · exact h c (List.mem_cons_of_mem _ hc) hmem

/-- A path of components begins at the working directory. -/
theorem head?_unir {primera : Texto} (hne : primera ≠ []) (h : '/' ∉ primera) (resto : List Texto) :
    (unir (primera :: resto)).head? ≠ some '/' := by
  rw [unir_cons]
  cases primera with
  | nil => exact absurd rfl hne
  | cons c primera =>
      intro heq
      cases heq
      exact h List.mem_cons_self

end FileSystem

namespace Disco

open FileSystem

/-- Along names, a path leads where its components say, if that is a directory. -/
theorem camina_nombres (d : Disco) {base : List Texto} (hbase : d.arbol.entry base = some .carpeta)
    {cs : List Texto} (h : ∀ c ∈ cs, Nombre c) :
    d.camina base cs
      = if d.arbol.entry (base ++ cs) = some .carpeta then some (base ++ cs) else none := by
  induction cs generalizing base with
  | nil =>
      rw [List.append_nil, if_pos hbase]
      rfl
  | cons c cs ih =>
      have hc := h c List.mem_cons_self
      have hbase' : base ++ c :: cs = (base ++ [c]) ++ cs := by
        rw [List.append_assoc, List.singleton_append]
      have hentra : d.entra base c
          = if d.arbol.entry (base ++ [c]) = some .carpeta then some (base ++ [c]) else none := by
        unfold entra
        rw [if_neg (not_or.mpr ⟨hc.ne_nil, hc.ne_punto⟩), if_neg hc.ne_puntos]
      rw [camina, List.foldlM_cons, hentra]
      by_cases hdir : d.arbol.entry (base ++ [c]) = some .carpeta
      · rw [if_pos hdir, hbase', ← ih hdir fun c' hc' => h c' (List.mem_cons_of_mem _ hc')]
        rfl
      · -- nothing is below what is not a directory
        have hno : d.arbol.entry (base ++ c :: cs) ≠ some .carpeta := fun hin =>
          hdir (d.arbol.entry_of_append_dir _ cs (hbase' ▸ hin))
        rw [if_neg hdir, if_neg hno]
        rfl

theorem camina_append (d : Disco) (base primeros ultimos : List Texto) :
    d.camina base (primeros ++ ultimos)
      = (d.camina base primeros).bind fun dir => d.camina dir ultimos := List.foldlM_append

section Unir

variable (d : Disco) {cs : List Texto} (hne : cs ≠ []) (h : ∀ c ∈ cs, Nombre c)

include hne h

theorem inicio_unir : d.inicio (unir cs) = d.actual := by
  obtain ⟨primera, resto, rfl⟩ := List.exists_cons_of_ne_nil hne
  have hprimera := h primera List.mem_cons_self
  exact if_neg (head?_unir hprimera.ne_nil hprimera.sin_barra resto)

theorem unir_ne_nil : unir cs ≠ [] := by
  obtain ⟨primera, resto, rfl⟩ := List.exists_cons_of_ne_nil hne
  rw [unir_cons]
  exact List.append_ne_nil_of_left_ne_nil (h primera List.mem_cons_self).ne_nil _

/-- `opendir` succeeds exactly on the directories. -/
theorem opendir_unir :
    d.opendir (unir cs) = true ↔ d.arbol.entry (d.actual ++ cs) = some .carpeta := by
  rw [opendir, decide_eq_true (unir_ne_nil hne h), Bool.true_and,
    splitOn_unir hne fun c hc => (h c hc).sin_barra, d.inicio_unir hne h,
    d.camina_nombres d.actual_carpeta h]
  split_ifs with hdir
  · exact ⟨fun _ => hdir, fun _ => rfl⟩
  · constructor
    · intro hfalse
      cases hfalse
    · exact fun hin => absurd hin hdir

end Unir

/-- `mkdir` succeeds where there is a directory above and nothing at the path. -/
theorem mkdir_unir (d : Disco) {antes : List Texto} {c : Texto}
    (h : ∀ c' ∈ antes ++ [c], Nombre c') :
    d.mkdir (unir (antes ++ [c]))
      = if hdir : d.arbol.entry (d.actual ++ antes) = some .carpeta
            ∧ d.arbol.entry (d.actual ++ antes ++ [c]) = none then
          some (d.conCarpeta (d.actual ++ antes) c hdir.1)
        else none := by
  have hne : antes ++ [c] ≠ [] := List.concat_ne_nil _ _
  have hc : Nombre c := h c (List.mem_append_right _ (List.mem_singleton_self c))
  have hantes : ∀ c' ∈ antes, Nombre c' := fun c' hc' => h c' (List.mem_append_left _ hc')
  have hdrop : (antes ++ [c]).rdropWhile (· = []) = antes ++ [c] :=
    List.rdropWhile_concat_neg _ _ _ (by simpa using hc.ne_nil)
  unfold mkdir
  rw [splitOn_unir hne fun c' hc' => (h c' hc').sin_barra]
  dsimp only
  rw [hdrop, List.getLast?_concat, List.dropLast_concat]
  dsimp only
  rw [if_neg (not_or.mpr ⟨hc.ne_punto, hc.ne_puntos⟩), d.inicio_unir hne h,
    d.camina_nombres d.actual_carpeta hantes]
  by_cases hpadre : d.arbol.entry (d.actual ++ antes) = some .carpeta
  · rw [if_pos hpadre, Option.bind_some]
  · rw [if_neg hpadre, Option.bind_none, dif_neg fun hdir => hpadre hdir.1]

end Disco

namespace FileSystem

/-! ## One directory -/

/-- Directories have been made at those of the paths where there was nothing. -/
structure Anade (s : Set (List Texto)) (d d' : Disco) : Prop where
  arbol : Adds s d.arbol d'.arbol
  actual : d'.actual = d.actual

theorem Anade.refl {s : Set (List Texto)} {d : Disco} (h : ∀ p ∈ s, d.arbol.entry p ≠ none) :
    Anade s d d := ⟨Adds.refl h, rfl⟩

theorem Anade.trans {s s' : Set (List Texto)} {d d' d'' : Disco} (h : Anade s d d')
    (h' : Anade s' d' d'') : Anade (s ∪ s') d d'' :=
  ⟨h.arbol.trans h'.arbol, h'.actual.trans h.actual⟩

theorem Anade.eq_self {s : Set (List Texto)} {d d' : Disco} (h : Anade s d d')
    (hs : ∀ p ∈ s, d.arbol.entry p ≠ none) : d' = d := by
  obtain ⟨arbol, actual, hactual⟩ := d
  obtain ⟨arbol', actual', hactual'⟩ := d'
  obtain ⟨harbol, hmismo⟩ := h
  obtain rfl : arbol' = arbol := harbol.eq_self hs
  obtain rfl : actual' = actual := hmismo
  rfl

/-- What is a directory is left alone. -/
theorem asegurar_de_opendir {ruta : Texto} {d : Disco} (h : d.opendir (c_str ruta) = true) :
    asegurar ruta d = d := if_pos h

theorem asegurar_de_todo {d : Disco} {cs : List Texto} (hne : cs ≠ []) (h : ∀ c ∈ cs, Nombre c)
    (htodo : d.arbol.entry (d.actual ++ cs) = some .carpeta) : asegurar (unir cs) d = d := by
  apply asegurar_de_opendir
  rw [c_str_of_not_mem (nul_not_mem_unir fun c hc => (h c hc).sin_nul)]
  exact (d.opendir_unir hne h).mpr htodo

/-- With a directory above, the directory is made, unless there is something. -/
theorem anade_asegurar {d : Disco} {antes : List Texto} {c : Texto}
    (h : ∀ c' ∈ antes ++ [c], Nombre c')
    (hpadre : d.arbol.entry (d.actual ++ antes) = some .carpeta) :
    Anade {d.actual ++ antes ++ [c]} d (asegurar (unir (antes ++ [c])) d) := by
  have hne : antes ++ [c] ≠ [] := List.concat_ne_nil _ _
  have hnul : c_str (unir (antes ++ [c])) = unir (antes ++ [c]) :=
    c_str_of_not_mem (nul_not_mem_unir fun c' hc' => (h c' hc').sin_nul)
  have hopendir := d.opendir_unir hne h
  rw [← List.append_assoc] at hopendir
  by_cases hdir : d.arbol.entry (d.actual ++ antes ++ [c]) = some .carpeta
  · rw [asegurar_de_opendir (hnul.symm ▸ hopendir.mpr hdir)]
    refine Anade.refl fun p hp => ?_
    obtain rfl : p = d.actual ++ antes ++ [c] := hp
    rw [hdir]
    exact Option.some_ne_none _
  · rw [asegurar, hnul, if_neg fun hin => hdir (hopendir.mp hin), d.mkdir_unir h]
    by_cases hlibre : d.arbol.entry (d.actual ++ antes ++ [c]) = none
    · rw [dif_pos ⟨hpadre, hlibre⟩, Option.getD_some]
      exact ⟨Adds.make hpadre hlibre, rfl⟩
    · -- something else has the name, and `mkdir` fails
      rw [dif_neg fun hin => hlibre hin.2, Option.getD_none]
      refine Anade.refl fun p hp => ?_
      obtain rfl : p = d.actual ++ antes ++ [c] := hp
      exact hlibre

/-- Without a directory above, nothing is made. -/
theorem asegurar_de_sin_padre {d : Disco} {antes : List Texto} {c : Texto}
    (h : ∀ c' ∈ antes ++ [c], Nombre c')
    (hpadre : d.arbol.entry (d.actual ++ antes) ≠ some .carpeta) :
    asegurar (unir (antes ++ [c])) d = d := by
  have hnul : c_str (unir (antes ++ [c])) = unir (antes ++ [c]) :=
    c_str_of_not_mem (nul_not_mem_unir fun c' hc' => (h c' hc').sin_nul)
  unfold asegurar
  rw [hnul, d.mkdir_unir h, dif_neg fun hin => hpadre hin.1, Option.getD_none, ite_self]

/-- Nor is anything where the last component is no name. -/
theorem asegurar_de_sin_nombre {d : Disco} {antes : List Texto} {c : Texto}
    (h : ∀ c' ∈ antes, Nombre c') (hc : c = [] ∨ c = ['.'] ∨ c = ['.', '.'])
    (hpadre : d.arbol.entry (d.actual ++ antes) = some .carpeta) :
    asegurar (unir (antes ++ [c])) d = d := by
  have hcbarra : '/' ∉ c := by rcases hc with rfl | rfl | rfl <;> decide
  have hcnul : NUL ∉ c := by rcases hc with rfl | rfl | rfl <;> decide
  have hbarra : ∀ c' ∈ antes ++ [c], '/' ∉ c' := by
    intro c' hc'
    rcases List.mem_append.mp hc' with hc' | hc'
    · exact (h c' hc').sin_barra
    · rwa [List.mem_singleton.mp hc']
  have hnul : NUL ∉ unir (antes ++ [c]) := by
    refine nul_not_mem_unir fun c' hc' => ?_
    rcases List.mem_append.mp hc' with hc' | hc'
    · exact (h c' hc').sin_nul
    · rwa [List.mem_singleton.mp hc']
  obtain ⟨primera, resto, heq⟩ := List.exists_cons_of_ne_nil (List.concat_ne_nil c antes)
  by_cases hvacia : primera = []
  · -- the empty path: the first component is no name, so it is the only one
    obtain ⟨rfl, rfl⟩ : antes = [] ∧ c = [] := by
      cases antes with
      | nil =>
          rw [List.nil_append, List.cons.injEq] at heq
          exact ⟨rfl, heq.1.trans hvacia⟩
      | cons c' antes =>
          rw [List.cons_append, List.cons.injEq] at heq
          exact absurd (heq.1.trans hvacia) (h c' List.mem_cons_self).ne_nil
    rfl
  · -- any other leads to a directory
    have hhead : (unir (antes ++ [c])).head? ≠ some '/' := by
      rw [heq]
      exact head?_unir hvacia (hbarra primera (heq ▸ List.mem_cons_self)) resto
    have hne : unir (antes ++ [c]) ≠ [] := by
      rw [heq, unir_cons]
      exact List.append_ne_nil_of_left_ne_nil hvacia _
    have hentra : ∃ dir, d.entra (d.actual ++ antes) c = some dir := by
      unfold Disco.entra
      rcases hc with rfl | rfl | rfl
      · exact ⟨_, rfl⟩
      · exact ⟨_, rfl⟩
      · exact ⟨_, rfl⟩
    obtain ⟨dir, hdir⟩ := hentra
    apply asegurar_de_opendir
    rw [c_str_of_not_mem hnul, Disco.opendir, decide_eq_true hne, Bool.true_and,
      splitOn_unir (List.concat_ne_nil _ _) hbarra, Disco.inicio, if_neg hhead, Disco.camina_append,
      d.camina_nombres d.actual_carpeta h, if_pos hpadre, Option.bind_some, Disco.camina,
      List.foldlM_cons, hdir]
    rfl

/-- A `/` at the end makes no difference. -/
theorem asegurar_concat_barra (d : Disco) {cs : List Texto} (hne : cs ≠ [])
    (h : ∀ c ∈ cs, Nombre c) : asegurar (unir cs ++ ['/']) d = asegurar (unir cs) d := by
  have hnul : NUL ∉ unir cs := nul_not_mem_unir fun c hc => (h c hc).sin_nul
  have hnul' : NUL ∉ unir cs ++ ['/'] := by
    rw [List.mem_append, not_or]
    exact ⟨hnul, by decide⟩
  have hcortada : (unir cs ++ ['/']).splitOn '/' = cs ++ [[]] := by
    rw [List.splitOn_append_cons_self, splitOn_unir hne fun c hc => (h c hc).sin_barra]
    rfl
  have hinicio : d.inicio (unir cs ++ ['/']) = d.inicio (unir cs) := by
    obtain ⟨x, resto, hx⟩ := List.exists_cons_of_ne_nil (Disco.unir_ne_nil hne h)
    rw [hx]
    rfl
  have hopendir : d.opendir (unir cs ++ ['/']) = d.opendir (unir cs) := by
    have hlleno : unir cs ++ ['/'] ≠ [] := List.concat_ne_nil _ _
    unfold Disco.opendir
    rw [decide_eq_true hlleno, decide_eq_true (Disco.unir_ne_nil hne h), hcortada, hinicio,
      splitOn_unir hne fun c hc => (h c hc).sin_barra, Disco.camina_append]
    cases d.camina (d.inicio (unir cs)) cs with
    | none => rfl
    | some dir => rfl
  have hmkdir : d.mkdir (unir cs ++ ['/']) = d.mkdir (unir cs) := by
    unfold Disco.mkdir
    rw [hcortada, hinicio, splitOn_unir hne fun c hc => (h c hc).sin_barra,
      List.rdropWhile_concat_pos _ _ _ (by rfl)]
  unfold asegurar
  rw [c_str_of_not_mem hnul, c_str_of_not_mem hnul', hopendir, hmkdir]

/-! ## All of them -/

/-- The paths of the first components, the empty path included. -/
def prefijos (base cs : List Texto) : Set (List Texto) := {p | ∃ m, p = base ++ cs.take m}

theorem prefijos_concat (base cs : List Texto) (c : Texto) :
    prefijos base (cs ++ [c]) = prefijos base cs ∪ {base ++ cs ++ [c]} := by
  ext p
  constructor
  · rintro ⟨m, rfl⟩
    by_cases hm : m ≤ cs.length
    · left
      exact ⟨m, by rw [List.take_append_of_le_length hm]⟩
    · right
      rw [List.take_of_length_le (by rw [List.length_append, List.length_singleton]; omega),
        ← List.append_assoc]
      rfl
  · rintro (⟨m, rfl⟩ | hp)
    · refine ⟨min m cs.length, ?_⟩
      rw [List.take_append_of_le_length (Nat.min_le_right _ _), ← List.take_take, List.take_length]
    · obtain rfl : p = base ++ cs ++ [c] := hp
      refine ⟨(cs ++ [c]).length, ?_⟩
      rw [List.take_length, List.append_assoc]

/-- No part of the path is something else than a directory. -/
def SinOtras (d : Disco) (cs : List Texto) : Prop :=
  ∀ p ∈ prefijos d.actual cs, d.arbol.entry p ≠ some .otra

theorem mem_prefijos (base cs : List Texto) (m : ℕ) : base ++ cs.take m ∈ prefijos base cs :=
  ⟨m, rfl⟩

theorem mem_prefijos_self (base cs : List Texto) : base ++ cs ∈ prefijos base cs :=
  ⟨cs.length, by rw [List.take_length]⟩

/-- Where the prefixes have been made, all of them are directories. -/
theorem Anade.entry_of_prefijos {d d' : Disco} {cs : List Texto}
    (h : Anade (prefijos d.actual cs) d d') (hotras : SinOtras d cs) {p : List Texto} (hp : p ∈ prefijos d.actual cs) :
    d'.arbol.entry p = some .carpeta := by
  apply h.arbol.entry_of_mem hp
  cases hentry : d.arbol.entry p with
  | none => exact .inl rfl
  | some e =>
      cases e with
      | carpeta => exact .inr rfl
      | otra => exact absurd hentry (hotras p hp)

/-- **The prefixes that are missing are made**, and nothing else. -/
theorem anade_crearTodas {d : Disco} {cs : List Texto} (h : ∀ c ∈ cs, Nombre c)
    (hotras : SinOtras d cs) : Anade (prefijos d.actual cs) d (crearTodas cs d) := by
  induction cs using List.reverseRecOn with
  | nil =>
      refine Anade.refl ?_
      rintro p ⟨m, rfl⟩
      rw [List.take_nil, List.append_nil, d.actual_carpeta]
      exact Option.some_ne_none _
  | append_singleton cs c ih =>
      have hmenos : ∀ p ∈ prefijos d.actual cs, p ∈ prefijos d.actual (cs ++ [c]) := by
        rw [prefijos_concat]
        exact fun p hp => .inl hp
      have hcs := ih (fun c' hc' => h c' (List.mem_append_left _ hc'))
        fun p hp => hotras p (hmenos p hp)
      have hpadre : (crearTodas cs d).arbol.entry ((crearTodas cs d).actual ++ cs)
          = some .carpeta := by
        rw [hcs.actual]
        exact hcs.entry_of_prefijos (fun p hp => hotras p (hmenos p hp)) (mem_prefijos_self _ _)
      have hultima := anade_asegurar h hpadre
      rw [hcs.actual] at hultima
      rw [crearTodas_concat, prefijos_concat]
      exact hcs.trans hultima

/-- If the whole path is there, its prefixes are. -/
theorem entry_of_todo {d : Disco} {cs : List Texto}
    (h : d.arbol.entry (d.actual ++ cs) = some .carpeta) {p : List Texto}
    (hp : p ∈ prefijos d.actual cs) : d.arbol.entry p = some .carpeta := by
  obtain ⟨m, rfl⟩ := hp
  apply d.arbol.entry_of_append_dir _ (cs.drop m)
  rwa [List.append_assoc, List.take_append_drop]

/-- There are no fewer prefixes of a longer path. -/
theorem prefijos_append (base cs resto : List Texto) :
    ∀ p ∈ prefijos base cs, p ∈ prefijos base (cs ++ resto) := by
  rintro p ⟨m, rfl⟩
  refine ⟨min m cs.length, ?_⟩
  rw [List.take_append_of_le_length (Nat.min_le_right _ _), ← List.take_take, List.take_length]

/-- A longer path is not among them. -/
theorem not_mem_prefijos (base cs : List Texto) {resto : List Texto} (hne : resto ≠ []) :
    base ++ (cs ++ resto) ∉ prefijos base cs := by
  rintro ⟨m, heq⟩
  have hlen := congrArg List.length (List.append_cancel_left heq)
  have hpos := List.length_pos_iff.mpr hne
  rw [List.length_append, List.length_take] at hlen
  omega

/-! ## What `crearDirectorios` does -/

/-- A path of these components, with or without a `/` at its ends. -/
structure RutaDe (cs : List Texto) (ruta : Texto) : Prop where
  ne_nil : cs ≠ []
  nombres : ∀ c ∈ cs, Nombre c
  sinBarras_eq : sinBarras ruta = unir cs
  cabe : ruta.length < max_size

/-- Every prefix of the path is a directory, nothing else is new, what was there is as it was, and a
second call changes nothing. -/
structure Creada (d : Disco) (cs : List Texto) (ruta : Texto) (d' : Disco) : Prop where
  carpetas : ∀ m, d'.arbol.entry (d.actual ++ cs.take m) = some .carpeta
  nada_mas : ∀ p, d.arbol.entry p = none → d'.arbol.entry p ≠ none → ∃ m, p = d.actual ++ cs.take m
  intactas : ∀ p e, d.arbol.entry p = some e → d'.arbol.entry p = some e
  actual : d'.actual = d.actual
  otra_vez : crearDirectorios ruta d' = some d'

/-- The tree after the first long component, the vector being `antes` and what the loop made of it:
it is what it was if the whole path was there, and the piece too if that is a name; where the piece
is the rest of the path, its last directory is the only one that may be missing. -/
def SeSalva (d : Disco) (cs antes : List Texto) (larga : Texto) (despues : List Texto) : Prop :=
  (larga.length % 4294967296 = 4294967295 ∧ antes ≠ [] ∧ antes.length < INT32_MAX
      ∧ d.arbol.entry (d.actual ++ cs) = some .carpeta)
    ∨ ((larga.length % 4294967296 : ℕ) ≤ INT32_MAX ∧ antes.length + 1 < INT32_MAX
      ∧ d.arbol.entry (d.actual ++ cs) = some .carpeta
      ∧ (Nombre (larga.take (larga.length % 4294967296)) →
        d.arbol.entry (d.actual ++ antes ++ [larga.take (larga.length % 4294967296)]) ≠ none))
    ∨ (INT32_MAX < (larga.length % 4294967296 : ℕ) ∧ larga.length % 4294967296 ≠ 4294967295
      ∧ antes.length + 1 < INT32_MAX
      ∧ (despues = [] ∨ d.arbol.entry (d.actual ++ cs.dropLast) = some .carpeta))

/-- When `crearDirectorios` creates the path: every component is shorter than `2 ^ 31` bytes, and
`i` gets past them; or, at the first one that is not, nothing is lost by it in this tree. -/
def SePuedeCrear (d : Disco) (cs : List Texto) : Prop :=
  (cs.length < INT32_MAX ∧ ∀ c ∈ cs, ConInt.Corta c)
    ∨ ∃ antes larga despues, cs = antes ++ larga :: despues ∧ (∀ c ∈ antes, ConInt.Corta c)
      ∧ ¬ ConInt.Corta larga ∧ SeSalva d cs antes larga despues

/-! ## The vector -/

section Vector

variable {d : Disco} {cs : List Texto} {ruta : Texto} (h : RutaDe cs ruta)

include h

theorem splitOn_sinBarras : (sinBarras ruta).splitOn '/' = cs := by
  rw [h.sinBarras_eq]
  exact splitOn_unir h.ne_nil fun c hc => (h.nombres c hc).sin_barra

theorem crearDirectorios_eq_bind (d : Disco) :
    crearDirectorios ruta d
      = (ConInt.partir (sinBarras ruta ++ ['/'])).bind fun v =>
          if v = [] ∨ INT32_MAX ≤ v.length then none else some (crearTodas v d) := by
  have hlleno : sinBarras ruta ≠ [] := by
    rw [h.sinBarras_eq]
    exact Disco.unir_ne_nil h.ne_nil h.nombres
  apply crearDirectorios_eq
  · rintro rfl
    exact hlleno rfl
  · rintro rfl
    exact hlleno rfl

/-- Without long components the vector has all of them. -/
theorem crearDirectorios_de_cortas (d : Disco) (hcortas : ∀ c ∈ cs, ConInt.Corta c) :
    crearDirectorios ruta d
      = if INT32_MAX ≤ cs.length then none else some (crearTodas cs d) := by
  have hpartir := @ConInt.partir_de_cortas (sinBarras ruta) (by rwa [splitOn_sinBarras h])
  rw [splitOn_sinBarras h] at hpartir
  rw [crearDirectorios_eq_bind h, hpartir]
  by_cases hmas : INT32_MAX < cs.length
  · rw [if_pos hmas, if_pos (by omega), Option.bind_none]
  · rw [if_neg hmas, Option.bind_some, if_congr (or_iff_right h.ne_nil) rfl rfl]

/-- At the first long one it ends. -/
theorem crearDirectorios_de_larga (d : Disco) {antes despues : List Texto} {larga : Texto}
    (hcs : cs = antes ++ larga :: despues) (hantes : ∀ c ∈ antes, ConInt.Corta c)
    (hlarga : ¬ ConInt.Corta larga) :
    crearDirectorios ruta d
      = if larga.length % 4294967296 = 4294967295 then
          if antes = [] ∨ INT32_MAX ≤ antes.length then none else some (crearTodas antes d)
        else if INT32_MAX ≤ (antes.length : ℤ) + 1 then none
        else some (crearTodas (antes ++ [ConInt.ultimaPieza larga despues]) d) := by
  have hcabe : (sinBarras ruta).length < max_size :=
    Nat.lt_of_le_of_lt (ConInt.length_sinBarras_le ruta) h.cabe
  rw [crearDirectorios_eq_bind h,
    ConInt.partir_de_larga ((splitOn_sinBarras h).trans hcs) hantes hlarga hcabe]
  by_cases hfin : larga.length % 4294967296 = 4294967295
  · rw [if_pos hfin, if_pos hfin]
    by_cases hmas : INT32_MAX < antes.length
    · rw [if_pos hmas, if_pos (.inr (by omega)), Option.bind_none]
    · rw [if_neg hmas, Option.bind_some]
  · rw [if_neg hfin, if_neg hfin]
    have hlen : ((antes ++ [ConInt.ultimaPieza larga despues]).length : ℤ) = antes.length + 1 := by
      rw [List.length_append]
      rfl
    by_cases hmas : INT32_MAX ≤ antes.length
    · rw [if_pos hmas, if_pos (by omega), Option.bind_none]
    · rw [if_neg hmas, Option.bind_some, hlen,
        if_congr (or_iff_right (List.concat_ne_nil _ _)) rfl rfl]

/-- With the rest of the path as its last piece, the last path that is tried is the whole one. -/
theorem crearDirectorios_de_resto (d : Disco) {antes despues : List Texto} {larga : Texto}
    (hcs : cs = antes ++ larga :: despues) (hantes : ∀ c ∈ antes, ConInt.Corta c)
    (hlarga : ¬ ConInt.Corta larga) (hmod : INT32_MAX < (larga.length % 4294967296 : ℕ))
    (hfin : larga.length % 4294967296 ≠ 4294967295) :
    crearDirectorios ruta d
      = if INT32_MAX ≤ (antes.length : ℤ) + 1 then none
        else some (asegurar (unir cs) (crearTodas antes d)) := by
  have hpieza : ConInt.ultimaPieza larga despues = (larga :: despues).flatMap (· ++ ['/']) :=
    if_neg (by omega)
  have hunir : unir (antes ++ [(larga :: despues).flatMap (· ++ ['/'])]) = unir cs ++ ['/'] := by
    rw [unir_concat, ← List.flatMap_append, ← hcs, ← ConInt.flatMap_splitOn,
      splitOn_unir h.ne_nil fun c hc => (h.nombres c hc).sin_barra]
  rw [crearDirectorios_de_larga h d hcs hantes hlarga, if_neg hfin, hpieza, crearTodas_concat, hunir,
    asegurar_concat_barra _ h.ne_nil h.nombres]

end Vector

/-! ## What is created -/

/-- Nor is any of them anything else. -/
theorem sinOtras_of_todo {d : Disco} {cs : List Texto}
    (h : d.arbol.entry (d.actual ++ cs) = some .carpeta) : SinOtras d cs := by
  intro p hp
  rw [entry_of_todo h hp]
  decide

/-- Where the whole path is there, nothing is made. -/
theorem crearTodas_eq_self {d : Disco} {cs : List Texto} (h : ∀ c ∈ cs, Nombre c)
    (htodo : d.arbol.entry (d.actual ++ cs) = some .carpeta) : crearTodas cs d = d := by
  refine (anade_crearTodas h (sinOtras_of_todo htodo)).eq_self fun p hp => ?_
  rw [entry_of_todo htodo hp]
  exact Option.some_ne_none _

/-- A path that is there stays created. -/
theorem creada_self {d : Disco} {cs : List Texto} {ruta : Texto}
    (htodo : d.arbol.entry (d.actual ++ cs) = some .carpeta)
    (hcrear : crearDirectorios ruta d = some d) : Creada d cs ruta d where
  carpetas m := entry_of_todo htodo (mem_prefijos _ _ m)
  nada_mas _ hnone hne := absurd hnone hne
  intactas _ _ he := he
  actual := rfl
  otra_vez := hcrear

/-- A path of which the missing prefixes have been made is created. -/
theorem creada_of_anade {d d' : Disco} {cs : List Texto} {ruta : Texto} (hotras : SinOtras d cs)
    (h : Anade (prefijos d.actual cs) d d') (hcrear : crearDirectorios ruta d' = some d') :
    Creada d cs ruta d' where
  carpetas m := h.entry_of_prefijos hotras (mem_prefijos _ _ m)
  nada_mas _ hnone hne := h.arbol.mem_of_none hnone hne
  intactas _ _ he := h.arbol.entry_of_some he
  actual := h.actual
  otra_vez := hcrear

section Casos

variable {d : Disco} {cs : List Texto} {ruta : Texto} (h : RutaDe cs ruta) (hotras : SinOtras d cs)

include h hotras

/-- Without long components the path is created. -/
theorem creada_de_cortas (hcortas : ∀ c ∈ cs, ConInt.Corta c) (hlargo : cs.length < INT32_MAX) :
    ∃ d', crearDirectorios ruta d = some d' ∧ Creada d cs ruta d' := by
  have hcrear (d : Disco) : crearDirectorios ruta d = some (crearTodas cs d) := by
    rw [crearDirectorios_de_cortas h d hcortas, if_neg (by omega)]
  have hanade := anade_crearTodas h.nombres hotras
  refine ⟨_, hcrear d, creada_of_anade hotras hanade ?_⟩
  rw [hcrear, crearTodas_eq_self h.nombres]
  rw [hanade.actual]
  exact hanade.entry_of_prefijos hotras (mem_prefijos_self _ _)

variable {antes despues : List Texto} {larga : Texto} (hcs : cs = antes ++ larga :: despues)

include hcs

theorem anade_antes : Anade (prefijos d.actual antes) d (crearTodas antes d) := by
  refine anade_crearTodas (fun c hc => h.nombres c ?_) fun p hp => hotras p ?_
  · rw [hcs]
    exact List.mem_append_left _ hc
  · rw [hcs]
    exact prefijos_append _ _ _ p hp

/-- The directory in which the long component would be. -/
theorem entry_antes : (crearTodas antes d).arbol.entry (d.actual ++ antes) = some .carpeta :=
  (anade_antes h hotras hcs).entry_of_prefijos
    (fun p hp => hotras p (hcs ▸ prefijos_append _ _ _ p hp)) (mem_prefijos_self _ _)

/-- Nothing is made in front of a path that is there. -/
theorem antes_eq_self (htodo : d.arbol.entry (d.actual ++ cs) = some .carpeta) :
    crearTodas antes d = d := by
  refine (anade_antes h hotras hcs).eq_self fun p hp => ?_
  rw [entry_of_todo htodo (hcs ▸ prefijos_append _ _ _ p hp)]
  exact Option.some_ne_none _

/-- The vector ends in front of the long component: the rest has to be there. -/
theorem creada_de_menos_uno_iff (hantes : ∀ c ∈ antes, ConInt.Corta c)
    (hlarga : ¬ ConInt.Corta larga) (hfin : larga.length % 4294967296 = 4294967295) :
    (∃ d', crearDirectorios ruta d = some d' ∧ Creada d cs ruta d')
      ↔ antes ≠ [] ∧ antes.length < INT32_MAX
        ∧ d.arbol.entry (d.actual ++ cs) = some .carpeta := by
  have hcrear (d : Disco) := crearDirectorios_de_larga h d hcs hantes hlarga
  have hanade := anade_antes h hotras hcs
  simp only [if_pos hfin] at hcrear
  constructor
  · rintro ⟨d', hd', hcreada⟩
    rw [hcrear] at hd'
    split_ifs at hd' with hnada
    cases hd'
    rw [not_or] at hnada
    refine ⟨hnada.1, by omega, ?_⟩
    have hno : d.actual ++ cs ∉ prefijos d.actual antes := by
      rw [hcs]
      exact not_mem_prefijos _ _ (List.cons_ne_nil _ _)
    have htodo := hcreada.carpetas cs.length
    rwa [List.take_length, hanade.arbol.entry_of_not_mem hno] at htodo
  · rintro ⟨hne, hlargo, htodo⟩
    have hd : crearDirectorios ruta d = some d := by
      rw [hcrear, if_neg (not_or.mpr ⟨hne, by omega⟩), antes_eq_self h hotras hcs htodo]
    exact ⟨d, hd, creada_self htodo hd⟩

/-- The part of the long component that is cut off is made too, if it is a name. -/
theorem anade_trozo {n : ℕ} :
    Anade (prefijos d.actual antes
        ∪ {p | Nombre (larga.take n) ∧ p = d.actual ++ antes ++ [larga.take n]})
      d (crearTodas (antes ++ [larga.take n]) d) := by
  have hanade := anade_antes h hotras hcs
  have hnombres : ∀ c ∈ antes, Nombre c := fun c hc =>
    h.nombres c (hcs ▸ List.mem_append_left _ hc)
  have hlarga : Nombre larga := h.nombres larga (by rw [hcs]; simp)
  have hpadre : (crearTodas antes d).arbol.entry ((crearTodas antes d).actual ++ antes)
      = some .carpeta := by
    rw [hanade.actual]
    exact entry_antes h hotras hcs
  rw [crearTodas_concat]
  apply hanade.trans
  by_cases hnombre : Nombre (larga.take n)
  · have htodos : ∀ c ∈ antes ++ [larga.take n], Nombre c := by
      intro c hc
      rcases List.mem_append.mp hc with hc | hc
      · exact hnombres c hc
      · rwa [List.mem_singleton.mp hc]
    have huno := anade_asegurar htodos hpadre
    rw [hanade.actual] at huno
    have hset : {p | Nombre (larga.take n) ∧ p = d.actual ++ antes ++ [larga.take n]}
        = {d.actual ++ antes ++ [larga.take n]} := by
      ext p
      exact and_iff_right hnombre
    rwa [hset]
  · -- what is left for it is to be empty, `.` or `..`
    have hpuntos : larga.take n = [] ∨ larga.take n = ['.'] ∨ larga.take n = ['.', '.'] := by
      by_contra hno
      rw [not_or, not_or] at hno
      exact hnombre
        { ne_nil := hno.1
          ne_punto := hno.2.1
          ne_puntos := hno.2.2
          sin_barra := fun hmem => hlarga.sin_barra (List.mem_of_mem_take hmem)
          sin_nul := fun hmem => hlarga.sin_nul (List.mem_of_mem_take hmem) }
    rw [asegurar_de_sin_nombre hnombres hpuntos hpadre]
    exact Anade.refl fun p hp => absurd hp.1 hnombre

/-- The vector ends with a part of it: the whole path has to be there, and that part too, if it is a
name. -/
theorem creada_de_trozo_iff (hantes : ∀ c ∈ antes, ConInt.Corta c) (hlarga : ¬ ConInt.Corta larga)
    (hmod : (larga.length % 4294967296 : ℕ) ≤ INT32_MAX) :
    (∃ d', crearDirectorios ruta d = some d' ∧ Creada d cs ruta d')
      ↔ antes.length + 1 < INT32_MAX ∧ d.arbol.entry (d.actual ++ cs) = some .carpeta
        ∧ (Nombre (larga.take (larga.length % 4294967296)) →
          d.arbol.entry (d.actual ++ antes ++ [larga.take (larga.length % 4294967296)]) ≠ none) := by
  have hmax : INT32_MAX = 2147483647 := rfl
  have hcrear (d : Disco) := crearDirectorios_de_larga h d hcs hantes hlarga
  have hpieza : ConInt.ultimaPieza larga despues = larga.take (larga.length % 4294967296) :=
    if_pos hmod
  have hfin : ¬ larga.length % 4294967296 = 4294967295 := by omega
  have hanade := @anade_trozo _ _ _ h hotras _ _ _ hcs (larga.length % 4294967296)
  simp only [if_neg hfin, hpieza] at hcrear
  have hotra : larga.take (larga.length % 4294967296) ≠ larga := by
    intro heq
    have hlen := congrArg List.length heq
    unfold ConInt.Corta at hlarga
    rw [List.length_take] at hlen
    omega
  generalize larga.take (larga.length % 4294967296) = pieza at hcrear hanade hotra ⊢
  constructor
  · rintro ⟨d', hd', hcreada⟩
    rw [hcrear] at hd'
    split_ifs at hd' with hmas
    cases hd'
    refine ⟨by omega, ?_, fun hnombre hnone => ?_⟩
    · have hno : d.actual ++ cs ∉ prefijos d.actual antes
          ∪ {p | Nombre pieza ∧ p = d.actual ++ antes ++ [pieza]} := by
        rw [hcs]
        rintro (hmem | ⟨-, heq⟩)
        · exact not_mem_prefijos _ _ (List.cons_ne_nil _ _) hmem
        · rw [List.append_assoc, List.append_cancel_left_eq, List.append_cancel_left_eq,
            List.cons.injEq] at heq
          exact hotra heq.1.symm
      have htodo := hcreada.carpetas cs.length
      rwa [List.take_length, hanade.arbol.entry_of_not_mem hno] at htodo
    · -- it is a name that is no part of the path, so it must not be new
      have hnueva := hanade.arbol.added _ (.inr ⟨hnombre, rfl⟩) hnone
      obtain ⟨m, heq⟩ := hcreada.nada_mas _ hnone (by rw [hnueva]; exact Option.some_ne_none _)
      have hpre : antes ++ [pieza] <+: antes ++ larga :: despues := by
        rw [List.append_assoc, List.append_cancel_left_eq, hcs] at heq
        rw [heq]
        exact List.take_prefix _ _
      rw [List.prefix_append_right_inj, List.cons_prefix_cons] at hpre
      exact hotra hpre.1
  · rintro ⟨hlargo, htodo, htrozo⟩
    have hd : crearDirectorios ruta d = some d := by
      rw [hcrear, if_neg (by omega), hanade.eq_self]
      rintro p (hp | ⟨hnombre, rfl⟩)
      · rw [entry_of_todo htodo (hcs ▸ prefijos_append _ _ _ p hp)]
        exact Option.some_ne_none _
      · exact htrozo hnombre
    exact ⟨d, hd, creada_self htodo hd⟩

/-- Where the rest of the path ends the vector, its last directory is the only one that is tried
behind the first ones. -/
theorem anade_resto {padre : List Texto} {ultima : Texto} (hcs' : cs = padre ++ [ultima])
    (hesta : padre = antes ∨ d.arbol.entry (d.actual ++ padre) = some .carpeta) :
    Anade (prefijos d.actual cs) d (asegurar (unir cs) (crearTodas antes d)) := by
  have hanade := anade_antes h hotras hcs
  have hnombres : ∀ c ∈ padre ++ [ultima], Nombre c := hcs' ▸ h.nombres
  have hpadre : (crearTodas antes d).arbol.entry ((crearTodas antes d).actual ++ padre)
      = some .carpeta := by
    rw [hanade.actual]
    rcases hesta with rfl | hesta
    · exact entry_antes h hotras hcs
    · exact hanade.arbol.entry_of_some hesta
  have huno := anade_asegurar hnombres hpadre
  rw [hanade.actual, ← hcs'] at huno
  have hjunta := hanade.trans huno
  refine ⟨hjunta.arbol.mono ?_ ?_, hjunta.actual⟩
  · rintro p (hp | hp)
    · exact hcs ▸ prefijos_append _ _ _ p hp
    · rw [hcs', prefijos_concat]
      exact .inr hp
  · -- between the two there is nothing, or only what is there
    intro p hp hno
    rw [hcs', prefijos_concat] at hp
    rcases hp with hp | hp
    · rcases hesta with rfl | hesta
      · exact absurd (.inl hp) hno
      · rw [entry_of_todo hesta hp]
        exact Option.some_ne_none _
    · exact absurd (.inr hp) hno

/-- The vector ends with the rest of the path: its last directory is made, if the one above it is
there. -/
theorem creada_de_resto_iff (hantes : ∀ c ∈ antes, ConInt.Corta c) (hlarga : ¬ ConInt.Corta larga)
    (hmod : INT32_MAX < (larga.length % 4294967296 : ℕ))
    (hfin : larga.length % 4294967296 ≠ 4294967295) :
    (∃ d', crearDirectorios ruta d = some d' ∧ Creada d cs ruta d')
      ↔ antes.length + 1 < INT32_MAX
        ∧ (despues = [] ∨ d.arbol.entry (d.actual ++ cs.dropLast) = some .carpeta) := by
  have hcrear (d : Disco) := crearDirectorios_de_resto h d hcs hantes hlarga hmod hfin
  have hanade := anade_antes h hotras hcs
  obtain ⟨padre, ultima, hcs'⟩ := (List.eq_nil_or_concat' cs).resolve_left h.ne_nil
  have hpadre : cs.dropLast = padre := by rw [hcs', List.dropLast_concat]
  have hnombres : ∀ c ∈ padre ++ [ultima], Nombre c := hcs' ▸ h.nombres
  rw [hpadre]
  constructor
  · rintro ⟨d', hd', hcreada⟩
    rw [hcrear] at hd'
    split_ifs at hd' with hmas
    cases hd'
    refine ⟨by omega, ?_⟩
    rcases List.eq_nil_or_concat' despues with hdespues | ⟨medio, otra, hdespues⟩
    · exact .inl hdespues
    · right
      have hmas : padre = antes ++ larga :: medio := by
        rw [hcs, hdespues, ← List.cons_append, ← List.append_assoc] at hcs'
        exact (List.append_inj' hcs' rfl).1.symm
      have hno : d.actual ++ padre ∉ prefijos d.actual antes := by
        rw [hmas]
        exact not_mem_prefijos _ _ (List.cons_ne_nil _ _)
      have hcarpeta := hcreada.carpetas padre.length
      rw [hcs', List.take_left] at hcarpeta
      rw [← hanade.arbol.entry_of_not_mem hno]
      -- if it had not been there, nothing would have been made below it
      by_contra hfalta
      rw [asegurar_de_sin_padre hnombres (by rwa [hanade.actual])] at hcarpeta
      exact hfalta hcarpeta
  · rintro ⟨hlargo, hesta⟩
    have hcrear' (d : Disco) : crearDirectorios ruta d
        = some (asegurar (unir cs) (crearTodas antes d)) := by
      rw [hcrear, if_neg (by omega)]
    have hvacia : despues = [] → padre = antes := by
      rintro rfl
      rw [hcs] at hcs'
      exact (List.append_inj' hcs' rfl).1.symm
    have htodas := anade_resto h hotras hcs hcs' (hesta.imp_left hvacia)
    refine ⟨_, hcrear' d, creada_of_anade hotras htodas ?_⟩
    generalize asegurar (unir cs) (crearTodas antes d) = d' at htodas ⊢
    have htodo : d'.arbol.entry (d'.actual ++ cs) = some .carpeta :=
      htodas.entry_of_prefijos hotras (htodas.actual ▸ mem_prefijos_self _ _)
    rw [hcrear', antes_eq_self h (sinOtras_of_todo htodo) hcs htodo,
      asegurar_de_todo h.ne_nil h.nombres htodo]

/-- **What a long component leaves of the path**, however long it is. -/
theorem creada_de_larga_iff (hantes : ∀ c ∈ antes, ConInt.Corta c) (hlarga : ¬ ConInt.Corta larga) :
    (∃ d', crearDirectorios ruta d = some d' ∧ Creada d cs ruta d')
      ↔ SeSalva d cs antes larga despues := by
  have hmax : INT32_MAX = 2147483647 := rfl
  unfold SeSalva
  by_cases hfin : larga.length % 4294967296 = 4294967295
  · rw [creada_de_menos_uno_iff h hotras hcs hantes hlarga hfin]
    constructor
    · exact fun hsalva => .inl ⟨hfin, hsalva⟩
    · rintro (⟨-, hsalva⟩ | ⟨hmod, -⟩ | ⟨-, hno, -⟩)
      · exact hsalva
      · omega
      · exact absurd hfin hno
  by_cases hmod : ((larga.length % 4294967296 : ℕ) : ℤ) ≤ INT32_MAX
  · rw [creada_de_trozo_iff h hotras hcs hantes hlarga hmod]
    constructor
    · exact fun hsalva => .inr (.inl ⟨hmod, hsalva⟩)
    · rintro (⟨hmenos, -⟩ | ⟨-, hsalva⟩ | ⟨hno, -⟩)
      · exact absurd hmenos hfin
      · exact hsalva
      · omega
  · rw [creada_de_resto_iff h hotras hcs hantes hlarga (by omega) hfin]
    constructor
    · exact fun hsalva => .inr (.inr ⟨by omega, hfin, hsalva⟩)
    · rintro (⟨hmenos, -⟩ | ⟨hno, -⟩ | ⟨-, -, hsalva⟩)
      · exact absurd hmenos hfin
      · exact absurd hno hmod
      · exact hsalva

end Casos

/-- **When `crearDirectorios` creates its path.** -/
theorem crearDirectorios_iff {d : Disco} {cs : List Texto} {ruta : Texto} (h : RutaDe cs ruta)
    (hotras : SinOtras d cs) :
    (∃ d', crearDirectorios ruta d = some d' ∧ Creada d cs ruta d') ↔ SePuedeCrear d cs := by
  constructor
  · intro hcreada
    rcases ConInt.cortas_o_larga cs with hcortas | ⟨antes, larga, despues, hcs, hantes, hlarga⟩
    · left
      obtain ⟨d', hd', -⟩ := hcreada
      rw [crearDirectorios_de_cortas h d hcortas] at hd'
      split_ifs at hd' with hmas
      exact ⟨by omega, hcortas⟩
    · exact .inr ⟨antes, larga, despues, hcs, hantes, hlarga,
        (creada_de_larga_iff h hotras hcs hantes hlarga).mp hcreada⟩
  · rintro (⟨hlargo, hcortas⟩ | ⟨antes, larga, despues, hcs, hantes, hlarga, hsalva⟩)
    · exact creada_de_cortas h hotras hcortas hlargo
    · exact (creada_de_larga_iff h hotras hcs hantes hlarga).mpr hsalva

/-- A system with nothing in its working directory. -/
def discoVacio : Disco where
  arbol :=
    { entry := fun p => if p = [] then some .carpeta else none
      parent := fun _ _ h => absurd (if_neg (List.concat_ne_nil _ _)) h }
  actual := []
  actual_carpeta := rfl

theorem sinOtras_discoVacio (cs : List Texto) : SinOtras discoVacio cs := by
  intro p _
  show (if p = [] then some EntradaDisco.carpeta else none) ≠ some .otra
  split_ifs
  · decide
  · decide

/-- **`crearDirectorios` creates its path**: every prefix of it becomes a directory, nothing else is
new or changed, and a second call finds nothing to do. The loop looks at the prefixes from the first
one on, so that the directory above is there when `mkdir` is called. -/
theorem crearDirectorios_crea {d : Disco} {cs : List Texto} {ruta : Texto} (h : RutaDe cs ruta)
    (hotras : SinOtras d cs) (hcortas : ∀ c ∈ cs, c.length < 2147483648)
    (hcuantos : cs.length < 2147483647) :
    ∃ d', crearDirectorios ruta d = some d' ∧ Creada d cs ruta d' := by
  have hmax : INT32_MAX = 2147483647 := rfl
  have hcorta : ∀ c ∈ cs, ConInt.Corta c := by
    intro c hc
    have hlargo := hcortas c hc
    unfold ConInt.Corta
    omega
  exact creada_de_cortas h hotras hcorta (by omega)

/-- Three directories, each in the one before, with a `/` at both ends of the path. -/
theorem crearDirectorios_de_tres :
    ∃ d', crearDirectorios "/descargas/log/ayer/".toList discoVacio = some d'
      ∧ Creada discoVacio ["descargas".toList, "log".toList, "ayer".toList]
        "/descargas/log/ayer/".toList d' :=
  crearDirectorios_crea
    { ne_nil := by decide
      nombres := by decide
      sinBarras_eq := by decide
      cabe := by decide }
    (sinOtras_discoVacio _) (by decide) (by decide)

/-- A component of `2 ^ 32 + 1` bytes, which is `1` as an `int`, is not created. -/
theorem not_creada_de_enorme {a : Texto} (ha : Nombre a) (hlargo : a.length = 4294967297) :
    RutaDe [a] a ∧ ¬ ∃ d', crearDirectorios a discoVacio = some d' ∧ Creada discoVacio [a] a d' := by
  have hsin : sinBarras a = a := by
    unfold sinBarras
    dsimp only
    rw [if_neg fun hhead => ha.sin_barra (List.mem_of_head? hhead),
      if_neg fun hlast => ha.sin_barra (List.mem_of_getLast? hlast)]
  have hruta : RutaDe [a] a :=
    { ne_nil := List.cons_ne_nil _ _
      nombres := fun c hc => by rwa [List.mem_singleton.mp hc]
      sinBarras_eq := hsin.trans List.intercalate_singleton.symm
      cabe := by rw [hlargo]; decide }
  refine ⟨hruta, ?_⟩
  have hlarga : ¬ ConInt.Corta a := by
    unfold ConInt.Corta
    rw [hlargo]
    decide
  have hmod : ((a.length % 4294967296 : ℕ) : ℤ) ≤ INT32_MAX := by
    rw [hlargo]
    decide
  rw [creada_de_trozo_iff hruta (sinOtras_discoVacio _) (List.nil_append [a]).symm
    (fun c hc => by cases hc) hlarga hmod]
  rintro ⟨-, hesta, -⟩
  cases hesta

/-- **A path of one component of `2 ^ 32 + 1` bytes.** -/
theorem crearDirectorios_sin_crear :
    ¬ ∀ (d : Disco) (cs : List Texto) (ruta : Texto), RutaDe cs ruta → SinOtras d cs →
      ∃ d', crearDirectorios ruta d = some d' ∧ Creada d cs ruta d' := by
  intro hall
  have hlargo : (List.replicate 4294967297 'a').length = 4294967297 := List.length_replicate
  have hnombre : Nombre (List.replicate 4294967297 'a') := by
    have hno {t : Texto} (ht : t.length < 4294967297) : List.replicate 4294967297 'a' ≠ t := by
      rintro rfl
      exact absurd hlargo (Nat.ne_of_lt ht)
    exact
      { ne_nil := hno (by decide)
        ne_punto := hno (by decide)
        ne_puntos := hno (by decide)
        sin_barra := fun hmem => absurd (List.eq_of_mem_replicate hmem) (by decide)
        sin_nul := fun hmem => absurd (List.eq_of_mem_replicate hmem) (by decide) }
  obtain ⟨hruta, hno⟩ := not_creada_de_enorme hnombre hlargo
  exact hno (hall discoVacio _ _ hruta (sinOtras_discoVacio _))

end FileSystem

end LoadBalancer
