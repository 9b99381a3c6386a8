/-
A directory tree under the web server, and what a 200 answer says about it.

`Sistema` is whatever the system calls may answer. Here they answer for a tree of directories and
regular files with permissions, [`Arbol`]: `opendir` wants a directory that can be read, `open` with
`O_RDWR` a regular file that can be read and written, and `stat` only the way to it.

The three are not the same question. `existeArchivo` looks for a name in a listing, and nobody looks
at what `open` returned: for a directory with a dot in its name, or a file that may not be written,
the answer is 200 with a length of `0` and a descriptor of `-1`
([`servido_es_regular_iff`]).
-/
import LoadBalancer.Head
import LoadBalancer.Rutas

set_option autoImplicit false

namespace LoadBalancer

open LoadBalancer.Search

/-! ## The tree -/

/-- What there is at a path, with what the process may do with it. -/
inductive Nodo
  | regular (st : Stat) (lee escribe : Bool)
  | directorio (st : Stat) (lee busca : Bool) (entradas : List (Texto × Nodo))

def Nodo.stat : Nodo → Stat
  | .regular st _ _ => st
  | .directorio st _ _ _ => st

/-- One component of a path. The directory that has been reached is the first of the list, and its
ancestors follow, up to the root, which is its own parent. -/
def entra (camino : List Nodo) (componente : Texto) : Option (List Nodo) :=
  match camino with
  | .directorio st lee busca entradas :: padres =>
      -- a `/` only asks for a directory
      if componente = [] then some (.directorio st lee busca entradas :: padres)
      else if busca = false then none
      else if componente = ['.'] then some (.directorio st lee busca entradas :: padres)
      else if componente = ['.', '.'] then
        match padres with
        | [] => some [.directorio st lee busca entradas]
        | padre :: abuelos => some (padre :: abuelos)
      else
        (entradas.lookup componente).map fun hijo =>
          hijo :: .directorio st lee busca entradas :: padres
  | _ => none

/-- The components of a path, one after the other. -/
def camina : List Texto → List Nodo → Option (List Nodo)
  | [], camino => some camino
  | componente :: resto, camino => (entra camino componente).bind (camina resto)

theorem camina_append (primeros ultimos : List Texto) (camino : List Nodo) :
    camina (primeros ++ ultimos) camino = (camina primeros camino).bind (camina ultimos) := by
  induction primeros generalizing camino with
  | nil => rfl
  | cons componente resto ih =>
      rw [List.cons_append, camina, camina]
      cases entra camino componente with
      | none => rfl
      | some camino' => exact ih camino'

theorem camina_singleton (componente : Texto) (camino : List Nodo) :
    camina [componente] camino = entra camino componente := by
  rw [camina]
  cases entra camino componente with
  | none => rfl
  | some camino' => rfl

/-- A component that leads from a directory to a regular file is one that the directory lists. -/
theorem entra_regular {camino : List Nodo} {componente : Texto} {st st' : Stat}
    {lee escribe lee' busca : Bool} {entradas : List (Texto × Nodo)}
    (hdir : (entra camino []).bind List.head? = some (.directorio st' lee' busca entradas))
    (hreg : (entra camino componente).bind List.head? = some (.regular st lee escribe)) :
    componente ∈ ['.'] :: ['.', '.'] :: entradas.map Prod.fst := by
  match camino with
  | [] => cases hdir
  | .regular _ _ _ :: _ => cases hdir
  | .directorio _ _ _ _ :: padres =>
      cases hdir
      unfold entra at hreg
      dsimp only at hreg
      split_ifs at hreg with hnada hbusca hpunto hpuntos
      · cases hreg
      · cases hreg
      · cases hreg
      · -- what is above: only `..` leads there
        rw [hpuntos]
        exact List.mem_cons_of_mem _ List.mem_cons_self
      · obtain ⟨camino', hcamino, -⟩ := Option.bind_eq_some_iff.mp hreg
        obtain ⟨hijo, hhijo, -⟩ := Option.map_eq_some_iff.mp hcamino
        obtain ⟨antes, despues, heq, -⟩ := List.lookup_eq_some_iff.mp hhijo
        rw [heq]
        simp

/-- The tree as a process sees it: its working directory and the directories above that one, and
how the system writes times. -/
structure Arbol where
  actual : Nodo
  padres : List Nodo
  getFechaGMT : ℤ → Texto

namespace Arbol

/-- Where a path begins. -/
def inicio (a : Arbol) (ruta : Texto) : List Nodo :=
  if ruta.head? = some '/' then [(a.actual :: a.padres).getLast (List.cons_ne_nil _ _)]
  else a.actual :: a.padres

/-- What there is at a path; there is no empty path. -/
def nodoEn (a : Arbol) (ruta : Texto) : Option Nodo :=
  if ruta = [] then none else (camina (ruta.splitOn '/') (a.inicio ruta)).bind List.head?

/-- What the system calls answer. -/
def sistema (a : Arbol) : Sistema where
  opendir ruta :=
    match a.nodoEn ruta with
    | some (.directorio _ true _ entradas) => some (['.'] :: ['.', '.'] :: entradas.map Prod.fst)
    | _ => none
  abre ruta :=
    match a.nodoEn ruta with
    | some (.regular _ true true) => true
    | _ => false
  stat ruta := (a.nodoEn ruta).map Nodo.stat
  getFechaGMT := a.getFechaGMT

variable (a : Arbol) {ruta : Texto}

/-- `open` succeeds on the regular files that can be read and written. -/
theorem abre_iff : a.sistema.abre ruta = true ↔ ∃ st, a.nodoEn ruta = some (.regular st true true) := by
  show (match a.nodoEn ruta with
    | some (.regular _ true true) => true
    | _ => false) = true ↔ _
  split
  · next st h => exact ⟨fun _ => ⟨st, h⟩, fun _ => rfl⟩
  · next h =>
      constructor
      · intro hfalse
        cases hfalse
      · rintro ⟨st, hst⟩
        exact absurd hst (h st)

/-- `opendir` succeeds on the directories that can be read, and lists what is in them. -/
theorem opendir_eq_some_iff {lista : List Texto} :
    a.sistema.opendir ruta = some lista
      ↔ ∃ st busca entradas, a.nodoEn ruta = some (.directorio st true busca entradas)
          ∧ lista = ['.'] :: ['.', '.'] :: entradas.map Prod.fst := by
  show (match a.nodoEn ruta with
    | some (.directorio _ true _ entradas) => some (['.'] :: ['.', '.'] :: entradas.map Prod.fst)
    | _ => none) = some lista ↔ _
  split
  · next st busca entradas h =>
      constructor
      · intro heq
        exact ⟨st, busca, entradas, h, (Option.some.inj heq).symm⟩
      · rintro ⟨st', busca', entradas', h', rfl⟩
        rw [h] at h'
        cases h'
        rfl
  · next h =>
      constructor
      · intro heq
        cases heq
      · rintro ⟨st, busca, entradas, h', -⟩
        exact absurd h' (h st busca entradas)

end Arbol

/-! ## What a 200 answer says -/

namespace InterpreteHTTP

/-- If the answer is 200, the resource is a regular file that `setRuta` opened, and the length that
is announced is its size. -/
def ServidoEsRegular (a : Arbol) (i : InterpreteHTTP) (httpRequest : Texto) : Prop :=
  ∀ i', i.construirRespuesta a.sistema httpRequest = some (i', STATUS_OK_200) →
    ∃ ruta st lee escribe, Despachada httpRequest ruta
      ∧ a.nodoEn (rutaAbierta ruta) = some (.regular st lee escribe)
      ∧ i'.fs.fichero = some ⟨rutaAbierta ruta⟩
      ∧ i'.respuesta_size = (toString st.st_size).toList

/-- The path of a request that is answered with 200 leads to a regular file that the process may
read and write. -/
def SePuedeAbrir (a : Arbol) (httpRequest : Texto) : Prop :=
  ∀ ruta, Despachada httpRequest ruta → existe a.sistema ruta = true →
    tipoConocido (extensionDe (nombrePedido ruta)) = true →
    ∃ st, a.nodoEn (rutaAbierta ruta) = some (.regular st true true)

theorem Despachada.ne_nil {httpRequest ruta : Texto} (h : Despachada httpRequest ruta) :
    httpRequest ≠ [] := by
  rintro rfl
  obtain ⟨linea, headers, resto, metodo, htmlv, mas, hsplit, -⟩ := h
  cases hsplit

section Servido

variable {a : Arbol} {i : InterpreteHTTP} {httpRequest : Texto}

/-- What is not opened leaves the answer without a descriptor. -/
theorem ServidoEsRegular.sePuedeAbrir (h : ServidoEsRegular a i httpRequest) :
    SePuedeAbrir a httpRequest := by
  intro ruta hd hexiste htipo
  obtain ⟨i', codigo, hi'⟩ := exists_construirRespuesta a.sistema i hd.ne_nil
  obtain ⟨-, -, -, hcodigo⟩ := construirRespuesta_campos hi'
  obtain rfl : codigo = STATUS_OK_200 := hcodigo.mpr ⟨ruta, hd, hexiste, htipo⟩
  obtain ⟨_, _, _, _, _, _, hfichero, _⟩ := h i' hi'
  obtain ⟨-, hcerrado⟩ := construirRespuesta_medido hi' hd hexiste htipo
  rw [← a.abre_iff, ← Bool.not_eq_false]
  intro habre
  rw [hcerrado habre] at hfichero
  cases hfichero

/-- What is opened is measured, and its size announced. -/
theorem SePuedeAbrir.servidoEsRegular (h : SePuedeAbrir a httpRequest) :
    ServidoEsRegular a i httpRequest := by
  intro i' hi'
  obtain ⟨-, -, hcampos, hcodigo⟩ := construirRespuesta_campos hi'
  obtain ⟨ruta, hd, hexiste, htipo⟩ := hcodigo.mp rfl
  obtain ⟨ruta', hd', hserv⟩ := hcampos rfl
  obtain rfl := hd.unique hd'
  obtain ⟨st, hnodo⟩ := h ruta hd hexiste htipo
  have habre := a.abre_iff.mpr ⟨st, hnodo⟩
  have hmed := (construirRespuesta_medido hi' hd hexiste htipo).1 habre
  have hruta : c_str (i'.fs.rutaDirectorios ++ i'.fs.nombreArchivo) = rutaAbierta ruta := by
    rw [hserv.rutaDirectorios, hserv.nombreArchivo, rutaAbierta]
  have hstat : a.sistema.stat (rutaAbierta ruta) = some st := by
    show (a.nodoEn (rutaAbierta ruta)).map Nodo.stat = some st
    rw [hnodo]
    rfl
  refine ⟨ruta, st, true, true, hd, hnodo, ?_, ?_⟩
  · rw [hmed.abierto, hruta]
  · rw [hserv.size, hmed.tamano, hmed.buffer, hruta, hstat, Option.getD_some]

end Servido

/-- **When a 200 answer is about a regular file that was opened**: whenever the name that was listed
is that of a regular file that may be read and written. For every request, every tree with any
permissions, and any state of the interpreter. The lookup is in a listing, which has directories and
forbidden files as well, and nobody looks at what `open` returned. -/
theorem servido_es_regular_iff (a : Arbol) (i : InterpreteHTTP) (httpRequest : Texto) :
    ServidoEsRegular a i httpRequest ↔ SePuedeAbrir a httpRequest :=
  ⟨fun h => h.sePuedeAbrir, fun h => h.servidoEsRegular⟩

/-- A working directory with a `public_html` that holds this under this name. -/
def carpetaCon (nombre : Texto) (nodo : Nodo) : Arbol where
  actual := .directorio ⟨0, 0⟩ true true [(ROOT_FOLDER, .directorio ⟨0, 0⟩ true true [(nombre, nodo)])]
  padres := []
  getFechaGMT _ := []

/-- **A file that may not be written is answered with 200, and was not opened.** -/
theorem servido_sin_abrir :
    ¬ ∀ (a : Arbol) (i : InterpreteHTTP) (httpRequest : Texto), ServidoEsRegular a i httpRequest := by
  intro hall
  have hcond := (hall (carpetaCon "a.html".toList (.regular ⟨0, 2⟩ true false)) .nuevo
    (peticionDe "/a.html".toList)).sePuedeAbrir
  have hd : Despachada (peticionDe "/a.html".toList) "/a.html".toList :=
    ⟨_, _, _, _, _, _, rfl, rfl, by decide, by decide, .inr rfl, .inl rfl⟩
  obtain ⟨st, hst⟩ := hcond "/a.html".toList hd (by decide) (by decide)
  have hnodo : (carpetaCon "a.html".toList (.regular ⟨0, 2⟩ true false)).nodoEn
      (rutaAbierta "/a.html".toList) = some (.regular ⟨0, 2⟩ true false) := rfl
  rw [hnodo] at hst
  cases hst

end InterpreteHTTP

end LoadBalancer
