/-
`FileSystem.cpp`: how a request path becomes a directory and a file name, and what is
opened.

`setRuta` drops one leading `/`, makes sure there is one at the end, cuts the text at
every `/`, and takes the last component for a file name when it holds a dot. The directory
and, when that can be opened, the file are opened as C strings of the pieces put together
again. [`FileSystem.setRuta_eq`] says what the two names are, without the cutting:
the directory and the name are the path itself, cut before its last component.

Positions are natural numbers here; `Componentes.lean` has the loop with its `int`s, and says where
that makes no difference.

What the operating system answers is a parameter, [`Sistema`]: every theorem is about every
directory tree. An open directory and an open file remember the path they were opened
with, so that what was opened can be read off the state afterwards.
-/
import LoadBalancer.Texto

set_option autoImplicit false

namespace LoadBalancer

open LoadBalancer.Search

/-! ## The operating system -/

/-- The fields of `struct stat` that are used. -/
structure Stat where
  st_mtim : ℤ
  st_size : ℤ

/-- What the system calls answer, by the path they are given. -/
structure Sistema where
  /-- The entries that `readdir` lists, if `opendir` succeeds. -/
  opendir : Texto → Option (List Texto)
  /-- Whether `open(ruta, O_RDWR)` succeeds. -/
  abre : Texto → Bool
  stat : Texto → Option Stat
  /-- What `gmtime_r` and `strftime` make of a time. -/
  getFechaGMT : ℤ → Texto

/-- A system without files. -/
def Sistema.sinArchivos : Sistema where
  opendir _ := none
  abre _ := false
  stat _ := none
  getFechaGMT _ := []

/-- A system in which everything can be opened, and nothing is listed. -/
def Sistema.todoAbierto : Sistema where
  opendir _ := some []
  abre _ := true
  stat _ := none
  getFechaGMT _ := []

/-- An open `DIR`. -/
structure Directorio where
  ruta : Texto
  entradas : List Texto

/-- An open file descriptor. -/
structure Fichero where
  ruta : Texto

/-! ## The members -/

/-- `FileSystem`, without the buffers that only `leerArchivo` and `escribirArchivo` use. A
null `DIR*` and the descriptor `-1` are `none`. -/
structure FileSystem where
  rutaDirectorios : Texto
  nombreArchivo : Texto
  extension : Texto
  directorios : List Texto
  directorio : Option Directorio
  fichero : Option Fichero
  buffer : Stat
  fechaModificacion : ℤ
  tamanoArchivo : ℤ
  bytesFaltantes : ℤ

namespace FileSystem

/-- A `FileSystem` right after its construction. The members without an initializer are
written before they are read. -/
def nuevo : FileSystem where
  rutaDirectorios := []
  nombreArchivo := []
  extension := []
  directorios := []
  directorio := none
  fichero := none
  buffer := ⟨0, 0⟩
  fechaModificacion := 0
  tamanoArchivo := 0
  bytesFaltantes := 0

/-- The paths of what is open. -/
def abiertas (fs : FileSystem) : List Texto :=
  fs.directorio.toList.map (·.ruta) ++ fs.fichero.toList.map (·.ruta)

/-! ## `setRuta` -/

/-- The loop that fills `directorios`: everything before the first `/` goes into the vector and,
with the `/`, out of the text. Every turn shortens the text, so its length is enough turns. -/
def partir.bucle : ℕ → Texto → List Texto
  | 0, _ => []
  | vueltas + 1, rutaAbsoluta =>
      match find ['/'] rutaAbsoluta with
      | none => []
      | some posicion =>
          rutaAbsoluta.take posicion :: partir.bucle vueltas (rutaAbsoluta.drop (posicion + 1))

def partir (rutaAbsoluta : Texto) : List Texto :=
  partir.bucle rutaAbsoluta.length rutaAbsoluta

/-- `esDirectorio`: no dot in the last entry of `directorios`, which has to be there. -/
def esDirectorio (fs : FileSystem) : Option Bool :=
  fs.directorios.getLast?.map fun dato => !dato.contains '.'

/-- `setNombre`. -/
def setNombre (ruta : Texto) (esDirectorio : Bool) (fs : FileSystem) : Option FileSystem :=
  if esDirectorio then some { fs with rutaDirectorios := ruta, nombreArchivo := [] }
  else
    fs.directorios.getLast?.map fun ultimo =>
      { fs with
        rutaDirectorios := fs.rutaDirectorios ++ fs.directorios.dropLast.flatMap (· ++ ['/'])
        nombreArchivo := ultimo }

/-- `getInformacionArchivo`. A `stat` that fails leaves `buffer` as it was. -/
def getInformacionArchivo (sis : Sistema) (fs : FileSystem) : FileSystem :=
  if fs.fichero.isSome then
    let buffer := (sis.stat (c_str (fs.rutaDirectorios ++ fs.nombreArchivo))).getD fs.buffer
    { fs with
      buffer := buffer
      fechaModificacion := buffer.st_mtim
      tamanoArchivo := buffer.st_size }
  else { fs with tamanoArchivo := 0 }

/-- The end of `setRuta`: `opendir` and, if it succeeds, `open`. -/
def abrir (sis : Sistema) (fs : FileSystem) : FileSystem :=
  match sis.opendir (c_str fs.rutaDirectorios) with
  -- nothing is opened, and `fichero` keeps what it was
  | none => { fs with directorio := none }
  | some entradas =>
      let rutaParaAbrirArchivo := c_str (fs.rutaDirectorios ++ fs.nombreArchivo)
      let fs := getInformacionArchivo sis
        { fs with
          directorio := some ⟨c_str fs.rutaDirectorios, entradas⟩
          fichero := if sis.abre rutaParaAbrirArchivo then some ⟨rutaParaAbrirArchivo⟩ else none }
      { fs with bytesFaltantes := aInt fs.tamanoArchivo }

/-- `setRuta`. On a path that is empty, or `/` alone, `rutaAbsoluta[rutaAbsoluta.size()-1]` has
no defined result. -/
def setRuta (sis : Sistema) (ruta : Texto) (fs : FileSystem) : Option FileSystem :=
  let rutaAbsoluta := if ruta.head? = some '/' then ruta.tail else ruta
  match rutaAbsoluta.getLast? with
  | none => none
  | some ultimo =>
      -- only a `/` that is missing is added: repeated ones stay, and give empty pieces
      let rutaAbsoluta := if ultimo ≠ '/' then rutaAbsoluta ++ ['/'] else rutaAbsoluta
      -- `directorios` gets every piece, the last one included
      let fs := { fs with rutaDirectorios := [], directorios := partir rutaAbsoluta }
      (esDirectorio fs).bind fun esDirectorio =>
        (setNombre rutaAbsoluta esDirectorio fs).map (abrir sis)

/-! ## Questions about the file -/

/-- `existeArchivo`. -/
def existeArchivo (fs : FileSystem) : Bool :=
  match fs.directorio with
  | none => false
  | some directorio =>
      fs.nombreArchivo ≠ [] && directorio.entradas.any (· = c_str fs.nombreArchivo)

/-- `extensionArchivo`: what follows the first dot, in lower case. -/
def extensionArchivo (fs : FileSystem) : FileSystem :=
  let nombre := match find ['.'] fs.nombreArchivo with
    | none => fs.nombreArchivo
    | some posicion => fs.nombreArchivo.drop (posicion + 1)
  { fs with extension := nombre.map Char.toLower }

/-! ## The cutting -/

/-- **The loop cuts the text at every `/`** and drops what follows the last one. -/
theorem partir_bucle_eq (vueltas : ℕ) {ruta : Texto} (h : ruta.length ≤ vueltas) :
    partir.bucle vueltas ruta = (ruta.splitOn '/').dropLast := by
  induction vueltas generalizing ruta with
  | zero =>
      rw [List.length_eq_zero_iff.mp (Nat.le_zero.mp h)]
      rfl
  | succ vueltas ih =>
      rw [partir.bucle]
      split
      · next hnone =>
          -- no `/` left: one piece, the one that is dropped
          have hmem : '/' ∉ ruta := by
            intro hin
            rw [find_eq_none_iff, List.singleton_infix_iff] at hnone
            exact hnone hin
          rw [List.splitOn_eq_singleton hmem]
          rfl
      · next posicion hsome =>
          have hcut := eq_append_of_find hsome
          have hpre : '/' ∉ ruta.take posicion := by
            intro hin
            apply not_infix_take_of_find (by simp) hsome
            rwa [List.singleton_infix_iff]
          have hlen : posicion < ruta.length := by
            have := congrArg List.length hcut
            simp only [List.length_append, List.length_take, List.length_drop,
              List.length_singleton] at this
            omega
          rw [ih (by rw [List.length_drop]; omega)]
          conv_rhs => rw [hcut, List.append_assoc, List.singleton_append,
            List.splitOn_append_cons_self_of_not_mem hpre]
          rw [List.dropLast_cons_of_ne_nil (List.splitOn_ne_nil _ _)]
          rfl

/-- With a `/` added at the end, nothing is dropped. -/
theorem partir_concat (p : Texto) : partir (p ++ ['/']) = p.splitOn '/' := by
  rw [partir, partir_bucle_eq _ (Nat.le_refl _), List.splitOn_append_cons_self]
  exact List.dropLast_concat

/-- Putting the pieces together again gives the text back. -/
theorem flatMap_dropLast_append_getLast {piezas : List Texto} (h : piezas ≠ []) :
    piezas.dropLast.flatMap (· ++ ['/']) ++ piezas.getLast h = ['/'].intercalate piezas := by
  rw [← intercalate_concat, List.dropLast_append_getLast]

/-! ## What `setRuta` does -/

/-- A path without its first `/` and its last one, where present. -/
def sinBarras (ruta : Texto) : Texto :=
  let sinPrimera := if ruta.head? = some '/' then ruta.tail else ruta
  if sinPrimera.getLast? = some '/' then sinPrimera.dropLast else sinPrimera

/-- The last component of a path. -/
def ultimoComponente (p : Texto) : Texto := (p.splitOn '/').getLast (List.splitOn_ne_nil '/' p)

/-- The file name of a path: its last component, if that holds a dot. -/
def nombreDe (p : Texto) : Texto := if '.' ∈ ultimoComponente p then ultimoComponente p else []

/-- The directory of a path: all but the file name, or all of it. -/
def directorioDe (p : Texto) : Texto :=
  if '.' ∈ ultimoComponente p then p.take (p.length - (ultimoComponente p).length) else p ++ ['/']

/-- Before the last component stands the rest of the path, with its `/`. -/
theorem flatMap_dropLast_splitOn (p : Texto) :
    (p.splitOn '/').dropLast.flatMap (· ++ ['/'])
      = p.take (p.length - (ultimoComponente p).length) := by
  have hjoin : (p.splitOn '/').dropLast.flatMap (· ++ ['/']) ++ ultimoComponente p = p := by
    rw [ultimoComponente, flatMap_dropLast_append_getLast, List.intercalate_splitOn]
  have hlen : p.length - (ultimoComponente p).length
      = ((p.splitOn '/').dropLast.flatMap (· ++ ['/'])).length := by
    have := congrArg List.length hjoin
    rw [List.length_append] at this
    omega
  calc (p.splitOn '/').dropLast.flatMap (· ++ ['/'])
      = ((p.splitOn '/').dropLast.flatMap (· ++ ['/']) ++ ultimoComponente p).take
          ((p.splitOn '/').dropLast.flatMap (· ++ ['/'])).length := List.take_left.symm
    _ = p.take (p.length - (ultimoComponente p).length) := by rw [hjoin, hlen]

/-- The directory and the name are the path, cut in two. -/
theorem directorioDe_append_nombreDe {p : Texto} (h : '.' ∈ ultimoComponente p) :
    directorioDe p ++ nombreDe p = p := by
  unfold directorioDe nombreDe
  rw [if_pos h, if_pos h, ← flatMap_dropLast_splitOn, ultimoComponente,
    flatMap_dropLast_append_getLast, List.intercalate_splitOn]

/-- The first steps of `setRuta`: no `/` at the front, one at the end. -/
theorem rutaAbsoluta_eq {ruta : Texto} {ultimo : Char}
    (h : (if ruta.head? = some '/' then ruta.tail else ruta).getLast? = some ultimo) :
    (if ultimo ≠ '/' then (if ruta.head? = some '/' then ruta.tail else ruta) ++ ['/']
      else (if ruta.head? = some '/' then ruta.tail else ruta)) = sinBarras ruta ++ ['/'] := by
  unfold sinBarras
  dsimp only
  generalize (if ruta.head? = some '/' then ruta.tail else ruta) = t at h ⊢
  rw [h]
  by_cases hu : ultimo = '/'
  · subst hu
    rw [if_neg (by simp), if_pos rfl]
    exact (List.dropLast_append_getLast? _ h).symm
  · rw [if_pos hu, if_neg (by simpa using hu)]

/-- What the first steps leave when there is a last character to look at. -/
theorem exists_rutaAbsoluta {ruta : Texto}
    (h : (if ruta.head? = some '/' then ruta.tail else ruta) ≠ []) :
    ∃ ultimo, (if ruta.head? = some '/' then ruta.tail else ruta).getLast? = some ultimo
      ∧ (if ultimo ≠ '/' then (if ruta.head? = some '/' then ruta.tail else ruta) ++ ['/']
          else (if ruta.head? = some '/' then ruta.tail else ruta)) = sinBarras ruta ++ ['/'] :=
  ⟨_, List.getLast?_eq_some_getLast h, rutaAbsoluta_eq (List.getLast?_eq_some_getLast h)⟩

/-- **`setRuta` opens the path's directory and, in it, the path's file name**, unless there is
nothing to cut. -/
theorem setRuta_eq (sis : Sistema) {ruta : Texto} (fs : FileSystem)
    (h : (if ruta.head? = some '/' then ruta.tail else ruta) ≠ []) :
    setRuta sis ruta fs
      = some (abrir sis
          { fs with
            rutaDirectorios := directorioDe (sinBarras ruta)
            nombreArchivo := nombreDe (sinBarras ruta)
            directorios := (sinBarras ruta).splitOn '/' }) := by
  obtain ⟨ultimo, hultimo, hruta⟩ := exists_rutaAbsoluta h
  unfold setRuta
  dsimp only
  rw [hultimo]
  dsimp only
  rw [hruta, partir_concat]
  -- the vector is not empty, and its last entry decides
  have hlast : ((sinBarras ruta).splitOn '/').getLast? = some (ultimoComponente (sinBarras ruta)) :=
    List.getLast?_eq_some_getLast _
  by_cases hdot : '.' ∈ ultimoComponente (sinBarras ruta)
  · simp only [esDirectorio, hlast, Option.map_some, Option.bind_some, setNombre,
      List.contains_eq_mem, hdot, decide_true, Bool.not_true, Bool.false_eq_true, if_false,
      List.nil_append, flatMap_dropLast_splitOn, nombreDe, directorioDe, if_true]
  · simp only [esDirectorio, hlast, Option.map_some, Option.bind_some, setNombre,
      List.contains_eq_mem, hdot, decide_false, Bool.not_false, if_true, nombreDe, directorioDe,
      if_false]

/-! ## What `abrir` opens -/

theorem abrir_nombreArchivo (sis : Sistema) (fs : FileSystem) :
    (abrir sis fs).nombreArchivo = fs.nombreArchivo := by
  unfold abrir
  split
  · rfl
  · simp only [getInformacionArchivo]
    split <;> rfl

theorem abrir_rutaDirectorios (sis : Sistema) (fs : FileSystem) :
    (abrir sis fs).rutaDirectorios = fs.rutaDirectorios := by
  unfold abrir
  split
  · rfl
  · simp only [getInformacionArchivo]
    split <;> rfl

theorem abrir_directorio (sis : Sistema) (fs : FileSystem) :
    (abrir sis fs).directorio
      = (sis.opendir (c_str fs.rutaDirectorios)).map fun entradas =>
          ⟨c_str fs.rutaDirectorios, entradas⟩ := by
  unfold abrir
  split
  · next h => rw [h, Option.map_none]
  · next h =>
      rw [h, Option.map_some]
      simp only [getInformacionArchivo]
      split <;> rfl

/-- The descriptor stays as it was when the directory cannot be opened. -/
theorem abrir_fichero (sis : Sistema) (fs : FileSystem) :
    (abrir sis fs).fichero
      = if (sis.opendir (c_str fs.rutaDirectorios)).isSome then
          (if sis.abre (c_str (fs.rutaDirectorios ++ fs.nombreArchivo)) then
            some ⟨c_str (fs.rutaDirectorios ++ fs.nombreArchivo)⟩ else none)
        else fs.fichero := by
  unfold abrir
  split
  · next h =>
      rw [h]
      rfl
  · next h =>
      rw [h]
      simp only [getInformacionArchivo, Option.isSome_some, if_true]
      split <;> rfl

/-- With no file open before, what is open then is the directory and, if that can be opened, the
file. -/
theorem abiertas_abrir (sis : Sistema) {fs : FileSystem} (hfichero : fs.fichero = none) :
    (abrir sis fs).abiertas
      = if (sis.opendir (c_str fs.rutaDirectorios)).isSome then
          c_str fs.rutaDirectorios ::
            if sis.abre (c_str (fs.rutaDirectorios ++ fs.nombreArchivo)) then
              [c_str (fs.rutaDirectorios ++ fs.nombreArchivo)] else []
        else [] := by
  rw [abiertas, abrir_directorio, abrir_fichero, hfichero]
  cases sis.opendir (c_str fs.rutaDirectorios) with
  | none => rfl
  | some entradas =>
      simp only [Option.map_some, Option.isSome_some, if_true, Option.toList_some, List.map_cons,
        List.map_nil, List.singleton_append, List.cons.injEq, true_and]
      split <;> rfl

/-- **The file is there** when its directory can be opened, it has a name, and the name, as a
C string, is listed. -/
theorem existeArchivo_abrir_iff (sis : Sistema) (fs : FileSystem) :
    (abrir sis fs).existeArchivo = true
      ↔ fs.nombreArchivo ≠ [] ∧ ∃ entradas, sis.opendir (c_str fs.rutaDirectorios) = some entradas
          ∧ c_str fs.nombreArchivo ∈ entradas := by
  unfold existeArchivo
  rw [abrir_directorio, abrir_nombreArchivo]
  cases sis.opendir (c_str fs.rutaDirectorios) with
  | none => simp
  | some entradas => simp

/-! ## The size of what is open -/

/-- What is open is the file that the members name, and they hold its size as `stat` gives it. -/
def Abierto (sis : Sistema) (fs : FileSystem) : Prop :=
  ∀ fichero, fs.fichero = some fichero →
    fichero.ruta = c_str (fs.rutaDirectorios ++ fs.nombreArchivo)
      ∧ ∀ st, sis.stat fichero.ruta = some st →
        fs.tamanoArchivo = st.st_size ∧ fs.bytesFaltantes = aInt st.st_size

theorem getInformacionArchivo_of_stat {sis : Sistema} {fs : FileSystem} {st : Stat}
    (h : fs.fichero.isSome)
    (hst : sis.stat (c_str (fs.rutaDirectorios ++ fs.nombreArchivo)) = some st) :
    getInformacionArchivo sis fs
      = { fs with buffer := st, fechaModificacion := st.st_mtim, tamanoArchivo := st.st_size } := by
  rw [getInformacionArchivo, if_pos h, hst, Option.getD_some]

/-- `getInformacionArchivo` changes neither what is open nor its name. -/
theorem getInformacionArchivo_campos (sis : Sistema) (fs : FileSystem) :
    (getInformacionArchivo sis fs).fichero = fs.fichero
      ∧ (getInformacionArchivo sis fs).rutaDirectorios = fs.rutaDirectorios
      ∧ (getInformacionArchivo sis fs).nombreArchivo = fs.nombreArchivo
      ∧ (getInformacionArchivo sis fs).bytesFaltantes = fs.bytesFaltantes := by
  unfold getInformacionArchivo
  split
  · exact ⟨rfl, rfl, rfl, rfl⟩
  · exact ⟨rfl, rfl, rfl, rfl⟩

theorem Abierto.getInformacionArchivo {sis : Sistema} {fs : FileSystem} (h : fs.Abierto sis) :
    (fs.getInformacionArchivo sis).Abierto sis := by
  obtain ⟨hfichero, hruta, hnombre, hfaltan⟩ := getInformacionArchivo_campos sis fs
  intro fichero hf
  rw [hfichero] at hf
  obtain ⟨hname, hsize⟩ := h fichero hf
  refine ⟨by rw [hname, hruta, hnombre], fun st hst => ?_⟩
  rw [hfaltan, getInformacionArchivo_of_stat (Option.isSome_iff_exists.mpr ⟨fichero, hf⟩)
    (hname ▸ hst)]
  exact ⟨rfl, (hsize st hst).2⟩

theorem Abierto.extensionArchivo {sis : Sistema} {fs : FileSystem} (h : fs.Abierto sis) :
    fs.extensionArchivo.Abierto sis := h

/-- `abrir` opens the file that the members name, when its directory can be opened. -/
theorem abierto_abrir {sis : Sistema} {fs : FileSystem}
    (h : (sis.opendir (c_str fs.rutaDirectorios)).isSome) : (abrir sis fs).Abierto sis := by
  obtain ⟨entradas, hent⟩ := Option.isSome_iff_exists.mp h
  intro fichero hf
  have hruta : fichero.ruta = c_str (fs.rutaDirectorios ++ fs.nombreArchivo) := by
    rw [abrir_fichero, if_pos h] at hf
    split at hf
    · exact (congrArg Fichero.ruta (Option.some.inj hf)).symm
    · cases hf
  unfold abrir at hf ⊢
  rw [hent] at hf ⊢
  dsimp only at hf ⊢
  obtain ⟨hfichero, hdirs, hnombre, -⟩ := getInformacionArchivo_campos sis
    { fs with
      directorio := some ⟨c_str fs.rutaDirectorios, entradas⟩
      fichero := if sis.abre (c_str (fs.rutaDirectorios ++ fs.nombreArchivo)) then
        some ⟨c_str (fs.rutaDirectorios ++ fs.nombreArchivo)⟩ else none }
  refine ⟨by rw [hruta, hdirs, hnombre], fun st hst => ?_⟩
  rw [hfichero] at hf
  rw [getInformacionArchivo_of_stat (Option.isSome_iff_exists.mpr ⟨fichero, hf⟩) (hruta ▸ hst)]
  exact ⟨rfl, rfl⟩

/-- The file that the members name is open, and they hold what `stat` says of it or, where that
fails, what `buffer` held before. -/
structure Medido (sis : Sistema) (previo : Stat) (fs : FileSystem) : Prop where
  abierto : fs.fichero = some ⟨c_str (fs.rutaDirectorios ++ fs.nombreArchivo)⟩
  buffer : fs.buffer = (sis.stat (c_str (fs.rutaDirectorios ++ fs.nombreArchivo))).getD previo
  tamano : fs.tamanoArchivo = fs.buffer.st_size
  faltan : fs.bytesFaltantes = aInt fs.buffer.st_size

/-- Asking again gives the same answer. -/
theorem Medido.getInformacionArchivo {sis : Sistema} {previo : Stat} {fs : FileSystem}
    (h : fs.Medido sis previo) : (fs.getInformacionArchivo sis).Medido sis previo := by
  have hsame : (sis.stat (c_str (fs.rutaDirectorios ++ fs.nombreArchivo))).getD fs.buffer
      = fs.buffer := by
    rw [h.buffer]
    cases sis.stat (c_str (fs.rutaDirectorios ++ fs.nombreArchivo)) with
    | none => rfl
    | some st => rfl
  have heq : fs.getInformacionArchivo sis
      = { fs with fechaModificacion := fs.buffer.st_mtim, tamanoArchivo := fs.buffer.st_size } := by
    rw [FileSystem.getInformacionArchivo, if_pos (by rw [h.abierto]; rfl)]
    dsimp only
    rw [hsame]
  rw [heq]
  exact ⟨h.abierto, h.buffer, rfl, h.faltan⟩

theorem Medido.extensionArchivo {sis : Sistema} {previo : Stat} {fs : FileSystem}
    (h : fs.Medido sis previo) : fs.extensionArchivo.Medido sis previo :=
  ⟨h.abierto, h.buffer, h.tamano, h.faltan⟩

/-- `abrir` measures the file that it opens. -/
theorem medido_abrir {sis : Sistema} {fs : FileSystem}
    (hdir : (sis.opendir (c_str fs.rutaDirectorios)).isSome)
    (habre : sis.abre (c_str (fs.rutaDirectorios ++ fs.nombreArchivo)) = true) :
    (abrir sis fs).Medido sis fs.buffer := by
  obtain ⟨entradas, hent⟩ := Option.isSome_iff_exists.mp hdir
  unfold abrir
  rw [hent]
  dsimp only
  rw [if_pos habre]
  exact ⟨rfl, rfl, rfl, rfl⟩

end FileSystem

end LoadBalancer
