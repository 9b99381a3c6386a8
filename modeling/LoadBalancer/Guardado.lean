/-
Where `WebCliente -download` puts what it downloads.

The name of the file is what follows the last `/` of the argument. In front of the first piece
`main` makes the directory `descargas`, lets `setRuta` take the path apart, creates the file of the
directory and the name that came of it, and lets `setRuta` open it. A name without a dot is no name
to `setRuta`: the whole path becomes a directory, and there is no file. Nothing of this looks at a
result, so the answer is read to its end in any case.

[`WebCliente.descarga_exacta_iff`] says for which answers, names and disks the downloaded file is
the body.
-/
import LoadBalancer.Carpetas
import LoadBalancer.Descarga
import LoadBalancer.InterpreteHTTP

set_option autoImplicit false

namespace LoadBalancer

open LoadBalancer.Search LoadBalancer.Loop LoadBalancer.Tree

/-! ## Files on the disk -/

namespace Disco

/-- The directory and the name that a path ends with. With nothing, `.` or `..` as its last
component a path can only lead to a directory. -/
def lugar (d : Disco) (ruta : Texto) : Option (List Texto × Texto) :=
  match (ruta.splitOn '/').getLast? with
  | none => none
  | some nombre =>
      if nombre = [] ∨ nombre = ['.'] ∨ nombre = ['.', '.'] then none
      else (d.camina (d.inicio ruta) (ruta.splitOn '/').dropLast).map fun padre => (padre, nombre)

/-- Whether `open(ruta, O_RDWR)` succeeds: on what is there and no directory. -/
def abre (d : Disco) (ruta : Texto) : Bool :=
  (d.lugar ruta).any fun (padre, nombre) => d.arbol.entry (padre ++ [nombre]) = some .otra

/-- `fopen(ruta, "w+")`; `none` is a null pointer. What is there and no directory is emptied, and
where nothing is there is a new file. -/
def crea (d : Disco) (ruta : Texto) : Option Disco :=
  (d.lugar ruta).bind fun (padre, nombre) =>
    if d.arbol.entry (padre ++ [nombre]) = some .otra then some d
    else if h : d.arbol.entry padre = some .carpeta ∧ d.arbol.entry (padre ++ [nombre]) = none then
      some
        { arbol := d.arbol.put padre nombre .otra h.1 h.2
          actual := d.actual
          actual_carpeta := by
            have hne : d.actual ≠ padre ++ [nombre] := by
              intro heq
              have hactual := d.actual_carpeta
              rw [heq, h.2] at hactual
              cases hactual
            rw [DirTree.entry_put_of_ne _ _ _ _ _ _ hne]
            exact d.actual_carpeta }
    else none

/-- The disk, to `setRuta`, which keeps what a directory lists and what `stat` says without looking
at it. -/
def sistema (d : Disco) : Sistema where
  opendir ruta := if d.opendir ruta then some [] else none
  abre := d.abre
  stat _ := none
  getFechaGMT _ := []

end Disco

/-- `crearArchivo`: a null pointer is only reported. -/
def FileSystem.crearArchivo (d : Disco) (fs : FileSystem) : Disco :=
  (d.crea (c_str (fs.rutaDirectorios ++ fs.nombreArchivo))).getD d

/-! ## The statements of `main` -/

/-- A command-line argument behind the address: a C string, which the system keeps far below
`2 ^ 31` bytes. -/
structure Argumento where
  ruta : Texto
  sin_nul : NUL ∉ ruta
  corto : (ruta.length : ℤ) ≤ INT32_MAX

/-- The directory of the downloads. -/
def DESCARGAS : Texto := "descargas".toList

namespace WebCliente

/-- The loop that puts `linea` behind the last `/`. -/
def nombreArchivo.bucle (ruta : Texto) : ℕ → ℕ → ℕ
  | 0, linea => linea
  | vueltas + 1, linea =>
      match find ['/'] (ruta.drop linea) with
      | none => linea
      | some posicion => nombreArchivo.bucle ruta vueltas (linea + posicion + 1)

/-- `nombreArchivo`: what follows, unless that is shorter than two characters. -/
def nombreArchivo (ruta : Texto) : Texto :=
  let nombre := ruta.drop (nombreArchivo.bucle ruta (ruta.length + 1) 0)
  if nombre.length < 2 then HOME_HTML else nombre

/-- The statements between the name and the first piece. -/
def prepararArchivo (nombre : Texto) (d : Disco) (fs : FileSystem) : Option (FileSystem × Disco) :=
  (FileSystem.crearDirectorios ('/' :: DESCARGAS ++ ['/']) d).bind fun d =>
    (FileSystem.ConInt.setRuta d.sistema ('/' :: DESCARGAS ++ '/' :: nombre) fs).bind fun fs =>
      let d := fs.crearArchivo d
      (FileSystem.ConInt.setRuta d.sistema (DESCARGAS ++ '/' :: nombre) fs).map fun fs => (fs, d)

/-- A run with `-download` ends with `archivo` in the downloaded file: the descriptor that is
written to is that of the new file in `descargas`, which `crearArchivo` has left empty. -/
def Descargado (siguiente : Char) (backbufferSocket bufferSocket : Bufer) (a : Argumento) (d : Disco)
    (flujo archivo : Texto) : Prop :=
  (∃ fs d', prepararArchivo (nombreArchivo a.ruta) d .nuevo = some (fs, d')
      ∧ fs.fichero = some ⟨DESCARGAS ++ '/' :: nombreArchivo a.ruta⟩)
    ∧ Escrito siguiente backbufferSocket bufferSocket flujo archivo

/-! ## The name -/

/-- **The loop stops behind the last `/`.** Every turn goes on in the rest of the text. -/
theorem barra_not_mem_drop_bucle (ruta : Texto) {vueltas linea : ℕ}
    (h : ruta.length < linea + vueltas) :
    '/' ∉ ruta.drop (nombreArchivo.bucle ruta vueltas linea) := by
  induction vueltas generalizing linea with
  | zero =>
      rw [nombreArchivo.bucle, List.drop_of_length_le (by omega)]
      exact List.not_mem_nil
  | succ vueltas ih =>
      rw [nombreArchivo.bucle]
      cases hfind : find ['/'] (ruta.drop linea) with
      | none =>
          rw [find_eq_none_iff, List.singleton_infix_iff] at hfind
          exact hfind
      | some posicion => exact ih (by omega)

/-- The name is one component, without a zero byte, and it is neither empty nor `.`. -/
structure EsNombre (n : Texto) : Prop where
  ne_nil : n ≠ []
  ne_punto : n ≠ ['.']
  sin_barra : '/' ∉ n
  sin_nul : NUL ∉ n
  corto : FileSystem.ConInt.Corta n

theorem esNombre_nombreArchivo (a : Argumento) : EsNombre (nombreArchivo a.ruta) := by
  unfold nombreArchivo
  dsimp only
  split_ifs with hcorto
  · exact ⟨by decide, by decide, by decide, by decide, by decide⟩
  · have hlargo := a.corto
    refine ⟨?_, ?_, barra_not_mem_drop_bucle a.ruta (by omega),
      fun hmem => a.sin_nul (List.mem_of_mem_drop hmem), ?_⟩
    · intro hnil
      rw [hnil] at hcorto
      exact hcorto (by decide)
    · intro hpunto
      rw [hpunto] at hcorto
      exact hcorto (by decide)
    · rw [FileSystem.ConInt.Corta, List.length_drop]
      omega

/-! ## The path -/

theorem nombre_descargas : ∀ c ∈ [DESCARGAS], FileSystem.Nombre c := by
  decide

section Ruta

variable {n : Texto} (hn : EsNombre n)

include hn

theorem splitOn_descargas : (DESCARGAS ++ '/' :: n).splitOn '/' = [DESCARGAS, n] := by
  rw [List.splitOn_append_cons_self_of_not_mem (by decide), List.splitOn_eq_singleton hn.sin_barra]

theorem ultimoComponente_descargas : FileSystem.ultimoComponente (DESCARGAS ++ '/' :: n) = n := by
  have hlast : ((DESCARGAS ++ '/' :: n).splitOn '/').getLast?
      = some (FileSystem.ultimoComponente (DESCARGAS ++ '/' :: n)) :=
    List.getLast?_eq_some_getLast _
  rw [splitOn_descargas hn] at hlast
  exact (Option.some.inj hlast).symm

theorem getLast?_descargas_ne : (DESCARGAS ++ '/' :: n).getLast? ≠ some '/' := by
  intro hlast
  rw [List.getLast?_append, List.getLast?_cons] at hlast
  cases hultimo : n.getLast? with
  | none => exact hn.ne_nil (List.getLast?_eq_none_iff.mp hultimo)
  | some c =>
      rw [hultimo] at hlast
      have hc : c = '/' := Option.some.inj hlast
      exact hn.sin_barra (hc ▸ List.mem_of_getLast? hultimo)

/-- With or without a `/` in front, the path is the same to `setRuta`. -/
theorem sinBarras_descargas :
    FileSystem.sinBarras ('/' :: DESCARGAS ++ '/' :: n) = DESCARGAS ++ '/' :: n
      ∧ FileSystem.sinBarras (DESCARGAS ++ '/' :: n) = DESCARGAS ++ '/' :: n := by
  have hlast := getLast?_descargas_ne hn
  constructor
  · show (if (DESCARGAS ++ '/' :: n).getLast? = some '/' then _ else DESCARGAS ++ '/' :: n) = _
    exact if_neg hlast
  · show (if (DESCARGAS ++ '/' :: n).getLast? = some '/' then _ else DESCARGAS ++ '/' :: n) = _
    exact if_neg hlast

/-- What `setRuta` makes of a path that is this one without its outer `/`s. -/
theorem setRuta_descargas (sis : Sistema) (fs : FileSystem) {ruta : Texto}
    (hruta : FileSystem.sinBarras ruta = DESCARGAS ++ '/' :: n) :
    ∃ fs' : FileSystem, FileSystem.ConInt.setRuta sis ruta fs = some (FileSystem.abrir sis fs')
      ∧ fs'.rutaDirectorios = FileSystem.directorioDe (DESCARGAS ++ '/' :: n)
      ∧ fs'.nombreArchivo = FileSystem.nombreDe (DESCARGAS ++ '/' :: n)
      ∧ fs'.fichero = fs.fichero := by
  have hne : ruta ≠ [] := by
    rintro rfl
    cases hruta
  have hbarra : ruta ≠ ['/'] := by
    rintro rfl
    cases hruta
  have hcortas : ∀ c ∈ (FileSystem.sinBarras ruta).splitOn '/', FileSystem.ConInt.Corta c := by
    rw [hruta, splitOn_descargas hn]
    intro c hc
    rcases List.mem_pair.mp hc with rfl | rfl
    · decide
    · exact hn.corto
  have hcuantos : (((FileSystem.sinBarras ruta).splitOn '/').length : ℤ) ≤ INT32_MAX := by
    rw [hruta, splitOn_descargas hn]
    show (2 : ℤ) ≤ INT32_MAX
    decide
  rw [FileSystem.ConInt.setRuta_eq sis fs hne hbarra hcortas hcuantos,
    FileSystem.setRuta_eq sis fs (FileSystem.ConInt.sinPrimera_ne_nil hne hbarra), hruta]
  exact ⟨_, rfl, rfl, rfl, rfl⟩

theorem nul_not_mem_descargas : NUL ∉ DESCARGAS ++ '/' :: n := by
  rw [List.mem_append, List.mem_cons, not_or, not_or]
  exact ⟨by decide, by decide, hn.sin_nul⟩

/-! ## The disk -/

section Disco

variable (d : Disco)

/-- The name is looked for in `descargas`, if that is a directory. -/
theorem lugar_descargas :
    d.lugar (DESCARGAS ++ '/' :: n)
      = if n ≠ ['.', '.'] ∧ d.arbol.entry (d.actual ++ [DESCARGAS]) = some .carpeta then
          some (d.actual ++ [DESCARGAS], n)
        else none := by
  have hinicio : d.inicio (DESCARGAS ++ '/' :: n) = d.actual := if_neg fun h => by cases h
  have hcamina := d.camina_nombres d.actual_carpeta nombre_descargas
  unfold Disco.lugar
  rw [splitOn_descargas hn, hinicio]
  show (if n = [] ∨ n = ['.'] ∨ n = ['.', '.'] then none
    else (d.camina d.actual [DESCARGAS]).map fun padre => (padre, n)) = _
  rw [hcamina]
  by_cases hpuntos : n = ['.', '.']
  · rw [if_pos (.inr (.inr hpuntos)), if_neg fun h => h.1 hpuntos]
  · have hnombre : ¬ (n = [] ∨ n = ['.'] ∨ n = ['.', '.']) :=
      not_or.mpr ⟨hn.ne_nil, not_or.mpr ⟨hn.ne_punto, hpuntos⟩⟩
    by_cases hdir : d.arbol.entry (d.actual ++ [DESCARGAS]) = some .carpeta
    · rw [if_neg hnombre, if_pos hdir, if_pos ⟨hpuntos, hdir⟩]
      rfl
    · rw [if_neg hnombre, if_neg hdir, if_neg fun h => hdir h.2]
      rfl

theorem abre_descargas :
    d.abre (DESCARGAS ++ '/' :: n) = true
      ↔ (n ≠ ['.', '.'] ∧ d.arbol.entry (d.actual ++ [DESCARGAS]) = some .carpeta)
        ∧ d.arbol.entry (d.actual ++ [DESCARGAS] ++ [n]) = some .otra := by
  unfold Disco.abre
  rw [lugar_descargas hn]
  split_ifs with h
  · rw [Option.any_some, decide_eq_true_iff, and_iff_right h]
  · exact iff_of_false Bool.false_ne_true fun hand => h hand.1

/-- The disk behind `crearArchivo`: the file is there unless there is a directory in its place. -/
theorem crea_descargas {d' : Disco} (h : (d.crea (DESCARGAS ++ '/' :: n)).getD d = d') :
    d'.actual = d.actual
      ∧ d'.arbol.entry (d.actual ++ [DESCARGAS]) = d.arbol.entry (d.actual ++ [DESCARGAS])
      ∧ (n ≠ ['.', '.'] → d.arbol.entry (d.actual ++ [DESCARGAS]) = some .carpeta →
        (d'.arbol.entry (d.actual ++ [DESCARGAS] ++ [n]) = some .otra
          ↔ d.arbol.entry (d.actual ++ [DESCARGAS] ++ [n]) ≠ some .carpeta)) := by
  subst h
  unfold Disco.crea
  rw [lugar_descargas hn]
  by_cases hsitio : n ≠ ['.', '.'] ∧ d.arbol.entry (d.actual ++ [DESCARGAS]) = some .carpeta
  · rw [if_pos hsitio, Option.bind_some]
    dsimp only
    by_cases hotra : d.arbol.entry (d.actual ++ [DESCARGAS] ++ [n]) = some .otra
    · rw [if_pos hotra]
      refine ⟨rfl, rfl, fun _ _ => iff_of_true hotra ?_⟩
      rw [hotra]
      decide
    rw [if_neg hotra]
    by_cases hnueva : d.arbol.entry (d.actual ++ [DESCARGAS]) = some .carpeta
        ∧ d.arbol.entry (d.actual ++ [DESCARGAS] ++ [n]) = none
    · -- nothing is there, and the file is new
      rw [dif_pos hnueva]
      refine ⟨rfl, ?_, fun _ _ => iff_of_true ?_ ?_⟩
      · exact DirTree.entry_put_of_ne _ _ _ _ hnueva.1 hnueva.2 (by simp)
      · exact DirTree.entry_put_self _ _ _ _ hnueva.1 hnueva.2
      · rw [hnueva.2]
        decide
    · rw [dif_neg hnueva]
      refine ⟨rfl, rfl, fun _ hdir => iff_of_false hotra (not_not_intro ?_)⟩
      cases hentry : d.arbol.entry (d.actual ++ [DESCARGAS] ++ [n]) with
      | none => exact absurd ⟨hdir, hentry⟩ hnueva
      | some e =>
          cases e with
          | carpeta => rfl
          | otra => exact absurd hentry hotra
  · rw [if_neg hsitio]
    exact ⟨rfl, rfl, fun hpuntos hdir => absurd ⟨hpuntos, hdir⟩ hsitio⟩

omit hn in
/-- `descargas/`, to `opendir`. -/
theorem opendir_descargas :
    (d.sistema.opendir (DESCARGAS ++ ['/'])).isSome
      ↔ d.arbol.entry (d.actual ++ [DESCARGAS]) = some .carpeta := by
  have hinicio : d.inicio (DESCARGAS ++ ['/']) = d.actual := if_neg (by decide)
  have hpartes : (DESCARGAS ++ ['/']).splitOn '/' = [DESCARGAS] ++ [[]] := by decide
  have hcamina := d.camina_nombres d.actual_carpeta nombre_descargas
  have hopendir : d.opendir (DESCARGAS ++ ['/'])
      = (d.camina d.actual [DESCARGAS]).isSome := by
    unfold Disco.opendir
    rw [hinicio, hpartes, d.camina_append]
    cases d.camina d.actual [DESCARGAS] with
    | none => rfl
    | some dir => rfl
  show (if d.opendir (DESCARGAS ++ ['/']) then some ([] : List Texto) else none).isSome ↔ _
  rw [hopendir, hcamina]
  by_cases hdir : d.arbol.entry (d.actual ++ [DESCARGAS]) = some .carpeta
  · rw [if_pos hdir]
    exact iff_of_true rfl hdir
  · rw [if_neg hdir]
    exact iff_of_false Bool.false_ne_true hdir

omit hn in
/-- The directory of the downloads is made if nothing is in its place. -/
theorem crearDirectorios_descargas :
    ∃ d', FileSystem.crearDirectorios ('/' :: DESCARGAS ++ ['/']) d = some d'
      ∧ d'.actual = d.actual
      ∧ (d'.arbol.entry (d.actual ++ [DESCARGAS]) = some .carpeta
        ↔ d.arbol.entry (d.actual ++ [DESCARGAS]) ≠ some .otra)
      ∧ d'.arbol.entry (d.actual ++ [DESCARGAS] ++ [n])
        = d.arbol.entry (d.actual ++ [DESCARGAS] ++ [n]) := by
  have hruta : FileSystem.RutaDe [DESCARGAS] ('/' :: DESCARGAS ++ ['/']) :=
    { ne_nil := by decide
      nombres := by decide
      sinBarras_eq := by decide
      cabe := by decide }
  have hcrear := FileSystem.crearDirectorios_de_cortas hruta d (by decide)
  rw [if_neg (by decide)] at hcrear
  have hpadre : d.arbol.entry (d.actual ++ []) = some .carpeta := by
    rw [List.append_nil]
    exact d.actual_carpeta
  have hanade := FileSystem.anade_asegurar (show ∀ c ∈ [] ++ [DESCARGAS], FileSystem.Nombre c
    from nombre_descargas)
    hpadre
  rw [List.append_nil] at hanade
  refine ⟨_, hcrear, hanade.actual, ?_, hanade.arbol.entry_of_not_mem fun hmem => ?_⟩
  · have hmem : d.actual ++ [DESCARGAS] ∈ ({d.actual ++ [DESCARGAS]} : Set (List Texto)) := rfl
    cases hentry : d.arbol.entry (d.actual ++ [DESCARGAS]) with
    | none => exact iff_of_true (hanade.arbol.entry_of_mem hmem (.inl hentry)) (by decide)
    | some e =>
        have hqueda := hanade.arbol.entry_of_some hentry
        cases e with
        | carpeta => exact iff_of_true hqueda (by decide)
        | otra =>
            refine iff_of_false (fun h => ?_) fun h => h rfl
            rw [show FileSystem.crearTodas [DESCARGAS] d
              = FileSystem.asegurar (FileSystem.unir ([] ++ [DESCARGAS])) d from rfl, hqueda] at h
            cases h
  · have hlargo := congrArg List.length (Set.mem_singleton_iff.mp hmem)
    simp at hlargo

end Disco

/-! ## The file -/

/-- What the two names are for `setRuta`: without a dot there is only a directory. -/
theorem nombres_descargas :
    ('.' ∈ n → FileSystem.directorioDe (DESCARGAS ++ '/' :: n) = DESCARGAS ++ ['/']
        ∧ FileSystem.nombreDe (DESCARGAS ++ '/' :: n) = n)
      ∧ ('.' ∉ n → FileSystem.directorioDe (DESCARGAS ++ '/' :: n) = DESCARGAS ++ '/' :: n ++ ['/']
        ∧ FileSystem.nombreDe (DESCARGAS ++ '/' :: n) = []) := by
  have hultimo := ultimoComponente_descargas hn
  unfold FileSystem.directorioDe FileSystem.nombreDe
  rw [hultimo]
  constructor
  · intro hpunto
    have hcorte : DESCARGAS ++ '/' :: n = DESCARGAS ++ ['/'] ++ n := by
      rw [List.append_assoc]
      rfl
    rw [if_pos hpunto, if_pos hpunto, hcorte, List.length_append, Nat.add_sub_cancel,
      List.take_left]
    exact ⟨rfl, rfl⟩
  · intro hpunto
    rw [if_neg hpunto, if_neg hpunto]
    exact ⟨rfl, rfl⟩

omit hn in
/-- A path with a `/` at its end cannot be opened for writing. -/
theorem abre_barra (d : Disco) : d.abre (DESCARGAS ++ '/' :: n ++ ['/']) = false := by
  have hlast : ((DESCARGAS ++ '/' :: n ++ ['/']).splitOn '/').getLast? = some [] := by
    rw [List.splitOn_append_cons_self]
    exact List.getLast?_concat
  unfold Disco.abre Disco.lugar
  rw [hlast]
  rfl

/-- So nothing is opened for a name without a dot, which `setRuta` takes for a directory. -/
theorem abre_directorio (d : Disco) :
    d.sistema.abre (c_str (DESCARGAS ++ '/' :: n ++ ['/'] ++ [])) = false := by
  have hnul : NUL ∉ DESCARGAS ++ '/' :: n ++ ['/'] := by
    rw [List.mem_append, not_or]
    exact ⟨nul_not_mem_descargas hn, by decide⟩
  rw [List.append_nil, c_str_of_not_mem hnul]
  exact abre_barra d

/-- **Which file is open** behind the statements of `main`: that of the name in `descargas`, if the
name has a dot, and neither it nor the directory is something else already. -/
theorem prepararArchivo_eq (d : Disco) :
    ∃ fs d', prepararArchivo n d .nuevo = some (fs, d')
      ∧ (fs.fichero = some ⟨DESCARGAS ++ '/' :: n⟩
        ↔ ('.' ∈ n ∧ n ≠ ['.', '.'])
          ∧ d.arbol.entry (d.actual ++ [DESCARGAS]) ≠ some .otra
          ∧ d.arbol.entry (d.actual ++ [DESCARGAS] ++ [n]) ≠ some .carpeta) := by
  obtain ⟨d₁, hcrear, hactual₁, hcarpeta₁, hfile₁⟩ := @crearDirectorios_descargas n d
  obtain ⟨fs₁, hset₁, hdir₁, hnombre₁, hprevio₁⟩ :=
    setRuta_descargas hn d₁.sistema .nuevo (sinBarras_descargas hn).1
  obtain ⟨fs₂, hset₂, hdir₂, hnombre₂, hprevio₂⟩ :=
    setRuta_descargas hn ((FileSystem.abrir d₁.sistema fs₁).crearArchivo d₁).sistema
      (FileSystem.abrir d₁.sistema fs₁) (sinBarras_descargas hn).2
  generalize hd₂ : (FileSystem.abrir d₁.sistema fs₁).crearArchivo d₁ = d₂ at hset₂
  have hrun : prepararArchivo n d .nuevo = some (FileSystem.abrir d₂.sistema fs₂, d₂) := by
    unfold prepararArchivo
    rw [hcrear, Option.bind_some, hset₁, Option.bind_some]
    dsimp only
    rw [hd₂, hset₂, Option.map_some]
  refine ⟨_, _, hrun, ?_⟩
  unfold FileSystem.crearArchivo at hd₂
  rw [FileSystem.abrir_rutaDirectorios, FileSystem.abrir_nombreArchivo, hdir₁, hnombre₁] at hd₂
  rw [FileSystem.abrir_fichero, hprevio₂, FileSystem.abrir_fichero, hprevio₁, hdir₁, hdir₂,
    hnombre₁, hnombre₂]
  have hruta := nul_not_mem_descargas hn
  by_cases hpunto : '.' ∈ n
  · obtain ⟨hd, hnom⟩ := (nombres_descargas hn).1 hpunto
    have hjunta : DESCARGAS ++ ['/'] ++ n = DESCARGAS ++ '/' :: n := by
      rw [List.append_assoc]
      rfl
    rw [hd, hnom, hjunta, c_str_of_not_mem hruta] at hd₂
    obtain ⟨hactual₂, hcarpeta₂, hfile₂⟩ := crea_descargas hn d₁ hd₂
    rw [hd, hnom, hjunta, c_str_of_not_mem hruta, c_str_of_not_mem (by decide),
      if_congr (opendir_descargas d₁) rfl rfl, if_congr (opendir_descargas d₂) rfl rfl, hactual₂,
      hcarpeta₂, hactual₁]
    rw [hactual₁] at hcarpeta₂ hfile₂
    by_cases hdir : d₁.arbol.entry (d.actual ++ [DESCARGAS]) = some .carpeta
    · have habre : d₂.abre (DESCARGAS ++ '/' :: n) = true ↔ n ≠ ['.', '.']
          ∧ d.arbol.entry (d.actual ++ [DESCARGAS] ++ [n]) ≠ some .carpeta := by
        rw [abre_descargas hn d₂, hactual₂, hactual₁, hcarpeta₂, and_iff_left hdir, ← hfile₁]
        exact and_congr_right fun hpuntos => hfile₂ hpuntos hdir
      rw [if_pos hdir, and_iff_right hpunto, and_iff_right (hcarpeta₁.mp hdir), ← habre]
      split_ifs with h
      · exact iff_of_true rfl h
      · exact iff_of_false (fun heq => by cases heq) h
    · rw [if_neg hdir, if_neg hdir]
      exact iff_of_false (fun heq => by cases heq) fun hand => hdir (hcarpeta₁.mpr hand.2.1)
  · -- only the directory of that name is tried, and nothing is opened in it
    obtain ⟨hd, hnom⟩ := (nombres_descargas hn).2 hpunto
    rw [hd, hnom, abre_directorio hn, abre_directorio hn, if_neg Bool.false_ne_true]
    have hnada : (FileSystem.nuevo).fichero = none := rfl
    rw [hnada, ite_self, ite_self]
    exact iff_of_false (fun heq => by cases heq) fun hand => hpunto hand.1.1

end Ruta

/-! ## The result -/

/-- **When the downloaded file is the body.** For every answer, every length of its body, whatever
the arrays held, every argument and every disk. The answer has to fill the first array, because what
is written of it is all of the array behind the header block; and there has to be a file, for which
the name needs a dot. -/
theorem descarga_exacta_iff (r : RespuestaHTTP) (siguiente : Char)
    (backbufferSocket bufferSocket : Bufer) (a : Argumento) (d : Disco) :
    Descargado siguiente backbufferSocket bufferSocket a d r.texto r.cuerpo
      ↔ (BUFFER_SIZE ≤ r.texto.length ∧ (r.cuerpo.length : ℤ) ≤ INT32_MAX)
        ∧ ('.' ∈ nombreArchivo a.ruta ∧ nombreArchivo a.ruta ≠ ['.', '.'])
        ∧ d.arbol.entry (d.actual ++ [DESCARGAS]) ≠ some .otra
        ∧ d.arbol.entry (d.actual ++ [DESCARGAS] ++ [nombreArchivo a.ruta]) ≠ some .carpeta := by
  obtain ⟨fs, d', hrun, hfichero⟩ := prepararArchivo_eq (esNombre_nombreArchivo a) d
  unfold Descargado
  rw [hrun, escrito_iff, ← hfichero]
  constructor
  · rintro ⟨⟨fs', d'', heq, hf⟩, hescrito⟩
    cases heq
    exact ⟨hescrito, hf⟩
  · rintro ⟨hescrito, hf⟩
    exact ⟨⟨fs, d', rfl, hf⟩, hescrito⟩

/-- The home page. -/
def argumentoIndice : Argumento := ⟨[], List.not_mem_nil, by decide⟩

/-- **A short answer leaves a file of the size of the array**, on a disk with nothing on it. -/
theorem descarga_corta :
    ¬ ∀ (r : RespuestaHTTP) (siguiente : Char) (backbufferSocket bufferSocket : Bufer)
      (a : Argumento) (d : Disco),
      Descargado siguiente backbufferSocket bufferSocket a d r.texto r.cuerpo := fun hall =>
  not_escrito_respuestaCorta NUL .ceros .ceros
    (hall respuestaCorta NUL .ceros .ceros argumentoIndice FileSystem.discoVacio).2

end WebCliente

end LoadBalancer
