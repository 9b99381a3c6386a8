/-
`HEAD` next to `GET`.

`procesarRequest` sets `enviarSoloHeaders` for a `HEAD` request, and sets it to `false`,
the value that `construirRespuesta` gave it. So the two methods are one: whatever follows
the method, the answer to `HEAD` is the answer to `GET` ([`construirRespuesta_head`]). The
header blocks agree, and so do the bodies.

`recuperarBody` would look at the flag for status 200 only. For any other status the first
call brings the text of the error, and for 200 it brings the first block of the file, so
that the body of a `HEAD` answer is empty exactly when that block is
([`head_sin_cuerpo_iff`]).
-/
import LoadBalancer.Cuerpo

set_option autoImplicit false

namespace LoadBalancer

open LoadBalancer.Search

namespace InterpreteHTTP

/-! ## Requests that differ in the method -/

/-- What is behind the method is cut into lines in the same places, whatever the method. -/
theorem exists_split_metodo (resto : Texto) :
    ∃ linea lineas, ∀ metodo : Texto, '\r' ∉ metodo →
      Utilidades.split (metodo ++ ' ' :: resto) CRLF 1 = (metodo ++ ' ' :: linea) :: lineas := by
  refine ⟨(Utilidades.split.bucle CRLF 2 resto).headD [], (Utilidades.split.bucle CRLF 2 resto).tail,
    fun metodo hmetodo => ?_⟩
  have hcr : '\r' ∉ metodo ++ [' '] := by
    rw [List.mem_append, List.mem_singleton]
    rintro (h | h)
    · exact hmetodo h
    · exact absurd h (by decide)
  have hne : metodo ++ [' '] ≠ [] := List.append_ne_nil_of_right_ne_nil metodo (by decide)
  have hcut := Utilidades.split.bucle_append (p := ['\n']) hcr hne 2 resto
  have hpos : 0 < (metodo ++ ' ' :: resto).length := by
    rw [List.length_append, List.length_cons]
    omega
  rw [List.append_assoc, List.append_assoc] at hcut
  rw [Utilidades.split, if_pos hpos]
  exact hcut

/-- The method is the first part of its line. -/
theorem split_linea_metodo {metodo : Texto} (h : ' ' ∉ metodo) (linea : Texto) :
    Utilidades.split (metodo ++ ' ' :: linea) [' '] 3
      = metodo :: Utilidades.split.bucle [' '] 3 linea := by
  have hpos : 0 < (metodo ++ ' ' :: linea).length := by
    rw [List.length_append, List.length_cons]
    omega
  rw [Utilidades.split, if_pos hpos, Utilidades.split.bucle_singleton h]

/-- **`HEAD` sets the flag to the value that it has.** -/
theorem procesarMetodo_head (sis : Sistema) (ruta : Texto) {i : InterpreteHTTP}
    (hsolo : i.enviarSoloHeaders = false) :
    i.procesarMetodo sis HEAD ruta = i.procesarMetodo sis GET ruta := by
  have hsame : { i with enviarSoloHeaders := false } = i := by rw [← hsolo]
  have hhead : HEAD = GET ∨ HEAD = HEAD := .inr rfl
  have hget : GET = GET ∨ GET = HEAD := .inl rfl
  have hno : ¬ GET = HEAD := by decide
  unfold procesarMetodo
  rw [if_pos hhead, if_pos hget, if_pos rfl, if_neg hno, hsame]

theorem procesarRequest_head (sis : Sistema) (ruta htmlv headers : Texto) {i : InterpreteHTTP}
    (hsolo : i.enviarSoloHeaders = false) :
    i.procesarRequest sis HEAD ruta htmlv headers = i.procesarRequest sis GET ruta htmlv headers := by
  unfold procesarRequest
  rw [procesarMetodo_head sis ruta (i := { i with respuesta_protocolo := htmlv }) hsolo]

/-- **The answer to `HEAD` is the answer to `GET`**, whatever follows the method. -/
theorem construirRespuesta_head (sis : Sistema) (resto : Texto) (i : InterpreteHTTP) :
    i.construirRespuesta sis (HEAD ++ ' ' :: resto)
      = i.construirRespuesta sis (GET ++ ' ' :: resto) := by
  obtain ⟨linea, lineas, hsplit⟩ := exists_split_metodo resto
  have hvacia (partes : List Texto) : [] ∈ HEAD :: partes ↔ [] ∈ GET :: partes := by
    have hhead : [] ≠ HEAD := by decide
    have hget : [] ≠ GET := by decide
    rw [List.mem_cons, List.mem_cons, or_iff_right hhead, or_iff_right hget]
  unfold construirRespuesta
  dsimp only
  rw [hsplit HEAD (by decide), hsplit GET (by decide)]
  dsimp only
  rw [split_linea_metodo (by decide), split_linea_metodo (by decide)]
  generalize Utilidades.split.bucle [' '] 3 linea = partes
  rcases lineas with _ | ⟨headers, lineas⟩
  · rfl
  rcases partes with _ | ⟨ruta, _ | ⟨htmlv, mas⟩⟩
  · rfl
  · rfl
  · dsimp only
    rw [procesarRequest_head sis ruta htmlv headers rfl, if_congr (hvacia _) rfl rfl]

/-! ## The file behind a 200 answer -/

/-- The path that is opened for a request path. -/
def rutaAbierta (ruta : Texto) : Texto := c_str (directorioPedido ruta ++ nombrePedido ruta)

/-- The size of that file, as `stat` gives it; where it fails, what `buffer` held counts. -/
def tamanoPedido (sis : Sistema) (i : InterpreteHTTP) (ruta : Texto) : ℤ :=
  ((sis.stat (rutaAbierta ruta)).getD i.fs.buffer).st_size

/-- From the test of the method on: a file of a known type is measured, if it can be opened. -/
theorem procesarMetodo_medido {sis : Sistema} {metodo ruta : Texto} {i i' : InterpreteHTTP}
    (h : i.procesarMetodo sis metodo ruta = some i') (hm : metodo = GET ∨ metodo = HEAD)
    (hexiste : existe sis ruta = true)
    (htipo : tipoConocido (extensionDe (nombrePedido ruta)) = true) :
    (sis.abre (rutaAbierta ruta) = true → i'.fs.Medido sis i.fs.buffer)
      ∧ (sis.abre (rutaAbierta ruta) = false → i'.fs.fichero = none) := by
  obtain ⟨fs, hfs⟩ : ∃ fs : FileSystem, fs =
    { i.fs with
      rutaDirectorios := directorioPedido ruta
      nombreArchivo := nombrePedido ruta
      directorios := (rutaPedida ruta).splitOn '/' } := ⟨_, rfl⟩
  have hdir : fs.rutaDirectorios = directorioPedido ruta := by rw [hfs]
  have hnombre : fs.nombreArchivo = nombrePedido ruta := by rw [hfs]
  have hbuffer : fs.buffer = i.fs.buffer := by rw [hfs]
  have harchivo := existeArchivo_eq sis ruta fs hdir hnombre
  -- the directory was opened, or the file would not be there
  have habierto : (sis.opendir (c_str fs.rutaDirectorios)).isSome := by
    obtain ⟨-, entradas, hent, -⟩ :=
      (FileSystem.existeArchivo_abrir_iff sis fs).mp (harchivo.trans hexiste)
    exact Option.isSome_of_eq_some hent
  have hi' : i'.fs = ((FileSystem.abrir sis fs).extensionArchivo).getInformacionArchivo sis := by
    have hext : (FileSystem.abrir sis fs).extensionArchivo.extension
        = extensionDe (nombrePedido ruta) := by
      rw [← hnombre, ← FileSystem.abrir_nombreArchivo sis fs]
      rfl
    obtain ⟨tipo, hlook⟩ := Option.isSome_iff_exists.mp htipo
    have hj : (if metodo = HEAD then { i with enviarSoloHeaders := false } else i).fs = i.fs := by
      split <;> rfl
    unfold procesarMetodo at h
    rw [if_pos hm] at h
    dsimp only at h hfs
    rw [setRutaRecurso_eq, hj, ← hfs, Option.map_some, Option.some.injEq,
      if_pos (harchivo.trans hexiste)] at h
    rw [← h, responderArchivo]
    dsimp only
    rw [hext, hlook]
  rw [hi', ← hbuffer]
  constructor
  · intro habre
    rw [rutaAbierta, ← hdir, ← hnombre] at habre
    exact (FileSystem.medido_abrir habierto habre).extensionArchivo.getInformacionArchivo
  · intro habre
    rw [rutaAbierta, ← hdir, ← hnombre] at habre
    rw [(FileSystem.getInformacionArchivo_campos sis _).1]
    show (FileSystem.abrir sis fs).fichero = none
    rw [FileSystem.abrir_fichero, if_pos habierto, if_neg (by rw [habre]; decide)]

/-- The file of a request that is served. -/
theorem construirRespuesta_medido {sis : Sistema} {httpRequest ruta : Texto}
    {i i' : InterpreteHTTP} {codigo : ℤ}
    (h : i.construirRespuesta sis httpRequest = some (i', codigo))
    (hd : Despachada httpRequest ruta) (hexiste : existe sis ruta = true)
    (htipo : tipoConocido (extensionDe (nombrePedido ruta)) = true) :
    (sis.abre (rutaAbierta ruta) = true → i'.fs.Medido sis i.fs.buffer)
      ∧ (sis.abre (rutaAbierta ruta) = false → i'.fs.fichero = none) := by
  obtain ⟨j, -, rfl, ⟨-, hno, -⟩ | ⟨linea, headers, resto, metodo, ruta', htmlv, mas, hsplit, hpartes,
    hvacia, hj⟩⟩ := construirRespuesta_casos h
  · exact absurd hd (hno ruta)
  · obtain ⟨rfl, hhost, hver, hm⟩ := (despachada_iff hsplit hpartes hvacia ruta).mp hd
    rw [procesarRequest, if_neg hhost, if_pos hver] at hj
    have hmedido := procesarMetodo_medido hj hm hexiste htipo
    exact hmedido

/-! ## The first call of `recuperarBody` -/

theorem responderArchivo_errorOcurrido (sis : Sistema) (i : InterpreteHTTP) :
    (i.responderArchivo sis).errorOcurrido = i.errorOcurrido := by
  unfold responderArchivo
  dsimp only
  split <;> rfl

/-- No branch of `procesarRequest` touches `errorOcurrido`. -/
theorem procesarRequest_errorOcurrido {sis : Sistema} {metodo ruta htmlv headers : Texto}
    {i i' : InterpreteHTTP} (h : i.procesarRequest sis metodo ruta htmlv headers = some i') :
    i'.errorOcurrido = i.errorOcurrido := by
  unfold procesarRequest procesarMetodo at h
  dsimp only at h
  split_ifs at h
  · cases h
    rfl
  · rw [setRutaRecurso_eq, Option.map_some, Option.some.injEq] at h
    rw [← h]
    split
    · exact responderArchivo_errorOcurrido sis _
    · rfl
  · rw [setRutaRecurso_eq, Option.map_some, Option.some.injEq] at h
    rw [← h]
    split
    · exact responderArchivo_errorOcurrido sis _
    · rfl
  · cases h
    rfl
  · cases h
    rfl
  · cases h
    rfl

/-- The text of an error has not been sent. -/
theorem construirRespuesta_errorOcurrido {sis : Sistema} {httpRequest : Texto}
    {i i' : InterpreteHTTP} {codigo : ℤ}
    (h : i.construirRespuesta sis httpRequest = some (i', codigo)) : i'.errorOcurrido = false := by
  obtain ⟨j, -, rfl, ⟨rfl, -, -⟩ | ⟨_, _, _, _, _, _, _, -, -, -, hj⟩⟩ := construirRespuesta_casos h
  · rfl
  · exact procesarRequest_errorOcurrido hj

/-- The first call of `recuperarBody` returns `0`. -/
def SinCuerpo (contenido : Texto → Texto) (i : InterpreteHTTP) : Prop :=
  ∃ i', i.recuperarBody contenido 0 BUFFER_SIZE = some (i', some [])

/-- An error has a text. -/
theorem not_sinCuerpo_error (contenido : Texto → Texto) {i : InterpreteHTTP}
    (hest : i.respuesta_estadoCodigo ≠ STATUS_OK_200) (hprimera : i.errorOcurrido = false) :
    ¬ i.SinCuerpo contenido := by
  rintro ⟨i', h⟩
  rw [recuperarBody_error contenido 0 hest, hprimera, if_neg (by decide)] at h
  have hlargo := (c_str_cuerpoError_length i.respuesta_estadoCodigo).1
  rw [Option.some.inj (Prod.mk.inj (Option.some.inj h)).2] at hlargo
  exact absurd hlargo (by decide)

/-- For 200, the body is empty when the first read brings nothing. -/
theorem sinCuerpo_servido_iff (contenido : Texto → Texto) {i : InterpreteHTTP}
    (hest : i.respuesta_estadoCodigo = STATUS_OK_200) (hsolo : i.enviarSoloHeaders = false) :
    i.SinCuerpo contenido
      ↔ ∃ fs', i.fs.leerArchivo contenido 0 BUFFER_SIZE = some (fs', some []) := by
  unfold SinCuerpo
  rw [recuperarBody_servido contenido 0 BUFFER_SIZE hest hsolo]
  constructor
  · rintro ⟨i', h⟩
    obtain ⟨⟨fs', leidos⟩, hleer, heq⟩ := Option.map_eq_some_iff.mp h
    obtain rfl : leidos = some [] := (Prod.mk.inj heq).2
    exact ⟨fs', hleer⟩
  · rintro ⟨fs', hleer⟩
    rw [hleer]
    exact ⟨_, rfl⟩

/-- Nothing is read from a file that was not opened: `read` fails. -/
theorem leerArchivo_cerrado (contenido : Texto → Texto) {fs fs' : FileSystem} (pos len : ℕ)
    (hfichero : fs.fichero = none) : fs.leerArchivo contenido pos len ≠ some (fs', some []) := by
  intro h
  unfold FileSystem.leerArchivo at h
  rw [hfichero] at h
  dsimp only at h
  split at h <;> cases h

/-- The file that a request path names can be opened, and its first block is empty: there is
nothing in it, or its size becomes `0` in an `int`. A size that becomes a number below the
range of the counter brings the read no result. -/
def PrimerBloqueVacio (sis : Sistema) (contenido : Texto → Texto) (i : InterpreteHTTP)
    (ruta : Texto) : Prop :=
  sis.abre (rutaAbierta ruta) = true ∧ INT32_MIN + BUFFER_SIZE ≤ aInt (tamanoPedido sis i ruta)
    ∧ (contenido (rutaAbierta ruta) = [] ∨ aInt (tamanoPedido sis i ruta) = 0)

/-- **When an answer has no body**: it is a file's, and the file's first block is empty. -/
theorem sinCuerpo_iff {sis : Sistema} {httpRequest : Texto} {i i' : InterpreteHTTP} {codigo : ℤ}
    (contenido : Texto → Texto) (h : i.construirRespuesta sis httpRequest = some (i', codigo)) :
    i'.SinCuerpo contenido
      ↔ ∃ ruta, Despachada httpRequest ruta ∧ existe sis ruta = true
        ∧ tipoConocido (extensionDe (nombrePedido ruta)) = true
        ∧ PrimerBloqueVacio sis contenido i ruta := by
  obtain ⟨hest, -, hcampos, hservida⟩ := construirRespuesta_campos h
  by_cases h200 : codigo = STATUS_OK_200
  · obtain ⟨ruta, hd, hmiembros⟩ := hcampos h200
    obtain ⟨ruta', hd', hexiste, htipo⟩ := hservida.mp h200
    obtain rfl := hd.unique hd'
    have hunica : (∃ ruta, Despachada httpRequest ruta ∧ existe sis ruta = true
        ∧ tipoConocido (extensionDe (nombrePedido ruta)) = true
        ∧ PrimerBloqueVacio sis contenido i ruta) ↔ PrimerBloqueVacio sis contenido i ruta := by
      constructor
      · rintro ⟨ruta', hd', -, -, hvacio⟩
        rwa [hd.unique hd']
      · exact fun hvacio => ⟨ruta, hd, hexiste, htipo, hvacio⟩
    rw [hunica, sinCuerpo_servido_iff contenido (hest.trans h200) hmiembros.enviarSoloHeaders]
    obtain ⟨habierto, hcerrado⟩ := construirRespuesta_medido h hd hexiste htipo
    unfold PrimerBloqueVacio
    cases habre : sis.abre (rutaAbierta ruta) with
    | false =>
        simp only [Bool.false_eq_true, false_and, iff_false]
        rintro ⟨fs', hleer⟩
        exact leerArchivo_cerrado contenido 0 BUFFER_SIZE (hcerrado habre) hleer
    | true =>
        have hmedido := habierto habre
        have hnombre : c_str (i'.fs.rutaDirectorios ++ i'.fs.nombreArchivo) = rutaAbierta ruta := by
          rw [hmiembros.rutaDirectorios, hmiembros.nombreArchivo, rutaAbierta]
        have htamano : i'.fs.tamanoArchivo = tamanoPedido sis i ruta := by
          rw [hmedido.tamano, hmedido.buffer, hnombre, tamanoPedido]
        have hfaltan : i'.fs.bytesFaltantes = aInt i'.fs.tamanoArchivo := by
          rw [hmedido.faltan, hmedido.tamano]
        rw [FileSystem.leerArchivo_vacio_iff contenido hmedido.abierto hfaltan, hnombre, htamano]
        exact ⟨fun hvacio => ⟨rfl, hvacio⟩, fun hvacio => hvacio.2⟩
  · -- any other status: the text of the error
    have hno := not_sinCuerpo_error contenido (fun heq => h200 (hest ▸ heq))
      (construirRespuesta_errorOcurrido h)
    refine ⟨fun hsin => absurd hsin hno, ?_⟩
    rintro ⟨ruta, hd, hexiste, htipo, -⟩
    exact absurd (hservida.mpr ⟨ruta, hd, hexiste, htipo⟩) h200

/-! ## The result -/

/-- **`HEAD` answers as `GET` does, body included.** For every system, every request from its
method on, and any state of the interpreter: the status line and the header fields agree, and
the body is empty exactly when the request names a file that is served with 200, can be opened
and has nothing in its first block. The flag for `HEAD` is set to the value that it had, so that the
two methods do not differ. -/
theorem head_sin_cuerpo_iff (sis : Sistema) (contenido : Texto → Texto) (resto : Texto)
    (i : InterpreteHTTP) :
    ∃ get head codigo, i.construirRespuesta sis (GET ++ ' ' :: resto) = some (get, codigo)
      ∧ i.construirRespuesta sis (HEAD ++ ' ' :: resto) = some (head, codigo)
      ∧ (∀ fecha, head.recuperarHeader fecha = get.recuperarHeader fecha)
      ∧ (head.SinCuerpo contenido
        ↔ ∃ ruta, Despachada (HEAD ++ ' ' :: resto) ruta ∧ existe sis ruta = true
          ∧ tipoConocido (extensionDe (nombrePedido ruta)) = true
          ∧ PrimerBloqueVacio sis contenido i ruta) := by
  have hne : GET ++ ' ' :: resto ≠ [] := List.append_ne_nil_of_left_ne_nil (by decide) _
  obtain ⟨get, codigo, hget⟩ := exists_construirRespuesta sis i hne
  have hhead : i.construirRespuesta sis (HEAD ++ ' ' :: resto) = some (get, codigo) := by
    rw [construirRespuesta_head, hget]
  exact ⟨get, get, codigo, hget, hhead, fun _ => rfl, sinCuerpo_iff contenido hhead⟩

/-- **`HEAD` for a home page of two bytes brings the two bytes.** -/
theorem head_con_cuerpo :
    ¬ ∀ (sis : Sistema) (contenido : Texto → Texto) (resto : Texto) (i : InterpreteHTTP),
      ∃ get head codigo, i.construirRespuesta sis (GET ++ ' ' :: resto) = some (get, codigo)
        ∧ i.construirRespuesta sis (HEAD ++ ' ' :: resto) = some (head, codigo)
        ∧ (∀ fecha, head.recuperarHeader fecha = get.recuperarHeader fecha)
        ∧ head.SinCuerpo contenido := by
  intro hall
  obtain ⟨-, head, codigo, -, hhead, -, hcuerpo⟩ := hall .conIndice (fun _ => ['h', 'i'])
    "/ HTTP/1.1\r\nHost: a\r\n\r\n".toList .nuevo
  obtain ⟨ruta, -, -, -, -, -, hvacio⟩ := (sinCuerpo_iff _ hhead).mp hcuerpo
  have htamano : aInt (tamanoPedido .conIndice .nuevo ruta) = 2 := rfl
  rcases hvacio with hvacio | hvacio
  · cases hvacio
  · rw [htamano] at hvacio
    exact absurd hvacio (by decide)

end InterpreteHTTP

end LoadBalancer
