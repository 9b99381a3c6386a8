/-
`InterpreteHTTP.cpp`: from the text of a request to a status code.

`construirRespuesta` cuts the text into the request line, the *first* header line and the
rest (`split` with `veces = 1` makes two cuts), the line into its parts, and hands three parts
and the first header line to `procesarRequest`, which goes through a cascade of tests: the
`Host` header, the version, the method, the file, its extension.

[`procesarRequest_estado`] says what code the cascade arrives at and what it opens on the
way, without the members it passes through; [`construirRespuesta_estado`] says the same of
whole requests, given their lines.
-/
import LoadBalancer.FileSystem
import LoadBalancer.Utilidades

set_option autoImplicit false

namespace LoadBalancer

open LoadBalancer.Search

/-! ## Constants -/

def ROOT_FOLDER : Texto := "public_html".toList

def HOME_HTML : Texto := "index.html".toList

def STATUS_OK_200 : ℤ := 200

def STATUS_BAD_REQ_400 : ℤ := 400

def STATUS_FORBIDDEN_403 : ℤ := 403

def STATUS_NOT_FOUND_404 : ℤ := 404

def STATUS_INTERNAL_SRV_ERR_500 : ℤ := 500

def STATUS_NOT_IMPLMTD_501 : ℤ := 501

def STATUS_HTTP_VRSN_NOT_SPPRTD_505 : ℤ := 505

/-- `MIMETYPES`. -/
def MIMETYPES : List (Texto × Texto) :=
  [("arc".toList, "application/octet-stream".toList),
    ("avi".toList, "video/x-msvideo".toList),
    ("azw".toList, "application/vnd.amazon.ebook".toList),
    ("bin".toList, "application/octet-stream".toList),
    ("bmp".toList, "image/bmp".toList),
    ("bz".toList, "application/x-bzip".toList),
    ("bz2".toList, "application/x-bzip2".toList),
    ("csh".toList, "application/x-csh".toList),
    ("css".toList, "text/css".toList),
    ("csv".toList, "text/csv".toList),
    ("doc".toList, "application/msword".toList),
    ("docx".toList,
      "application/vnd.openxmlformats-officedocument.wordprocessingml.document".toList),
    ("ecmascript".toList, "application/ecmascript".toList),
    ("epub".toList, "application/epub+zip".toList),
    ("gif".toList, "image/gif".toList),
    ("gz".toList, "application/gzip".toList),
    ("htm".toList, "text/html".toList),
    ("html".toList, "text/html".toList),
    ("ico".toList, "image/x-icon".toList),
    ("jpeg".toList, "image/jpeg".toList),
    ("jpg".toList, "image/jpeg".toList),
    ("js".toList, "application/javascript".toList),
    ("json".toList, "application/json".toList),
    ("markdown".toList, "text/markdown".toList),
    ("mjs".toList, "text/javascript".toList),
    ("odp".toList, "application/vnd.oasis.opendocument.presentation".toList),
    ("ods".toList, "application/vnd.oasis.opendocument.spreadsheet".toList),
    ("odt".toList, "application/vnd.oasis.opendocument.text".toList),
    ("pdf".toList, "application/pdf".toList),
    ("php".toList, "application/x-httpd-php".toList),
    ("png".toList, "image/png".toList),
    ("ppt".toList, "application/vnd.ms-powerpoint".toList),
    ("pptx".toList,
      "application/vnd.openxmlformats-officedocument.presentationml.presentation".toList),
    ("sh".toList, "application/x-sh".toList),
    ("svg".toList, "image/svg+xml".toList),
    ("tar".toList, "application/x-tar".toList),
    ("tif".toList, "image/tiff".toList),
    ("tiff".toList, "image/tiff".toList),
    ("txt".toList, "text/plain".toList),
    ("xhtml".toList, "application/xhtml+xml".toList),
    ("xls".toList, "application/vnd.ms-excel".toList),
    ("xlsx".toList, "application/vnd.openxmlformats-officedocument.spreadsheetml.sheet".toList),
    ("xml".toList, "application/xml".toList),
    ("zip".toList, "application/zip".toList),
    ("7z".toList, "application/x-7z-compressed".toList)]

def GET : Texto := "GET".toList

def HEAD : Texto := "HEAD".toList

def HTTP10 : Texto := "HTTP/1.0".toList

def HTTP11 : Texto := "HTTP/1.1".toList

def HTTP20 : Texto := "HTTP/2.0".toList

def HTTP30 : Texto := "HTTP/3.0".toList

/-- The key that is meant to find `Host: ` and `host: ` alike. -/
def OST : Texto := "ost: ".toList

/-! ## The members -/

/-- `InterpreteHTTP`, as far as `construirRespuesta` uses it. -/
structure InterpreteHTTP where
  fs : FileSystem
  enviarSoloHeaders : Bool
  errorOcurrido : Bool
  respuesta_protocolo : Texto
  respuesta_estadoCodigo : ℤ
  respuesta_estadoMensaje : Texto
  respuesta_ultimaEdicion : Texto
  respuesta_size : Texto
  respuesta_MIME : Texto

namespace InterpreteHTTP

/-- An `InterpreteHTTP` right after its construction. -/
def nuevo : InterpreteHTTP where
  fs := .nuevo
  enviarSoloHeaders := false
  errorOcurrido := false
  respuesta_protocolo := []
  respuesta_estadoCodigo := 0
  respuesta_estadoMensaje := []
  respuesta_ultimaEdicion := []
  respuesta_size := []
  respuesta_MIME := []

/-- `recuperarEstado`. -/
def recuperarEstado (numero : ℤ) : Texto :=
  if numero = STATUS_OK_200 then "OK".toList
  else if numero = STATUS_BAD_REQ_400 then "BAD REQUEST".toList
  else if numero = STATUS_FORBIDDEN_403 then "FORBIDDEN".toList
  else if numero = STATUS_NOT_FOUND_404 then "NOT FOUND".toList
  else if numero = STATUS_INTERNAL_SRV_ERR_500 then "INTERNAL SERVER ERROR".toList
  else if numero = STATUS_NOT_IMPLMTD_501 then "NOT IMPLEMENTED".toList
  else if numero = STATUS_HTTP_VRSN_NOT_SPPRTD_505 then "HTTP VERSION NOT SUPPORTED".toList
  else []

/-! ## `setRutaRecurso` -/

/-- `rutaFisica` of `setRutaRecurso`: the path with a `/` at its end, under `public_html`; the
root is its home page. -/
def rutaFisica (ruta : Texto) : Texto :=
  let ruta := if ruta.getLast? ≠ some '/' then ruta ++ ['/'] else ruta
  if ruta = ['/'] then ROOT_FOLDER ++ ruta ++ HOME_HTML else ROOT_FOLDER ++ ruta

/-- `setRutaRecurso`. Which of the two models of `FileSystem::setRuta` is called is a parameter of
this function and of those that call it: the one with positions in `ℕ`, unless it says the one with
`int`s. -/
def setRutaRecurso (sis : Sistema) (ruta : Texto) (i : InterpreteHTTP)
    (setRuta : Sistema → Texto → FileSystem → Option FileSystem := FileSystem.setRuta) :
    Option InterpreteHTTP :=
  (setRuta sis (rutaFisica ruta) i.fs).map fun fs => { i with fs := fs }

/-! ## `procesarRequest` -/

/-- `setRespuestaMIME`, and what `procesarRequest` does with its answer. -/
def responderArchivo (sis : Sistema) (i : InterpreteHTTP) : InterpreteHTTP :=
  let i := { i with fs := i.fs.extensionArchivo }
  match MIMETYPES.lookup i.fs.extension with
  | some tipo =>
      let fs := i.fs.getInformacionArchivo sis
      { i with
        fs := fs
        respuesta_MIME := tipo
        respuesta_estadoCodigo := STATUS_OK_200
        respuesta_ultimaEdicion := sis.getFechaGMT fs.fechaModificacion
        respuesta_size := (toString fs.tamanoArchivo).toList }
  | none => { i with respuesta_estadoCodigo := STATUS_NOT_IMPLMTD_501 }

/-- `procesarRequest`, from the test of the method on. -/
def procesarMetodo (sis : Sistema) (metodo ruta : Texto) (i : InterpreteHTTP)
    (setRuta : Sistema → Texto → FileSystem → Option FileSystem := FileSystem.setRuta) :
    Option InterpreteHTTP :=
  if metodo = GET ∨ metodo = HEAD then
    -- `HEAD` sets the flag to `false`, the value it already has
    let i := if metodo = HEAD then { i with enviarSoloHeaders := false } else i
    (i.setRutaRecurso sis ruta setRuta).map fun i =>
      if i.fs.existeArchivo then i.responderArchivo sis
      else { i with respuesta_estadoCodigo := STATUS_NOT_FOUND_404 }
  else some { i with respuesta_estadoCodigo := STATUS_BAD_REQ_400 }

/-- `procesarRequest`. -/
def procesarRequest (sis : Sistema) (metodo ruta htmlv headers : Texto) (i : InterpreteHTTP)
    (setRuta : Sistema → Texto → FileSystem → Option FileSystem := FileSystem.setRuta) :
    Option InterpreteHTTP :=
  if Utilidades.extraerValorHeader headers OST = [] then
    some { i with respuesta_estadoCodigo := STATUS_BAD_REQ_400 }
  else if htmlv = HTTP10 ∨ htmlv = HTTP11 then
    procesarMetodo sis metodo ruta { i with respuesta_protocolo := htmlv } setRuta
  -- `htmlv.compare(string("HTTP/3.0"))`, without `== 0`: true of every other text
  else if htmlv = HTTP20 ∨ htmlv ≠ HTTP30 then
    some { i with
           respuesta_protocolo := HTTP11
           respuesta_estadoCodigo := STATUS_HTTP_VRSN_NOT_SPPRTD_505 }
  else
    some { i with
           respuesta_protocolo := HTTP11
           respuesta_estadoCodigo := STATUS_BAD_REQ_400 }

/-! ## `construirRespuesta` -/

/-- The answer to a line that is not a request line. -/
def lineaInvalida (i : InterpreteHTTP) : InterpreteHTTP :=
  { i with respuesta_protocolo := HTTP11, respuesta_estadoCodigo := STATUS_BAD_REQ_400 }

/-- `construirRespuesta`: the interpreter afterwards and the code it returns. Without a piece,
`request[0]` has no defined result. -/
def construirRespuesta (sis : Sistema) (httpRequest : Texto) (i : InterpreteHTTP)
    (setRuta : Sistema → Texto → FileSystem → Option FileSystem := FileSystem.setRuta) :
    Option (InterpreteHTTP × ℤ) :=
  let i := { i with enviarSoloHeaders := false, errorOcurrido := false }
  match Utilidades.split httpRequest CRLF 1 with
  | [] => none
  | linea :: resto =>
      -- up to four cuts, so a fourth and a fifth part are not in `htmlv`
      let request_separado := Utilidades.split linea [' '] 3
      let respuesta := match resto, request_separado with
        -- `request[1]`: the first header line, the others are in `request[2]`
        | headers :: _, metodo :: ruta :: htmlv :: _ =>
            if [] ∈ request_separado then some i.lineaInvalida
            else i.procesarRequest sis metodo ruta htmlv headers setRuta
        | _, _ => some i.lineaInvalida
      respuesta.map fun i =>
        ({ i with respuesta_estadoMensaje := recuperarEstado i.respuesta_estadoCodigo },
          i.respuesta_estadoCodigo)

/-! ## What a request path names -/

/-- The path that `setRuta` cuts, without the `/` at its end. -/
def rutaPedida (ruta : Texto) : Texto := FileSystem.sinBarras (rutaFisica ruta)

/-- The directory that a request path names. -/
def directorioPedido (ruta : Texto) : Texto := FileSystem.directorioDe (rutaPedida ruta)

/-- The file name in it, if any. -/
def nombrePedido (ruta : Texto) : Texto := FileSystem.nombreDe (rutaPedida ruta)

/-- The file that a request path names is in its directory. -/
def existe (sis : Sistema) (ruta : Texto) : Bool :=
  nombrePedido ruta ≠ [] && (sis.opendir (c_str (directorioPedido ruta))).any fun entradas =>
    entradas.contains (c_str (nombrePedido ruta))

/-- The paths that are opened for a request path. -/
def aperturas (sis : Sistema) (ruta : Texto) : List Texto :=
  -- `open` is only tried in a directory that could be opened
  if (sis.opendir (c_str (directorioPedido ruta))).isSome then
    c_str (directorioPedido ruta) ::
      if sis.abre (c_str (directorioPedido ruta ++ nombrePedido ruta)) then
        [c_str (directorioPedido ruta ++ nombrePedido ruta)] else []
  else []

/-- What follows the first dot of a name, in lower case; the whole name without one. -/
def extensionDe (nombre : Texto) : Texto :=
  (match find ['.'] nombre with
    | none => nombre
    | some posicion => nombre.drop (posicion + 1)).map Char.toLower

/-- The extension is a key of `MIMETYPES`. -/
def tipoConocido (extension : Texto) : Bool := (MIMETYPES.lookup extension).isSome

theorem rutaFisica_head (ruta : Texto) : (rutaFisica ruta).head? = some 'p' := by
  unfold rutaFisica ROOT_FOLDER
  dsimp only
  generalize (if ruta.getLast? ≠ some '/' then ruta ++ ['/'] else ruta) = t
  by_cases h : t = ['/']
  · rw [if_pos h]
    rfl
  · rw [if_neg h]
    rfl

/-- **`setRutaRecurso` always has a result**, and it opens what the request path names. -/
theorem setRutaRecurso_eq (sis : Sistema) (ruta : Texto) (i : InterpreteHTTP) :
    i.setRutaRecurso sis ruta
      = some { i with
               fs := FileSystem.abrir sis
                { i.fs with
                  rutaDirectorios := directorioPedido ruta
                  nombreArchivo := nombrePedido ruta
                  directorios := (rutaPedida ruta).splitOn '/' } } := by
  have hhead := rutaFisica_head ruta
  have hne : (if (rutaFisica ruta).head? = some '/' then (rutaFisica ruta).tail
      else rutaFisica ruta) ≠ [] := by
    rw [hhead, if_neg (by decide)]
    intro hnil
    rw [hnil] at hhead
    cases hhead
  rw [setRutaRecurso, FileSystem.setRuta_eq sis i.fs hne]
  rfl

theorem existeArchivo_eq (sis : Sistema) (ruta : Texto) (fs : FileSystem)
    (hdir : fs.rutaDirectorios = directorioPedido ruta)
    (hnombre : fs.nombreArchivo = nombrePedido ruta) :
    (FileSystem.abrir sis fs).existeArchivo = existe sis ruta := by
  rw [Bool.eq_iff_iff, FileSystem.existeArchivo_abrir_iff, hdir, hnombre]
  simp [existe, Option.any_eq_true]

/-! ## The code that the cascade arrives at -/

/-- The code of a request for a file. -/
def estadoArchivo (sis : Sistema) (ruta : Texto) : ℤ :=
  if existe sis ruta then
    (if tipoConocido (extensionDe (nombrePedido ruta)) then STATUS_OK_200
      else STATUS_NOT_IMPLMTD_501)
  else STATUS_NOT_FOUND_404

/-- The code of `procesarRequest`. -/
def estado (sis : Sistema) (metodo ruta htmlv headers : Texto) : ℤ :=
  if Utilidades.extraerValorHeader headers OST = [] then STATUS_BAD_REQ_400
  else if htmlv = HTTP10 ∨ htmlv = HTTP11 then
    (if metodo = GET ∨ metodo = HEAD then estadoArchivo sis ruta else STATUS_BAD_REQ_400)
  else if htmlv = HTTP20 ∨ htmlv ≠ HTTP30 then STATUS_HTTP_VRSN_NOT_SPPRTD_505
  else STATUS_BAD_REQ_400

/-- `procesarRequest` gets as far as `setRutaRecurso`. -/
def Despacha (metodo htmlv headers : Texto) : Prop :=
  Utilidades.extraerValorHeader headers OST ≠ [] ∧ (htmlv = HTTP10 ∨ htmlv = HTTP11)
    ∧ (metodo = GET ∨ metodo = HEAD)

theorem abiertas_getInformacionArchivo (sis : Sistema) (fs : FileSystem) :
    (fs.getInformacionArchivo sis).abiertas = fs.abiertas := by
  unfold FileSystem.getInformacionArchivo
  split <;> rfl

/-- Answering with a file opens nothing more, and its code depends on the extension. -/
theorem responderArchivo_estado (sis : Sistema) (i : InterpreteHTTP) :
    (i.responderArchivo sis).fs.abiertas = i.fs.abiertas
      ∧ (i.responderArchivo sis).respuesta_estadoCodigo
        = if tipoConocido (extensionDe i.fs.nombreArchivo) then STATUS_OK_200
          else STATUS_NOT_IMPLMTD_501 := by
  have hext : i.fs.extensionArchivo.extension = extensionDe i.fs.nombreArchivo := rfl
  unfold responderArchivo tipoConocido
  dsimp only
  rw [← hext]
  cases MIMETYPES.lookup i.fs.extensionArchivo.extension with
  | none => exact ⟨rfl, rfl⟩
  | some tipo => exact ⟨abiertas_getInformacionArchivo sis i.fs.extensionArchivo, rfl⟩

/-- The paths open after `setRutaRecurso`, from a `FileSystem` with nothing open. -/
theorem abiertas_abrir (sis : Sistema) (ruta : Texto) {fs : FileSystem}
    (hdir : fs.rutaDirectorios = directorioPedido ruta)
    (hnombre : fs.nombreArchivo = nombrePedido ruta) (hfichero : fs.fichero = none) :
    (FileSystem.abrir sis fs).abiertas = aperturas sis ruta := by
  rw [FileSystem.abiertas_abrir sis hfichero, hdir, hnombre, aperturas]

theorem procesarMetodo_estado (sis : Sistema) (metodo ruta : Texto) (i : InterpreteHTTP) :
    ∃ i', i.procesarMetodo sis metodo ruta = some i'
      ∧ i'.respuesta_estadoCodigo
        = (if metodo = GET ∨ metodo = HEAD then estadoArchivo sis ruta else STATUS_BAD_REQ_400)
      ∧ (i.fs.fichero = none → metodo = GET ∨ metodo = HEAD →
          i'.fs.abiertas = aperturas sis ruta)
      ∧ (¬ (metodo = GET ∨ metodo = HEAD) → i'.fs = i.fs) := by
  unfold procesarMetodo
  by_cases hm : metodo = GET ∨ metodo = HEAD
  · rw [if_pos hm, if_pos hm]
    dsimp only
    rw [setRutaRecurso_eq]
    -- `enviarSoloHeaders` does not matter to `fs`
    have hfs : (if metodo = HEAD then { i with enviarSoloHeaders := false } else i).fs = i.fs := by
      split <;> rfl
    generalize (if metodo = HEAD then { i with enviarSoloHeaders := false } else i) = j at hfs ⊢
    refine ⟨_, rfl, ?_, fun hfichero _ => ?_, fun hno => absurd hm hno⟩
    · dsimp only
      rw [existeArchivo_eq sis ruta _ rfl rfl, estadoArchivo]
      split
      · rw [(responderArchivo_estado sis _).2, FileSystem.abrir_nombreArchivo]
      · rfl
    · have hopen : (FileSystem.abrir sis
            { j.fs with
              rutaDirectorios := directorioPedido ruta
              nombreArchivo := nombrePedido ruta
              directorios := (rutaPedida ruta).splitOn '/' }).abiertas = aperturas sis ruta :=
        abiertas_abrir sis ruta rfl rfl (hfs ▸ hfichero)
      dsimp only
      split
      · rw [(responderArchivo_estado sis _).1, hopen]
      · exact hopen
  · rw [if_neg hm, if_neg hm]
    exact ⟨_, rfl, rfl, fun _ h => absurd h hm, fun _ => rfl⟩

/-- **What `procesarRequest` answers and opens.** -/
theorem procesarRequest_estado (sis : Sistema) (metodo ruta htmlv headers : Texto)
    (i : InterpreteHTTP) :
    ∃ i', i.procesarRequest sis metodo ruta htmlv headers = some i'
      ∧ i'.respuesta_estadoCodigo = estado sis metodo ruta htmlv headers
      ∧ (i.fs.fichero = none → Despacha metodo htmlv headers →
          i'.fs.abiertas = aperturas sis ruta)
      ∧ (¬ Despacha metodo htmlv headers → i'.fs = i.fs) := by
  unfold procesarRequest estado Despacha
  by_cases hhost : Utilidades.extraerValorHeader headers OST = []
  · rw [if_pos hhost, if_pos hhost]
    exact ⟨_, rfl, rfl, fun _ h => absurd hhost h.1, fun _ => rfl⟩
  rw [if_neg hhost, if_neg hhost]
  by_cases hver : htmlv = HTTP10 ∨ htmlv = HTTP11
  · rw [if_pos hver, if_pos hver]
    obtain ⟨i', hi', hest, hab, hfs⟩ :=
      procesarMetodo_estado sis metodo ruta { i with respuesta_protocolo := htmlv }
    exact ⟨i', hi', hest, fun hf h => hab hf h.2.2, fun h => hfs fun hm => h ⟨hhost, hver, hm⟩⟩
  rw [if_neg hver, if_neg hver]
  by_cases hnosop : htmlv = HTTP20 ∨ htmlv ≠ HTTP30
  · rw [if_pos hnosop, if_pos hnosop]
    exact ⟨_, rfl, rfl, fun _ h => absurd h.2.1 hver, fun _ => rfl⟩
  · rw [if_neg hnosop, if_neg hnosop]
    exact ⟨_, rfl, rfl, fun _ h => absurd h.2.1 hver, fun _ => rfl⟩

/-! ## Whole requests -/

/-- What is known of a call of `procesarRequest` that has been made. -/
theorem procesarRequest_eq_some {sis : Sistema} {metodo ruta htmlv headers : Texto}
    {i i' : InterpreteHTTP} (h : i.procesarRequest sis metodo ruta htmlv headers = some i') :
    i'.respuesta_estadoCodigo = estado sis metodo ruta htmlv headers
      ∧ (i.fs.fichero = none → Despacha metodo htmlv headers →
          i'.fs.abiertas = aperturas sis ruta)
      ∧ (¬ Despacha metodo htmlv headers → i'.fs = i.fs) := by
  obtain ⟨j, hj, hest⟩ := procesarRequest_estado sis metodo ruta htmlv headers i
  rw [h, Option.some.injEq] at hj
  rw [hj]
  exact hest

/-- The code of a request with this request line and this first header line. -/
def estadoLinea (sis : Sistema) (linea headers : Texto) : ℤ :=
  match Utilidades.split linea [' '] 3 with
  | metodo :: ruta :: htmlv :: mas =>
      if [] ∈ metodo :: ruta :: htmlv :: mas then STATUS_BAD_REQ_400
      else estado sis metodo ruta htmlv headers
  | _ => STATUS_BAD_REQ_400

/-- The request gets as far as `setRutaRecurso`, with this path. -/
def Despachada (httpRequest ruta : Texto) : Prop :=
  ∃ linea headers resto metodo htmlv mas,
    Utilidades.split httpRequest CRLF 1 = linea :: headers :: resto
      ∧ Utilidades.split linea [' '] 3 = metodo :: ruta :: htmlv :: mas
      ∧ [] ∉ metodo :: ruta :: htmlv :: mas
      ∧ Despacha metodo htmlv headers

/-- **The code of a request**, from its first two lines. -/
theorem construirRespuesta_estado (sis : Sistema) {httpRequest linea headers : Texto}
    {resto : List Texto} (i : InterpreteHTTP)
    (h : Utilidades.split httpRequest CRLF 1 = linea :: headers :: resto) :
    ∃ i', i.construirRespuesta sis httpRequest = some (i', estadoLinea sis linea headers) := by
  unfold construirRespuesta estadoLinea
  dsimp only
  rw [h]
  dsimp only
  generalize Utilidades.split linea [' '] 3 = partes
  rcases partes with _ | ⟨metodo, _ | ⟨ruta, _ | ⟨htmlv, mas⟩⟩⟩
  -- fewer than three parts
  · exact ⟨_, rfl⟩
  · exact ⟨_, rfl⟩
  · exact ⟨_, rfl⟩
  · dsimp only
    by_cases hvacia : [] ∈ metodo :: ruta :: htmlv :: mas
    · rw [if_pos hvacia, if_pos hvacia]
      exact ⟨_, rfl⟩
    · rw [if_neg hvacia, if_neg hvacia]
      obtain ⟨i', hi', hest, -⟩ := procesarRequest_estado sis metodo ruta htmlv headers
        { i with enviarSoloHeaders := false, errorOcurrido := false }
      rw [hi', Option.map_some, hest]
      exact ⟨_, rfl⟩

/-- The line does not have three parts, all of them non-empty. -/
def SinTresPartes (linea : Texto) : Prop :=
  match Utilidades.split linea [' '] 3 with
  | metodo :: ruta :: htmlv :: mas => [] ∈ metodo :: ruta :: htmlv :: mas
  | _ => True

/-- The interpreter that `construirRespuesta` starts to work with. -/
def preparado (i : InterpreteHTTP) : InterpreteHTTP :=
  { i with enviarSoloHeaders := false, errorOcurrido := false }

/-- **What `construirRespuesta` does**: it rejects the line, or hands its three parts and the
first header line to `procesarRequest`. -/
theorem construirRespuesta_casos {sis : Sistema} {httpRequest : Texto} {i i' : InterpreteHTTP}
    {codigo : ℤ} (h : i.construirRespuesta sis httpRequest = some (i', codigo)) :
    ∃ j : InterpreteHTTP, codigo = j.respuesta_estadoCodigo
      ∧ i' = { j with respuesta_estadoMensaje := recuperarEstado codigo }
      ∧ ((j = i.preparado.lineaInvalida ∧ (∀ ruta, ¬ Despachada httpRequest ruta)
          ∧ ∀ linea headers resto, Utilidades.split httpRequest CRLF 1 = linea :: headers :: resto →
              SinTresPartes linea)
        ∨ ∃ linea headers resto metodo ruta htmlv mas,
          Utilidades.split httpRequest CRLF 1 = linea :: headers :: resto
            ∧ Utilidades.split linea [' '] 3 = metodo :: ruta :: htmlv :: mas
            ∧ [] ∉ metodo :: ruta :: htmlv :: mas
            ∧ i.preparado.procesarRequest sis metodo ruta htmlv headers = some j) := by
  unfold construirRespuesta at h
  dsimp only at h
  generalize hsplit : Utilidades.split httpRequest CRLF 1 = request at h
  rcases request with _ | ⟨linea, _ | ⟨headers, resto⟩⟩
  · cases h
  · -- one line only
    cases h
    refine ⟨_, rfl, rfl, .inl ⟨rfl, ?_, fun linea' headers' resto' heq => ?_⟩⟩
    · rintro ruta ⟨linea', headers', resto', metodo, htmlv, mas, hsplit', -⟩
      rw [hsplit] at hsplit'
      cases hsplit'
    · cases heq
  dsimp only at h
  generalize hpartes : Utilidades.split linea [' '] 3 = partes at h
  -- a request that is dispatched has at least three parts, none of them empty
  have hdesp : ∀ ruta, Despachada httpRequest ruta → ∃ metodo htmlv mas,
      partes = metodo :: ruta :: htmlv :: mas ∧ [] ∉ metodo :: ruta :: htmlv :: mas := by
    rintro ruta ⟨linea', headers', resto', metodo, htmlv, mas, hsplit', hpartes', hvacia, -⟩
    rw [hsplit] at hsplit'
    cases hsplit'
    exact ⟨metodo, htmlv, mas, hpartes ▸ hpartes', hvacia⟩
  have hlinea : ∀ linea' headers' resto',
      linea :: headers :: resto = linea' :: headers' :: resto' → linea' = linea := by
    intro linea' headers' resto' heq
    exact (List.cons.inj heq).1.symm
  rcases partes with _ | ⟨metodo, _ | ⟨ruta, _ | ⟨htmlv, mas⟩⟩⟩
  -- fewer than three parts
  iterate 3
    · cases h
      refine ⟨_, rfl, rfl, .inl ⟨rfl, fun ruta hd => ?_, fun linea' headers' resto' heq => ?_⟩⟩
      · obtain ⟨_, _, _, heq, -⟩ := hdesp ruta hd
        cases heq
      · rw [hlinea linea' headers' resto' heq, SinTresPartes, hpartes]
        trivial
  dsimp only at h
  by_cases hvacia : [] ∈ metodo :: ruta :: htmlv :: mas
  · rw [if_pos hvacia] at h
    cases h
    refine ⟨_, rfl, rfl, .inl ⟨rfl, fun ruta' hd => ?_, fun linea' headers' resto' heq => ?_⟩⟩
    · obtain ⟨_, _, _, heq, hno⟩ := hdesp ruta' hd
      cases heq
      exact hno hvacia
    · rw [hlinea linea' headers' resto' heq, SinTresPartes, hpartes]
      exact hvacia
  · rw [if_neg hvacia] at h
    obtain ⟨j, hj, heq⟩ := Option.map_eq_some_iff.mp h
    cases heq
    exact ⟨j, rfl, rfl, .inr ⟨linea, headers, resto, metodo, ruta, htmlv, mas, rfl, hpartes, hvacia, hj⟩⟩

/-- The path that a request is dispatched with is the second part of its line. -/
theorem despachada_iff {httpRequest linea headers metodo ruta htmlv : Texto}
    {resto mas : List Texto} (hsplit : Utilidades.split httpRequest CRLF 1 = linea :: headers :: resto)
    (hpartes : Utilidades.split linea [' '] 3 = metodo :: ruta :: htmlv :: mas)
    (hvacia : [] ∉ metodo :: ruta :: htmlv :: mas) (ruta' : Texto) :
    Despachada httpRequest ruta' ↔ ruta' = ruta ∧ Despacha metodo htmlv headers := by
  constructor
  · rintro ⟨linea', headers', resto', metodo', htmlv', mas', hsplit', hpartes', -, hd⟩
    rw [hsplit] at hsplit'
    cases hsplit'
    rw [hpartes] at hpartes'
    cases hpartes'
    exact ⟨rfl, hd⟩
  · rintro ⟨rfl, hd⟩
    exact ⟨linea, headers, resto, metodo, htmlv, mas, hsplit, hpartes, hvacia, hd⟩

/-- **What a request opens**, in an interpreter with no file open: what its path names, if it
gets as far as that, and otherwise nothing. -/
theorem construirRespuesta_abiertas {sis : Sistema} {httpRequest : Texto} {i i' : InterpreteHTTP}
    {codigo : ℤ} (h : i.construirRespuesta sis httpRequest = some (i', codigo))
    (hfichero : i.fs.fichero = none) :
    (∃ ruta, Despachada httpRequest ruta ∧ i'.fs.abiertas = aperturas sis ruta)
      ∨ ((∀ ruta, ¬ Despachada httpRequest ruta) ∧ i'.fs = i.fs) := by
  obtain ⟨j, -, rfl, ⟨rfl, hno, -⟩ | ⟨linea, headers, resto, metodo, ruta, htmlv, mas, hsplit, hpartes,
    hvacia, hj⟩⟩ := construirRespuesta_casos h
  · exact .inr ⟨hno, rfl⟩
  · have hiff := despachada_iff hsplit hpartes hvacia
    obtain ⟨-, hab, hfs⟩ := procesarRequest_eq_some hj
    by_cases hd : Despacha metodo htmlv headers
    · exact .inl ⟨ruta, (hiff ruta).mpr ⟨rfl, hd⟩, hab hfichero hd⟩
    · exact .inr ⟨fun ruta' hd' => hd ((hiff ruta').mp hd').2, hfs hd⟩

/-- A request gets as far as `setRutaRecurso` with one path at most. -/
theorem Despachada.unique {httpRequest ruta ruta' : Texto} (h : Despachada httpRequest ruta)
    (h' : Despachada httpRequest ruta') : ruta = ruta' := by
  obtain ⟨linea, headers, resto, metodo, htmlv, mas, hsplit, hpartes, -⟩ := h
  obtain ⟨linea', headers', resto', metodo', htmlv', mas', hsplit', hpartes', -⟩ := h'
  rw [hsplit] at hsplit'
  cases hsplit'
  rw [hpartes] at hpartes'
  cases hpartes'
  rfl

/-! ## Whichever model of `setRuta` is called -/

/-- What is done with a `FileSystem` behind `setRuta` opens nothing more. -/
theorem procesarMetodo_map (sis : Sistema) {metodo : Texto} (ruta : Texto) (i : InterpreteHTTP)
    (hm : metodo = GET ∨ metodo = HEAD) :
    ∃ f : FileSystem → InterpreteHTTP, (∀ fs, (f fs).fs.abiertas = fs.abiertas)
      ∧ ∀ setRuta, i.procesarMetodo sis metodo ruta setRuta
        = (setRuta sis (rutaFisica ruta) i.fs).map f := by
  have hfs : (if metodo = HEAD then { i with enviarSoloHeaders := false } else i).fs = i.fs := by
    split <;> rfl
  refine ⟨fun fs =>
      let j := if metodo = HEAD then { i with enviarSoloHeaders := false } else i
      if { j with fs := fs }.fs.existeArchivo then responderArchivo sis { j with fs := fs }
      else { j with fs := fs, respuesta_estadoCodigo := STATUS_NOT_FOUND_404 },
    fun fs => ?_, fun setRuta => ?_⟩
  · dsimp only
    split
    · exact (responderArchivo_estado sis _).1
    · rfl
  · unfold procesarMetodo setRutaRecurso
    rw [if_pos hm]
    dsimp only
    rw [Option.map_map, hfs]
    rfl

/-- **A request that is dispatched does what `setRuta` does with its path**, and then some more that
does not depend on which `setRuta` it was. -/
theorem construirRespuesta_despachada (sis : Sistema) {httpRequest ruta : Texto}
    (i : InterpreteHTTP) (h : Despachada httpRequest ruta) :
    ∃ f : FileSystem → InterpreteHTTP × ℤ, (∀ fs, (f fs).1.fs.abiertas = fs.abiertas)
      ∧ ∀ setRuta, i.construirRespuesta sis httpRequest setRuta
        = (setRuta sis (rutaFisica ruta) i.fs).map f := by
  obtain ⟨linea, headers, resto, metodo, htmlv, mas, hsplit, hpartes, hvacia, hhost, hver, hm⟩ := h
  obtain ⟨f, habiertas, hf⟩ := procesarMetodo_map sis ruta
    { i with enviarSoloHeaders := false, errorOcurrido := false, respuesta_protocolo := htmlv } hm
  refine ⟨fun fs => ({ f fs with
      respuesta_estadoMensaje := recuperarEstado (f fs).respuesta_estadoCodigo },
    (f fs).respuesta_estadoCodigo), habiertas, fun setRuta => ?_⟩
  unfold construirRespuesta
  dsimp only
  rw [hsplit]
  dsimp only
  rw [hpartes]
  dsimp only
  rw [if_neg hvacia, procesarRequest, if_neg hhost, if_pos hver, hf, Option.map_map]
  rfl

/-- What is not dispatched calls no `setRuta`: the answer is there before. -/
theorem procesarRequest_no_despacha (sis : Sistema) {metodo htmlv headers : Texto} (ruta : Texto)
    (i : InterpreteHTTP) (h : ¬ Despacha metodo htmlv headers) :
    ∃ i', (∀ setRuta, i.procesarRequest sis metodo ruta htmlv headers setRuta = some i')
      ∧ i'.fs = i.fs := by
  unfold procesarRequest
  by_cases hhost : Utilidades.extraerValorHeader headers OST = []
  · simp only [if_pos hhost]
    exact ⟨_, fun _ => rfl, rfl⟩
  simp only [if_neg hhost]
  by_cases hver : htmlv = HTTP10 ∨ htmlv = HTTP11
  · have hm : ¬ (metodo = GET ∨ metodo = HEAD) := fun hm => h ⟨hhost, hver, hm⟩
    simp only [if_pos hver, procesarMetodo, if_neg hm]
    exact ⟨_, fun _ => rfl, rfl⟩
  simp only [if_neg hver]
  by_cases hnosop : htmlv = HTTP20 ∨ htmlv ≠ HTTP30
  · simp only [if_pos hnosop]
    exact ⟨_, fun _ => rfl, rfl⟩
  · simp only [if_neg hnosop]
    exact ⟨_, fun _ => rfl, rfl⟩

/-- A request that is not dispatched has its answer without a path. -/
theorem construirRespuesta_no_despachada (sis : Sistema) {httpRequest : Texto} (i : InterpreteHTTP)
    (hne : httpRequest ≠ []) (h : ∀ ruta, ¬ Despachada httpRequest ruta) :
    ∃ r, (∀ setRuta, i.construirRespuesta sis httpRequest setRuta = some r)
      ∧ r.1.fs = i.fs := by
  unfold construirRespuesta
  dsimp only
  cases hsplit : Utilidades.split httpRequest CRLF 1 with
  | nil => exact absurd hsplit (Utilidades.split_ne_nil hne _ _)
  | cons linea resto =>
  rcases resto with _ | ⟨headers, resto⟩
  · exact ⟨_, fun _ => rfl, rfl⟩
  dsimp only
  rcases hpartes : Utilidades.split linea [' '] 3 with _ | ⟨metodo, _ | ⟨ruta, _ | ⟨htmlv, mas⟩⟩⟩
  iterate 3 exact ⟨_, fun _ => rfl, rfl⟩
  dsimp only
  by_cases hvacia : [] ∈ metodo :: ruta :: htmlv :: mas
  · simp only [if_pos hvacia]
    exact ⟨_, fun _ => rfl, rfl⟩
  have hno : ¬ Despacha metodo htmlv headers := fun hd =>
    h ruta ⟨linea, headers, resto, metodo, htmlv, mas, hsplit, hpartes, hvacia, hd⟩
  obtain ⟨j, hj, hfs⟩ := procesarRequest_no_despacha sis ruta
    { i with enviarSoloHeaders := false, errorOcurrido := false } hno
  simp only [if_neg hvacia, hj, Option.map_some]
  exact ⟨_, fun _ => rfl, hfs⟩

/-- Two models of `setRuta` that agree on the path that a request names give the same answer. -/
theorem construirRespuesta_congr (sis : Sistema) (httpRequest : Texto) (i : InterpreteHTTP)
    {setRuta setRuta' : Sistema → Texto → FileSystem → Option FileSystem}
    (h : ∀ ruta, Despachada httpRequest ruta →
      setRuta sis (rutaFisica ruta) i.fs = setRuta' sis (rutaFisica ruta) i.fs) :
    i.construirRespuesta sis httpRequest setRuta
      = i.construirRespuesta sis httpRequest setRuta' := by
  by_cases hd : ∃ ruta, Despachada httpRequest ruta
  · obtain ⟨ruta, hd⟩ := hd
    obtain ⟨f, -, hf⟩ := construirRespuesta_despachada sis i hd
    rw [hf, hf, h ruta hd]
  · by_cases hne : httpRequest = []
    · subst hne
      rfl
    · obtain ⟨r, hrun, -⟩ :=
        construirRespuesta_no_despachada sis i hne fun ruta hr => hd ⟨ruta, hr⟩
      rw [hrun, hrun]

end InterpreteHTTP

end LoadBalancer
