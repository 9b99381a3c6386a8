/-
`recuperarHeader`: the header block of an answer.

The block is put together from three members that `construirRespuesta` sets on different
branches, and, for status 200 only, from four more:

* `respuesta_protocolo` is set by every branch but one: a request whose line has its three
  parts and whose first header line fails the `Host` test is answered with whatever the
  member held, which in a fresh interpreter is nothing ([`linea_estado_iff`]);
* the `Date` line is ended by `CRLF` for the sake of the lines that follow it for status
  200, and `CRLFCRLF` is appended all the same for the others. Their blocks contain
  `CRLFCRLF` twice, and a receiver that cuts at the first one finds a `CRLF` in front of
  the body ([`corte_limpio_iff`]).
-/
import LoadBalancer.Cabeceras

set_option autoImplicit false

namespace LoadBalancer

open LoadBalancer.Search

/-- `SERVER_NAME`. -/
def SERVER_NAME : Texto := "PiroServer".toList

/-- A system in which every directory holds the home page, of two bytes. -/
def Sistema.conIndice : Sistema where
  opendir _ := some [HOME_HTML]
  abre _ := true
  stat _ := some ⟨0, 2⟩
  getFechaGMT _ := []

namespace InterpreteHTTP

/-- `respuesta_rangos`, which keeps its initial value. -/
def respuesta_rangos : Texto := "bytes".toList

/-- `recuperarHeader`; `fecha` is what `getFechaGMT` returns. -/
def recuperarHeader (fecha : Texto) (i : InterpreteHTTP) : Texto :=
  i.respuesta_protocolo ++ [' '] ++ (toString i.respuesta_estadoCodigo).toList ++ [' ']
    ++ i.respuesta_estadoMensaje ++ [' '] ++ CRLF
    ++ "Server: ".toList ++ SERVER_NAME ++ CRLF
    ++ "Date: ".toList ++ fecha ++ CRLF
    ++ (if i.respuesta_estadoCodigo = STATUS_OK_200 then
          "Accept-Ranges: ".toList ++ respuesta_rangos ++ CRLF
            ++ "Content-Length: ".toList ++ i.respuesta_size ++ CRLF
            ++ "Content-Type: ".toList ++ i.respuesta_MIME ++ CRLF
            ++ "Last-Modified: ".toList ++ i.respuesta_ultimaEdicion
        else [])
    ++ DOUBLECRLF

/-! ## The lines of the block -/

/-- The first line. -/
def lineaEstado (i : InterpreteHTTP) : Texto :=
  i.respuesta_protocolo ++ ' ' :: ((toString i.respuesta_estadoCodigo).toList
    ++ ' ' :: (i.respuesta_estadoMensaje ++ [' ']))

/-- The lines behind the first one. -/
def lineas (fecha : Texto) (i : InterpreteHTTP) : List Texto :=
  ("Server: ".toList ++ SERVER_NAME) :: ("Date: ".toList ++ fecha) ::
    if i.respuesta_estadoCodigo = STATUS_OK_200 then
      ["Accept-Ranges: ".toList ++ respuesta_rangos,
        "Content-Length: ".toList ++ i.respuesta_size,
        "Content-Type: ".toList ++ i.respuesta_MIME,
        "Last-Modified: ".toList ++ i.respuesta_ultimaEdicion]
    else
      -- `CRLFCRLF` behind a line that is already ended makes one more, with nothing in it
      [[]]

/-- **The block is its lines**, each ended by `CRLF`, and one more `CRLF`. -/
theorem recuperarHeader_eq (fecha : Texto) (i : InterpreteHTTP) :
    i.recuperarHeader fecha
      = i.lineaEstado ++ CRLF ++ ((i.lineas fecha).flatMap (· ++ CRLF) ++ CRLF) := by
  have hdoble : DOUBLECRLF = CRLF ++ CRLF := rfl
  unfold recuperarHeader lineaEstado lineas
  rw [hdoble]
  split
  · simp only [List.flatMap_cons, List.flatMap_nil, List.append_assoc, List.cons_append,
      List.nil_append]
  · simp only [List.flatMap_cons, List.flatMap_nil, List.append_assoc, List.cons_append,
      List.nil_append]

/-! ## The members that the block is made of -/

/-- The members that a 200 answer to the path `ruta` is made of. -/
structure CamposServidos (sis : Sistema) (ruta : Texto) (i : InterpreteHTTP) : Prop where
  protocolo : i.respuesta_protocolo = HTTP10 ∨ i.respuesta_protocolo = HTTP11
  MIME : i.respuesta_MIME ∈ MIMETYPES.map Prod.snd
  size : i.respuesta_size = (toString i.fs.tamanoArchivo).toList
  ultimaEdicion : ∃ mtim, i.respuesta_ultimaEdicion = sis.getFechaGMT mtim
  abierto : i.fs.Abierto sis
  rutaDirectorios : i.fs.rutaDirectorios = directorioPedido ruta
  nombreArchivo : i.fs.nombreArchivo = nombrePedido ruta
  enviarSoloHeaders : i.enviarSoloHeaders = false

/-- The type that `setRespuestaMIME` finds is one of the table. -/
theorem mem_of_lookup {extension tipo : Texto} (h : MIMETYPES.lookup extension = some tipo) :
    tipo ∈ MIMETYPES.map Prod.snd := by
  obtain ⟨l₁, l₂, heq, -⟩ := List.lookup_eq_some_iff.mp h
  rw [heq]
  simp

theorem responderArchivo_campos {sis : Sistema} {i : InterpreteHTTP} (ruta : Texto)
    (h : i.fs.Abierto sis) (hdir : i.fs.rutaDirectorios = directorioPedido ruta)
    (hnombre : i.fs.nombreArchivo = nombrePedido ruta) (hsolo : i.enviarSoloHeaders = false) :
    (i.responderArchivo sis).respuesta_protocolo = i.respuesta_protocolo
      ∧ ((i.responderArchivo sis).respuesta_estadoCodigo = STATUS_OK_200 →
        i.respuesta_protocolo = HTTP10 ∨ i.respuesta_protocolo = HTTP11 →
        CamposServidos sis ruta (i.responderArchivo sis)) := by
  unfold responderArchivo
  dsimp only
  cases hlook : MIMETYPES.lookup i.fs.extensionArchivo.extension with
  | none =>
      refine ⟨rfl, fun h => ?_⟩
      exact absurd (show STATUS_NOT_IMPLMTD_501 = STATUS_OK_200 from h) (by decide)
  | some tipo =>
      obtain ⟨-, hd, hn, -⟩ := i.fs.extensionArchivo.getInformacionArchivo_campos sis
      refine ⟨rfl, fun _ hprot => ?_⟩
      exact ⟨hprot, mem_of_lookup hlook, rfl, ⟨_, rfl⟩, h.extensionArchivo.getInformacionArchivo,
        hd.trans hdir, hn.trans hnombre, hsolo⟩

/-- From the test of the method on, the protocol stays, and a 200 answer has its members. -/
theorem procesarMetodo_campos {sis : Sistema} {metodo ruta : Texto} {i i' : InterpreteHTTP}
    (h : i.procesarMetodo sis metodo ruta = some i') (hsolo : i.enviarSoloHeaders = false)
    (hprot : i.respuesta_protocolo = HTTP10 ∨ i.respuesta_protocolo = HTTP11) :
    i'.respuesta_protocolo = i.respuesta_protocolo
      ∧ (i'.respuesta_estadoCodigo = STATUS_OK_200 → CamposServidos sis ruta i') := by
  unfold procesarMetodo at h
  by_cases hm : metodo = GET ∨ metodo = HEAD
  · rw [if_pos hm] at h
    dsimp only at h
    -- `HEAD` gives the flag the value that it has
    have hj : (if metodo = HEAD then { i with enviarSoloHeaders := false } else i) = i := by
      split
      · rw [← hsolo]
      · rfl
    rw [hj, setRutaRecurso_eq, Option.map_some, Option.some.injEq] at h
    subst h
    split
    · next hexiste =>
      obtain ⟨-, entradas, hent, -⟩ := (FileSystem.existeArchivo_abrir_iff sis _).mp hexiste
      have hdir := Option.isSome_of_eq_some hent
      obtain ⟨hsame, hcampos⟩ := responderArchivo_campos (i := { i with fs := _ }) ruta
        (FileSystem.abierto_abrir hdir) (FileSystem.abrir_rutaDirectorios sis _)
        (FileSystem.abrir_nombreArchivo sis _) hsolo
      exact ⟨hsame, fun h200 => hcampos h200 hprot⟩
    · refine ⟨rfl, fun h200 => ?_⟩
      exact absurd (show STATUS_NOT_FOUND_404 = STATUS_OK_200 from h200) (by decide)
  · rw [if_neg hm, Option.some.injEq] at h
    subst h
    refine ⟨rfl, fun h200 => ?_⟩
    exact absurd (show STATUS_BAD_REQ_400 = STATUS_OK_200 from h200) (by decide)

/-- **What `procesarRequest` sets**: the protocol on every branch behind the `Host` test, and
nothing of it before. -/
theorem procesarRequest_campos {sis : Sistema} {metodo ruta htmlv headers : Texto}
    {i i' : InterpreteHTTP} (h : i.procesarRequest sis metodo ruta htmlv headers = some i')
    (hsolo : i.enviarSoloHeaders = false) :
    (PasaHost headers → i'.respuesta_protocolo = HTTP10 ∨ i'.respuesta_protocolo = HTTP11)
      ∧ (¬ PasaHost headers → i'.respuesta_protocolo = i.respuesta_protocolo)
      ∧ (i'.respuesta_estadoCodigo = STATUS_OK_200 → CamposServidos sis ruta i') := by
  unfold procesarRequest at h
  by_cases hhost : Utilidades.extraerValorHeader headers OST = []
  · rw [if_pos hhost, Option.some.injEq] at h
    subst h
    refine ⟨fun hp => absurd hhost hp, fun _ => rfl, fun h200 => ?_⟩
    exact absurd (show STATUS_BAD_REQ_400 = STATUS_OK_200 from h200) (by decide)
  have hpasa : ¬ ¬ PasaHost headers := not_not_intro hhost
  rw [if_neg hhost] at h
  by_cases hver : htmlv = HTTP10 ∨ htmlv = HTTP11
  · rw [if_pos hver] at h
    obtain ⟨hsame, hcampos⟩ := procesarMetodo_campos h hsolo hver
    exact ⟨fun _ => hsame ▸ hver, fun hno => absurd hno hpasa, hcampos⟩
  rw [if_neg hver] at h
  -- both answers to another version are sent as `HTTP/1.1`
  split_ifs at h
  · cases h
    refine ⟨fun _ => .inr rfl, fun hno => absurd hno hpasa, fun h200 => ?_⟩
    exact absurd (show STATUS_HTTP_VRSN_NOT_SPPRTD_505 = STATUS_OK_200 from h200) (by decide)
  · cases h
    refine ⟨fun _ => .inr rfl, fun hno => absurd hno hpasa, fun h200 => ?_⟩
    exact absurd (show STATUS_BAD_REQ_400 = STATUS_OK_200 from h200) (by decide)

/-! ## From the request to the members -/

/-- The request names a file that is in its directory, of a known type. -/
def Servida (sis : Sistema) (httpRequest : Texto) : Prop :=
  ∃ ruta, Despachada httpRequest ruta ∧ existe sis ruta = true
    ∧ tipoConocido (extensionDe (nombrePedido ruta)) = true

/-- A request has an answer. -/
theorem exists_construirRespuesta (sis : Sistema) {httpRequest : Texto} (i : InterpreteHTTP)
    (h : httpRequest ≠ []) :
    ∃ i' codigo, i.construirRespuesta sis httpRequest = some (i', codigo) := by
  cases hsplit : Utilidades.split httpRequest CRLF 1 with
  | nil =>
      -- a text that is not empty has a first piece
      rw [Utilidades.split, if_pos (List.length_pos_iff.mpr h), Utilidades.split.bucle] at hsplit
      split at hsplit
      · rw [if_pos h] at hsplit
        cases hsplit
      · cases hsplit
  | cons linea resto =>
      cases resto with
      | nil =>
          unfold construirRespuesta
          rw [hsplit]
          exact ⟨_, _, rfl⟩
      | cons headers resto =>
          obtain ⟨i', hi'⟩ := construirRespuesta_estado sis i hsplit
          exact ⟨i', _, hi'⟩

/-- **When the answer is 200.** -/
theorem estado_eq_200_iff (sis : Sistema) (metodo ruta htmlv headers : Texto) :
    estado sis metodo ruta htmlv headers = STATUS_OK_200
      ↔ Despacha metodo htmlv headers ∧ existe sis ruta = true
        ∧ tipoConocido (extensionDe (nombrePedido ruta)) = true := by
  have h400 : STATUS_BAD_REQ_400 ≠ STATUS_OK_200 := by decide
  have h505 : STATUS_HTTP_VRSN_NOT_SPPRTD_505 ≠ STATUS_OK_200 := by decide
  have h404 : STATUS_NOT_FOUND_404 ≠ STATUS_OK_200 := by decide
  have h501 : STATUS_NOT_IMPLMTD_501 ≠ STATUS_OK_200 := by decide
  unfold estado Despacha estadoArchivo
  split_ifs <;> simp_all

/-- The members of an answer, from the branch that `construirRespuesta` took. -/
theorem construirRespuesta_campos {sis : Sistema} {httpRequest : Texto} {i i' : InterpreteHTTP}
    {codigo : ℤ} (h : i.construirRespuesta sis httpRequest = some (i', codigo)) :
    i'.respuesta_estadoCodigo = codigo ∧ i'.respuesta_estadoMensaje = recuperarEstado codigo
      ∧ (codigo = STATUS_OK_200 → ∃ ruta, Despachada httpRequest ruta ∧ CamposServidos sis ruta i')
      ∧ (codigo = STATUS_OK_200 ↔ Servida sis httpRequest) := by
  obtain ⟨j, rfl, rfl, ⟨rfl, hno, -⟩ | ⟨linea, headers, resto, metodo, ruta, htmlv, mas, hsplit,
    hpartes, hvacia, hj⟩⟩ := construirRespuesta_casos h
  · have hne : i.preparado.lineaInvalida.respuesta_estadoCodigo ≠ STATUS_OK_200 := by
      show STATUS_BAD_REQ_400 ≠ STATUS_OK_200
      decide
    refine ⟨rfl, rfl, fun h200 => absurd h200 hne, fun h200 => absurd h200 hne, ?_⟩
    rintro ⟨ruta, hd, -⟩
    exact absurd hd (hno ruta)
  · obtain ⟨hest, -⟩ := procesarRequest_eq_some hj
    refine ⟨rfl, rfl, fun h200 => ?_, ?_⟩
    · obtain ⟨hd, -⟩ := (estado_eq_200_iff sis metodo ruta htmlv headers).mp (hest ▸ h200)
      obtain ⟨hprot, hMIME, hsize, hedicion, habierto, hdir, hnombre, hsolo⟩ :=
        (procesarRequest_campos hj rfl).2.2 h200
      exact ⟨ruta, (despachada_iff hsplit hpartes hvacia ruta).mpr ⟨rfl, hd⟩, hprot, hMIME, hsize,
        hedicion, habierto, hdir, hnombre, hsolo⟩
    · rw [hest, estado_eq_200_iff]
      constructor
      · rintro ⟨hd, hex⟩
        exact ⟨ruta, (despachada_iff hsplit hpartes hvacia ruta).mpr ⟨rfl, hd⟩, hex⟩
      · rintro ⟨ruta', hd, hex⟩
        obtain ⟨rfl, hd⟩ := (despachada_iff hsplit hpartes hvacia ruta').mp hd
        exact ⟨hd, hex⟩

/-- The codes that there are. -/
theorem construirRespuesta_codigo {sis : Sistema} {httpRequest : Texto} {i i' : InterpreteHTTP}
    {codigo : ℤ} (h : i.construirRespuesta sis httpRequest = some (i', codigo)) :
    codigo ∈ [STATUS_OK_200, STATUS_BAD_REQ_400, STATUS_NOT_FOUND_404, STATUS_NOT_IMPLMTD_501,
      STATUS_HTTP_VRSN_NOT_SPPRTD_505] := by
  obtain ⟨j, rfl, -, ⟨rfl, -, -⟩ | ⟨linea, headers, resto, metodo, ruta, htmlv, mas, -, -, -,
    hj⟩⟩ := construirRespuesta_casos h
  · show STATUS_BAD_REQ_400 ∈ _
    decide
  · obtain ⟨hest, -⟩ := procesarRequest_eq_some hj
    rw [hest]
    unfold estado estadoArchivo
    split_ifs <;> decide

/-- **The protocol of an answer** is the member's previous value exactly when the line has its
three parts and the `Host` test fails. -/
theorem construirRespuesta_protocolo {sis : Sistema} {httpRequest linea headers : Texto}
    {resto : List Texto} {i i' : InterpreteHTTP} {codigo : ℤ}
    (h : i.construirRespuesta sis httpRequest = some (i', codigo))
    (hsplit : Utilidades.split httpRequest CRLF 1 = linea :: headers :: resto) :
    (SinTresPartes linea ∨ PasaHost headers →
        i'.respuesta_protocolo = HTTP10 ∨ i'.respuesta_protocolo = HTTP11)
      ∧ (¬ (SinTresPartes linea ∨ PasaHost headers) →
        i'.respuesta_protocolo = i.respuesta_protocolo) := by
  obtain ⟨j, rfl, rfl, ⟨rfl, -, hmala⟩ | ⟨linea', headers', resto', metodo, ruta, htmlv, mas,
    hsplit', hpartes, hvacia, hj⟩⟩ := construirRespuesta_casos h
  · exact ⟨fun _ => .inr rfl, fun hno => absurd (.inl (hmala linea headers resto hsplit)) hno⟩
  · rw [hsplit] at hsplit'
    cases hsplit'
    obtain ⟨hpasa, hfalla, -⟩ := procesarRequest_campos hj rfl
    have hbuena : ¬ SinTresPartes linea := by
      rw [SinTresPartes, hpartes]
      exact hvacia
    rw [or_iff_right hbuena]
    exact ⟨hpasa, hfalla⟩

/-! ## The status line -/

/-- The block begins with a well-formed status line: a supported protocol, the code in decimal,
and a reason that has something in it, up to the end of the line. -/
def LineaEstado (bloque : Texto) (codigo : ℤ) : Prop :=
  ∃ protocolo motivo resto : Texto, (protocolo = HTTP10 ∨ protocolo = HTTP11)
    ∧ (∃ c ∈ motivo, c ≠ ' ') ∧ '\r' ∉ motivo
    ∧ bloque = protocolo ++ ' ' :: ((toString codigo).toList ++ ' ' :: (motivo ++ CRLF ++ resto))

/-- Every code has a reason. -/
theorem recuperarEstado_motivo {codigo : ℤ}
    (h : codigo ∈ [STATUS_OK_200, STATUS_BAD_REQ_400, STATUS_NOT_FOUND_404,
      STATUS_NOT_IMPLMTD_501, STATUS_HTTP_VRSN_NOT_SPPRTD_505]) :
    (∃ c ∈ recuperarEstado codigo ++ [' '], c ≠ ' ') ∧ '\r' ∉ recuperarEstado codigo ++ [' '] := by
  have hletra : (recuperarEstado codigo ++ [' ']).any (· ≠ ' ') = true
      ∧ '\r' ∉ recuperarEstado codigo ++ [' '] := by
    simp only [List.mem_cons, List.not_mem_nil, or_false] at h
    rcases h with rfl | rfl | rfl | rfl | rfl <;> decide
  obtain ⟨c, hc, hne⟩ := List.any_eq_true.mp hletra.1
  exact ⟨⟨c, hc, by simpa using hne⟩, hletra.2⟩

/-- A protocol begins with a letter. -/
theorem head?_protocolo {protocolo resto : Texto} (h : protocolo = HTTP10 ∨ protocolo = HTTP11) :
    (protocolo ++ resto).head? = some 'H' := by
  rcases h with rfl | rfl
  · exact List.head?_append_of_ne_nil HTTP10 (by decide)
  · exact List.head?_append_of_ne_nil HTTP11 (by decide)

/-- Without a protocol the block begins with the blank behind it. -/
theorem head?_recuperarHeader {i : InterpreteHTTP} (fecha : Texto)
    (h : i.respuesta_protocolo = []) : (i.recuperarHeader fecha).head? = some ' ' := by
  rw [recuperarHeader_eq, lineaEstado, h]
  rfl

/-- The status line is well formed exactly when the protocol is. -/
theorem linea_estado_iff_protocolo {fecha : Texto} {i : InterpreteHTTP} {codigo : ℤ}
    (hcodigo : codigo ∈ [STATUS_OK_200, STATUS_BAD_REQ_400, STATUS_NOT_FOUND_404,
      STATUS_NOT_IMPLMTD_501, STATUS_HTTP_VRSN_NOT_SPPRTD_505])
    (hest : i.respuesta_estadoCodigo = codigo)
    (hmen : i.respuesta_estadoMensaje = recuperarEstado codigo)
    (hprot : i.respuesta_protocolo = [] ∨ i.respuesta_protocolo = HTTP10
      ∨ i.respuesta_protocolo = HTTP11) :
    LineaEstado (i.recuperarHeader fecha) codigo
      ↔ i.respuesta_protocolo = HTTP10 ∨ i.respuesta_protocolo = HTTP11 := by
  constructor
  · rintro ⟨protocolo, motivo, resto, hp, -, -, heq⟩
    apply hprot.resolve_left
    intro hnil
    have hhead := head?_recuperarHeader fecha hnil
    rw [heq, head?_protocolo hp] at hhead
    exact absurd hhead (by decide)
  · intro hp
    obtain ⟨hmotivo, hcr⟩ := recuperarEstado_motivo hcodigo
    refine ⟨i.respuesta_protocolo, recuperarEstado codigo ++ [' '],
      (i.lineas fecha).flatMap (· ++ CRLF) ++ CRLF, hp, hmotivo, hcr, ?_⟩
    rw [recuperarHeader_eq, lineaEstado, hest, hmen]
    simp only [List.append_assoc, List.cons_append]

/-- **When the header block of an answer begins with a status line**: the line of the request is
rejected for its shape, or the first header line passes the `Host` test. For every request that
contains `CRLFCRLF`, every directory tree and every date. On the way out that is left, that of a
missing `Host`, nothing sets the protocol. -/
theorem linea_estado_iff (sis : Sistema) (fecha : Texto) {httpRequest : Texto}
    (h : DOUBLECRLF <:+: httpRequest) :
    ∃ linea headers resto i' codigo,
      Utilidades.split httpRequest CRLF 1 = linea :: headers :: resto
        ∧ construirRespuesta sis httpRequest .nuevo = some (i', codigo)
        ∧ (LineaEstado (i'.recuperarHeader fecha) codigo
          ↔ SinTresPartes linea ∨ PasaHost headers) := by
  obtain ⟨linea, headers, resto, hsplit⟩ := Utilidades.split_of_doublecrlf h
  obtain ⟨i', hi'⟩ := construirRespuesta_estado sis .nuevo hsplit
  obtain ⟨hest, hmen, -, -⟩ := construirRespuesta_campos hi'
  obtain ⟨hsi, hno⟩ := construirRespuesta_protocolo hi' hsplit
  refine ⟨linea, headers, resto, i', _, hsplit, hi', ?_⟩
  by_cases hp : SinTresPartes linea ∨ PasaHost headers
  · rw [linea_estado_iff_protocolo (construirRespuesta_codigo hi') hest hmen (.inr (hsi hp))]
    exact ⟨fun _ => hp, fun _ => hsi hp⟩
  · rw [linea_estado_iff_protocolo (construirRespuesta_codigo hi') hest hmen (.inl (hno hp)), hno hp]
    refine ⟨fun hver => ?_, fun h => absurd h hp⟩
    rcases hver with h | h <;> cases h

/-- A request with the `Host` header. -/
def peticionHost : Texto := "GET / HTTP/1.1\r\nHost: a\r\n\r\n".toList

/-- Its answer has the status line, of a 404 here. -/
theorem linea_estado_host :
    ∃ i' codigo, construirRespuesta .sinArchivos peticionHost .nuevo = some (i', codigo)
      ∧ LineaEstado (i'.recuperarHeader []) codigo := by
  obtain ⟨linea, headers, resto, i', codigo, hsplit, h, hiff⟩ :=
    linea_estado_iff .sinArchivos [] (show DOUBLECRLF <:+: peticionHost by decide)
  have hcut : Utilidades.split peticionHost CRLF 1
      = ["GET / HTTP/1.1".toList, "Host: a".toList, CRLF] := rfl
  obtain ⟨-, hresto⟩ := List.cons.inj (hsplit.symm.trans hcut)
  obtain ⟨rfl, -⟩ := List.cons.inj hresto
  have hhost : PasaHost "Host: a".toList := fun h => absurd h (by decide)
  exact ⟨i', codigo, h, hiff.mpr (.inr hhost)⟩

/-- A request without it. -/
def peticionSinHost : Texto := "GET / HTTP/1.1\r\n\r\n".toList

/-- **The status line of the answer to a request without `Host` has no protocol.** -/
theorem linea_estado_sin_protocolo :
    ¬ ∀ (sis : Sistema) (fecha httpRequest : Texto), DOUBLECRLF <:+: httpRequest →
      ∃ i' codigo, construirRespuesta sis httpRequest .nuevo = some (i', codigo)
        ∧ LineaEstado (i'.recuperarHeader fecha) codigo := by
  intro hall
  obtain ⟨i', codigo, h, protocolo, motivo, resto, hp, -, -, heq⟩ :=
    hall .sinArchivos [] peticionSinHost (by decide)
  have hprot : (construirRespuesta .sinArchivos peticionSinHost .nuevo).map
      (·.1.respuesta_protocolo) = some [] := rfl
  rw [h] at hprot
  have hhead := head?_recuperarHeader [] (Option.some.inj hprot)
  rw [heq, head?_protocolo hp] at hhead
  exact absurd hhead (by decide)

/-! ## The end of the block -/

/-- What a receiver keeps that cuts at the first `CRLFCRLF`. -/
def cuerpoRecibido (respuesta : Texto) : Option Texto :=
  (find DOUBLECRLF respuesta).map fun p => respuesta.drop (p + DOUBLECRLF.length)

/-- The block ends with its only `CRLFCRLF`, and is cut off there, whatever the body is. -/
structure CorteLimpio (bloque : Texto) : Prop where
  unico : ∀ k, DOUBLECRLF <+: bloque.drop k ↔ k + DOUBLECRLF.length = bloque.length
  cuerpo : ∀ cuerpo, cuerpoRecibido (bloque ++ cuerpo) = some cuerpo

/-- Lines that are not empty make a block that can be cut off. -/
theorem corteLimpio_lineas {linea : Texto} {lineas : List Texto}
    (h : ∀ l ∈ linea :: lineas, '\r' ∉ l ∧ l ≠ []) :
    CorteLimpio ((linea :: lineas).flatMap (· ++ CRLF) ++ CRLF) := by
  have hfind (resto : Texto) := find_doubled_block (b := '\n') (by decide) h resto
  generalize hbloque : (linea :: lineas).flatMap (· ++ CRLF) ++ CRLF = bloque
  constructor
  · intro k
    obtain ⟨p, hp, hfin⟩ := hfind []
    rw [List.append_nil] at hp
    rw [← hbloque]
    exact isPrefix_drop_iff_of_find (by decide) hp hfin
  · intro cuerpo
    obtain ⟨p, hp, hfin⟩ := hfind cuerpo
    change find DOUBLECRLF ((linea :: lineas).flatMap (· ++ CRLF) ++ CRLF ++ cuerpo) = some p at hp
    change p + DOUBLECRLF.length = ((linea :: lineas).flatMap (· ++ CRLF) ++ CRLF).length at hfin
    rw [hbloque] at hp hfin
    rw [cuerpoRecibido, hp, Option.map_some, hfin, List.drop_left]

/-- An empty line in the end puts a second `CRLFCRLF` two characters before the first. -/
theorem not_corteLimpio_doble (antes : Texto) :
    ¬ CorteLimpio (antes ++ CRLF ++ CRLF ++ CRLF) := by
  intro h
  have hpre : DOUBLECRLF <+: (antes ++ CRLF ++ CRLF ++ CRLF).drop antes.length := by
    rw [List.append_assoc, List.append_assoc, List.drop_left]
    exact ⟨CRLF, rfl⟩
  have hlen := (h.unico antes.length).mp hpre
  have h4 : DOUBLECRLF.length = 4 := rfl
  have h2 : CRLF.length = 2 := rfl
  simp only [List.length_append, h4, h2] at hlen
  omega

/-- A number in decimal has no `CR`. -/
theorem cr_not_mem_toString (n : ℤ) : '\r' ∉ (toString n).toList := by
  have hnat (m : ℕ) : '\r' ∉ m.repr.toList := by
    rw [Nat.toList_repr]
    intro hmem
    exact absurd (Nat.isDigit_of_mem_toDigits (by decide) (by decide) hmem) (by decide)
  rw [Int.toString_eq_repr, Int.repr_eq_if]
  split
  · exact hnat _
  · rw [String.toList_append, List.mem_append, not_or]
    exact ⟨by decide, hnat _⟩

theorem cr_not_mem_ofList {cs : List Char} (h : '\r' ∉ cs) : '\r' ∉ (String.ofList cs).toList := by
  rwa [String.toList_ofList]

/-- The types of the table have no `CR`. -/
theorem cr_not_mem_MIMETYPES {tipo : Texto} (h : tipo ∈ MIMETYPES.map Prod.snd) : '\r' ∉ tipo := by
  revert tipo
  simp only [MIMETYPES, List.map_cons, List.map_nil, List.forall_mem_cons, List.not_mem_nil,
    false_implies, implies_true, and_true]
  -- the literals are read as their lists of characters, which `decide` does slowly
  and_intros <;> exact cr_not_mem_ofList (by decide)

/-- The lines of a 200 answer. -/
theorem lineas_servida {sis : Sistema} {fecha ruta : Texto} {i : InterpreteHTTP}
    (hsis : ∀ mtim, '\r' ∉ sis.getFechaGMT mtim) (hfecha : '\r' ∉ fecha)
    (hest : i.respuesta_estadoCodigo = STATUS_OK_200)
    (hmen : i.respuesta_estadoMensaje = recuperarEstado STATUS_OK_200)
    (h : CamposServidos sis ruta i) : ∀ l ∈ i.lineaEstado :: i.lineas fecha, '\r' ∉ l ∧ l ≠ [] := by
  have hprot : '\r' ∉ i.respuesta_protocolo := by
    rcases h.protocolo with hp | hp
    · rw [hp]
      decide
    · rw [hp]
      decide
  -- every line begins with a name, and the value behind it has no `CR`
  have hlinea (nombre : Texto) {valor : Texto} (hn : '\r' ∉ nombre ∧ nombre ≠ [])
      (hv : '\r' ∉ valor) : '\r' ∉ nombre ++ valor ∧ nombre ++ valor ≠ [] := by
    rw [List.mem_append, not_or]
    exact ⟨⟨hn.1, hv⟩, List.append_ne_nil_of_left_ne_nil hn.2 valor⟩
  obtain ⟨mtim, hmtim⟩ := h.ultimaEdicion
  unfold lineas
  rw [if_pos hest]
  simp only [List.forall_mem_cons, List.not_mem_nil, false_implies, implies_true, and_true]
  refine ⟨?_, hlinea _ (by decide) (by decide), hlinea _ (by decide) hfecha,
    hlinea _ (by decide) (by decide), hlinea _ (by decide) ?_, hlinea _ (by decide) ?_,
    hlinea _ (by decide) ?_⟩
  · rw [lineaEstado, hest, hmen, List.mem_append, not_or]
    refine ⟨⟨hprot, by decide⟩, List.append_ne_nil_of_right_ne_nil _ (List.cons_ne_nil _ _)⟩
  · rw [h.size]
    exact cr_not_mem_toString _
  · exact cr_not_mem_MIMETYPES h.MIME
  · rw [hmtim]
    exact hsis mtim

theorem corteLimpio_iff_servida {sis : Sistema} {fecha httpRequest : Texto}
    {i i' : InterpreteHTTP} {codigo : ℤ} (hsis : ∀ mtim, '\r' ∉ sis.getFechaGMT mtim)
    (hfecha : '\r' ∉ fecha) (h : i.construirRespuesta sis httpRequest = some (i', codigo)) :
    CorteLimpio (i'.recuperarHeader fecha) ↔ Servida sis httpRequest := by
  obtain ⟨hest, hmen, hcampos, hservida⟩ := construirRespuesta_campos h
  rw [← hservida]
  by_cases h200 : codigo = STATUS_OK_200
  · refine ⟨fun _ => h200, fun _ => ?_⟩
    obtain ⟨ruta, -, hcampos⟩ := hcampos h200
    have hlineas := lineas_servida hsis hfecha (hest.trans h200) (h200 ▸ hmen) hcampos
    have hbloque := corteLimpio_lineas hlineas
    rwa [List.flatMap_cons, List.append_assoc, ← recuperarHeader_eq] at hbloque
  · refine ⟨fun hcorte => absurd hcorte ?_, fun h => absurd h h200⟩
    -- the `Date` line is ended, and `CRLFCRLF` follows
    rw [recuperarHeader_eq, lineas, if_neg (hest ▸ h200), List.flatMap_cons, List.flatMap_cons,
      List.flatMap_cons, List.flatMap_nil, List.append_nil, List.nil_append]
    have hdoble := not_corteLimpio_doble (i'.lineaEstado ++ CRLF
      ++ ("Server: ".toList ++ SERVER_NAME ++ CRLF) ++ ("Date: ".toList ++ fecha))
    simpa only [List.append_assoc] using hdoble

/-- **When the block of an answer is cut off cleanly**: the answer is a file. For every request,
every directory tree, every interpreter, and dates without `CR` and `LF`. Behind the `Date` line of
any other answer there is a `CRLF` in front of the `CRLFCRLF`. -/
theorem corte_limpio_iff {sis : Sistema} {fecha httpRequest : Texto} (i : InterpreteHTTP)
    (hsis : ∀ mtim, '\r' ∉ sis.getFechaGMT mtim ∧ '\n' ∉ sis.getFechaGMT mtim)
    (hfecha : '\r' ∉ fecha ∧ '\n' ∉ fecha) (h : httpRequest ≠ []) :
    ∃ i' codigo, i.construirRespuesta sis httpRequest = some (i', codigo)
      ∧ (CorteLimpio (i'.recuperarHeader fecha) ↔ Servida sis httpRequest) := by
  obtain ⟨i', codigo, hi'⟩ := exists_construirRespuesta sis i h
  exact ⟨i', codigo, hi', corteLimpio_iff_servida (fun mtim => (hsis mtim).1) hfecha.1 hi'⟩

/-- The home page is served, with a block that can be cut off. -/
theorem corte_limpio_indice :
    ∃ i' codigo, construirRespuesta .conIndice peticionHost .nuevo = some (i', codigo)
      ∧ CorteLimpio (i'.recuperarHeader "hoy".toList) := by
  have hfecha : '\r' ∉ "hoy".toList ∧ '\n' ∉ "hoy".toList := by decide
  have hsis (mtim : ℤ) : '\r' ∉ Sistema.conIndice.getFechaGMT mtim
      ∧ '\n' ∉ Sistema.conIndice.getFechaGMT mtim := ⟨List.not_mem_nil, List.not_mem_nil⟩
  obtain ⟨i', codigo, h, hiff⟩ :=
    corte_limpio_iff .nuevo hsis hfecha (show peticionHost ≠ [] by decide)
  have hservida : Servida .conIndice peticionHost :=
    ⟨['/'], ⟨_, _, _, _, _, _, rfl, rfl, by decide, by decide, .inr rfl, .inl rfl⟩, by decide,
      by decide⟩
  exact ⟨i', codigo, h, hiff.mpr hservida⟩

/-- **The block of a 404 answer holds `CRLFCRLF` twice**, and the rest of the second one stays in
front of the body. -/
theorem corte_sucio_404 :
    ¬ ∀ (sis : Sistema) (fecha httpRequest : Texto),
      (∀ mtim, '\r' ∉ sis.getFechaGMT mtim ∧ '\n' ∉ sis.getFechaGMT mtim) →
      '\r' ∉ fecha ∧ '\n' ∉ fecha → httpRequest ≠ [] →
      ∃ i' codigo, construirRespuesta sis httpRequest .nuevo = some (i', codigo)
        ∧ CorteLimpio (i'.recuperarHeader fecha) := by
  intro hall
  obtain ⟨i', codigo, h, hcorte⟩ :=
    hall .sinArchivos [] peticionHost (fun _ => ⟨List.not_mem_nil, List.not_mem_nil⟩) (by decide)
      (by decide)
  have hservida := (corteLimpio_iff_servida (fun _ => List.not_mem_nil) List.not_mem_nil h).mp hcorte
  -- no directory can be opened, and so no file is found
  obtain ⟨ruta, -, hexiste, -⟩ := hservida
  rw [existe, Sistema.sinArchivos, Option.any_none, Bool.and_false] at hexiste
  exact absurd hexiste (by decide)

end InterpreteHTTP

end LoadBalancer
