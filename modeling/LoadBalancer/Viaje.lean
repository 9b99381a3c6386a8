/-
A download through the balancer, from end to end.

The request of `WebCliente` goes through the first loop of `hilo_Cliente` to a web server, and what
the server writes comes back through the second one and ends in a file. Every stream arrives cut in
its own way, and every array holds what it held ([`Escenario`]); the four programs are those of the
other modules, put one behind the other ([`Viaje`]).

Where the request gets through, the client always ends with one file, which begins with the served
one, and is it exactly when the answer fills the client's first array ([`viaje_completo`]).
-/
import LoadBalancer.Descarga
import LoadBalancer.Head
import LoadBalancer.PeticionCliente

set_option autoImplicit false

namespace LoadBalancer

open LoadBalancer.Search LoadBalancer.Loop InterpreteHTTP

/-! ## The balancer's second loop -/

/-- What the second loop of `hilo_Cliente` changes: the array, and the bytes written to the
client. -/
structure RelevoRespuesta where
  httpResponse : Bufer
  enviado : List Char

/-- One turn of the loop: read, and send the `bytes` bytes read on, if there are any. -/
def vueltaRespuesta (r : RelevoRespuesta) (l : Lectura) : Option (RelevoRespuesta × Bool) :=
  let leido := r.httpResponse.leer l
  if 0 < l.estado then some (⟨leido, r.enviado ++ leido.bytes.take l.estado.toNat⟩, false)
  else some (⟨leido, r.enviado⟩, true)

/-- The turns of the loop, when every piece brings something. -/
theorem vueltaRespuesta_trace (httpResponse : Bufer) {trozos : List Trozo} (cierre : Cierre)
    (h : ∀ t ∈ trozos, t.bytes ≠ []) :
    Trace vueltaRespuesta ⟨httpResponse, []⟩ (entrada trozos cierre)
      (fun n => ⟨arreglo httpResponse (trozos.take n), recibido trozos n⟩)
      (fun _ => True) (fun n => trozos.length ≤ n) where
  start := rfl
  turn_stop n _ hstop := by
    have hnone : trozos[n]? = none := List.getElem?_eq_none hstop
    have hestado : ¬ 0 < (entrada trozos cierre n).estado := by
      rw [entrada, hnone]
      cases cierre <;> decide
    have hbytes : (entrada trozos cierre n).bytes = [] := by
      rw [entrada, hnone]
      cases cierre <;> rfl
    rw [vueltaRespuesta, if_neg hestado, entrada_bytes trozos cierre, hbytes, List.append_nil,
      ← arreglo_leer httpResponse trozos cierre]
  turn_goes_on n _ hstop := by
    have ht := List.getElem?_eq_getElem (not_le.mp hstop)
    have hestado : 0 < (entrada trozos cierre n).estado := by
      rw [entrada, ht]
      exact Int.natCast_pos.mpr (List.length_pos_iff.mpr (h _ (List.getElem_mem _)))
    rw [vueltaRespuesta, if_pos hestado, Bufer.take_leer, entrada_bytes trozos cierre,
      ← arreglo_leer httpResponse trozos cierre]
  turn_undefined n hok := absurd trivial hok

/-- **Everything is sent on**, and the loop ends with the stream. -/
theorem respuesta_relevada (httpResponse : Bufer) {trozos : List Trozo} (cierre : Cierre)
    (h : ∀ t ∈ trozos, t.bytes ≠ []) :
    ∃ n r, StopsAfter vueltaRespuesta ⟨httpResponse, []⟩ (entrada trozos cierre) n r
      ∧ r.enviado = trozos.flatMap (·.bytes) := by
  refine ⟨trozos.length + 1, _,
    ((vueltaRespuesta_trace httpResponse cierre h).stopsAfter_iff trozos.length _).mpr
      ⟨fun k hk => ⟨trivial, not_le.mpr hk⟩, trivial, le_refl _, rfl⟩, ?_⟩
  rw [recibido, List.take_of_length_le (Nat.le_succ _)]

/-! ## The trip -/

/-- A stream, cut into what the reads bring of it. -/
structure Corte (flujo : Texto) where
  trozos : List Trozo
  entero : trozos.flatMap (·.bytes) = flujo
  llenos : ∀ t ∈ trozos, t.bytes ≠ []

/-- What the network does to the streams, and what the arrays of the three programs hold. -/
structure Escenario where
  alBalanceador : ∀ flujo, Corte flujo
  alServidor : ∀ flujo, Corte flujo
  delServidor : ∀ flujo, Corte flujo
  cierre : Cierre
  httpRequest : Bufer
  pilas : ℕ → Bufer
  httpResponse : Bufer
  siguiente : Char
  backbufferSocket : Bufer
  bufferSocket : Bufer

/-- What the process of a request writes to its connection: the header block and the body. -/
def Atiende (sis : Sistema) (contenido : Texto → Texto) (fecha peticion respuesta : Texto) : Prop :=
  ∃ i codigo vueltas e, construirRespuesta sis peticion .nuevo = some (i, codigo)
    ∧ StopsAfter (enviarCuerpo contenido) (.inicio i) (fun _ => ()) vueltas e
    ∧ respuesta = i.recuperarHeader fecha ++ e.enviado

/-- The client's request, by way of the balancer and a server, ends with `archivo` in its file. -/
def Viaje (sis : Sistema) (contenido : Texto → Texto) (fecha : Texto) (s : Escenario)
    (c : WebCliente) (archivo : Texto) : Prop :=
  ∃ relevo peticion respuesta devuelta,
    (∃ n, StopsAfter vueltaRelevo ⟨s.httpRequest, []⟩
        (entrada (s.alBalanceador c.realizarPeticion).trozos s.cierre) n relevo)
      ∧ (∃ n, StopsAfter vueltaPeticion []
        (fun k => (s.pilas k, entrada (s.alServidor relevo.enviado).trozos s.cierre k)) n peticion)
      ∧ Atiende sis contenido fecha peticion respuesta
      ∧ (∃ n, StopsAfter vueltaRespuesta ⟨s.httpResponse, []⟩
        (entrada (s.delServidor respuesta).trozos s.cierre) n devuelta)
      ∧ WebCliente.Escrito s.siguiente s.backbufferSocket s.bufferSocket devuelta.enviado archivo

/-! ## The way there -/

/-- The request gets through: the tests of the balancer's loop are faithful, and the arrays of the
server's end right behind what they get. -/
structure Llega (s : Escenario) (texto : Texto) : Prop where
  balanceador : PruebasFieles s.httpRequest (s.alBalanceador texto).trozos
    ((s.alBalanceador texto).trozos.length - 1)
  servidor : ∀ k t, (s.alServidor texto).trozos[k]? = some t → SinRestos (s.pilas k) t.bytes

/-- A request of the client ends with its first `CRLFCRLF`. -/
theorem WebCliente.BienFormado.acaba {c : WebCliente} (hc : c.BienFormado) :
    AcabaEnSuFinal c.realizarPeticion := by
  have hlineas : ∀ l ∈ [c.linea, c.cabecera], '\r' ∉ l ∧ l ≠ [] := by
    intro l hl
    rcases List.mem_pair.mp hl with rfl | rfl
    · exact ⟨hc.not_mem_linea (.inl rfl), List.append_ne_nil_of_left_ne_nil hc.peticion_ne _⟩
    · exact ⟨hc.not_mem_cabecera (.inr (.inl rfl)), List.cons_ne_nil _ _⟩
  obtain ⟨p, hp, hfin⟩ := find_doubled_block (b := '\n') (by decide) hlineas []
  have htexto : [c.linea, c.cabecera].flatMap (· ++ CRLF) ++ CRLF = c.realizarPeticion := by
    rw [← hc.texto_conCabeceras, PeticionConCabeceras.texto]
    simp only [WebCliente.BienFormado.conCabeceras, List.flatMap_cons, List.flatMap_nil,
      List.append_nil, List.append_assoc]
  rw [List.append_nil] at hp
  exact ⟨p, by rw [← htexto]; exact hp, by rw [← htexto]; exact hfin.symm⟩

/-- **The server reads the request of the client.** -/
theorem peticion_llega {s : Escenario} {c : WebCliente} (hc : c.BienFormado)
    (h : Llega s c.realizarPeticion) :
    ∃ relevo, (∃ n, StopsAfter vueltaRelevo ⟨s.httpRequest, []⟩
        (entrada (s.alBalanceador c.realizarPeticion).trozos s.cierre) n relevo)
      ∧ relevo.enviado = c.realizarPeticion
      ∧ ∃ n, StopsAfter vueltaPeticion []
        (fun k => (s.pilas k, entrada (s.alServidor relevo.enviado).trozos s.cierre k)) n
          c.realizarPeticion := by
  have htodo {trozos : List Trozo} {m : ℕ} (hm : trozos.length = m + 1) :
      recibido trozos (m + 1) = trozos.flatMap (·.bytes) := by
    rw [recibido, ← hm, List.take_length]
  obtain ⟨hbalanceador, hservidor⟩ := h
  generalize s.alBalanceador c.realizarPeticion = ida at *
  obtain ⟨m, hm, hlargo⟩ := primerFinal_of_acaba (by rw [ida.entero]; exact hc.acaba) ida.llenos
  rw [hlargo, Nat.add_sub_cancel] at hbalanceador
  obtain ⟨relevo, hrelevo, henviado⟩ :=
    (stopsAfter_iff_pruebasFieles s.httpRequest s.cierre hm).mpr hbalanceador
  rw [htodo hlargo, ida.entero] at henviado
  refine ⟨relevo, ⟨_, hrelevo⟩, henviado, ?_⟩
  rw [henviado]
  generalize s.alServidor c.realizarPeticion = llegada at *
  obtain ⟨m, hm, hlargo⟩ :=
    primerFinal_of_acaba (by rw [llegada.entero]; exact hc.acaba) llegada.llenos
  obtain ⟨n, hn⟩ := (stopsAfter_recibido_iff s.pilas s.cierre hm).mpr fun k hk => by
    have ht := List.getElem?_eq_getElem (l := llegada.trozos) (i := k) (by omega)
    rw [entrada, ht]
    exact hservidor k _ ht
  cases n with
  | zero => cases hn
  | succ n =>
      obtain ⟨-, -, hfinal, hleida⟩ :=
        ((vueltaPeticion_trace s.pilas llegada.trozos s.cierre).stopsAfter_iff n _).mp hn
      -- the loop has seen the end, so it has read all there is
      have hultimo : m ≤ n := by
        by_contra hlt
        rw [← hleida] at hfinal
        have hle := hm.2 ⟨by omega, hfinal⟩
        omega
      have hentera : recibido llegada.trozos (n + 1) = c.realizarPeticion := by
        rw [recibido, List.take_of_length_le (by omega), llegada.entero]
      rw [hentera] at hn
      exact ⟨n + 1, hn⟩

/-! ## The answer -/

/-- A date as `strftime` makes it, in an array of 80 characters. -/
structure Fecha (fecha : Texto) : Prop where
  corta : fecha.length < 80
  sin_nul : NUL ∉ fecha
  sin_cr : '\r' ∉ fecha

/-- The file that a path names is there, can be opened and measured, and is of a known type. -/
structure Descargable (sis : Sistema) (contenido : Texto → Texto) (ruta : Texto) : Prop where
  esta : existe sis ruta = true
  tipo : tipoConocido (extensionDe (nombrePedido ruta)) = true
  abre : sis.abre (rutaAbierta ruta) = true
  mide : ∃ st, sis.stat (rutaAbierta ruta) = some st
    ∧ st.st_size = (contenido (rutaAbierta ruta)).length
  cabe : (contenido (rutaAbierta ruta)).length < 2147483648

/-- The types of the table are short, and no C string ends in them. -/
theorem mime_corto {tipo : Texto} (h : tipo ∈ MIMETYPES.map Prod.snd) :
    tipo.length ≤ 80 ∧ NUL ∉ tipo := by
  have hlist {cs : List Char} (hcs : cs.length ≤ 80 ∧ NUL ∉ cs) :
      (String.ofList cs).toList.length ≤ 80 ∧ NUL ∉ (String.ofList cs).toList := by
    rwa [String.toList_ofList]
  revert tipo
  simp only [MIMETYPES, List.map_cons, List.map_nil, List.forall_mem_cons, List.not_mem_nil,
    false_implies, implies_true, and_true]
  and_intros <;> first
    | exact (hlist (by decide)).1
    | exact (hlist (by decide)).2

/-- **The lines of the answer are short**, and none of them ends a C string. -/
theorem lineas_cortas {sis : Sistema} {contenido : Texto → Texto} {fecha ruta : Texto}
    {i : InterpreteHTTP} (hsis : ∀ mtim, Fecha (sis.getFechaGMT mtim)) (hfecha : Fecha fecha)
    (hest : i.respuesta_estadoCodigo = STATUS_OK_200)
    (hmen : i.respuesta_estadoMensaje = recuperarEstado STATUS_OK_200)
    (h : CamposServidos sis ruta i)
    (htamano : i.fs.tamanoArchivo = (contenido (rutaAbierta ruta)).length)
    (hcabe : (contenido (rutaAbierta ruta)).length < 2147483648) :
    ∀ l ∈ i.lineaEstado :: i.lineas fecha, l.length ≤ 100 ∧ NUL ∉ l := by
  -- every line begins with a name
  have hlinea (nombre : Texto) {valor : Texto} (hn : nombre.length ≤ 20 ∧ NUL ∉ nombre)
      (hv : valor.length ≤ 80 ∧ NUL ∉ valor) :
      (nombre ++ valor).length ≤ 100 ∧ NUL ∉ nombre ++ valor := by
    rw [List.length_append, List.mem_append, not_or]
    exact ⟨by omega, hn.2, hv.2⟩
  have hprot : i.respuesta_protocolo.length ≤ 20 ∧ NUL ∉ i.respuesta_protocolo := by
    rcases h.protocolo with hp | hp
    · rw [hp]
      decide
    · rw [hp]
      decide
  have hsize : i.respuesta_size.length ≤ 80 ∧ NUL ∉ i.respuesta_size := by
    have hdecimal : i.respuesta_size
        = Utilidades.to_string (contenido (rutaAbierta ruta)).length := by
      rw [h.size, htamano]
      rfl
    rw [hdecimal]
    constructor
    · have hdiez : (Utilidades.to_string (contenido (rutaAbierta ruta)).length).length ≤ 10 := by
        rw [Utilidades.to_string_eq, Nat.length_toDigits_le_iff (by decide) (by decide)]
        omega
      omega
    · exact fun hmem => absurd (Utilidades.isDigit_of_mem_to_string hmem) (by decide)
  have hdate {fecha : Texto} (hf : Fecha fecha) : fecha.length ≤ 80 ∧ NUL ∉ fecha :=
    ⟨hf.corta.le, hf.sin_nul⟩
  obtain ⟨mtim, hmtim⟩ := h.ultimaEdicion
  unfold lineas
  rw [if_pos hest]
  simp only [List.forall_mem_cons, List.not_mem_nil, false_implies, implies_true, and_true]
  refine ⟨?_, by decide, hlinea _ (by decide) (hdate hfecha), by decide, hlinea _ (by decide) hsize,
    hlinea _ (by decide) (mime_corto h.MIME), hlinea _ (by decide) ?_⟩
  · rw [lineaEstado, hest, hmen]
    exact hlinea _ hprot (by decide)
  · rw [hmtim]
    exact hdate (hsis mtim)

/-- Short lines make a short block. -/
theorem length_flatMap_crlf {lineas : List Texto} {n : ℕ} (h : ∀ l ∈ lineas, l.length ≤ n) :
    (lineas.flatMap (· ++ CRLF)).length ≤ lineas.length * (n + 2) := by
  induction lineas with
  | nil => exact Nat.zero_le _
  | cons l lineas ih =>
      have hl := h l List.mem_cons_self
      have hresto := ih fun l' hl' => h l' (List.mem_cons_of_mem _ hl')
      have hcrlf : CRLF.length = 2 := rfl
      rw [List.flatMap_cons, List.length_append, List.length_append, List.length_cons, Nat.add_mul]
      omega

/-- **The client takes apart an answer that is a file** as the server put it together. -/
theorem exists_respuestaHTTP {fecha : Texto} {i : InterpreteHTTP} (cuerpo : Texto)
    (hest : i.respuesta_estadoCodigo = STATUS_OK_200)
    (hprot : i.respuesta_protocolo = HTTP10 ∨ i.respuesta_protocolo = HTTP11)
    (hlineas : ∀ l ∈ i.lineaEstado :: i.lineas fecha, '\r' ∉ l ∧ l ≠ [])
    (hcortas : ∀ l ∈ i.lineaEstado :: i.lineas fecha, l.length ≤ 100 ∧ NUL ∉ l) :
    ∃ r : WebCliente.RespuestaHTTP, r.cabecera = i.recuperarHeader fecha ∧ r.cuerpo = cuerpo := by
  have hbloque : i.lineaEstado ++ CRLF ++ ((i.lineas fecha).flatMap (· ++ CRLF) ++ CRLF)
      = (i.lineaEstado :: i.lineas fecha).flatMap (· ++ CRLF) ++ CRLF := by
    rw [List.flatMap_cons, List.append_assoc (i.lineaEstado ++ CRLF)]
  have hestado : WebCliente.TieneEstado i.lineaEstado "200".toList := by
    refine ⟨i.respuesta_protocolo, ' ' :: (i.respuesta_estadoMensaje ++ [' ']), ?_, ?_, .inr rfl⟩
    · rw [lineaEstado, hest]
      rfl
    · rcases hprot with hp | hp
      · rw [hp]
        decide
      · rw [hp]
        decide
  have hfin : ∃ p, find DOUBLECRLF
        (i.lineaEstado ++ CRLF ++ ((i.lineas fecha).flatMap (· ++ CRLF) ++ CRLF)) = some p
      ∧ p + DOUBLECRLF.length
        = (i.lineaEstado ++ CRLF ++ ((i.lineas fecha).flatMap (· ++ CRLF) ++ CRLF)).length := by
    obtain ⟨p, hp, hfin⟩ := find_doubled_block (b := '\n') (by decide) hlineas []
    rw [List.append_nil] at hp
    rw [hbloque]
    exact ⟨p, hp, hfin⟩
  have hnul : NUL ∉ i.lineaEstado ++ CRLF ++ ((i.lineas fecha).flatMap (· ++ CRLF) ++ CRLF) := by
    rw [hbloque, List.mem_append, List.mem_flatMap, not_or]
    refine ⟨?_, by decide⟩
    rintro ⟨l, hl, hmem⟩
    rcases List.mem_append.mp hmem with h | h
    · exact (hcortas l hl).2 h
    · exact absurd h (by decide)
  have hlargo : (i.lineaEstado ++ CRLF
      ++ ((i.lineas fecha).flatMap (· ++ CRLF) ++ CRLF)).length ≤ BUFFER_SIZE := by
    have hseis : (i.lineas fecha).length = 6 := by
      unfold lineas
      rw [if_pos hest]
      rfl
    have hsuma := length_flatMap_crlf fun l hl => (hcortas l hl).1
    have hcrlf : CRLF.length = 2 := rfl
    have hbuf : BUFFER_SIZE = 4096 := rfl
    rw [List.length_cons, hseis] at hsuma
    rw [hbloque, List.length_append]
    omega
  exact ⟨⟨i.lineaEstado, (i.lineas fecha).flatMap (· ++ CRLF) ++ CRLF, cuerpo, hestado,
    fun h => (hlineas _ List.mem_cons_self).1 (h.subset List.mem_cons_self), hfin, hnul, hlargo⟩,
    (recuperarHeader_eq fecha i).symm, rfl⟩

/-- The server understands the client's requests. -/
theorem WebCliente.BienFormado.despachada {c : WebCliente} (hc : c.BienFormado)
    (hlargo : c.realizarPeticion.length < 9223372036854775808)
    (hmetodo : c.peticion = GET ∨ c.peticion = HEAD)
    (hversion : c.version = HTTP10 ∨ c.version = HTTP11) :
    Despachada c.realizarPeticion c.ruta := by
  obtain ⟨resto, hpiezas⟩ := hc.conCabeceras.split_texto
  have hruta : c.ruta ≠ [] := by
    intro hnil
    have hraiz := hc.ruta_raiz
    rw [hnil] at hraiz
    cases hraiz
  have hvacia : [] ∉ [c.peticion, c.ruta, c.version] := by
    simp only [List.mem_cons, List.not_mem_nil, or_false, not_or]
    exact ⟨hc.peticion_ne.symm, hruta.symm, (List.cons_ne_nil _ _).symm⟩
  have hhost : Utilidades.extraerValorHeader c.cabecera OST ≠ [] := by
    rw [hc.extraer_cabecera]
    · exact hc.host_ne
    · -- the header line is part of the text
      rw [← hc.texto_conCabeceras, PeticionConCabeceras.texto] at hlargo
      simp only [conCabeceras, List.length_append, List.flatMap_cons] at hlargo
      omega
  rw [hc.texto_conCabeceras] at hpiezas
  exact ⟨c.linea, c.cabecera, resto, c.peticion, c.version, [], hpiezas, hc.split_linea, hvacia,
    hhost, hversion, hmetodo⟩

/-- **What the server answers** to a request for a file: one text, a header block that the client
takes apart and the file behind it. -/
theorem atiende_descargable {sis : Sistema} {contenido : Texto → Texto} {fecha ruta : Texto}
    {peticion : Texto} (hd : Despachada peticion ruta) (hsis : ∀ mtim, Fecha (sis.getFechaGMT mtim))
    (hfecha : Fecha fecha) (h : Descargable sis contenido ruta) :
    ∃ r : WebCliente.RespuestaHTTP, r.cuerpo = contenido (rutaAbierta ruta)
      ∧ ∀ respuesta, Atiende sis contenido fecha peticion respuesta ↔ respuesta = r.texto := by
  have hne : peticion ≠ [] := by
    rintro rfl
    obtain ⟨linea, headers, resto, metodo, htmlv, mas, hsplit, -⟩ := hd
    cases hsplit
  obtain ⟨i, codigo, hi⟩ := exists_construirRespuesta sis .nuevo hne
  obtain ⟨hest, hmen, hcampos, hservida⟩ := construirRespuesta_campos hi
  obtain rfl : codigo = STATUS_OK_200 := hservida.mpr ⟨ruta, hd, h.esta, h.tipo⟩
  obtain ⟨ruta', hd', hcampos⟩ := hcampos rfl
  obtain rfl := hd.unique hd'
  -- the file is the one that was opened, with its size
  obtain ⟨habierto, hbuffer, htamano, hfaltan⟩ :=
    (construirRespuesta_medido hi hd h.esta h.tipo).1 h.abre
  obtain ⟨st, hst, hsize⟩ := h.mide
  have hcabe := h.cabe
  rw [hcampos.rutaDirectorios, hcampos.nombreArchivo] at habierto hbuffer
  change i.fs.fichero = some ⟨rutaAbierta ruta⟩ at habierto
  change i.fs.buffer = (sis.stat (rutaAbierta ruta)).getD _ at hbuffer
  rw [hst, Option.getD_some] at hbuffer
  rw [hbuffer, hsize] at htamano hfaltan
  rw [aInt_of_lt (by omega) (by omega)] at hfaltan
  obtain ⟨vueltas, e, hstop, henviado⟩ := enviarCuerpo_fichero
    ⟨hest, hcampos.enviarSoloHeaders, habierto, rfl, htamano, hfaltan, hcabe⟩
  obtain ⟨r, hcabecera, hcuerpo⟩ := exists_respuestaHTTP (contenido (rutaAbierta ruta)) hest
    hcampos.protocolo
      (lineas_servida (fun mtim => (hsis mtim).sin_cr) hfecha.sin_cr hest hmen hcampos)
    (lineas_cortas hsis hfecha hest hmen hcampos htamano hcabe)
  refine ⟨r, hcuerpo, fun respuesta => ?_⟩
  rw [WebCliente.RespuestaHTTP.texto, hcabecera, hcuerpo]
  constructor
  · rintro ⟨i', codigo', vueltas', e', hi', hstop', rfl⟩
    rw [hi] at hi'
    cases hi'
    rw [← hstop.unique hstop', henviado]
  · rintro rfl
    exact ⟨i, _, vueltas, e, hi, hstop, by rw [henviado]⟩

/-! ## The file -/

/-- **What the client writes**: what its array holds behind the header block, and the rest. -/
theorem escrito_iff_eq (r : WebCliente.RespuestaHTTP) (siguiente : Char)
    (backbufferSocket bufferSocket : Bufer) (hcabe : r.cuerpo.length < 2147483648)
    (archivo : Texto) :
    WebCliente.Escrito siguiente backbufferSocket bufferSocket r.texto archivo
      ↔ archivo = WebCliente.primerTrozo r backbufferSocket ++ WebCliente.restoCuerpo r := by
  have hresto : (WebCliente.restoCuerpo r).length
      = r.cuerpo.length - (BUFFER_SIZE - r.cabecera.length) := List.length_drop
  have hprimero := WebCliente.length_primerTrozo r backbufferSocket
  unfold WebCliente.Escrito
  rw [WebCliente.empezar_eq r siguiente backbufferSocket bufferSocket]
  simp only [Option.some.injEq, exists_and_left, exists_eq_left']
  rw [WebCliente.vuelta_stops_iff rfl archivo]
  dsimp only
  refine ⟨fun h => h.1, fun h => ⟨h, ?_⟩⟩
  -- the position is behind the array only when the body is
  by_cases hnil : WebCliente.restoCuerpo r = []
  · exact .inl hnil
  · right
    have hpos := List.length_pos_iff.mpr hnil
    have hmax : INT32_MAX = 2147483647 := rfl
    omega

/-- The body is at the beginning of it, and the array is at least filled. -/
theorem archivo_descargado (r : WebCliente.RespuestaHTTP) (backbufferSocket : Bufer) :
    r.cuerpo <+: WebCliente.primerTrozo r backbufferSocket ++ WebCliente.restoCuerpo r
      ∧ (WebCliente.primerTrozo r backbufferSocket ++ WebCliente.restoCuerpo r).length
        = max r.cuerpo.length (BUFFER_SIZE - r.cabecera.length) := by
  have hresto : (WebCliente.restoCuerpo r).length
      = r.cuerpo.length - (BUFFER_SIZE - r.cabecera.length) := List.length_drop
  constructor
  · by_cases hlleno : BUFFER_SIZE - r.cabecera.length ≤ r.cuerpo.length
    · have hsobra : backbufferSocket.bytes.drop r.texto.length = [] := by
        apply List.drop_of_length_le
        rw [backbufferSocket.largo, WebCliente.RespuestaHTTP.texto, List.length_append]
        omega
      rw [WebCliente.primerTrozo, hsobra, List.append_nil, WebCliente.restoCuerpo,
        List.take_append_drop]
    · rw [WebCliente.primerTrozo, List.take_of_length_le (by omega), List.append_assoc]
      exact List.prefix_append _ _
  · rw [List.length_append, WebCliente.length_primerTrozo, hresto]
    omega

/-- **The download, from end to end.** For every tree of files, every file that the server serves,
whatever it holds, every way of cutting the streams and whatever the arrays held: if the request
gets through, the answer is a header block and the file; the trip ends with one file, of which
the served one is the beginning; and it is the served one exactly when the answer fills the first
array of the client. -/
theorem viaje_completo {sis : Sistema} {contenido : Texto → Texto} {fecha : Texto}
    {s : Escenario} {c : WebCliente} (hc : c.BienFormado)
    (hlargo : c.realizarPeticion.length < 9223372036854775808)
    (hmetodo : c.peticion = GET ∨ c.peticion = HEAD)
    (hversion : c.version = HTTP10 ∨ c.version = HTTP11)
    (hllega : Llega s c.realizarPeticion) (hsis : ∀ mtim, Fecha (sis.getFechaGMT mtim))
    (hfecha : Fecha fecha) (h : Descargable sis contenido c.ruta) :
    ∃ bloque archivo,
      Atiende sis contenido fecha c.realizarPeticion (bloque ++ contenido (rutaAbierta c.ruta))
      ∧ (∀ a, Viaje sis contenido fecha s c a ↔ a = archivo)
      ∧ contenido (rutaAbierta c.ruta) <+: archivo
      ∧ (archivo = contenido (rutaAbierta c.ruta)
        ↔ BUFFER_SIZE ≤ (bloque ++ contenido (rutaAbierta c.ruta)).length) := by
  obtain ⟨relevo, hrelevo, henviado, hpeticion⟩ := peticion_llega hc hllega
  obtain ⟨r, hcuerpo, hatiende⟩ :=
    atiende_descargable (hc.despachada hlargo hmetodo hversion) hsis hfecha h
  obtain ⟨hprefijo, hsuma⟩ := archivo_descargado r s.backbufferSocket
  obtain ⟨n, devuelta, hdevuelta, hreenviada⟩ :=
    respuesta_relevada s.httpResponse s.cierre (s.delServidor r.texto).llenos
  rw [(s.delServidor r.texto).entero] at hreenviada
  have hcabe : r.cuerpo.length < 2147483648 := by
    rw [hcuerpo]
    exact h.cabe
  have hiff := escrito_iff_eq r s.siguiente s.backbufferSocket s.bufferSocket hcabe
  refine ⟨r.cabecera, _, ?_, fun archivo => ?_, hcuerpo ▸ hprefijo, ?_⟩
  · rw [← hcuerpo]
    exact (hatiende _).mpr rfl
  · constructor
    · -- every step of the trip has one outcome
      rintro ⟨relevo', peticion', respuesta', devuelta', ⟨_, hr⟩, ⟨_, hp⟩, ha, ⟨_, hv⟩, hescrito⟩
      obtain ⟨_, hrelevo⟩ := hrelevo
      obtain ⟨_, hpeticion⟩ := hpeticion
      cases hr.unique hrelevo
      cases hp.unique hpeticion
      cases (hatiende _).mp ha
      cases hv.unique hdevuelta
      rw [hreenviada] at hescrito
      exact (hiff archivo).mp hescrito
    · rintro rfl
      refine ⟨relevo, c.realizarPeticion, r.texto, devuelta, hrelevo, hpeticion,
        (hatiende _).mpr rfl, ⟨n, hdevuelta⟩, ?_⟩
      rw [hreenviada]
      exact (hiff _).mpr rfl
  · rw [← hcuerpo, List.length_append]
    constructor
    · intro heq
      rw [heq] at hsuma
      omega
    · intro hlleno
      exact (hprefijo.eq_of_length (by omega)).symm

/-! ## The home page -/

/-- A stream that comes in one piece, if it fits into one. -/
def Corte.deUnaVez (flujo : Texto) : Corte flujo :=
  if hnil : flujo = [] then ⟨[], hnil.symm, fun _ h => absurd h List.not_mem_nil⟩
  else if h : flujo.length ≤ BUFFER_SIZE then
    ⟨[⟨flujo, h⟩], List.append_nil flujo, fun t ht => by
      rw [List.mem_singleton.mp ht]
      exact hnil⟩
  else
    ⟨flujo.map fun c => ⟨[c], Nat.succ_pos 4095⟩, by rw [List.flatMap_map, List.flatMap_singleton'],
      fun t ht => by
        obtain ⟨c, -, rfl⟩ := List.mem_map.mp ht
        exact List.cons_ne_nil _ _⟩

/-- Nothing is cut, and the arrays are clear. -/
def Escenario.limpio : Escenario where
  alBalanceador := Corte.deUnaVez
  alServidor := Corte.deUnaVez
  delServidor := Corte.deUnaVez
  cierre := .fin
  httpRequest := .ceros
  pilas _ := .ceros
  httpResponse := .ceros
  siguiente := NUL
  backbufferSocket := .ceros
  bufferSocket := .ceros

/-- A request that fits into one piece gets through. -/
theorem Llega.limpio {texto : Texto} (hfin : DOUBLECRLF <:+: texto) (hnul : NUL ∉ texto)
    (hcabe : texto.length < BUFFER_SIZE) : Llega .limpio texto := by
  have hnil : texto ≠ [] := by
    rintro rfl
    exact absurd hfin (by decide)
  have htrozos : (Corte.deUnaVez texto).trozos = [⟨texto, hcabe.le⟩] := by
    rw [Corte.deUnaVez, dif_neg hnil, dif_pos hcabe.le]
  constructor
  · show PruebasFieles .ceros (Corte.deUnaVez texto).trozos
      ((Corte.deUnaVez texto).trozos.length - 1)
    rw [htrozos]
    refine ⟨fun k hk => absurd hk (Nat.not_lt_zero k), fun t ht => ?_⟩
    obtain rfl := Option.some.inj ht
    have hdetras : detras .ceros [] ⟨texto, hcabe.le⟩
        = List.replicate (BUFFER_SIZE - texto.length) NUL :=
      detras_ceros fun _ h => absurd h List.not_mem_nil
    refine .inr ⟨hnul, ?_, hfin.trans (List.prefix_append _ _).isInfix⟩
    show NUL ∈ detras .ceros [] ⟨texto, hcabe.le⟩
    rw [hdetras, List.mem_replicate]
    exact ⟨by omega, rfl⟩
  · intro k t ht
    change (Corte.deUnaVez texto).trozos[k]? = some t at ht
    rw [htrozos, List.getElem?_singleton] at ht
    split_ifs at ht
    cases ht
    exact ⟨hnul, by rw [Escenario.limpio, Bufer.ceros, List.getElem?_replicate, if_pos hcabe]⟩

theorem fechaVacia : Fecha [] := ⟨by decide, List.not_mem_nil, List.not_mem_nil⟩

/-- `GET / HTTP/1.1`. -/
def clienteIndice : WebCliente := ⟨"GET".toList, "/".toList, "1.1".toList, "www.google.com".toList⟩

/-- The home page of two bytes. -/
theorem viaje_completo_indice :
    ∃ bloque archivo,
      Atiende .conIndice (fun _ => ['h', 'i']) [] clienteIndice.realizarPeticion
        (bloque ++ ['h', 'i'])
      ∧ (∀ a, Viaje .conIndice (fun _ => ['h', 'i']) [] .limpio clienteIndice a ↔ a = archivo)
      ∧ ['h', 'i'] <+: archivo
      ∧ (archivo = ['h', 'i'] ↔ BUFFER_SIZE ≤ (bloque ++ ['h', 'i']).length) :=
  viaje_completo (c := clienteIndice)
    { peticion_ne := by decide
      peticion_palabra := by simp [clienteIndice]
      ruta_raiz := rfl
      ruta_palabra := by simp [clienteIndice]
      htmlver_ne := by decide
      htmlver_palabra := by simp [clienteIndice]
      host_ne := by decide
      host_linea := by simp [clienteIndice] } (by decide) (.inl rfl) (.inr rfl)
    (.limpio (by decide) (by decide) (by decide)) (fun _ => fechaVacia) fechaVacia
    ⟨rfl, by decide +kernel, rfl, ⟨_, rfl, rfl⟩, by decide⟩

end LoadBalancer
