/-
The requests of `WebCliente`, as the server of this repository reads them.

`realizarPeticion` joins its four members into the text of a request with one header line,
and `construirRespuesta` cuts that text at the line ends, the request line at its blanks, and
the header line at the value of `host`. [`peticion_fiel`] says that what arrives at
`procesarRequest` is what the client was given.
-/
import LoadBalancer.Cabeceras

set_option autoImplicit false

namespace LoadBalancer

open LoadBalancer.Search

/-! ## The client -/

/-- The members of `WebCliente` that make up a request. -/
structure WebCliente where
  peticion : Texto
  ruta : Texto
  htmlver : Texto
  host : Texto

namespace WebCliente

/-- What `realizarPeticion` writes to the socket. -/
def realizarPeticion (c : WebCliente) : Texto :=
  c.peticion ++ " ".toList ++ c.ruta ++ " HTTP/".toList ++ c.htmlver ++ "\r\nhost: ".toList
    ++ c.host ++ "\r\n\r\n".toList

/-- None of the separators is inside a part: the method, the path and the version are words,
and the host is one line without `;`. -/
structure BienFormado (c : WebCliente) : Prop where
  peticion_ne : c.peticion ≠ []
  peticion_palabra : ∀ x ∈ c.peticion, x ≠ ' ' ∧ x ≠ '\r' ∧ x ≠ '\n'
  ruta_raiz : c.ruta.head? = some '/'
  ruta_palabra : ∀ x ∈ c.ruta, x ≠ ' ' ∧ x ≠ '\r' ∧ x ≠ '\n'
  htmlver_ne : c.htmlver ≠ []
  htmlver_palabra : ∀ x ∈ c.htmlver, x ≠ ' ' ∧ x ≠ '\r' ∧ x ≠ '\n'
  host_ne : c.host ≠ []
  host_linea : ∀ x ∈ c.host, x ≠ ';' ∧ x ≠ '\r' ∧ x ≠ '\n'

/-- The protocol, the third part of the request line. -/
def version (c : WebCliente) : Texto := "HTTP/".toList ++ c.htmlver

/-- The request line. -/
def linea (c : WebCliente) : Texto := c.peticion ++ ' ' :: (c.ruta ++ ' ' :: c.version)

/-- The one header line. -/
def cabecera (c : WebCliente) : Texto := "host: ".toList ++ c.host

variable {c : WebCliente}

/-- No part of the request line has a character that its words do not have. -/
theorem BienFormado.not_mem_version (hc : c.BienFormado) {x : Char}
    (hx : x = ' ' ∨ x = '\r' ∨ x = '\n') : x ∉ c.version := by
  unfold version
  rw [List.mem_append, not_or]
  constructor
  · rcases hx with rfl | rfl | rfl <;> decide
  · intro hmem
    have := hc.htmlver_palabra x hmem
    tauto

theorem BienFormado.not_mem_linea (hc : c.BienFormado) {x : Char} (hx : x = '\r' ∨ x = '\n') :
    x ∉ c.linea := by
  have hpeticion := hc.peticion_palabra x
  have hruta := hc.ruta_palabra x
  have hversion := hc.not_mem_version (.inr hx)
  have hblanco : x ≠ ' ' := by rcases hx with rfl | rfl <;> decide
  unfold linea
  simp only [List.mem_append, List.mem_cons]
  tauto

theorem BienFormado.not_mem_cabecera (hc : c.BienFormado) {x : Char}
    (hx : x = ';' ∨ x = '\r' ∨ x = '\n') : x ∉ c.cabecera := by
  unfold cabecera
  rw [List.mem_append, not_or]
  constructor
  · rcases hx with rfl | rfl | rfl <;> decide
  · intro hmem
    have := hc.host_linea x hmem
    tauto

/-- The request as the server's model has it, a line and its header lines. -/
def BienFormado.conCabeceras (hc : c.BienFormado) : InterpreteHTTP.PeticionConCabeceras where
  linea := c.linea
  cabeceras := [c.cabecera]
  cuerpo := []
  linea_sin_crlf := fun h => hc.not_mem_linea (.inl rfl) (h.subset (List.mem_cons_self))
  cabeceras_sin_crlf := by
    rw [List.forall_mem_singleton]
    exact fun h => hc.not_mem_cabecera (.inr (.inl rfl)) (h.subset (List.mem_cons_self))
  cabeceras_no_vacias := by
    rw [List.forall_mem_singleton]
    exact List.cons_ne_nil _ _

theorem BienFormado.texto_conCabeceras (hc : c.BienFormado) :
    hc.conCabeceras.texto = c.realizarPeticion := by
  unfold InterpreteHTTP.PeticionConCabeceras.texto conCabeceras realizarPeticion linea version
    cabecera
  simp [CRLF]

/-- **The three parts of the request line.** -/
theorem BienFormado.split_linea (hc : c.BienFormado) :
    Utilidades.split c.linea [' '] 3 = [c.peticion, c.ruta, c.version] := by
  have hpeticion : ' ' ∉ c.peticion := fun h => (hc.peticion_palabra ' ' h).1 rfl
  have hruta : ' ' ∉ c.ruta := fun h => (hc.ruta_palabra ' ' h).1 rfl
  have hversion : find [' '] c.version = none :=
    find_singleton_none (hc.not_mem_version (.inl rfl))
  have hpos : 0 < c.linea.length := by
    rw [linea, List.length_append, List.length_cons]
    omega
  have hne : c.version ≠ [] := List.cons_ne_nil _ _
  rw [Utilidades.split, if_pos hpos, linea, Utilidades.split.bucle_singleton hpeticion,
    Utilidades.split.bucle_singleton hruta, Utilidades.split.bucle_break hversion, if_pos hne]

/-- **The value of the header** is the host. The key is found behind the `h`, and neither of
its closing marks is in the line. -/
theorem BienFormado.extraer_cabecera (hc : c.BienFormado)
    (hcabe : c.cabecera.length < 9223372036854775808) :
    Utilidades.extraerValorHeader c.cabecera OST = c.host := by
  have hclave : find OST c.cabecera = some 1 :=
    find_cons_append (p := "st: ".toList) (l := ['h']) (r := c.host) (by decide)
  have hresto : c.cabecera.drop 6 = c.host := rfl
  have hcierre : ∀ (pat : Texto) {x : Char}, x ∈ pat → (x = ';' ∨ x = '\r' ∨ x = '\n') →
      findDesde pat c.cabecera 6 = npos := by
    intro pat x hpat hx
    have hno : find pat (c.cabecera.drop 6) = none := by
      rw [find_eq_none_iff]
      exact fun h => hc.not_mem_cabecera hx (List.mem_of_mem_drop (h.subset hpat))
    rw [findDesde, hno]
  -- both closing positions are `-1`, so the room is `-7`, which `substr` takes as a huge size
  have htamano : aSizeT (aInt ↑(min (aSizeT (aInt npos - (6 : ℕ)))
      (aSizeT (aInt npos - (6 : ℕ))))) = 18446744073709551609 := by decide
  have hlargo : c.host.length ≤ 18446744073709551609 := by
    unfold cabecera at hcabe
    rw [List.length_append] at hcabe
    omega
  have hposicion : 1 + OST.length = 6 := rfl
  rw [Utilidades.extraerValorHeader, hclave]
  dsimp only
  rw [hposicion, hcierre CRLF List.mem_cons_self (.inr (.inl rfl)),
    hcierre [';'] List.mem_cons_self (.inl rfl), htamano, hresto,
    List.take_of_length_le hlargo]

end WebCliente

/-! ## The call of `procesarRequest` -/

namespace InterpreteHTTP

/-- The arguments that `construirRespuesta` calls `procesarRequest` with, if it does: method,
path, version and the first header line. -/
def llamada (httpRequest : Texto) : Option (Texto × Texto × Texto × Texto) :=
  match Utilidades.split httpRequest CRLF 1 with
  | linea :: headers :: _ =>
      let request_separado := Utilidades.split linea [' '] 3
      match request_separado with
      | metodo :: ruta :: htmlv :: _ =>
          if request_separado.contains [] then none else some (metodo, ruta, htmlv, headers)
      | _ => none
  | _ => none

/-- The answer to such a request is that of `procesarRequest`. -/
theorem construirRespuesta_llamada (sis : Sistema) (i : InterpreteHTTP)
    {httpRequest metodo ruta htmlv headers : Texto}
    (h : llamada httpRequest = some (metodo, ruta, htmlv, headers)) :
    i.construirRespuesta sis httpRequest
      = (procesarRequest sis metodo ruta htmlv headers
          { i with enviarSoloHeaders := false, errorOcurrido := false }).map fun i =>
            ({ i with respuesta_estadoMensaje := recuperarEstado i.respuesta_estadoCodigo },
              i.respuesta_estadoCodigo) := by
  unfold llamada at h
  unfold construirRespuesta
  cases hpiezas : Utilidades.split httpRequest CRLF 1 with
  | nil =>
      rw [hpiezas] at h
      cases h
  | cons linea piezas =>
      cases piezas with
      | nil =>
          rw [hpiezas] at h
          cases h
      | cons cabecera piezas =>
          rw [hpiezas] at h
          dsimp only at h ⊢
          split at h
          · next partes m r v resto hpartes =>
              split_ifs at h with hvacia
              cases h
              rw [List.contains_iff_mem, hpartes] at hvacia
              rw [hpartes]
              dsimp only
              rw [if_neg hvacia]
          · cases h

end InterpreteHTTP

/-! ## The result -/

/-- **The server understands the client**: method, path, version and host of every request that
the client writes arrive at `procesarRequest` as they were set. A text is a `std::string`, so
it is shorter than `2^63`. None of the separators is in a part, so that the server cuts where the
client has joined. -/
theorem peticion_fiel {c : WebCliente} (hc : c.BienFormado)
    (hcabe : c.realizarPeticion.length < 9223372036854775808) (sis : Sistema)
    (i : InterpreteHTTP) :
    ∃ headers, InterpreteHTTP.llamada c.realizarPeticion
          = some (c.peticion, c.ruta, "HTTP/".toList ++ c.htmlver, headers)
      ∧ i.construirRespuesta sis c.realizarPeticion
          = (InterpreteHTTP.procesarRequest sis c.peticion c.ruta ("HTTP/".toList ++ c.htmlver)
              headers { i with enviarSoloHeaders := false, errorOcurrido := false }).map (fun i =>
                ({ i with respuesta_estadoMensaje :=
                            InterpreteHTTP.recuperarEstado i.respuesta_estadoCodigo },
                  i.respuesta_estadoCodigo))
      ∧ Utilidades.extraerValorHeader headers OST = c.host := by
  obtain ⟨resto, hpiezas⟩ := hc.conCabeceras.split_texto
  rw [hc.texto_conCabeceras] at hpiezas
  have hruta : c.ruta ≠ [] := by
    intro hnil
    have := hc.ruta_raiz
    rw [hnil] at this
    cases this
  have hvacia : [] ∉ [c.peticion, c.ruta, c.version] := by
    simp only [List.mem_cons, List.not_mem_nil, or_false, not_or]
    exact ⟨hc.peticion_ne.symm, hruta.symm, (List.cons_ne_nil _ _).symm⟩
  have hllamada : InterpreteHTTP.llamada c.realizarPeticion
      = some (c.peticion, c.ruta, c.version, c.cabecera) := by
    have hlinea : Utilidades.split hc.conCabeceras.linea [' '] 3
        = [c.peticion, c.ruta, c.version] := hc.split_linea
    unfold InterpreteHTTP.llamada
    rw [hpiezas]
    dsimp only
    rw [hlinea]
    dsimp only
    rw [if_neg (List.contains_iff_mem.not.mpr hvacia)]
    rfl
  refine ⟨c.cabecera, hllamada, InterpreteHTTP.construirRespuesta_llamada sis i hllamada, ?_⟩
  apply hc.extraer_cabecera
  -- the header line is part of the text
  rw [← hc.texto_conCabeceras, InterpreteHTTP.PeticionConCabeceras.texto] at hcabe
  simp only [WebCliente.BienFormado.conCabeceras, List.length_append, List.flatMap_cons] at hcabe
  omega

/-- `GET / HTTP/1.1` from `localhost`. -/
theorem peticion_fiel_localhost :
    ∃ headers, InterpreteHTTP.llamada "GET / HTTP/1.1\r\nhost: localhost\r\n\r\n".toList
          = some ("GET".toList, "/".toList, "HTTP/1.1".toList, headers)
      ∧ Utilidades.extraerValorHeader headers OST = "localhost".toList := by
  obtain ⟨headers, hllamada, -, hhost⟩ :=
    peticion_fiel (c := ⟨"GET".toList, "/".toList, "1.1".toList, "localhost".toList⟩)
      { peticion_ne := by decide
        peticion_palabra := by simp
        ruta_raiz := rfl
        ruta_palabra := by simp
        htmlver_ne := by decide
        htmlver_palabra := by simp
        host_ne := by decide
        host_linea := by simp } (by decide) .sinArchivos .nuevo
  exact ⟨headers, hllamada, hhost⟩

end LoadBalancer
