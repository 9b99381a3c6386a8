/-
The balancer as a transition system: any number of `hilo_Cliente` threads, the listener
for `S/C` and `S/D` datagrams, the accepting thread and the console.

One step is one critical section, or one statement that reads or writes the shared
tables outside of any. A thread's [`Fase`] is the point of `hilo_Cliente` it has reached
together with the local variables that are still alive there: the position `indice_ip`
is chosen in one step and used in four later ones, and everything that goes wrong with
it goes wrong in between.

What the network and `rand()` answer a request is part of the request, [`Peticion`]:
every theorem quantifies over it. A read sequence that is exhausted answers end of
stream from then on.

[`Transita`] is what a thread's step can do, said once; the invariants of the later
files are proved from it and never unfold [`pasoHilo`].
-/
import LoadBalancer.Lib.Transition
import LoadBalancer.Balanceador
import LoadBalancer.Socket

set_option autoImplicit false

namespace LoadBalancer

/-! ## A request and the thread that serves it -/

/-- One accepted connection, with everything its environment will answer. -/
structure Peticion where
  /-- The client's address. -/
  direccion : Direccion
  /-- What `rand()` returns in `agregarCliente`. -/
  azar : ℕ
  /-- Whether `conectar` succeeds. -/
  conexion : Bool
  /-- What the stack array `httpRequest` held before the first read. -/
  httpRequest : Bufer
  /-- The reads on the client's socket. -/
  lecturas : List Lectura
  /-- The reads on the back-end's socket. -/
  respuestas : List Lectura

/-- How an execution of `hilo_Cliente` returned. -/
inductive Salida
  /-- The table was empty: the 503 answer. -/
  | sinServicio
  /-- `conectar` returned `-1`. -/
  | rechazado (indice_ip : ℤ)
  /-- The whole request was relayed. -/
  | completo
deriving DecidableEq, Repr

/-- The point of `hilo_Cliente` that is executed next. `destino` is the `comparador` of the
entry last read through `indice_ip`: first the one whose load was raised, then the one
whose `ip` and `port` were given to `conectar`. -/
inductive Fase
  | inicio
  | elegirMetodo
  | elegir (metodo : Algoritmo)
  | agregarCliente
  | asociarServidor
  | guardarCliente (servidor_asociado : ℤ)
  | escaneando
  | cargar (indice_ip : ℤ)
  | conectar (indice_ip : ℤ) (destino : Texto)
  | recibir (indice_ip : ℤ) (destino : Texto) (httpRequest : Bufer) (lecturas : List Lectura)
  | responder (indice_ip : ℤ) (destino : Texto) (respuestas : List Lectura)
  | descargar (indice_ip : ℤ) (destino : Texto)
  | registrar (indice_ip : ℤ)
  | terminado (salida : Salida)

structure Hilo where
  peticion : Peticion
  fase : Fase

/-- Where the listener is in the treatment of a datagram. -/
inductive FaseEscuchador
  | libre
  /-- `buscarServidor` found no such entry; the `push_back` is next. -/
  | agregando (ip : Texto)
  /-- `buscarServidor` returned this position; the `erase` is next. -/
  | eliminando (posicion : ℕ)
deriving DecidableEq, Repr

structure Estado where
  balanceador : Balanceador
  hilos : List Hilo
  escuchador : FaseEscuchador

/-! ## One step of `hilo_Cliente` -/

/-- The next read of a sequence, end of stream once it is exhausted. -/
def siguiente : List Lectura → Lectura × List Lectura
  | [] => (.fin, [])
  | l :: ls => (l, ls)

/-- The next step of a thread that serves `p`, as far as it touches the tables. -/
def pasoHilo (b : Balanceador) (p : Peticion) : Fase → Option (Balanceador × Fase)
  | .inicio =>
      if b.servidores.isEmpty then some (b, .terminado .sinServicio) else some (b, .elegirMetodo)
  -- `switch (algoritmoBalanceo.load())`: one read, outside of any mutex
  | .elegirMetodo => some (b, .elegir b.algoritmoBalanceo)
  | .elegir .ROUND_ROBIN =>
      some ({ b with roundRobin_Actual :=
                      siguienteRoundRobin b.roundRobin_Actual b.servidores.length },
            .cargar b.roundRobin_Actual)
  | .elegir .ROUND_ROBIN_PESOS =>
      -- the table cannot change during the scan, so `size() + 1` tests decide whether it ends
      match escanear b.servidores (b.servidores.length + 1) 0 with
      | .elige value => some (b, .cargar value)
      | .sigue _ => some (b, .escaneando)
      | .fuera _ => none
  -- `indice_ip` keeps its initial `0` on every way through this case
  | .elegir .DIRECCION_CLIENTE =>
      match buscarCliente b.clientes p.direccion with
      | none => some (b, .agregarCliente)
      | some _ => some (b, .cargar 0)
  | .elegir .CONEXIONES_ACTIVA => some (b, .cargar (buscarServidorConMenorCarga b.servidores))
  -- `agregarCliente` searches once more; another thread may have added the client since
  | .agregarCliente =>
      match buscarCliente b.clientes p.direccion with
      | none => some (b, .asociarServidor)
      | some _ => some (b, .cargar 0)
  | .asociarServidor =>
      (Utilidades.getNumeroRandom p.azar 0 ((b.servidores.length : ℤ) - 1)).bind fun random =>
        (acceso b.servidores random).map fun _ => (b, .guardarCliente random)
  -- the `push_back` is a later step, under `mutex_clientes` only: servers can go in between
  | .guardarCliente random =>
      some ({ b with clientes := b.clientes ++ [⟨p.direccion, random⟩] }, .cargar 0)
  | .escaneando => some (b, .escaneando)
  | .cargar indice_ip =>
      (acceso b.servidores indice_ip).bind fun s =>
        (modificar b.servidores indice_ip incrementar).map fun servidores =>
          ({ b with servidores := servidores }, .conectar indice_ip s.comparador)
  -- `ip` and `port` are read through `indice_ip` with no mutex held
  | .conectar indice_ip _ =>
      (acceso b.servidores indice_ip).map fun s =>
        if p.conexion then (b, .recibir indice_ip s.comparador p.httpRequest p.lecturas)
        -- the `return` after a failed `conectar`: no `carga_actual--` on this way out
        else (b, .terminado (.rechazado indice_ip))
  -- one turn of `while(!encontroFinal)`; the bytes it relays do not matter to the tables
  | .recibir indice_ip destino httpRequest lecturas =>
      (vueltaBalanceador httpRequest (siguiente lecturas).1).map fun (leido, encontroFinal) =>
        if encontroFinal then (b, .responder indice_ip destino p.respuestas)
        else (b, .recibir indice_ip destino leido (siguiente lecturas).2)
  | .responder indice_ip destino respuestas =>
      if 0 < (siguiente respuestas).1.estado then
        some (b, .responder indice_ip destino (siguiente respuestas).2)
      else some (b, .descargar indice_ip destino)
  | .descargar indice_ip _ =>
      (modificar b.servidores indice_ip decrementar).map fun servidores =>
        ({ b with servidores := servidores }, .registrar indice_ip)
  -- the log line reads `servidores[indice_ip].ip` once more, after the mutex was given back
  | .registrar indice_ip => (acceso b.servidores indice_ip).map fun _ => (b, .terminado .completo)
  | .terminado _ => none

/-- **What a step of a thread can do**, one constructor for each way through `pasoHilo`. -/
inductive Transita (b : Balanceador) (p : Peticion) : Fase → Balanceador → Fase → Prop
  | vacia (h : b.servidores = []) : Transita b p .inicio b (.terminado .sinServicio)
  | noVacia (h : b.servidores ≠ []) : Transita b p .inicio b .elegirMetodo
  | metodo : Transita b p .elegirMetodo b (.elegir b.algoritmoBalanceo)
  | roundRobin :
      Transita b p (.elegir .ROUND_ROBIN)
        { b with roundRobin_Actual :=
                  siguienteRoundRobin b.roundRobin_Actual b.servidores.length }
        (.cargar b.roundRobin_Actual)
  | pesos (i : ℕ)
      (h : escanear b.servidores (b.servidores.length + 1) 0 = .elige i) :
      Transita b p (.elegir .ROUND_ROBIN_PESOS) b (.cargar i)
  | pesosSinFin (i : ℕ)
      (h : escanear b.servidores (b.servidores.length + 1) 0 = .sigue i) :
      Transita b p (.elegir .ROUND_ROBIN_PESOS) b .escaneando
  | clienteConocido (c : ℕ) (h : buscarCliente b.clientes p.direccion = some c) :
      Transita b p (.elegir .DIRECCION_CLIENTE) b (.cargar 0)
  | clienteNuevo (h : buscarCliente b.clientes p.direccion = none) :
      Transita b p (.elegir .DIRECCION_CLIENTE) b .agregarCliente
  | clienteRepetido (c : ℕ) (h : buscarCliente b.clientes p.direccion = some c) :
      Transita b p .agregarCliente b (.cargar 0)
  | sinRegistro (h : buscarCliente b.clientes p.direccion = none) :
      Transita b p .agregarCliente b .asociarServidor
  | asociado (random : ℕ)
      (h : Utilidades.getNumeroRandom p.azar 0 ((b.servidores.length : ℤ) - 1) = some ↑random)
      (hi : random < b.servidores.length) :
      Transita b p .asociarServidor b (.guardarCliente random)
  | guardado (random : ℤ) :
      Transita b p (.guardarCliente random)
        { b with clientes := b.clientes ++ [⟨p.direccion, random⟩] } (.cargar 0)
  | menosConexiones :
      Transita b p (.elegir .CONEXIONES_ACTIVA) b
        (.cargar (buscarServidorConMenorCarga b.servidores))
  | escaneo : Transita b p .escaneando b .escaneando
  | carga (i : ℕ) (hi : i < b.servidores.length)
      (hmax : b.servidores[i].carga_actual < INT32_MAX) :
      Transita b p (.cargar i)
        { b with servidores := b.servidores.set i
                  { b.servidores[i] with carga_actual := b.servidores[i].carga_actual + 1 } }
        (.conectar i b.servidores[i].comparador)
  | conexion (i : ℕ) (hi : i < b.servidores.length) (destino : Texto) (h : p.conexion = true) :
      Transita b p (.conectar i destino) b
        (.recibir i b.servidores[i].comparador p.httpRequest p.lecturas)
  | rechazo (i : ℕ) (hi : i < b.servidores.length) (destino : Texto) (h : p.conexion = false) :
      Transita b p (.conectar i destino) b (.terminado (.rechazado i))
  | lectura (i : ℤ) (destino : Texto) (leido leido' : Bufer) (lecturas : List Lectura)
      (h : vueltaBalanceador leido (siguiente lecturas).1 = some (leido', false)) :
      Transita b p (.recibir i destino leido lecturas) b
        (.recibir i destino leido' (siguiente lecturas).2)
  | encontroFinal (i : ℤ) (destino : Texto) (leido leido' : Bufer) (lecturas : List Lectura)
      (h : vueltaBalanceador leido (siguiente lecturas).1 = some (leido', true)) :
      Transita b p (.recibir i destino leido lecturas) b (.responder i destino p.respuestas)
  | reenvio (i : ℤ) (destino : Texto) (respuestas : List Lectura)
      (h : 0 < (siguiente respuestas).1.estado) :
      Transita b p (.responder i destino respuestas) b
        (.responder i destino (siguiente respuestas).2)
  | finRespuesta (i : ℤ) (destino : Texto) (respuestas : List Lectura)
      (h : (siguiente respuestas).1.estado ≤ 0) :
      Transita b p (.responder i destino respuestas) b (.descargar i destino)
  | descarga (i : ℕ) (hi : i < b.servidores.length) (destino : Texto)
      (hmin : INT32_MIN < b.servidores[i].carga_actual) :
      Transita b p (.descargar i destino)
        { b with servidores := b.servidores.set i
                  { b.servidores[i] with carga_actual := b.servidores[i].carga_actual - 1 } }
        (.registrar i)
  | registro (i : ℕ) (hi : i < b.servidores.length) :
      Transita b p (.registrar i) b (.terminado .completo)

theorem pasoHilo_transita {b b' : Balanceador} {p : Peticion} {f f' : Fase}
    (h : pasoHilo b p f = some (b', f')) : Transita b p f b' f' := by
  cases f with
  | inicio =>
      simp only [pasoHilo] at h
      split_ifs at h with he
      · cases h
        exact .vacia (List.isEmpty_iff.mp he)
      · cases h
        exact .noVacia fun hnil => he (List.isEmpty_iff.mpr hnil)
  | elegirMetodo =>
      cases h
      exact .metodo
  | elegir metodo =>
      cases metodo with
      | ROUND_ROBIN =>
          cases h
          exact .roundRobin
      | ROUND_ROBIN_PESOS =>
          simp only [pasoHilo] at h
          split at h
          · next i hi =>
              cases h
              exact .pesos i hi
          · next i hi =>
              cases h
              exact .pesosSinFin i hi
          · cases h
      | DIRECCION_CLIENTE =>
          simp only [pasoHilo] at h
          split at h
          · next hc =>
              cases h
              exact .clienteNuevo hc
          · next c hc =>
              cases h
              exact .clienteConocido c hc
      | CONEXIONES_ACTIVA =>
          cases h
          exact .menosConexiones
  | agregarCliente =>
      simp only [pasoHilo] at h
      split at h
      · next hc =>
          cases h
          exact .sinRegistro hc
      · next c hc =>
          cases h
          exact .clienteRepetido c hc
  | asociarServidor =>
      simp only [pasoHilo, Option.bind_eq_some_iff, Option.map_eq_some_iff] at h
      obtain ⟨random, hrandom, s, hs, h⟩ := h
      cases h
      obtain ⟨j, rfl, hj, -⟩ := acceso_eq_some hs
      exact .asociado j hrandom hj
  | guardarCliente random =>
      cases h
      exact .guardado random
  | escaneando =>
      cases h
      exact .escaneo
  | cargar i =>
      simp only [pasoHilo, Option.bind_eq_some_iff, Option.map_eq_some_iff] at h
      obtain ⟨s, hs, servidores, hmod, h⟩ := h
      cases h
      obtain ⟨j, rfl, hj, s', hs', rfl⟩ := modificar_eq_some hmod
      obtain ⟨hmax, rfl⟩ := incrementar_eq_some hs'
      rw [acceso_natCast, List.getElem?_eq_getElem hj, Option.some.injEq] at hs
      subst hs
      exact .carga j hj hmax
  | conectar i destino =>
      simp only [pasoHilo, Option.map_eq_some_iff] at h
      obtain ⟨s, hs, h⟩ := h
      obtain ⟨j, rfl, hj, rfl⟩ := acceso_eq_some hs
      split_ifs at h with hc
      · cases h
        exact .conexion j hj destino hc
      · cases h
        exact .rechazo j hj destino (by simpa using hc)
  | recibir i destino leido lecturas =>
      simp only [pasoHilo, Option.map_eq_some_iff] at h
      obtain ⟨⟨leido', fin⟩, hv, h⟩ := h
      cases fin with
      | true =>
          cases h
          exact .encontroFinal i destino leido leido' lecturas hv
      | false =>
          cases h
          exact .lectura i destino leido leido' lecturas hv
  | responder i destino respuestas =>
      simp only [pasoHilo] at h
      split_ifs at h with hn
      · cases h
        exact .reenvio i destino respuestas hn
      · cases h
        exact .finRespuesta i destino respuestas (not_lt.mp hn)
  | descargar i destino =>
      simp only [pasoHilo, Option.map_eq_some_iff] at h
      obtain ⟨servidores, hmod, h⟩ := h
      cases h
      obtain ⟨j, rfl, hj, s', hs', rfl⟩ := modificar_eq_some hmod
      obtain ⟨hmin, rfl⟩ := decrementar_eq_some hs'
      exact .descarga j hj destino hmin
  | registrar i =>
      simp only [pasoHilo, Option.map_eq_some_iff] at h
      obtain ⟨s, hs, h⟩ := h
      cases h
      obtain ⟨j, rfl, hj, rfl⟩ := acceso_eq_some hs
      exact .registro j hj
  | terminado salida => cases h

/-! ## The whole balancer -/

section Hilos

variable {P : Hilo → Prop} {hilos : List Hilo} {t : Hilo}

/-- What holds of every thread still does when one more starts. -/
theorem forall_hilos_append (hP : ∀ u ∈ hilos, P u) (ht : P t) : ∀ u ∈ hilos ++ [t], P u :=
  List.forall_mem_append.mpr ⟨hP, List.forall_mem_singleton.mpr ht⟩

/-- What holds of every thread still does when one of them takes a step. -/
theorem forall_hilos_set {h : ℕ} (hP : ∀ u ∈ hilos, P u) (ht : P t) :
    ∀ u ∈ hilos.set h t, P u := by
  intro u hu
  rcases List.mem_or_eq_of_mem_set hu with hu | rfl
  · exact hP u hu
  · exact ht

end Hilos

/-- The step holds `mutex_servidores`, so it cannot be taken while another thread does. -/
def Fase.tomaMutex : Fase → Bool
  | .elegir .ROUND_ROBIN => true
  | .elegir .ROUND_ROBIN_PESOS => true
  | .elegir .CONEXIONES_ACTIVA => true
  | .cargar _ => true
  | .descargar _ _ => true
  | _ => false

/-- The thread is inside the scan of `ROUND_ROBIN_PESOS`, both mutexes held. -/
def Fase.esEscaneo : Fase → Bool
  | .escaneando => true
  | _ => false

/-- `mutex_servidores` is free. -/
def Estado.mutexLibre (s : Estado) : Bool := s.hilos.all fun t => !t.fase.esEscaneo

/-- The steps of the balancer process. -/
inductive Accion
  /-- `hilo_Escuchador_Clientes` accepts a connection and starts its thread. -/
  | llegada (p : Peticion)
  /-- `setAlgoritmoBalanceo`. -/
  | metodo (m : Algoritmo)
  /-- The thread at this position makes its next step. -/
  | hilo (h : ℕ)
  /-- An `S/C/` datagram with this text: the search of `agregarServidor`. -/
  | registro (ip : Texto)
  /-- The `push_back` of `agregarServidor`. -/
  | alta (azar : ℕ) (memoria : List Char)
  /-- An `S/D/` datagram with this text: the search of `eliminarServidor`. -/
  | baja (ip : Texto)
  /-- The `erase` of `eliminarServidor`. -/
  | borrado

/-- One step of the balancer. -/
def paso (s : Estado) : Accion → Option Estado
  | .llegada p => some { s with hilos := s.hilos ++ [⟨p, .inicio⟩] }
  | .metodo m => some { s with balanceador := { s.balanceador with algoritmoBalanceo := m } }
  | .hilo h =>
      match s.hilos[h]? with
      | none => none
      | some t =>
          if t.fase.tomaMutex && !s.mutexLibre then none
          else (pasoHilo s.balanceador t.peticion t.fase).map fun (b, f) =>
            { s with balanceador := b, hilos := s.hilos.set h ⟨t.peticion, f⟩ }
  | .registro ip =>
      if s.mutexLibre ∧ s.escuchador = .libre then
        match buscarServidor s.balanceador.servidores ip with
        | none => some { s with escuchador := .agregando ip }
        | some _ => some s
      else none
  | .alta azar memoria =>
      match s.escuchador with
      -- `agregarServidor` gives the mutex back between its search and its `push_back`
      | .agregando ip =>
          if s.mutexLibre then
            (nuevoServidor ip azar memoria).map fun nuevo =>
              { s with
                balanceador :=
                  { s.balanceador with
                    servidores := s.balanceador.servidores ++ [nuevo]
                    servidoresActuales := s.balanceador.servidoresActuales + 1 }
                escuchador := .libre }
          else none
      | _ => none
  | .baja ip =>
      if s.mutexLibre ∧ s.escuchador = .libre then
        match buscarServidor s.balanceador.servidores ip with
        | none => some s
        | some posicion => some { s with escuchador := .eliminando posicion }
      else none
  | .borrado =>
      match s.escuchador with
      | .eliminando posicion =>
          if s.mutexLibre ∧ posicion < s.balanceador.servidores.length then
            some { s with
                   balanceador :=
                     { s.balanceador with
                       servidores := s.balanceador.servidores.eraseIdx posicion
                       servidoresActuales := s.balanceador.servidoresActuales - 1 }
                   escuchador := .libre }
          else none
      | _ => none

/-- **What a step of the balancer can do.** -/
inductive Avanza (s : Estado) : Accion → Estado → Prop
  | llegada (p : Peticion) :
      Avanza s (.llegada p) { s with hilos := s.hilos ++ [⟨p, .inicio⟩] }
  | metodo (m : Algoritmo) :
      Avanza s (.metodo m)
        { s with balanceador := { s.balanceador with algoritmoBalanceo := m } }
  | hilo (h : ℕ) (hh : h < s.hilos.length) (b : Balanceador) (f : Fase)
      (hlibre : s.hilos[h].fase.tomaMutex = true → s.mutexLibre = true)
      (ht : Transita s.balanceador s.hilos[h].peticion s.hilos[h].fase b f) :
      Avanza s (.hilo h)
        { s with balanceador := b, hilos := s.hilos.set h ⟨s.hilos[h].peticion, f⟩ }
  | registroNuevo (ip : Texto) (hf : s.escuchador = .libre)
      (hb : buscarServidor s.balanceador.servidores ip = none) :
      Avanza s (.registro ip) { s with escuchador := .agregando ip }
  | registroRepetido (ip : Texto) (i : ℕ)
      (hb : buscarServidor s.balanceador.servidores ip = some i) : Avanza s (.registro ip) s
  | alta (ip : Texto) (azar : ℕ) (memoria : List Char) (nuevo : ServidorRegistrado)
      (hf : s.escuchador = .agregando ip) (hn : nuevoServidor ip azar memoria = some nuevo) :
      Avanza s (.alta azar memoria)
        { s with
          balanceador :=
            { s.balanceador with
              servidores := s.balanceador.servidores ++ [nuevo]
              servidoresActuales := s.balanceador.servidoresActuales + 1 }
          escuchador := .libre }
  | bajaAusente (ip : Texto)
      (hb : buscarServidor s.balanceador.servidores ip = none) : Avanza s (.baja ip) s
  | bajaPresente (ip : Texto) (posicion : ℕ) (hf : s.escuchador = .libre)
      (hb : buscarServidor s.balanceador.servidores ip = some posicion) :
      Avanza s (.baja ip) { s with escuchador := .eliminando posicion }
  | borrado (posicion : ℕ) (hf : s.escuchador = .eliminando posicion)
      (hp : posicion < s.balanceador.servidores.length) :
      Avanza s .borrado
        { s with
          balanceador :=
            { s.balanceador with
              servidores := s.balanceador.servidores.eraseIdx posicion
              servidoresActuales := s.balanceador.servidoresActuales - 1 }
          escuchador := .libre }

theorem paso_avanza {s s' : Estado} {a : Accion} (h : paso s a = some s') : Avanza s a s' := by
  cases a with
  | llegada p =>
      cases h
      exact .llegada p
  | metodo m =>
      cases h
      exact .metodo m
  | hilo h' =>
      simp only [paso] at h
      -- a step of a thread that exists and, if it takes the mutex, does not have to wait
      split at h
      · cases h
      · next t ht =>
          split_ifs at h with hm
          obtain ⟨⟨b, f⟩, hbf, rfl⟩ := Option.map_eq_some_iff.mp h
          obtain ⟨hh, rfl⟩ := List.getElem?_eq_some_iff.mp ht
          refine .hilo h' hh b f (fun htoma => ?_) (pasoHilo_transita hbf)
          simpa [htoma] using hm
  | registro ip =>
      simp only [paso] at h
      split_ifs at h with hf
      split at h
      · next hb =>
          cases h
          exact .registroNuevo ip hf.2 hb
      · next i hb =>
          cases h
          exact .registroRepetido ip i hb
  | alta azar memoria =>
      simp only [paso] at h
      split at h
      · next ip hf =>
          split_ifs at h
          obtain ⟨nuevo, hn, rfl⟩ := Option.map_eq_some_iff.mp h
          exact .alta ip azar memoria nuevo hf hn
      · cases h
  | baja ip =>
      simp only [paso] at h
      split_ifs at h with hf
      split at h
      · next hb =>
          cases h
          exact .bajaAusente ip hb
      · next posicion hb =>
          cases h
          exact .bajaPresente ip posicion hf.2 hb
  | borrado =>
      simp only [paso] at h
      split at h
      · next posicion hf =>
          split_ifs at h with hp
          cases h
          exact .borrado posicion hf hp.2
      · cases h

/-- The balancer right after its start: no server, no client, no thread, and
`ROUND_ROBIN`, which `vincularPuertos` sets. -/
def Estado.inicial : Estado where
  balanceador :=
    { servidores := []
      clientes := []
      roundRobin_Actual := 0
      algoritmoBalanceo := .ROUND_ROBIN
      servidoresActuales := 0 }
  hilos := []
  escuchador := .libre

/-- A balancer with these servers registered and no request. -/
def Estado.conServidores (servidores : List ServidorRegistrado) : Estado :=
  { Estado.inicial with
    balanceador := { Estado.inicial.balanceador with servidores := servidores } }

/-- A server without load. -/
def ServidorRegistrado.libre (comparador : Texto) (carga_maxima : ℤ) : ServidorRegistrado where
  comparador := comparador
  ip := (partirRegistro comparador).1
  port := Utilidades.atoi (partirRegistro comparador).2
  carga_actual := 0
  carga_maxima := carga_maxima

/-- A request whose whole head, an empty one, arrives in the first read, with a
connection that is accepted or refused. -/
def Peticion.minima (conexion : Bool) : Peticion where
  direccion := 0
  azar := 0
  conexion := conexion
  httpRequest := .ceros
  lecturas := [.datos ⟨DOUBLECRLF, by decide⟩]
  respuestas := []

end LoadBalancer
