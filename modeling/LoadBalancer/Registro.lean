/-
The server table after any sequence of registrations and removals.

[`hilo_Escuchador_Servidores`] is one turn of the listener, from the bytes of a datagram to
the search that `agregarServidor` or `eliminarServidor` begins with. [`pasoRed`] puts it
in front of the balancer's steps, so that a run is a sequence of datagrams between which
the threads of the clients take their steps in any order.

What the table should be is a registry (`Lib/Registry.lean`) whose keys are the
`<ip>/<port>` texts. The listener gives `mutex_servidores` back between its search and its
change of the table, so in between the table is one event behind: [`Pendiente`].
-/
import Mathlib.Data.List.InsertIdx
import LoadBalancer.Lib.Registry
import LoadBalancer.Datagrama
import LoadBalancer.Carga

set_option autoImplicit false

namespace LoadBalancer

open LoadBalancer.Search LoadBalancer.Transition LoadBalancer.Registry

/-! ## Datagrams of the web servers -/

/-- A well-formed `S/C/<ip>/<port>` or `S/D/<ip>/<port>`. -/
structure Aviso where
  desconectar : Bool
  ip : Texto
  port : Texto
  ip_sin_barra : '/' ∉ ip
  ip_sin_nul : NUL ∉ ip
  port_sin_nul : NUL ∉ port
  ip_cabe : ip.length ≤ 31
  cabe : (WebServidor.avisarBalanceadores desconectar ip port).length ≤ 63

/-- The bytes of the datagram. -/
def Aviso.datagrama (d : Aviso) : Texto :=
  WebServidor.avisarBalanceadores d.desconectar d.ip d.port

/-- Its `<ip>/<port>`. -/
def Aviso.hilera (d : Aviso) : Texto := d.ip ++ '/' :: d.port

/-- What it asks of the registry. -/
def Aviso.evento (d : Aviso) : Event Texto :=
  if d.desconectar then .remove d.hilera else .add d.hilera

/-- A web server on port 80. -/
def Aviso.puerto80 (desconectar : Bool) (ip : Texto)
    (h : '/' ∉ ip ∧ NUL ∉ ip ∧ ip.length ≤ 31) : Aviso where
  desconectar := desconectar
  ip := ip
  port := "80".toList
  ip_sin_barra := h.1
  ip_sin_nul := h.2.1
  port_sin_nul := by decide
  ip_cabe := h.2.2
  cabe := by
    have hlen : "80".toList.length = 2 := rfl
    rw [WebServidor.avisarBalanceadores, length_formar, hlen]
    omega

/-- The text is the pair: the address ends at the first `/`. -/
theorem Aviso.partirRegistro_hilera (d : Aviso) : partirRegistro d.hilera = (d.ip, d.port) := by
  unfold partirRegistro Aviso.hilera
  rw [find_singleton_append d.ip_sin_barra]
  dsimp only
  rw [List.take_left, ← List.drop_drop, List.drop_left, List.drop_one, List.tail_cons]

/-! ## One turn of the listener -/

/-- `hilo_Escuchador_Servidores` up to the search of the function that it calls; a datagram
that it does not react to gives no action. -/
def hilo_Escuchador_Servidores (pila : Pila) (datagrama : Texto) : Option (Option Accion) :=
  (pila.recibir datagrama).bind fun buffer =>
    if 0 < datagrama.length ∧ buffer.es 'S' 'C' then
      buffer.hilera.map fun ip => some (.registro ip)
    else if 0 < datagrama.length ∧ buffer.es 'S' 'D' then
      buffer.hilera.map fun ip => some (.baja ip)
    else some none

/-- **A well-formed datagram is understood**, whatever the array held. -/
theorem Aviso.escuchado (d : Aviso) (pila : Pila) :
    hilo_Escuchador_Servidores pila d.datagrama
      = some (some (if d.desconectar then .baja d.hilera else .registro d.hilera)) := by
  have hcabe : d.datagrama.length < 64 := Nat.lt_succ_of_le d.cabe
  have hpos : 0 < d.datagrama.length := by
    rw [Aviso.datagrama, WebServidor.avisarBalanceadores, length_formar]
    exact Nat.succ_pos _
  obtain ⟨leida, hleida, -⟩ := pila.recibir_eq hcabe
  have hes := Pila.es_formar hleida
  have hhilera : leida.hilera = some d.hilera :=
    Pila.hilera_formar hleida d.ip_sin_nul d.port_sin_nul
  rw [hilo_Escuchador_Servidores, hleida, Option.bind_some, hes 'S' 'C', hes 'S' 'D', hhilera]
  cases d.desconectar with
  | true => simp [hpos]
  | false => simp [hpos]

/-- What the balancer does next: the listener receives a datagram, into an array that held
`pila`, or any step that is not the start of the treatment of a datagram. -/
inductive Suceso
  | datagrama (pila : Pila) (d : Aviso)
  | otro (a : Accion)

/-- The datagram that was received, if one was. -/
def Suceso.aviso : Suceso → Option Aviso
  | .datagrama _ d => some d
  | .otro _ => none

/-- The searches that begin the treatment of a datagram. -/
def Accion.esBusqueda : Accion → Bool
  | .registro _ => true
  | .baja _ => true
  | _ => false

/-- One step of the balancer with the datagrams it receives. -/
def pasoRed (s : Estado) : Suceso → Option Estado
  | .datagrama pila d =>
      (hilo_Escuchador_Servidores pila d.datagrama).bind fun tratamiento =>
        match tratamiento with
        | some a => paso s a
        | none => if s.escuchador = .libre then some s else none
  | .otro a => if a.esBusqueda then none else paso s a

theorem pasoRed_datagrama (s : Estado) (pila : Pila) (d : Aviso) :
    pasoRed s (.datagrama pila d)
      = paso s (if d.desconectar then .baja d.hilera else .registro d.hilera) := by
  rw [pasoRed, d.escuchado pila]
  rfl

/-! ## The table and the registry -/

/-- What the registry will be once the listener is done with the datagram in hand. -/
def Pendiente (claves : List Texto) : FaseEscuchador → List Texto
  | .libre => claves
  | .agregando ip => claves ++ [ip]
  | .eliminando posicion => claves.eraseIdx posicion

/-- The table follows the registry of the datagrams received so far. -/
structure RegistroInv (avisos : List Aviso) (s : Estado) : Prop where
  registro :
    Pendiente (s.balanceador.servidores.map (·.comparador)) s.escuchador
      = replay (avisos.map Aviso.evento)
  contados : s.balanceador.servidoresActuales = s.balanceador.servidores.length

theorem registroInv_inicial : RegistroInv [] Estado.inicial := ⟨rfl, rfl⟩

/-- A text that `buscarServidor` does not find is not in the table. -/
theorem not_mem_of_buscarServidor {servidores : List ServidorRegistrado} {hilera : Texto}
    (h : buscarServidor servidores hilera = none) : hilera ∉ servidores.map (·.comparador) := by
  intro hmem
  obtain ⟨s, hs, heq⟩ := List.mem_map.mp hmem
  exact buscarServidor_eq_none h s hs heq

/-- A text that `buscarServidor` finds is at that position, and at none before it. -/
theorem buscarServidor_eq_some {servidores : List ServidorRegistrado} {hilera : Texto} {i : ℕ}
    (h : buscarServidor servidores hilera = some i) :
    ∃ hi : i < (servidores.map (·.comparador)).length,
      (servidores.map (·.comparador))[i] = hilera
        ∧ ∀ j (hj : j < i), (servidores.map (·.comparador))[j] ≠ hilera := by
  unfold buscarServidor at h
  obtain ⟨hi, heq, hfirst⟩ := List.findIdx?_eq_some_iff_getElem.mp h
  refine ⟨by rwa [List.length_map], ?_, ?_⟩
  · rw [List.getElem_map]
    exact (of_decide_eq_true heq).symm
  · intro j hj hej
    rw [List.getElem_map] at hej
    exact hfirst j hj (decide_eq_true hej.symm)

/-- **What a datagram asks of the table**, by what `buscarServidor` finds. -/
theorem Aviso.apply_evento (d : Aviso) (servidores : List ServidorRegistrado) :
    Registry.apply (servidores.map (·.comparador)) d.evento
      = if d.desconectar then
          match buscarServidor servidores d.hilera with
          | none => servidores.map (·.comparador)
          | some i => (servidores.map (·.comparador)).eraseIdx i
        else
          match buscarServidor servidores d.hilera with
          | none => servidores.map (·.comparador) ++ [d.hilera]
          | some _ => servidores.map (·.comparador) := by
  unfold Aviso.evento
  cases hb : buscarServidor servidores d.hilera with
  | none =>
      have hno := not_mem_of_buscarServidor hb
      split_ifs with hd
      · exact apply_remove_of_not_mem hno
      · exact apply_add_of_not_mem hno
  | some i =>
      obtain ⟨hi, heq, hfirst⟩ := buscarServidor_eq_some hb
      split_ifs with hd
      · exact apply_remove_of_first hi heq hfirst
      · exact apply_add_of_mem (heq ▸ List.getElem_mem hi)

section Registro

variable {s s' : Estado} {avisos : List Aviso}

/-- A step of a thread leaves the texts and the counter alone. -/
theorem Transita.quieto {b b' : Balanceador} {p : Peticion} {f f' : Fase}
    (ht : Transita b p f b' f') :
    b'.servidores.map (·.comparador) = b.servidores.map (·.comparador)
      ∧ b'.servidoresActuales = b.servidoresActuales := by
  refine ⟨ht.comparadores, ?_⟩
  cases ht with
  | _ => rfl

/-- The steps between two datagrams keep the invariant: the threads change loads, and the
`push_back` and the `erase` do what was pending. -/
theorem RegistroInv.otro (hinv : RegistroInv avisos s) {a : Accion} (ha : a.esBusqueda = false)
    (hpaso : paso s a = some s') : RegistroInv avisos s' := by
  have hreg := hinv.registro
  have hcont := hinv.contados
  cases paso_avanza hpaso with
  | llegada p => exact ⟨hreg, hcont⟩
  | metodo m => exact ⟨hreg, hcont⟩
  | hilo h hh b f hlibre ht =>
      obtain ⟨htextos, hcuenta⟩ := ht.quieto
      have hlargo : b.servidores.length = s.balanceador.servidores.length := by
        have := congrArg List.length htextos
        rwa [List.length_map, List.length_map] at this
      constructor
      · rw [← hreg]
        exact congrArg (Pendiente · s.escuchador) htextos
      · rw [hcuenta, hlargo]
        exact hcont
  | registroNuevo ip hf hb => cases ha
  | registroRepetido ip i hb => cases ha
  | alta ip azar memoria nuevo hf hn =>
      rw [hf, Pendiente] at hreg
      constructor
      · rw [← hreg]
        simp only [List.map_append, List.map_cons, List.map_nil, Pendiente,
          (nuevoServidor_eq_some hn).1]
      · simp only [List.length_append, List.length_singleton, hcont]
        omega
  | bajaAusente ip hb => cases ha
  | bajaPresente ip posicion hf hb => cases ha
  | borrado posicion hf hp =>
      rw [hf, Pendiente] at hreg
      constructor
      · rw [← hreg, Pendiente]
        exact (List.eraseIdx_map _ _ _).symm
      · simp only [List.length_eraseIdx_of_lt hp, hcont]
        omega

/-- **The search that a datagram begins with** leaves the tables alone, and what is then pending
is what the datagram asks of the table. -/
theorem Aviso.busqueda {d : Aviso}
    (hpaso : paso s (if d.desconectar then .baja d.hilera else .registro d.hilera) = some s') :
    s.escuchador = .libre ∧ s'.balanceador = s.balanceador
      ∧ Pendiente (s.balanceador.servidores.map (·.comparador)) s'.escuchador
          = Registry.apply (s.balanceador.servidores.map (·.comparador)) d.evento := by
  rw [d.apply_evento]
  by_cases hd : d.desconectar = true
  · rw [if_pos hd] at hpaso ⊢
    simp only [paso] at hpaso
    split_ifs at hpaso with hf
    cases hb : buscarServidor s.balanceador.servidores d.hilera with
    | none =>
        rw [hb] at hpaso
        obtain rfl := Option.some.inj hpaso
        rw [hf.2]
        exact ⟨rfl, rfl, rfl⟩
    | some i =>
        rw [hb] at hpaso
        obtain rfl := Option.some.inj hpaso
        exact ⟨hf.2, rfl, rfl⟩
  · rw [if_neg hd] at hpaso ⊢
    simp only [paso] at hpaso
    split_ifs at hpaso with hf
    cases hb : buscarServidor s.balanceador.servidores d.hilera with
    | none =>
        rw [hb] at hpaso
        obtain rfl := Option.some.inj hpaso
        exact ⟨hf.2, rfl, rfl⟩
    | some i =>
        rw [hb] at hpaso
        obtain rfl := Option.some.inj hpaso
        rw [hf.2]
        exact ⟨rfl, rfl, rfl⟩

/-- What one step of a run keeps, whatever it is. -/
theorem RegistroInv.pasoRed (hinv : RegistroInv avisos s) {a : Suceso}
    (hpaso : pasoRed s a = some s') : RegistroInv (avisos ++ a.aviso.toList) s' := by
  cases a with
  | datagrama pila d =>
      rw [pasoRed_datagrama] at hpaso
      obtain ⟨hlibre, hbalanceador, hpend⟩ := Aviso.busqueda hpaso
      have hreg := hinv.registro
      rw [hlibre, Pendiente] at hreg
      constructor
      · rw [hbalanceador, hpend, Suceso.aviso, Option.toList_some, List.map_append,
          List.map_singleton, Registry.replay_append, hreg]
      · rw [hbalanceador]
        exact hinv.contados
  | otro a =>
      rw [Suceso.aviso, Option.toList_none, List.append_nil]
      rw [LoadBalancer.pasoRed] at hpaso
      split_ifs at hpaso with ha
      exact hinv.otro (Bool.eq_false_of_not_eq_true ha) hpaso

end Registro

/-! ## The result -/

/-- The datagrams that were received in a run, in order. -/
def avisos (as : List Suceso) : List Aviso := as.filterMap Suceso.aviso

/-- **The table is the registry of the datagrams.** Whenever the listener is done with the
datagrams received so far, whatever the clients did in between, the table holds the
`<ip>/<port>` texts whose last datagram was an `S/C`, each once, in the order of the `S/C`
that last added them, and `servidoresActuales` is their number. The clients' threads never add or
remove an entry, so that only the datagrams count. -/
theorem tabla_registrada {as : List Suceso} {s : Estado}
    (h : exec pasoRed Estado.inicial as = some s) (hlibre : s.escuchador = .libre) :
    Registers ((avisos as).map Aviso.evento) (s.balanceador.servidores.map (·.comparador))
      ∧ s.balanceador.servidoresActuales = s.balanceador.servidores.length := by
  have hinv : RegistroInv (avisos as) s := by
    apply exec_history (fun as s => RegistroInv (avisos as) s) registroInv_inicial _ h
    intro as s a s' hinv hpaso
    have := hinv.pasoRed hpaso
    rwa [avisos, List.filterMap_append, List.filterMap_cons, List.filterMap_nil]
  have hreg := hinv.registro
  rw [hlibre, Pendiente] at hreg
  rw [hreg]
  exact ⟨registers_replay _, hinv.contados⟩

/-- `10.0.0.1` and `10.0.0.2` register, the first is repeated, disconnects and comes back, all
while a client is being served: it is now behind the other one. -/
theorem tabla_registrada_reingreso :
    let uno := fun desconectar => Aviso.puerto80 desconectar "10.0.0.1".toList (by decide)
    let dos := Aviso.puerto80 false "10.0.0.2".toList (by decide)
    let pila : Pila := ⟨List.replicate 64 'x', by decide⟩
    let as : List Suceso :=
      [.datagrama pila (uno false), .otro (.alta 0 []), .otro (.llegada (.minima true)),
        .datagrama pila dos, .otro (.hilo 0), .otro (.hilo 0), .otro (.alta 1 []),
        .datagrama pila (uno false), .datagrama pila (uno true), .otro (.hilo 0), .otro .borrado,
        .datagrama pila (uno false), .otro (.alta 2 []), .otro (.hilo 0)]
    ∃ s, exec pasoRed Estado.inicial as = some s
      ∧ s.balanceador.servidores.map (·.comparador)
          = ["10.0.0.2/80".toList, "10.0.0.1/80".toList]
      ∧ Registers ((avisos as).map Aviso.evento) (s.balanceador.servidores.map (·.comparador))
      ∧ s.balanceador.servidoresActuales = s.balanceador.servidores.length := by
  intro uno dos pila as
  obtain ⟨s, hs, hlibre, htabla⟩ : ∃ s, exec pasoRed Estado.inicial as = some s
      ∧ s.escuchador = .libre
      ∧ s.balanceador.servidores.map (·.comparador)
          = ["10.0.0.2/80".toList, "10.0.0.1/80".toList] :=
    ⟨_, rfl, rfl, rfl⟩
  exact ⟨s, hs, htabla, tabla_registrada hs hlibre⟩

/-- **The listener can always finish**: unless a thread hangs with the mutex, a datagram is
treated in at most one more step, none is received on the way, and the table is then what
the datagram asks of it. -/
theorem Aviso.procesado (d : Aviso) (pila : Pila) {s : Estado} (hlibre : s.escuchador = .libre)
    (hmutex : s.mutexLibre = true) :
    ∃ as s', exec pasoRed s (.datagrama pila d :: as) = some s' ∧ avisos as = []
      ∧ s'.escuchador = .libre
      ∧ s'.balanceador.servidores.map (·.comparador)
          = Registry.apply (s.balanceador.servidores.map (·.comparador)) d.evento := by
  -- the mutex is still free after the search, which changes only what the listener is doing
  have hotro : ∀ f, ({ s with escuchador := f } : Estado).mutexLibre = true := fun _ => hmutex
  have hevento := d.apply_evento s.balanceador.servidores
  by_cases hd : d.desconectar = true
  · rw [if_pos hd] at hevento
    cases hb : buscarServidor s.balanceador.servidores d.hilera with
    | none =>
        rw [hb] at hevento
        refine ⟨[], s, ?_, rfl, hlibre, hevento.symm⟩
        rw [exec, pasoRed_datagrama, if_pos hd]
        simp only [paso, hmutex, hlibre, hb, and_self, if_true, Option.bind_some, exec]
    | some posicion =>
        obtain ⟨hp, -, -⟩ := buscarServidor_eq_some hb
        rw [List.length_map] at hp
        rw [hb] at hevento
        refine ⟨[.otro .borrado], { s with
          balanceador :=
            { s.balanceador with
              servidores := s.balanceador.servidores.eraseIdx posicion
              servidoresActuales := s.balanceador.servidoresActuales - 1 }
          escuchador := .libre }, ?_, rfl, rfl, ?_⟩
        · rw [exec, pasoRed_datagrama, if_pos hd]
          simp [paso, hmutex, hlibre, hb, exec, pasoRed, Accion.esBusqueda, hotro, hp]
        · rw [hevento]
          exact (List.eraseIdx_map _ _ _).symm
  · rw [if_neg hd] at hevento
    cases hb : buscarServidor s.balanceador.servidores d.hilera with
    | none =>
        obtain ⟨nuevo, hnuevo⟩ : ∃ nuevo, nuevoServidor d.hilera 0 [] = some nuevo := ⟨_, rfl⟩
        rw [hb] at hevento
        refine ⟨[.otro (.alta 0 [])], { s with
          balanceador :=
            { s.balanceador with
              servidores := s.balanceador.servidores ++ [nuevo]
              servidoresActuales := s.balanceador.servidoresActuales + 1 }
          escuchador := .libre }, ?_, rfl, rfl, ?_⟩
        · rw [exec, pasoRed_datagrama, if_neg hd]
          simp [paso, hmutex, hlibre, hb, exec, pasoRed, Accion.esBusqueda, hotro, hnuevo]
        · rw [hevento]
          simp only [List.map_append, List.map_cons, List.map_nil,
            (nuevoServidor_eq_some hnuevo).1]
    | some posicion =>
        rw [hb] at hevento
        refine ⟨[], s, ?_, rfl, hlibre, hevento.symm⟩
        rw [exec, pasoRed_datagrama, if_neg hd]
        simp only [paso, hmutex, hlibre, hb, and_self, if_true, Option.bind_some, exec]

end LoadBalancer
