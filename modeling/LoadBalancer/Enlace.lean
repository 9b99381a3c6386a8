/-
The registration handshake: one balancer, any number of web servers, and the broadcast
datagrams between them.

A step is the start of a party, the handling of the next datagram that waits for one, or
the end of a web server. Every party reads one socket here (the one that a web server's
watcher reads has no part in the handshake), and what waits in it is a queue: a
broadcast is appended to the queue of every socket that is bound at that moment, and a
socket that is closed takes its queue with it. Both `avisarServidores` and
`avisarBalanceadores` close the socket that they were called from a read of, so what
stands behind the datagram in hand is lost there, and nowhere else.

A web server is known by its `<ip>/<port>` text. The table is the registry of
`Registro.lean`, one event at a time: [`tratar_eq_apply`] and [`Aviso.enlazado`] say that
the balancer's steps here are what its listener does with the bytes, and
[`Mensaje.reconocido`] that the web server's test of two bytes tells the `B/C` from all
other datagrams.
-/
import Mathlib.Logic.Function.Basic
import LoadBalancer.Registro

set_option autoImplicit false

namespace LoadBalancer

open LoadBalancer.Transition LoadBalancer.Registry

/-! ## Datagrams -/

/-- The datagrams of the handshake. -/
inductive Mensaje
  /-- `B/C`, from the balancer. -/
  | BC
  /-- `S/C`, from the web server with this `<ip>/<port>`. -/
  | SC (hilera : Texto)
  /-- `S/D`, from the web server with this `<ip>/<port>`. -/
  | SD (hilera : Texto)
deriving DecidableEq

/-- The text that is sent; `subnet` and `puerto_cliente` are the balancer's. -/
def Mensaje.datagrama (subnet puerto_cliente : Texto) : Mensaje → Texto
  | .BC => Balanceador.avisarServidores false subnet puerto_cliente
  | .SC hilera => 'S' :: '/' :: 'C' :: '/' :: hilera
  | .SD hilera => 'S' :: '/' :: 'D' :: '/' :: hilera

/-- What a web server's datagram is in the handshake. -/
def Aviso.mensaje (d : Aviso) : Mensaje := if d.desconectar then .SD d.hilera else .SC d.hilera

theorem Aviso.datagrama_mensaje (d : Aviso) (subnet puerto_cliente : Texto) :
    d.mensaje.datagrama subnet puerto_cliente = d.datagrama := by
  unfold Aviso.mensaje Aviso.datagrama WebServidor.avisarBalanceadores
  cases d.desconectar with
  | true => rfl
  | false => rfl

/-- **The web server's test** `buffer[0] == 'B' && buffer[2] == 'C'` holds for the `B/C` and for
no other datagram of the handshake. -/
theorem Mensaje.reconocido {m : Mensaje} {subnet puerto_cliente : Texto} {pila leida : Pila}
    (h : pila.recibir (m.datagrama subnet puerto_cliente) = some leida) :
    leida.es 'B' 'C' = decide (m = .BC) := by
  have hbytes := Pila.recibir_eq_some h
  cases m with
  | BC => exact Pila.es_formar h 'B' 'C'
  | SC hilera => simp [Pila.es, hbytes, Mensaje.datagrama]
  | SD hilera => simp [Pila.es, hbytes, Mensaje.datagrama]

/-- What the balancer's table is after a datagram. -/
def tratar (tabla : List Texto) : Mensaje → List Texto
  | .BC => tabla
  | .SC hilera => Registry.apply tabla (.add hilera)
  | .SD hilera => Registry.apply tabla (.remove hilera)

theorem tratar_eq_apply (tabla : List Texto) (d : Aviso) :
    tratar tabla d.mensaje = Registry.apply tabla d.evento := by
  unfold Aviso.mensaje Aviso.evento
  cases d.desconectar with
  | true => rfl
  | false => rfl

/-- **The balancer's part of the handshake is its listener's**: the bytes of the datagram, in any
array and between any requests, change the table as `tratar` does. -/
theorem Aviso.enlazado (d : Aviso) (pila : Pila) {s : Estado} (hlibre : s.escuchador = .libre)
    (hmutex : s.mutexLibre = true) :
    ∃ as s', exec pasoRed s (.datagrama pila d :: as) = some s' ∧ s'.escuchador = .libre
      ∧ s'.balanceador.servidores.map (·.comparador)
          = tratar (s.balanceador.servidores.map (·.comparador)) d.mensaje := by
  obtain ⟨as, s', hs', -, hlibre', htabla⟩ := d.procesado pila hlibre hmutex
  rw [← tratar_eq_apply] at htabla
  exact ⟨as, s', hs', hlibre', htabla⟩

/-! ## The parties -/

inductive FaseServidor
  | apagado
  /-- Waiting for a `B/C`. -/
  | standBy
  | conectado
deriving DecidableEq, Repr

/-- A web server: `*conectado`, and what waits in the socket that its handshake reads. -/
structure Servidor where
  fase : FaseServidor
  cola : List Mensaje

/-- The whole system. -/
structure Enlace where
  /-- The balancer has been started. -/
  enMarcha : Bool
  tabla : List Texto
  /-- What waits for the balancer. -/
  cola : List Mensaje
  servidores : Texto → Servidor

/-- Nothing has been started. -/
def Enlace.inicial : Enlace where
  enMarcha := false
  tabla := []
  cola := []
  servidores := fun _ => ⟨.apagado, []⟩

/-- A broadcast, as one web server's socket sees it. -/
def Servidor.recibir (s : Servidor) (m : Mensaje) : Servidor :=
  if s.fase = .apagado then s else { s with cola := s.cola ++ [m] }

/-- `sendto` to the broadcast address. -/
def Enlace.difundir (e : Enlace) (m : Mensaje) : Enlace :=
  { e with
    cola := if e.enMarcha then e.cola ++ [m] else e.cola
    servidores := fun i => (e.servidores i).recibir m }

/-- One web server put in the place of what it was. -/
def Enlace.poner (e : Enlace) (i : Texto) (s : Servidor) : Enlace :=
  { e with servidores := Function.update e.servidores i s }

/-- `Balanceador::avisarServidores(false)`: a new socket, and a `B/C` on it. -/
def Enlace.avisarServidores (e : Enlace) : Enlace :=
  ({ e with cola := [] } : Enlace).difundir .BC

/-- `WebServidor::avisarBalanceadores(false)`: a new socket, and an `S/C` on it. -/
def Enlace.avisarBalanceadores (e : Enlace) (i : Texto) (fase : FaseServidor) : Enlace :=
  (e.poner i ⟨fase, []⟩).difundir (.SC i)

/-- The balancer handles the datagram `m`, with `resto` behind it. -/
def Enlace.atender (e : Enlace) (m : Mensaje) (resto : List Mensaje) : Enlace :=
  let e' := { e with tabla := tratar e.tabla m, cola := resto }
  match m with
  -- `agregarServidor` answers a new text, with `avisarServidores(false)`
  | .SC i => if e.tabla.contains i then e' else e'.avisarServidores
  | _ => e'

/-- The steps of the system. -/
inductive AccionEnlace
  | arranqueBalanceador
  | arranque (i : Texto)
  /-- The balancer handles the next datagram. -/
  | entregaBalanceador
  /-- The web server, in stand-by, handles the next datagram. -/
  | entrega (i : Texto)
  /-- `Control+C` at a web server. -/
  | cierre (i : Texto)
  /-- The web server stops, and no `S/D` reaches anyone. -/
  | caida (i : Texto)
deriving DecidableEq

/-- One step of the system. -/
def pasoEnlace (e : Enlace) : AccionEnlace → Option Enlace
  -- `vincularPuertos` ends with `avisarServidores(false)`
  | .arranqueBalanceador =>
      if e.enMarcha then none
      else some ({ e with enMarcha := true, tabla := [] } : Enlace).avisarServidores
  | .arranque i =>
      if (e.servidores i).fase = .apagado then some (e.avisarBalanceadores i .standBy) else none
  | .entregaBalanceador =>
      match e.enMarcha, e.cola with
      | true, m :: resto => some (e.atender m resto)
      | _, _ => none
  | .entrega i =>
      match (e.servidores i).fase, (e.servidores i).cola with
      | .standBy, m :: resto =>
          if m = .BC then some (e.avisarBalanceadores i .conectado)
          else some (e.poner i ⟨.standBy, resto⟩)
      | _, _ => none
  | .cierre i =>
      match (e.servidores i).fase with
      -- `~WebServidor` tests `*conectado`
      | .conectado => some ((e.poner i ⟨.apagado, []⟩).difundir (.SD i))
      | .standBy => some (e.poner i ⟨.apagado, []⟩)
      | .apagado => none
  | .caida i =>
      if (e.servidores i).fase = .apagado then none else some (e.poner i ⟨.apagado, []⟩)

/-! ## What a step can do -/

/-- **What a step of the system can do.** -/
inductive Enlaza (e : Enlace) : AccionEnlace → Enlace → Prop
  | arranqueBalanceador (h : e.enMarcha = false) :
      Enlaza e .arranqueBalanceador
        ({ e with enMarcha := true, tabla := [] } : Enlace).avisarServidores
  | arranque (i : Texto) (hf : (e.servidores i).fase = .apagado) :
      Enlaza e (.arranque i) (e.avisarBalanceadores i .standBy)
  | registro (i : Texto) (resto : List Mensaje) (hm : e.enMarcha = true)
      (hc : e.cola = .SC i :: resto) (hi : i ∉ e.tabla) :
      Enlaza e .entregaBalanceador
        ({ e with tabla := tratar e.tabla (.SC i), cola := resto } : Enlace).avisarServidores
  | sinRespuesta (m : Mensaje) (resto : List Mensaje) (hm : e.enMarcha = true)
      (hc : e.cola = m :: resto) (h : ∀ i, m = .SC i → i ∈ e.tabla) :
      Enlaza e .entregaBalanceador { e with tabla := tratar e.tabla m, cola := resto }
  | conexion (i : Texto) (resto : List Mensaje) (hf : (e.servidores i).fase = .standBy)
      (hc : (e.servidores i).cola = .BC :: resto) :
      Enlaza e (.entrega i) (e.avisarBalanceadores i .conectado)
  | ignorado (i : Texto) (m : Mensaje) (resto : List Mensaje)
      (hf : (e.servidores i).fase = .standBy) (hc : (e.servidores i).cola = m :: resto)
      (h : m ≠ .BC) : Enlaza e (.entrega i) (e.poner i ⟨.standBy, resto⟩)
  | despedida (i : Texto) (hf : (e.servidores i).fase = .conectado) :
      Enlaza e (.cierre i) ((e.poner i ⟨.apagado, []⟩).difundir (.SD i))
  | abandono (i : Texto) (hf : (e.servidores i).fase = .standBy) :
      Enlaza e (.cierre i) (e.poner i ⟨.apagado, []⟩)
  | caida (i : Texto) (hf : (e.servidores i).fase ≠ .apagado) :
      Enlaza e (.caida i) (e.poner i ⟨.apagado, []⟩)

theorem pasoEnlace_enlaza {e e' : Enlace} {a : AccionEnlace} (h : pasoEnlace e a = some e') :
    Enlaza e a e' := by
  cases a with
  | arranqueBalanceador =>
      simp only [pasoEnlace] at h
      split_ifs at h with hm
      obtain rfl := Option.some.inj h
      exact .arranqueBalanceador (Bool.eq_false_of_not_eq_true hm)
  | arranque i =>
      simp only [pasoEnlace] at h
      split_ifs at h with hf
      obtain rfl := Option.some.inj h
      exact .arranque i hf
  | entregaBalanceador =>
      simp only [pasoEnlace] at h
      split at h
      · next m resto hm hc =>
          obtain rfl := Option.some.inj h
          cases m with
          | BC => exact .sinRespuesta .BC resto hm hc (fun i hi => by cases hi)
          | SC i =>
              simp only [Enlace.atender]
              by_cases hi : i ∈ e.tabla
              · rw [if_pos (List.contains_iff_mem.mpr hi)]
                refine .sinRespuesta (.SC i) resto hm hc ?_
                intro j hj
                cases hj
                exact hi
              · rw [if_neg (mt List.contains_iff_mem.mp hi)]
                exact .registro i resto hm hc hi
          | SD i => exact .sinRespuesta (.SD i) resto hm hc (fun j hj => by cases hj)
      · cases h
  | entrega i =>
      simp only [pasoEnlace] at h
      split at h
      · next m resto hf hc =>
          split_ifs at h with hm
          · obtain rfl := Option.some.inj h
            subst hm
            exact .conexion i resto hf hc
          · obtain rfl := Option.some.inj h
            exact .ignorado i m resto hf hc hm
      · cases h
  | cierre i =>
      simp only [pasoEnlace] at h
      split at h
      · next hf =>
          obtain rfl := Option.some.inj h
          exact .despedida i hf
      · next hf =>
          obtain rfl := Option.some.inj h
          exact .abandono i hf
      · cases h
  | caida i =>
      simp only [pasoEnlace] at h
      split_ifs at h with hf
      obtain rfl := Option.some.inj h
      exact .caida i hf

/-! ## What a broadcast and a new server leave alone -/

section Difundir

variable (e : Enlace) (m : Mensaje) (i j : Texto) (s : Servidor)

@[simp] theorem Enlace.difundir_tabla : (e.difundir m).tabla = e.tabla := rfl

@[simp] theorem Enlace.difundir_servidores :
    (e.difundir m).servidores i = (e.servidores i).recibir m := rfl

@[simp] theorem Enlace.poner_servidores_self : (e.poner i s).servidores i = s := by
  rw [Enlace.poner]
  exact Function.update_self i s e.servidores

theorem Enlace.poner_servidores_of_ne {i j : Texto} (h : j ≠ i) :
    (e.poner i s).servidores j = e.servidores j := by
  rw [Enlace.poner]
  exact Function.update_of_ne h s e.servidores

theorem Enlace.difundir_cola_enMarcha (h : e.enMarcha = true) :
    (e.difundir m).cola = e.cola ++ [m] := if_pos h

theorem Enlace.difundir_cola_parado (h : e.enMarcha = false) : (e.difundir m).cola = e.cola :=
  if_neg (Bool.eq_false_iff.mp h)

@[simp] theorem Servidor.recibir_fase : (s.recibir m).fase = s.fase := by
  unfold Servidor.recibir
  split_ifs <;> rfl

/-- A socket that is bound has the broadcast at the end of its queue. -/
theorem Servidor.recibir_cola {s : Servidor} (h : s.fase ≠ .apagado) :
    (s.recibir m).cola = s.cola ++ [m] := by
  rw [Servidor.recibir, if_neg h]

/-- A broadcast takes nothing out of a queue. -/
theorem Servidor.mem_recibir {m' : Mensaje} {s : Servidor} (h : m' ∈ s.cola) :
    m' ∈ (s.recibir m).cola := by
  unfold Servidor.recibir
  split_ifs
  · exact h
  · exact List.mem_append_left _ h

/-- What is new in a queue is the broadcast. -/
theorem Servidor.mem_of_mem_recibir {m' : Mensaje} {s : Servidor} (hne : m' ≠ m)
    (h : m' ∈ (s.recibir m).cola) : m' ∈ s.cola := by
  unfold Servidor.recibir at h
  split_ifs at h
  · exact h
  · rcases List.mem_append.mp h with h | h
    · exact h
    · exact absurd (List.mem_singleton.mp h) hne

theorem Enlace.mem_difundir {m' : Mensaje} (h : m' ∈ e.cola) : m' ∈ (e.difundir m).cola := by
  unfold Enlace.difundir
  dsimp only
  split_ifs
  · exact List.mem_append_left _ h
  · exact h

end Difundir

/-! ## States at rest -/

/-- A server that nobody has started is down. -/
theorem fase_sin_arranque {as : List AccionEnlace} {e : Enlace}
    (h : exec pasoEnlace Enlace.inicial as = some e) (i : Texto) (hi : .arranque i ∉ as) :
    (e.servidores i).fase = .apagado := by
  revert i
  apply exec_history (fun as e => ∀ i, .arranque i ∉ as → (e.servidores i).fase = .apagado)
    (fun _ _ => rfl) _ h
  intro as e a e' ih hpaso i hi
  rw [List.mem_append, List.mem_singleton, not_or] at hi
  have hantes := ih i hi.1
  -- the server that a step is about is another one, or it is put down
  have hotro : ∀ j s, j ≠ i → ((e.poner j s).servidores i).fase = .apagado := by
    intro j s hji
    rw [Enlace.poner_servidores_of_ne e s hji.symm]
    exact hantes
  have hactivo : ∀ j, (e.servidores j).fase ≠ .apagado → j ≠ i := by
    rintro j hj rfl
    exact hj hantes
  cases pasoEnlace_enlaza hpaso with
  | arranqueBalanceador hm =>
      rw [Enlace.avisarServidores, Enlace.difundir_servidores, Servidor.recibir_fase]
      exact hantes
  | arranque j hf =>
      rw [Enlace.avisarBalanceadores, Enlace.difundir_servidores, Servidor.recibir_fase]
      apply hotro
      rintro rfl
      exact hi.2 rfl
  | registro j resto hm hc hj =>
      rw [Enlace.avisarServidores, Enlace.difundir_servidores, Servidor.recibir_fase]
      exact hantes
  | sinRespuesta m resto hm hc hSC => exact hantes
  | conexion j resto hf hc =>
      rw [Enlace.avisarBalanceadores, Enlace.difundir_servidores, Servidor.recibir_fase]
      exact hotro j _ (hactivo j (by simp [hf]))
  | ignorado j m resto hf hc hBC => exact hotro j _ (hactivo j (by simp [hf]))
  | despedida j hf =>
      rw [Enlace.difundir_servidores, Servidor.recibir_fase]
      exact hotro j _ (hactivo j (by simp [hf]))
  | abandono j hf => exact hotro j _ (hactivo j (by simp [hf]))
  | caida j hf => exact hotro j _ (hactivo j hf)

/-- No datagram waits for the balancer or for a web server in stand-by. -/
structure Enlace.EnReposo (e : Enlace) : Prop where
  balanceador : e.cola = []
  servidores : ∀ i, (e.servidores i).fase = .standBy → (e.servidores i).cola = []

/-- Whether a run has come to rest is a matter of the servers that it starts. -/
theorem enReposo_of_exec {as : List AccionEnlace} {e : Enlace}
    (h : exec pasoEnlace Enlace.inicial as = some e) (hcola : e.cola = [])
    (hservidores : ∀ i, .arranque i ∈ as → (e.servidores i).fase = .standBy →
      (e.servidores i).cola = []) : e.EnReposo := by
  refine ⟨hcola, ?_⟩
  intro i hf
  by_cases hi : .arranque i ∈ as
  · exact hservidores i hi hf
  · rw [fase_sin_arranque h i hi] at hf
    cases hf

end LoadBalancer
