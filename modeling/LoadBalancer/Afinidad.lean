/-
`DIRECCION_CLIENTE`: does a client's address keep its server?

`agregarCliente` draws a server for an address that is new and keeps a pointer to it in
`servidor_asociado`; nothing ever reads that pointer. The case of the `switch` leaves
`indice_ip` at its initial `0`, so every request goes to the first server of the table, and
`buscarCliente`, which compares two pointers to the same buffer, takes every address for known
as soon as there is one. An address keeps its server when that happens to be the first of the
table ([`afinidad_iff`]), and not in general ([`sin_afinidad`]).

Which server a pointer into the vector was taken at, and whether that server has been
registered ever since, cannot be read off the tables later, so the runs here carry a record of
it, [`Asociacion`], that the program does not have.
-/
import LoadBalancer.Metodo
import LoadBalancer.Carga

set_option autoImplicit false

namespace LoadBalancer

open LoadBalancer.Transition

/-! ## Which server an address was associated with -/

/-- An address and the server that `servidor_asociado` was pointed at for it. `sigue` says that
the server has not been removed since. -/
structure Asociacion where
  IP : Direccion
  servidor : Texto
  sigue : Bool
deriving DecidableEq, Repr

/-- The balancer, with the associations made so far, the first one first. -/
structure Seguido where
  estado : Estado
  asociaciones : List Asociacion

/-- The `comparador` at a position. -/
def destinoEn (servidores : List ServidorRegistrado) (indice : ℤ) : Option Texto :=
  (acceso servidores indice).map (·.comparador)

/-- The association that a step makes: the thread draws the position in it. -/
def asociada (s : Estado) (a : Accion) (s' : Estado) : Option Asociacion :=
  match a with
  | .hilo h =>
      match s.hilos[h]?, s'.hilos[h]? with
      | some ⟨p, .asociarServidor⟩, some ⟨_, .guardarCliente random⟩ =>
          (destinoEn s.balanceador.servidores random).map fun servidor =>
            { IP := p.direccion, servidor := servidor, sigue := true }
      | _, _ => none
  | _ => none

/-- The server that a step removes. -/
def borrada (s : Estado) (a : Accion) : Option Texto :=
  match a, s.escuchador with
  | .borrado, .eliminando posicion => destinoEn s.balanceador.servidores posicion
  | _, _ => none

/-- The association, after `servidor` has been removed. -/
def Asociacion.sin (borrado : Option Texto) (x : Asociacion) : Asociacion :=
  if borrado = some x.servidor then { x with sigue := false } else x

/-- The associations after a step. -/
def Seguido.anotar (g : Seguido) (a : Accion) (s' : Estado) : Seguido where
  estado := s'
  asociaciones := (g.asociaciones ++ (asociada g.estado a s').toList).map
    (Asociacion.sin (borrada g.estado a))

/-- One step of the balancer. -/
def pasoSeguido (g : Seguido) (a : Accion) : Option Seguido :=
  (paso g.estado a).map fun s' => g.anotar a s'

/-- A balancer with these servers registered, no request and no association. -/
def Seguido.conServidores (tabla : List ServidorRegistrado) : Seguido :=
  ⟨.conServidores tabla, []⟩

/-- The address has been associated, and the server of its first association, if registered ever
since, is the one at this position. -/
def AsociadaA (g : Seguido) (IP : Direccion) (indice : ℤ) : Prop :=
  ∃ x, g.asociaciones.find? (fun x => x.IP = IP) = some x
    ∧ (x.sigue = true → destinoEn g.estado.balanceador.servidores indice = some x.servidor)

instance (g : Seguido) (IP : Direccion) (indice : ℤ) : Decidable (AsociadaA g IP indice) :=
  inferInstanceAs (Decidable (∃ x ∈ g.asociaciones.find? _, _ → _))

/-- Every request that is about to be dispatched, to the `ip` and `port` at its `indice_ip`, has
that server associated with its address. -/
def Afines (g : Seguido) : Prop :=
  ∀ t ∈ g.estado.hilos, ∀ indice_ip destino, t.fase = .conectar indice_ip destino →
    AsociadaA g t.peticion.direccion indice_ip

/-- When a request counts itself, on its way to `conectar`, the server associated with its
address is the first of the table. -/
def EsLaPrimera (g : Seguido) : Accion → Prop
  | .hilo h => ∀ p indice_ip, g.estado.hilos[h]? = some ⟨p, .cargar indice_ip⟩ →
      AsociadaA g p.direccion 0
  | _ => True

theorem esLaPrimera_hilo_iff (g : Seguido) (h : ℕ) :
    (∀ t ∈ g.estado.hilos[h]?, t.fase.porContar = true → AsociadaA g t.peticion.direccion 0)
      ↔ EsLaPrimera g (.hilo h) := by
  constructor
  · exact fun hall p i hp => hall ⟨p, .cargar i⟩ hp rfl
  · rintro hall ⟨p, f⟩ hp hcuenta
    cases f with
    | cargar i => exact hall p i hp
    | _ => cases hcuenta

instance (g : Seguido) : ∀ a, Decidable (EsLaPrimera g a)
  | .hilo h => decidable_of_iff _ (esLaPrimera_hilo_iff g h)
  | .llegada _ => isTrue trivial
  | .metodo _ => isTrue trivial
  | .registro _ => isTrue trivial
  | .alta _ _ => isTrue trivial
  | .baja _ => isTrue trivial
  | .borrado => isTrue trivial

/-- `Despacho .DIRECCION_CLIENTE` in these runs. -/
def PorDireccion (g : Seguido) (a : Accion) : Prop := Despacho .DIRECCION_CLIENTE g.estado a

instance (g : Seguido) (a : Accion) : Decidable (PorDireccion g a) :=
  inferInstanceAs (Decidable (Despacho .DIRECCION_CLIENTE g.estado a))

/-! ## `indice_ip` stays at `0` -/

/-- The position of a request that has chosen one and is not connected yet is `0`. -/
def Fase.enPrimera : Fase → Prop
  | .cargar i => i = 0
  | .conectar i _ => i = 0
  | _ => True

theorem Transita.enPrimera {b b' : Balanceador} {p : Peticion} {f f' : Fase}
    (ht : Transita b p f b' f') (hmet : f.enMetodo .DIRECCION_CLIENTE) (hf : f.enPrimera) :
    f'.enPrimera := by
  cases ht with
  | clienteConocido c h => rfl
  | clienteRepetido c h => rfl
  | guardado random => rfl
  | carga i hi hmax => exact hf
  -- the choices of the other methods
  | roundRobin => cases hmet
  | pesos i h => cases hmet
  | menosConexiones => cases hmet
  | _ => trivial

/-- Only a request that counts itself comes to `conectar`. -/
theorem Transita.conectar {b b' : Balanceador} {p : Peticion} {f : Fase} {i : ℤ} {destino : Texto}
    (ht : Transita b p f b' (.conectar i destino)) : f = .cargar i := by
  cases ht
  rfl

/-- And it comes there in that step. -/
theorem Transita.cargar {b b' : Balanceador} {p : Peticion} {f' : Fase} {i : ℤ}
    (ht : Transita b p (.cargar i) b' f') : ∃ destino, f' = .conectar i destino := by
  cases ht
  exact ⟨_, rfl⟩

/-- The invariant: nobody is on the way through another method, and every position is `0`. -/
structure PrimeraInv (g : Seguido) : Prop where
  metodo : EnMetodo .DIRECCION_CLIENTE g.estado
  primera : ∀ t ∈ g.estado.hilos, t.fase.enPrimera

theorem PrimeraInv.paso {g g' : Seguido} {a : Accion} (hinv : PrimeraInv g)
    (hok : PorDireccion g a) (h : pasoSeguido g a = some g') : PrimeraInv g' := by
  obtain ⟨s', hs', rfl⟩ := Option.map_eq_some_iff.mp h
  refine ⟨hinv.metodo.paso hok hs', ?_⟩
  cases paso_avanza hs' with
  | llegada p => exact forall_hilos_append hinv.primera trivial
  | hilo h' hh b f hlibre ht =>
      apply forall_hilos_set hinv.primera
      exact ht.enPrimera (hinv.metodo _ (List.getElem_mem hh)) (hinv.primera _ (List.getElem_mem hh))
  | _ => exact hinv.primera

/-! ## What a step does to the associations -/

theorem destinoEn_eq (servidores : List ServidorRegistrado) (indice : ℤ) :
    destinoEn servidores indice
      = if 0 ≤ indice then (servidores.map (·.comparador))[indice.toNat]? else none := by
  unfold destinoEn acceso
  split_ifs
  · rw [List.getElem?_map]
  · rfl

/-- A step of a thread moves no server. -/
theorem Transita.destinoEn {b b' : Balanceador} {p : Peticion} {f f' : Fase}
    (ht : Transita b p f b' f') (indice : ℤ) :
    LoadBalancer.destinoEn b'.servidores indice = LoadBalancer.destinoEn b.servidores indice := by
  rw [destinoEn_eq, destinoEn_eq, ht.comparadores]

section Asociada

variable {g g' : Seguido} {a : Accion} {IP : Direccion} {s' : Estado}

theorem asociaciones_sin_none (l : List Asociacion) : l.map (Asociacion.sin none) = l := by
  apply List.map_id''
  intro x
  rfl

/-- What a step that removes nothing leaves of an association: the first of its address stays
the first. -/
theorem AsociadaA.anotar (h : AsociadaA g IP 0) (hb : borrada g.estado a = none)
    (hserv : ∀ c, destinoEn g.estado.balanceador.servidores 0 = some c →
      destinoEn s'.balanceador.servidores 0 = some c) : AsociadaA (g.anotar a s') IP 0 := by
  obtain ⟨x, hx, hsigue⟩ := h
  refine ⟨x, ?_, fun hs => hserv _ (hsigue hs)⟩
  rw [Seguido.anotar, hb, asociaciones_sin_none, List.find?_append, hx, Option.some_or]

/-- What a removal leaves of it: the server that goes is the associated one, or it is not the
first of the table. -/
theorem AsociadaA.borrado (h : AsociadaA g IP 0) {posicion : ℕ}
    (hf : g.estado.escuchador = .eliminando posicion)
    (hserv : s'.balanceador.servidores
      = g.estado.balanceador.servidores.eraseIdx posicion) :
    AsociadaA (g.anotar .borrado s') IP 0 := by
  obtain ⟨x, hx, hsigue⟩ := h
  have hIP : ∀ y : Asociacion, (y.sin (borrada g.estado .borrado)).IP = y.IP := by
    intro y
    unfold Asociacion.sin
    split_ifs <;> rfl
  have hborrada : borrada g.estado .borrado
      = destinoEn g.estado.balanceador.servidores posicion := by
    unfold borrada
    rw [hf]
  have hasociada : asociada g.estado .borrado s' = none := rfl
  refine ⟨x.sin (borrada g.estado .borrado), ?_, fun hs => ?_⟩
  · rw [Seguido.anotar, hasociada, Option.toList_none, List.append_nil, List.find?_map]
    simp only [Function.comp_def, hIP, hx, Option.map_some]
  · unfold Asociacion.sin at hs ⊢
    split_ifs at hs ⊢ with hsin
    have hprimera := hsigue hs
    have hne : posicion ≠ 0 := by
      rintro rfl
      exact hsin (hborrada.trans hprimera)
    rw [← hprimera, Seguido.anotar, destinoEn_eq, destinoEn_eq, hserv]
    simp [List.getElem?_map, List.getElem?_eraseIdx_of_lt (Nat.pos_of_ne_zero hne)]

/-- **An association is kept** by every step. -/
theorem AsociadaA.paso (h : AsociadaA g IP 0) (hpaso : LoadBalancer.paso g.estado a = some s') :
    AsociadaA (g.anotar a s') IP 0 := by
  cases paso_avanza hpaso with
  | hilo h' hh b f hlibre ht =>
      apply h.anotar rfl
      intro c hc
      exact (ht.destinoEn 0).trans hc
  | alta ip azar memoria nuevo hf hn =>
      apply h.anotar rfl
      intro c hc
      rw [destinoEn_eq, if_pos (le_refl _)] at hc ⊢
      rw [List.map_append, List.getElem?_append_left (List.getElem?_eq_some_iff.mp hc).1]
      exact hc
  | borrado posicion hf hp => exact h.borrado hf rfl
  | _ => exact h.anotar rfl fun c hc => hc

/-- A thread that stands at `conectar` after a step stood there before it, or has just counted
itself. -/
theorem hilos_paso (hpaso : LoadBalancer.paso g.estado a = some s') {t : Hilo} (ht : t ∈ s'.hilos)
    {indice_ip : ℤ} {destino : Texto} (hfase : t.fase = .conectar indice_ip destino) :
    t ∈ g.estado.hilos
      ∨ ∃ h, a = .hilo h ∧ g.estado.hilos[h]? = some ⟨t.peticion, .cargar indice_ip⟩ := by
  cases paso_avanza hpaso with
  | llegada p =>
      rcases List.mem_append.mp ht with ht | ht
      · exact .inl ht
      · rw [List.mem_singleton.mp ht] at hfase
        cases hfase
  | hilo h' hh b f hlibre htr =>
      rcases List.mem_or_eq_of_mem_set ht with ht | rfl
      · exact .inl ht
      · dsimp only at hfase
        subst hfase
        refine .inr ⟨h', rfl, ?_⟩
        rw [List.getElem?_eq_getElem hh, ← htr.conectar]
  | _ => exact .inl ht

/-- A request that counts itself stands at `conectar` then, and the associations are those of
before. -/
theorem cargar_paso {h : ℕ} {p : Peticion} {indice_ip : ℤ}
    (hp : g.estado.hilos[h]? = some ⟨p, .cargar indice_ip⟩)
    (hpaso : LoadBalancer.paso g.estado (.hilo h) = some s') :
    (∃ destino, ⟨p, .conectar indice_ip destino⟩ ∈ s'.hilos)
      ∧ (AsociadaA (g.anotar (.hilo h) s') IP 0 → AsociadaA g IP 0) := by
  cases paso_avanza hpaso with
  | hilo _ hh b f hlibre ht =>
      rw [List.getElem?_eq_getElem hh, Option.some.injEq] at hp
      rw [hp] at ht
      refine ⟨?_, fun hasoc => ?_⟩
      · obtain ⟨destino, rfl⟩ := ht.cargar
        rw [hp]
        exact ⟨destino, List.mem_set hh _⟩
      · obtain ⟨x, hx, hsigue⟩ := hasoc
        refine ⟨x, ?_, fun hs => ?_⟩
        · have hnone : asociada g.estado (.hilo h) { g.estado with
              balanceador := b, hilos := g.estado.hilos.set h ⟨g.estado.hilos[h].peticion, f⟩ }
                = none := by
            simp only [asociada, List.getElem?_eq_getElem hh, hp]
          have hborrada : borrada g.estado (.hilo h) = none := rfl
          rw [Seguido.anotar, hnone, hborrada, asociaciones_sin_none, Option.toList_none,
            List.append_nil] at hx
          exact hx
        · rw [← ht.destinoEn 0]
          exact hsigue hs

end Asociada

/-! ## The result -/

/-- Of the steps of a run through `DIRECCION_CLIENTE`, exactly those that meet the condition keep
every request that is about to be dispatched at the server associated with its address. -/
theorem afines_paso {g g' : Seguido} {a : Accion} (hinv : PrimeraInv g) (haf : Afines g)
    (h : pasoSeguido g a = some g') : Afines g' ↔ EsLaPrimera g a := by
  obtain ⟨s', hs', rfl⟩ := Option.map_eq_some_iff.mp h
  constructor
  · intro hall
    cases a with
    | hilo h' =>
        intro p indice_ip hp
        have hcero : indice_ip = 0 := hinv.primera _ (List.mem_of_getElem? hp)
        obtain ⟨⟨destino, hmem⟩, hasoc⟩ := cargar_paso hp hs'
        have := hall _ hmem indice_ip destino rfl
        rw [hcero] at this
        exact hasoc this
    | _ => trivial
  · intro hok t ht indice_ip destino hfase
    rcases hilos_paso hs' ht hfase with hviejo | ⟨h', rfl, hp⟩
    · have hcero : indice_ip = 0 := by
        have := hinv.primera t hviejo
        rwa [hfase] at this
      have := haf t hviejo indice_ip destino hfase
      rw [hcero] at this ⊢
      exact this.paso hs'
    · have hcero : indice_ip = 0 := hinv.primera _ (List.mem_of_getElem? hp)
      rw [hcero]
      exact (hok t.peticion indice_ip hp).paso hs'

/-- **A client's address keeps its server exactly when that is the first of the table.** In
every run whose requests are all dispatched by `DIRECCION_CLIENTE`, whatever is registered and
removed: every request that is about to be dispatched has the server that was associated with its
address, as long as that stays registered, if and only if, whenever a request counts itself, its
address has been associated and that server, if it has stayed, is the first of the table. No other
position comes into it, because `indice_ip` stays `0` and `servidor_asociado` is read by nobody. -/
theorem afinidad_iff {tabla : List ServidorRegistrado} {as : List Accion} {g : Seguido}
    (hok : AllOk pasoSeguido PorDireccion (.conServidores tabla) as)
    (hrun : exec pasoSeguido (.conServidores tabla) as = some g) :
    Throughout pasoSeguido Afines (.conServidores tabla) as
      ↔ AllOk pasoSeguido EsLaPrimera (.conServidores tabla) as := by
  apply throughout_iff_allOk PrimeraInv Afines _ _ _ hok hrun
  · intro g a g' hinv haf hok hpaso
    exact ⟨hinv.paso hok hpaso, afines_paso hinv haf hpaso⟩
  · exact ⟨enMetodo_conServidores _ tabla, fun t ht => (by cases ht)⟩
  · intro t ht
    cases ht

/-- One request, which draws the first of two servers. -/
theorem afinidad_una_peticion :
    let tabla : List ServidorRegistrado :=
      [.libre "10.0.0.1/80".toList 5, .libre "10.0.0.2/80".toList 5]
    let as : List Accion :=
      [.metodo .DIRECCION_CLIENTE, .llegada (.minima true), .hilo 0, .hilo 0, .hilo 0, .hilo 0,
        .hilo 0, .hilo 0, .hilo 0, .hilo 0]
    ∃ g, exec pasoSeguido (.conServidores tabla) as = some g
      ∧ g.asociaciones.map (·.servidor) = ["10.0.0.1/80".toList]
      ∧ Throughout pasoSeguido Afines (.conServidores tabla) as := by
  intro tabla as
  have hasoc : (exec pasoSeguido (.conServidores tabla) as).map
      (fun g => g.asociaciones.map (·.servidor)) = some ["10.0.0.1/80".toList] := by
    decide +kernel
  obtain ⟨g, hg, hasoc⟩ := Option.map_eq_some_iff.mp hasoc
  have hok : AllOk pasoSeguido PorDireccion (.conServidores tabla) as := by decide +kernel
  have hprimera : AllOk pasoSeguido EsLaPrimera (.conServidores tabla) as := by decide +kernel
  exact ⟨g, hg, hasoc, (afinidad_iff hok hg).mpr hprimera⟩

/-- **An address does not keep its server.** A request draws the second of two servers, which
`servidor_asociado` then points at, and is dispatched to the first. -/
theorem sin_afinidad :
    ¬ ∀ (tabla : List ServidorRegistrado) (g : Seguido),
      Reach pasoSeguido PorDireccion (.conServidores tabla) g → Afines g := by
  intro hall
  let tabla : List ServidorRegistrado :=
    [.libre "10.0.0.1/80".toList 5, .libre "10.0.0.2/80".toList 5]
  let p : Peticion := { Peticion.minima true with azar := 1 }
  let as : List Accion :=
    [.metodo .DIRECCION_CLIENTE, .llegada p, .hilo 0, .hilo 0, .hilo 0, .hilo 0, .hilo 0, .hilo 0,
      .hilo 0]
  -- where the run ends: the request at `conectar`, its association, the first server
  have hfin : (exec pasoSeguido (.conServidores tabla) as).map (fun g =>
      (g.estado.hilos.map fun t => match t.fase with
          | .conectar i _ => some (t.peticion.direccion, i)
          | _ => none,
        g.asociaciones, destinoEn g.estado.balanceador.servidores 0))
      = some ([some (0, 0)], [⟨0, "10.0.0.2/80".toList, true⟩],
        some "10.0.0.1/80".toList) := by
    decide +kernel
  obtain ⟨g, hg, heq⟩ := Option.map_eq_some_iff.mp hfin
  simp only [Prod.mk.injEq] at heq
  obtain ⟨hhilos, hasoc, hprimera⟩ := heq
  obtain ⟨t, ht, hfase⟩ : ∃ t ∈ g.estado.hilos, (match t.fase with
      | .conectar i _ => some (t.peticion.direccion, i)
      | _ => none) = some (0, 0) := by
    rw [← List.mem_map, hhilos]
    exact List.mem_singleton.mpr rfl
  have hok : AllOk pasoSeguido PorDireccion (.conServidores tabla) as := by decide +kernel
  have hafin := hall tabla g (Reach.of_exec hok hg) t ht
  split at hfase
  · next i destino hconectar =>
      simp only [Option.some.injEq, Prod.mk.injEq] at hfase
      obtain ⟨x, hx, hsigue⟩ := hafin i destino hconectar
      rw [hasoc, hfase.1] at hx
      obtain rfl := Option.some.inj hx
      have heq := hsigue rfl
      rw [hfase.2, hprimera] at heq
      exact absurd heq (by decide)
  · cases hfase

end LoadBalancer
