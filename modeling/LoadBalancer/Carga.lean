/-
What `carga_actual` counts.

A request raises `carga_actual` through `servidores[indice_ip]` and lowers it through
`servidores[indice_ip]` again, with the whole relay in between. An `erase` in between
shifts the table, and the request lowers the load of another server
([`carga_de_otro_servidor`]). It does not when no removal is at or before the position of a
request in flight, and then every load is the number of requests in flight to that server
([`carga_eq_enVuelo`]).

The invariant is [`TablaFiel`], proved from [`Transita.efecto`], which sorts the steps of a
thread by what they do to the loads.
-/
import Mathlib.Data.List.Nodup
import LoadBalancer.Hilos

set_option autoImplicit false

namespace LoadBalancer

open LoadBalancer.Transition

/-! ## Counting threads -/

/-- How many threads are in a phase that satisfies `P`. -/
def cuenta (hilos : List Hilo) (P : Fase → Bool) : ℕ := hilos.countP fun t => P t.fase

/-- One thread changes its phase. -/
theorem cuenta_set {hilos : List Hilo} {h : ℕ} (hh : h < hilos.length) (t : Hilo)
    (P : Fase → Bool) :
    cuenta (hilos.set h t) P + (if P hilos[h].fase then 1 else 0)
      = cuenta hilos P + (if P t.fase then 1 else 0) := by
  induction hilos generalizing h with
  | nil => cases hh
  | cons u hilos ih =>
      cases h with
      | zero =>
          simp only [cuenta, List.set_cons_zero, List.countP_cons, List.getElem_cons_zero]
          omega
      | succ h =>
          have := ih (h := h) (by simpa using hh)
          simp only [cuenta, List.set_cons_succ, List.countP_cons, List.getElem_cons_succ] at this ⊢
          omega

/-- The thread's change does not matter to `P`. -/
theorem cuenta_set_of_eq {hilos : List Hilo} {h : ℕ} (hh : h < hilos.length) {t : Hilo}
    {P : Fase → Bool} (heq : P t.fase = P hilos[h].fase) :
    cuenta (hilos.set h t) P = cuenta hilos P := by
  have := cuenta_set hh t P
  rw [heq] at this
  omega

/-- A thread starts in a phase that does not count. -/
theorem cuenta_llegada {hilos : List Hilo} {t : Hilo} {P : Fase → Bool} (ht : P t.fase = false) :
    cuenta (hilos ++ [t]) P = cuenta hilos P := by
  simp [cuenta, List.countP_append, ht]

theorem cuenta_eq_zero {hilos : List Hilo} {P : Fase → Bool}
    (h : ∀ t ∈ hilos, P t.fase = false) : cuenta hilos P = 0 := by
  rw [cuenta, List.countP_eq_zero]
  intro t ht
  simp [h t ht]

/-! ## The unit of load a request holds -/

/-- The position and the server of the unit of load that a request in flight holds. -/
def Fase.cargada : Fase → Option (ℤ × Texto)
  | .conectar i destino => some (i, destino)
  | .recibir i destino _ _ => some (i, destino)
  | .responder i destino _ => some (i, destino)
  | .descargar i destino => some (i, destino)
  | _ => none

/-- The position of the unit of load that a request took with it when it returned. -/
def Fase.perdida : Fase → Option ℤ
  | .terminado (.rechazado i) => some i
  | _ => none

/-- **What a thread's step does to the loads**: nothing, or it raises the load at
`indice_ip`, connects, is refused, or lowers the load at `indice_ip`. -/
theorem Transita.efecto {b b' : Balanceador} {p : Peticion} {f f' : Fase}
    (ht : Transita b p f b' f') :
    (b'.servidores = b.servidores ∧ f'.cargada = f.cargada ∧ f'.perdida = f.perdida)
      ∨ (∃ (i : ℕ) (hi : i < b.servidores.length), f = .cargar i
          ∧ f' = .conectar i b.servidores[i].comparador
          ∧ b'.servidores = b.servidores.set i
              { b.servidores[i] with carga_actual := b.servidores[i].carga_actual + 1 })
      ∨ (∃ (i : ℕ) (hi : i < b.servidores.length) (destino : Texto), f = .conectar i destino
          ∧ b' = b ∧ p.conexion = true
          ∧ f' = .recibir i b.servidores[i].comparador p.httpRequest p.lecturas)
      ∨ (∃ (i : ℕ) (_ : i < b.servidores.length) (destino : Texto), f = .conectar i destino
          ∧ b' = b ∧ p.conexion = false ∧ f' = .terminado (.rechazado i))
      ∨ (∃ (i : ℕ) (hi : i < b.servidores.length) (destino : Texto), f = .descargar i destino
          ∧ f' = .registrar i
          ∧ b'.servidores = b.servidores.set i
              { b.servidores[i] with carga_actual := b.servidores[i].carga_actual - 1 }) := by
  cases ht with
  | carga i hi hmax => exact .inr (.inl ⟨i, hi, rfl, rfl, rfl⟩)
  | conexion i hi destino h => exact .inr (.inr (.inl ⟨i, hi, destino, rfl, rfl, h, rfl⟩))
  | rechazo i hi destino h => exact .inr (.inr (.inr (.inl ⟨i, hi, destino, rfl, rfl, h, rfl⟩)))
  | descarga i hi destino hmin => exact .inr (.inr (.inr (.inr ⟨i, hi, destino, rfl, rfl, rfl⟩)))
  | _ => exact .inl ⟨rfl, rfl, rfl⟩

/-! ## Loads and requests in flight -/

/-- The number of requests in flight that were dispatched to the server `clave`. -/
def enVuelo (hilos : List Hilo) (clave : Texto) : ℕ :=
  cuenta hilos fun f => f.cargada.map Prod.snd = some clave

/-- Every connection to a back-end server succeeds. -/
def ConexionAceptada : Accion → Prop
  | .llegada p => p.conexion = true
  | _ => True

/-- The `erase` that is due is behind the position of every request in flight. -/
def SinCorrimiento (s : Estado) : Accion → Prop
  | .borrado => ∀ posicion, s.escuchador = .eliminando posicion →
      ∀ t ∈ s.hilos, ∀ i destino, t.fase.cargada = some (i, destino) → i < posicion
  | _ => True

/-- The property: the load of every registered server is the number of requests in flight to
it, so it is not negative, and a request that completes leaves the other loads alone. -/
structure CargasFieles (s : Estado) : Prop where
  exactas : ∀ srv ∈ s.balanceador.servidores,
    srv.carga_actual = enVuelo s.hilos srv.comparador
  no_negativas : ∀ srv ∈ s.balanceador.servidores, 0 ≤ srv.carga_actual
  ajenas : ∀ (h : ℕ) (hh : h < s.hilos.length) (i : ℤ) (destino : Texto) (s' : Estado),
    s.hilos[h].fase = .descargar i destino → paso s (.hilo h) = some s' →
    ∀ (j : ℕ) (srv : ServidorRegistrado), s.balanceador.servidores[j]? = some srv →
      srv.comparador ≠ destino → s'.balanceador.servidores[j]? = some srv

/-- The invariant on the table and the threads. The texts of the entries are distinct, which
`agregarServidor` takes care of; every request in flight points at the entry of its server;
and the loads are exact. -/
structure TablaFiel (servidores : List ServidorRegistrado) (hilos : List Hilo) : Prop where
  distintos : (servidores.map (·.comparador)).Nodup
  posiciones : ∀ t ∈ hilos, ∀ i destino, t.fase.cargada = some (i, destino) →
    ∃ (j : ℕ) (hj : j < servidores.length), i = j ∧ servidores[j].comparador = destino
  cargas : ∀ (j : ℕ) (hj : j < servidores.length),
    servidores[j].carga_actual = enVuelo hilos servidores[j].comparador

/-- The invariant on states: `agregarServidor` is about to add a text that is not there. -/
structure CargaInv (s : Estado) : Prop where
  tabla : TablaFiel s.balanceador.servidores s.hilos
  aceptadas : ∀ t ∈ s.hilos, t.peticion.conexion = true
  nuevo : ∀ ip, s.escuchador = .agregando ip →
    ip ∉ s.balanceador.servidores.map (·.comparador)

section TablaFiel

variable {servidores : List ServidorRegistrado} {hilos : List Hilo}

/-- Two entries with one text are one entry. -/
theorem TablaFiel.inj (hinv : TablaFiel servidores hilos) {i j : ℕ} (hi : i < servidores.length)
    (hj : j < servidores.length) (heq : servidores[i].comparador = servidores[j].comparador) :
    i = j := by
  have hi' : i < (servidores.map (·.comparador)).length := by simpa using hi
  have hj' : j < (servidores.map (·.comparador)).length := by simpa using hj
  have heq' : (servidores.map (·.comparador))[i] = (servidores.map (·.comparador))[j] := by
    simpa using heq
  exact (List.Nodup.getElem_inj_iff hinv.distintos).mp heq'

/-- Changing a load leaves the texts alone. -/
theorem map_comparador_set {i : ℕ} (hi : i < servidores.length) (c : ℤ) :
    (servidores.set i { servidores[i] with carga_actual := c }).map (·.comparador)
      = servidores.map (·.comparador) := by
  rw [List.map_set]
  apply List.ext_getElem (by simp)
  intro j h₁ h₂
  rw [List.getElem_set]
  split_ifs with h
  · subst h
    simp
  · rfl

/-- The entry at any position keeps its text when a load changes. -/
theorem comparador_set {i j : ℕ} {c : ℤ} (hi : i < servidores.length)
    (hj : j < servidores.length)
    (hj' : j < (servidores.set i { servidores[i] with carga_actual := c }).length) :
    (servidores.set i { servidores[i] with carga_actual := c })[j].comparador
      = servidores[j].comparador := by
  rw [List.getElem_set]
  split_ifs with h
  · subst h
    rfl
  · rfl

/-- The count of a server when one thread changes its phase. -/
theorem enVuelo_set {h : ℕ} (hh : h < hilos.length) (t : Hilo) (clave : Texto) :
    enVuelo (hilos.set h t) clave
        + (if hilos[h].fase.cargada.map Prod.snd = some clave then 1 else 0)
      = enVuelo hilos clave + (if t.fase.cargada.map Prod.snd = some clave then 1 else 0) := by
  have := cuenta_set hh t fun f => decide (f.cargada.map Prod.snd = some clave)
  simpa only [enVuelo, decide_eq_true_eq] using this

/-- A thread that keeps its unit of load changes nothing. -/
theorem TablaFiel.quieto (hinv : TablaFiel servidores hilos) {h : ℕ} (hh : h < hilos.length)
    {t : Hilo} (heq : t.fase.cargada = hilos[h].fase.cargada) :
    TablaFiel servidores (hilos.set h t) where
  distintos := hinv.distintos
  posiciones := by
    apply forall_hilos_set hinv.posiciones
    rw [heq]
    exact hinv.posiciones _ (List.getElem_mem hh)
  cargas := by
    intro j hj
    have hcount := enVuelo_set hh t servidores[j].comparador
    rw [heq] at hcount
    rw [hinv.cargas j hj]
    omega

/-- What a thread counts for a server, when the only unit it can hold is at `destino`. -/
theorem unidad_eq {o : Option (ℤ × Texto)} {i : ℤ} {destino : Texto}
    (ho : ∀ x ∈ o, x = (i, destino)) (clave : Texto) :
    (if o.map Prod.snd = some clave then 1 else 0)
      = if destino = clave then (if o.isSome then 1 else 0) else 0 := by
  cases o with
  | none => simp
  | some x =>
      obtain rfl := ho x rfl
      simp

/-- A thread takes or gives back a unit of load at the entry `i`, and the load of that entry
follows. -/
theorem TablaFiel.cambio (hinv : TablaFiel servidores hilos) {h : ℕ} (hh : h < hilos.length)
    {i : ℕ} (hi : i < servidores.length) {t : Hilo} {c : ℤ}
    (hantes : ∀ x ∈ hilos[h].fase.cargada, x = ((i : ℤ), servidores[i].comparador))
    (hdespues : ∀ x ∈ t.fase.cargada, x = ((i : ℤ), servidores[i].comparador))
    (hc : c + (if hilos[h].fase.cargada.isSome then 1 else 0)
      = servidores[i].carga_actual + (if t.fase.cargada.isSome then 1 else 0)) :
    TablaFiel (servidores.set i { servidores[i] with carga_actual := c }) (hilos.set h t) where
  distintos := by
    rw [map_comparador_set hi]
    exact hinv.distintos
  posiciones := by
    refine forall_hilos_set (fun u hu k destino hk => ?_) fun k destino hk => ?_
    · obtain ⟨j, hj, rfl, hjd⟩ := hinv.posiciones u hu k destino hk
      exact ⟨j, by simpa using hj, rfl, by rw [comparador_set hi hj _, hjd]⟩
    -- the moving thread can only point at `i`
    · obtain ⟨rfl, rfl⟩ := Prod.mk.inj (hdespues _ hk)
      exact ⟨i, by simpa using hi, rfl, comparador_set hi hi _⟩
  cargas := by
    intro j hj
    have hj' : j < servidores.length := by simpa using hj
    have hcount := enVuelo_set hh t servidores[j].comparador
    rw [unidad_eq hantes, unidad_eq hdespues] at hcount
    rw [comparador_set hi hj' _, List.getElem_set]
    have hold := hinv.cargas j hj'
    split_ifs with hij
    · subst hij
      rw [if_pos rfl, if_pos rfl] at hcount
      dsimp only
      -- load and count move together, whichever way
      split_ifs at hc hcount <;> omega
    · -- another entry: its text is not the one of entry `i`
      have hne : servidores[i].comparador ≠ servidores[j].comparador := fun heq =>
        hij (hinv.inj hi hj' heq)
      rw [if_neg hne, if_neg hne] at hcount
      omega

/-- `carga_actual++`, by the thread that will hold the unit. -/
theorem TablaFiel.carga (hinv : TablaFiel servidores hilos) {h : ℕ} (hh : h < hilos.length)
    {i : ℕ} (hi : i < servidores.length) {t : Hilo} (hantes : hilos[h].fase.cargada = none)
    (hdespues : t.fase.cargada = some ((i : ℤ), servidores[i].comparador)) :
    TablaFiel
      (servidores.set i { servidores[i] with carga_actual := servidores[i].carga_actual + 1 })
      (hilos.set h t) := by
  apply hinv.cambio hh hi
  · simp [hantes]
  · simp [hdespues]
  · simp [hantes, hdespues]

/-- `carga_actual--`, by the thread that holds the unit. -/
theorem TablaFiel.descarga (hinv : TablaFiel servidores hilos) {h : ℕ} (hh : h < hilos.length)
    {i : ℕ} (hi : i < servidores.length) {t : Hilo}
    (hantes : hilos[h].fase.cargada = some ((i : ℤ), servidores[i].comparador))
    (hdespues : t.fase.cargada = none) :
    TablaFiel
      (servidores.set i { servidores[i] with carga_actual := servidores[i].carga_actual - 1 })
      (hilos.set h t) := by
  apply hinv.cambio hh hi
  · simp [hantes]
  · simp [hdespues]
  · simp [hantes, hdespues]

/-- A thread that holds no unit of load starts. -/
theorem TablaFiel.llegada (hinv : TablaFiel servidores hilos) {t : Hilo}
    (ht : t.fase.cargada = none) : TablaFiel servidores (hilos ++ [t]) where
  distintos := hinv.distintos
  posiciones := by
    apply forall_hilos_append hinv.posiciones
    intro i destino hc
    rw [ht] at hc
    cases hc
  cargas := by
    intro j hj
    rw [hinv.cargas j hj, enVuelo, enVuelo, cuenta_llegada (by rw [ht]; rfl)]

/-- Nobody is in flight to a server that is not registered. -/
theorem TablaFiel.enVuelo_eq_zero (hinv : TablaFiel servidores hilos) {clave : Texto}
    (h : clave ∉ servidores.map (·.comparador)) : enVuelo hilos clave = 0 := by
  apply cuenta_eq_zero
  intro t ht
  rw [decide_eq_false_iff_not]
  intro heq
  obtain ⟨⟨i, destino⟩, hc, rfl⟩ := Option.map_eq_some_iff.mp heq
  obtain ⟨j, hj, -, hjd⟩ := hinv.posiciones t ht i destino hc
  exact h (List.mem_map.mpr ⟨_, List.getElem_mem hj, hjd⟩)

/-- `push_back` of an entry without load and with a new text. -/
theorem TablaFiel.alta (hinv : TablaFiel servidores hilos) {nuevo : ServidorRegistrado}
    (hclave : nuevo.comparador ∉ servidores.map (·.comparador))
    (hcero : nuevo.carga_actual = 0) : TablaFiel (servidores ++ [nuevo]) hilos where
  distintos := by
    rw [List.map_append, List.nodup_append]
    refine ⟨hinv.distintos, by simp, ?_⟩
    intro a ha b hb
    obtain rfl : b = nuevo.comparador := by simpa using hb
    exact fun heq => hclave (heq ▸ ha)
  posiciones := by
    intro t ht i destino hc
    obtain ⟨j, hj, rfl, hjd⟩ := hinv.posiciones t ht i destino hc
    refine ⟨j, by rw [List.length_append]; omega, rfl, ?_⟩
    rw [List.getElem_append_left hj, hjd]
  cargas := by
    intro j hj
    by_cases hlt : j < servidores.length
    · rw [List.getElem_append_left hlt]
      exact hinv.cargas j hlt
    -- the new entry: no load, and nobody can be in flight to it
    · obtain rfl : j = servidores.length := by
        rw [List.length_append, List.length_singleton] at hj
        omega
      rw [List.getElem_concat_length rfl, hcero, hinv.enVuelo_eq_zero hclave]
      rfl

/-- `erase` behind the position of every request in flight. -/
theorem TablaFiel.borrado (hinv : TablaFiel servidores hilos) {p : ℕ}
    (hp : p < servidores.length)
    (hatras : ∀ t ∈ hilos, ∀ i destino, t.fase.cargada = some (i, destino) → i < p) :
    TablaFiel (servidores.eraseIdx p) hilos where
  distintos :=
    hinv.distintos.sublist ((List.eraseIdx_sublist servidores p).map _)
  posiciones := by
    intro t ht i destino hc
    obtain ⟨j, hj, rfl, hjd⟩ := hinv.posiciones t ht i destino hc
    -- its entry is in front of the removed one, so it keeps its position
    have hjp : j < p := by exact_mod_cast hatras t ht j destino hc
    have hlen := List.length_eraseIdx_of_lt hp
    exact ⟨j, by omega, rfl, by rw [List.getElem_eraseIdx_of_lt _ hjp, hjd]⟩
  cargas := by
    intro j hj
    rw [List.getElem_eraseIdx]
    split_ifs with hjp
    · exact hinv.cargas j _
    · exact hinv.cargas (j + 1) _

end TablaFiel

/-- A step of a thread changes no text. -/
theorem Transita.comparadores {b b' : Balanceador} {p : Peticion} {f f' : Fase}
    (ht : Transita b p f b' f') :
    b'.servidores.map (·.comparador) = b.servidores.map (·.comparador) := by
  rcases ht.efecto with ⟨heq, -, -⟩ | ⟨i, hi, -, -, heq⟩ | ⟨i, hi, d, -, rfl, -, -⟩
    | ⟨i, hi, d, -, rfl, -, -⟩ | ⟨i, hi, d, -, -, heq⟩
  · rw [heq]
  · rw [heq, map_comparador_set hi]
  · rfl
  · rfl
  · rw [heq, map_comparador_set hi]

/-- **One step of a thread** whose connection is accepted keeps the loads exact. -/
theorem Transita.tablaFiel {b b' : Balanceador} {hilos : List Hilo} {h : ℕ} {f' : Fase}
    (hh : h < hilos.length) (ht : Transita b hilos[h].peticion hilos[h].fase b' f')
    (hacep : hilos[h].peticion.conexion = true) (hinv : TablaFiel b.servidores hilos) :
    TablaFiel b'.servidores (hilos.set h ⟨hilos[h].peticion, f'⟩) := by
  rcases ht.efecto with ⟨heq, hcarg, -⟩ | ⟨i, hi, hf, rfl, heq⟩ | ⟨i, hi, d, hf, rfl, -, rfl⟩
    | ⟨i, hi, d, -, -, hno, -⟩ | ⟨i, hi, d, hf, rfl, heq⟩
  · rw [heq]
    exact hinv.quieto hh hcarg
  · rw [heq]
    exact hinv.carga hh hi (by rw [hf]; rfl) rfl
  · -- the entry read for `conectar` is the one whose load was raised
    have hd : hilos[h].fase.cargada = some ((i : ℤ), d) := by rw [hf]; rfl
    obtain ⟨j, hj, hij, hjd⟩ := hinv.posiciones _ (List.getElem_mem hh) _ _ hd
    obtain rfl : i = j := by exact_mod_cast hij
    apply hinv.quieto hh
    rw [hd, ← hjd]
    rfl
  -- refused connections are excluded
  · rw [hacep] at hno
    cases hno
  · have hd : hilos[h].fase.cargada = some ((i : ℤ), d) := by rw [hf]; rfl
    obtain ⟨j, hj, hij, rfl⟩ := hinv.posiciones _ (List.getElem_mem hh) _ _ hd
    obtain rfl : i = j := by exact_mod_cast hij
    rw [heq]
    exact hinv.descarga hh hi hd rfl

/-- **The step lemma.** -/
theorem CargaInv.paso {s s' : Estado} {a : Accion} (hinv : CargaInv s)
    (hacep : ConexionAceptada a) (hok : SinCorrimiento s a)
    (h : LoadBalancer.paso s a = some s') : CargaInv s' := by
  cases paso_avanza h with
  | llegada p =>
      exact ⟨hinv.tabla.llegada rfl, forall_hilos_append hinv.aceptadas hacep, hinv.nuevo⟩
  | metodo m => exact ⟨hinv.tabla, hinv.aceptadas, hinv.nuevo⟩
  | hilo h hh b f hlibre ht =>
      have hp := hinv.aceptadas _ (List.getElem_mem hh)
      refine ⟨ht.tablaFiel hh hp hinv.tabla, forall_hilos_set hinv.aceptadas hp,
        fun ip hip => ?_⟩
      rw [ht.comparadores]
      exact hinv.nuevo ip hip
  | registroNuevo ip hf hb =>
      refine ⟨hinv.tabla, hinv.aceptadas, fun ip' hip' hmem => ?_⟩
      cases hip'
      obtain ⟨srv, hsrv, heq⟩ := List.mem_map.mp hmem
      exact buscarServidor_eq_none hb srv hsrv heq
  | registroRepetido ip i hb => exact hinv
  | alta ip azar memoria nuevo hf hn =>
      obtain ⟨hclave, hcero, -⟩ := nuevoServidor_eq_some hn
      refine ⟨hinv.tabla.alta ?_ hcero, hinv.aceptadas, fun ip' hip' => by cases hip'⟩
      rw [hclave]
      exact hinv.nuevo ip hf
  | bajaAusente ip hb => exact hinv
  | bajaPresente ip posicion hf hb =>
      exact ⟨hinv.tabla, hinv.aceptadas, fun ip' hip' => by cases hip'⟩
  | borrado posicion hf hp =>
      exact ⟨hinv.tabla.borrado hp (hok posicion hf), hinv.aceptadas, fun ip' hip' => by cases hip'⟩

theorem cargaInv_inicial : CargaInv Estado.inicial where
  tabla := ⟨List.nodup_nil, fun t ht => (by cases ht), fun j hj => (by cases hj)⟩
  aceptadas := by
    intro t ht
    cases ht
  nuevo := by
    intro ip hip
    cases hip

/-- The invariant is more than the property. -/
theorem CargaInv.fieles {s : Estado} (hinv : CargaInv s) : CargasFieles s where
  exactas := by
    intro srv hsrv
    obtain ⟨j, hj, rfl⟩ := List.getElem_of_mem hsrv
    exact hinv.tabla.cargas j hj
  no_negativas := by
    intro srv hsrv
    obtain ⟨j, hj, rfl⟩ := List.getElem_of_mem hsrv
    rw [hinv.tabla.cargas j hj]
    exact Int.natCast_nonneg _
  ajenas := by
    intro h hh i destino s' hf hpaso j srv hj hne
    cases paso_avanza hpaso with
    | hilo h hh b f hlibre ht =>
        rw [hf] at ht
        cases ht with
        | descarga i hi destino hmin =>
            have hd : s.hilos[h].fase.cargada = some ((i : ℤ), destino) := by rw [hf]; rfl
            obtain ⟨k, hk, hik, hkd⟩ := hinv.tabla.posiciones _ (List.getElem_mem hh) _ _ hd
            obtain rfl : i = k := by exact_mod_cast hik
            -- the entry at `i` is that of `destino`, so the other server is elsewhere
            have hij : i ≠ j := by
              rintro rfl
              rw [List.getElem?_eq_getElem hi, Option.some.injEq] at hj
              exact hne (by rw [← hj, hkd])
            rw [List.getElem?_set_ne hij]
            exact hj

/-! ## The result on loads -/

/-- **Every load is the number of requests in flight to that server**, in every run in which
all connections succeed and no removal is at or before the position of a request in
flight. What a request raises it lowers at the same position, which is the same server as long as no
removal shifts it. -/
theorem carga_eq_enVuelo {s : Estado}
    (hr : Reach paso (fun s a => ConexionAceptada a ∧ SinCorrimiento s a) Estado.inicial s) :
    CargasFieles s := by
  have hinv : CargaInv s := hr.invariant CargaInv cargaInv_inicial
    fun _ _ _ hinv hok h => hinv.paso hok.1 hok.2 h
  exact hinv.fieles

/-- A run with a removal that is behind the one request in flight. -/
theorem carga_eq_enVuelo_tras_una_baja :
    ∃ s, Reach paso (fun s a => ConexionAceptada a ∧ SinCorrimiento s a) Estado.inicial s
      ∧ s.balanceador.servidores.length = 1 ∧ enVuelo s.hilos "10.0.0.1/80".toList = 1
      ∧ CargasFieles s := by
  obtain ⟨s, hs, hlen, hcount⟩ : ∃ s, exec paso Estado.inicial
      [.registro "10.0.0.1/80".toList, .alta 0 [], .registro "10.0.0.2/80".toList, .alta 0 [],
        .llegada (.minima true), .hilo 0, .hilo 0, .hilo 0, .hilo 0, .hilo 0,
        .baja "10.0.0.2/80".toList, .borrado] = some s
      ∧ s.balanceador.servidores.length = 1 ∧ enVuelo s.hilos "10.0.0.1/80".toList = 1 :=
    ⟨_, rfl, rfl, rfl⟩
  have hok : AllOk paso (fun s a => ConexionAceptada a ∧ SinCorrimiento s a) Estado.inicial
      [.registro "10.0.0.1/80".toList, .alta 0 [], .registro "10.0.0.2/80".toList, .alta 0 [],
        .llegada (.minima true), .hilo 0, .hilo 0, .hilo 0, .hilo 0, .hilo 0,
        .baja "10.0.0.2/80".toList, .borrado] := by
    refine ⟨⟨trivial, trivial⟩, ⟨trivial, trivial⟩, ⟨trivial, trivial⟩, ⟨trivial, trivial⟩,
      ⟨rfl, trivial⟩, ⟨trivial, trivial⟩, ⟨trivial, trivial⟩, ⟨trivial, trivial⟩,
      ⟨trivial, trivial⟩, ⟨trivial, trivial⟩, ⟨trivial, trivial⟩,
      ⟨trivial, fun posicion hp t ht i destino hc => ?_⟩, trivial⟩
    -- the request in flight is at position `0`, the removal at position `1`
    cases hp
    obtain rfl := List.mem_singleton.mp ht
    cases hc
    decide
  have hr := Reach.of_exec hok hs
  exact ⟨s, hr, hlen, hcount, carga_eq_enVuelo hr⟩

/-- **A request lowers the load of another server.** Its own server, the first of two,
disconnects while the request is being relayed. -/
theorem carga_de_otro_servidor :
    ¬ ∀ s, Reach paso (fun _ a => ConexionAceptada a) Estado.inicial s → CargasFieles s := by
  intro hall
  obtain ⟨s, hs, srv, hsrv, hneg⟩ : ∃ s, exec paso Estado.inicial
      [.registro "10.0.0.1/80".toList, .alta 0 [], .registro "10.0.0.2/80".toList, .alta 0 [],
        .llegada (.minima true), .hilo 0, .hilo 0, .hilo 0, .hilo 0, .hilo 0, .hilo 0, .hilo 0,
        .baja "10.0.0.1/80".toList, .borrado, .hilo 0] = some s
      ∧ ∃ srv ∈ s.balanceador.servidores, srv.carga_actual = -1 :=
    ⟨_, rfl, _, List.mem_singleton_self _, rfl⟩
  have hok : AllOk paso (fun _ a => ConexionAceptada a) Estado.inicial
      [.registro "10.0.0.1/80".toList, .alta 0 [], .registro "10.0.0.2/80".toList, .alta 0 [],
        .llegada (.minima true), .hilo 0, .hilo 0, .hilo 0, .hilo 0, .hilo 0, .hilo 0, .hilo 0,
        .baja "10.0.0.1/80".toList, .borrado, .hilo 0] :=
    ⟨trivial, trivial, trivial, trivial, rfl, trivial, trivial, trivial, trivial, trivial,
      trivial, trivial, trivial, trivial, trivial, trivial⟩
  have := (hall s (Reach.of_exec hok hs)).no_negativas srv hsrv
  omega

end LoadBalancer
