/-
Which positions of `servidores` a request uses, and when they are inside the vector.

`hilo_Cliente` tests `servidores.empty()` once, chooses a position in a critical section,
and uses it in four later steps: `carga_actual++`, the `ip` and `port` given to
`conectar`, `carga_actual--`, and the last line of the log. The listener may `erase` an
entry between any two of them. So in general the accesses are *not* in range
([`acceso_fuera_de_rango`]); they are when no removal takes the end of the table away
from under a request or from under the round-robin cursor, which is [`BajaSegura`], and
when `buscarServidorConMenorCarga` has something to find.

The invariant is [`IndicesEnRango`]: every position a request in flight still depends on
is inside the table, with position `0` standing for those that have passed the test for
an empty table and have not chosen yet.
-/
import LoadBalancer.Hilos

set_option autoImplicit false

namespace LoadBalancer

open LoadBalancer.Transition

/-! ## The accesses -/

/-- `Accede s a i`: taking the action `a` in `s`, a request uses position `i` of
`servidores`. -/
inductive Accede (s : Estado) : Accion → ℤ → Prop
  /-- The test of the `while` of `ROUND_ROBIN_PESOS` that follows `vueltas` turns. -/
  | escaneo (h : ℕ) (hh : h < s.hilos.length)
      (hf : s.hilos[h].fase = .elegir .ROUND_ROBIN_PESOS ∨ s.hilos[h].fase = .escaneando)
      (vueltas value : ℕ)
      (hv : escanear s.balanceador.servidores vueltas 0 = .sigue value) :
      Accede s (.hilo h) value
  /-- `&servidores[random]` in `agregarCliente`. -/
  | asociado (h : ℕ) (hh : h < s.hilos.length) (hf : s.hilos[h].fase = .asociarServidor)
      (random : ℤ)
      (hr : Utilidades.getNumeroRandom s.hilos[h].peticion.azar 0
        ((s.balanceador.servidores.length : ℤ) - 1) = some random) :
      Accede s (.hilo h) random
  /-- `servidores[indice_ip].carga_actual++`. -/
  | carga (h : ℕ) (hh : h < s.hilos.length) (i : ℤ) (hf : s.hilos[h].fase = .cargar i) :
      Accede s (.hilo h) i
  /-- `servidores[indice_ip].ip` and `.port` in the call of `conectar`. -/
  | conexion (h : ℕ) (hh : h < s.hilos.length) (i : ℤ) (destino : Texto)
      (hf : s.hilos[h].fase = .conectar i destino) : Accede s (.hilo h) i
  /-- `servidores[indice_ip].carga_actual--`. -/
  | descarga (h : ℕ) (hh : h < s.hilos.length) (i : ℤ) (destino : Texto)
      (hf : s.hilos[h].fase = .descargar i destino) : Accede s (.hilo h) i
  /-- `servidores[indice_ip].ip` in the log. -/
  | registro (h : ℕ) (hh : h < s.hilos.length) (i : ℤ) (hf : s.hilos[h].fase = .registrar i) :
      Accede s (.hilo h) i

/-- The position a thread still depends on: the one it chose, or position `0` if it has
only seen that the table is not empty. -/
def Fase.reserva : Fase → Option ℤ
  | .inicio => none
  | .elegirMetodo => some 0
  | .elegir _ => some 0
  | .agregarCliente => some 0
  | .asociarServidor => some 0
  | .guardarCliente _ => some 0
  | .escaneando => some 0
  | .cargar i => some i
  | .conectar i _ => some i
  | .recibir i _ _ _ => some i
  | .responder i _ _ => some i
  | .descargar i _ => some i
  | .registrar i => some i
  | .terminado _ => none

/-! ## The condition on the steps -/

/-- The `erase` that is due leaves every position in use, and the cursor, inside what
remains of the table. -/
def BajaSegura (s : Estado) : Prop :=
  (∀ t ∈ s.hilos, ∀ i, t.fase.reserva = some i → i + 1 < s.balanceador.servidores.length)
    ∧ (s.balanceador.servidores.length ≤ 1
        ∨ s.balanceador.roundRobin_Actual + 1 < s.balanceador.servidores.length)

/-- A selection by `CONEXIONES_ACTIVA` finds a load below `INT32_MAX`. -/
def HayMenorCarga (s : Estado) (h : ℕ) : Prop :=
  ∀ t, s.hilos[h]? = some t → t.fase = .elegir .CONEXIONES_ACTIVA →
    ∃ srv ∈ s.balanceador.servidores, srv.carga_actual < INT32_MAX

/-- The steps that keep the positions in use inside the table. -/
def PasoSeguro (s : Estado) : Accion → Prop
  | .borrado => BajaSegura s
  | .hilo h => HayMenorCarga s h
  | _ => True

/-! ## The invariant -/

structure IndicesEnRango (s : Estado) : Prop where
  cursor : s.balanceador.roundRobin_Actual = 0
    ∨ s.balanceador.roundRobin_Actual < s.balanceador.servidores.length
  reservas : ∀ t ∈ s.hilos, ∀ i, t.fase.reserva = some i →
    0 ≤ i ∧ i < s.balanceador.servidores.length

/-- The scan tests positions of the table only, once it starts inside. -/
theorem escanear_sigue_lt {servidores : List ServidorRegistrado} {vueltas value value' : ℕ}
    (hvalue : value < servidores.length)
    (h : escanear servidores vueltas value = .sigue value') : value' < servidores.length := by
  induction vueltas generalizing value with
  | zero =>
      rw [escanear, Escaneo.sigue.injEq] at h
      omega
  | succ vueltas ih =>
      rw [escanear, List.getElem?_eq_getElem hvalue] at h
      dsimp only at h
      split_ifs at h
      exact ih (siguienteRoundRobin_lt (by omega)) h

/-- **One step of a thread** keeps the length of the table and the cursor, and the position
it depends on afterwards is inside. -/
theorem Transita.enRango {b b' : Balanceador} {p : Peticion} {f f' : Fase}
    (ht : Transita b p f b' f')
    (hcur : b.roundRobin_Actual = 0 ∨ b.roundRobin_Actual < b.servidores.length)
    (hres : ∀ i, f.reserva = some i → 0 ≤ i ∧ i < b.servidores.length)
    (hmenor : f = .elegir .CONEXIONES_ACTIVA → ∃ srv ∈ b.servidores, srv.carga_actual < INT32_MAX) :
    b'.servidores.length = b.servidores.length
      ∧ (b'.roundRobin_Actual = 0 ∨ b'.roundRobin_Actual < b.servidores.length)
      ∧ ∀ i, f'.reserva = some i → 0 ≤ i ∧ i < b.servidores.length := by
  cases ht with
  | vacia h => exact ⟨rfl, hcur, fun i hi => by cases hi⟩
  -- the table is not empty, so position `0` is inside: the reservation starts here
  | noVacia h =>
      refine ⟨rfl, hcur, fun i hi => ?_⟩
      have hpos := List.length_pos_iff.mpr h
      simp only [Fase.reserva, Option.some.injEq] at hi
      omega
  | metodo => exact ⟨rfl, hcur, hres⟩
  -- the position handed out is the old cursor; position `0` being inside makes it so too
  | roundRobin =>
      have hpos := (hres 0 rfl).2
      refine ⟨rfl, .inr (siguienteRoundRobin_lt (by omega)), fun i hi => ?_⟩
      simp only [Fase.reserva, Option.some.injEq] at hi
      omega
  | pesos i h =>
      refine ⟨rfl, hcur, fun j hj => ?_⟩
      obtain ⟨hlt, -⟩ := escanear_elige_libre h
      simp only [Fase.reserva, Option.some.injEq] at hj
      omega
  | pesosSinFin i h => exact ⟨rfl, hcur, hres⟩
  | clienteConocido c h => exact ⟨rfl, hcur, hres⟩
  | clienteNuevo h => exact ⟨rfl, hcur, hres⟩
  | clienteRepetido c h => exact ⟨rfl, hcur, hres⟩
  | sinRegistro h => exact ⟨rfl, hcur, hres⟩
  | asociado random h hi => exact ⟨rfl, hcur, hres⟩
  | guardado random => exact ⟨rfl, hcur, hres⟩
  | menosConexiones =>
      obtain ⟨j, hj, hlt⟩ := buscarServidorConMenorCarga_mem (hmenor rfl)
      refine ⟨rfl, hcur, fun i hi => ?_⟩
      simp only [Fase.reserva, Option.some.injEq] at hi
      omega
  | escaneo => exact ⟨rfl, hcur, hres⟩
  -- from here on the thread keeps the position it has
  | carga i hi hmax => exact ⟨List.length_set, hcur, hres⟩
  | conexion i hi destino h => exact ⟨rfl, hcur, hres⟩
  | rechazo i hi destino h => exact ⟨rfl, hcur, fun j hj => by cases hj⟩
  | lectura i destino leido leido' lecturas h => exact ⟨rfl, hcur, hres⟩
  | encontroFinal i destino leido leido' lecturas h => exact ⟨rfl, hcur, hres⟩
  | reenvio i destino respuestas h => exact ⟨rfl, hcur, hres⟩
  | finRespuesta i destino respuestas h => exact ⟨rfl, hcur, hres⟩
  | descarga i hi destino hmin => exact ⟨List.length_set, hcur, hres⟩
  | registro i hi => exact ⟨rfl, hcur, fun j hj => by cases hj⟩

/-- **The step lemma.** -/
theorem IndicesEnRango.paso {s s' : Estado} {a : Accion} (hinv : IndicesEnRango s)
    (hok : PasoSeguro s a) (h : LoadBalancer.paso s a = some s') : IndicesEnRango s' := by
  cases paso_avanza h with
  | llegada p =>
      refine ⟨hinv.cursor, forall_hilos_append hinv.reservas fun i hi => ?_⟩
      cases hi
  | metodo m => exact ⟨hinv.cursor, hinv.reservas⟩
  | hilo h hh b f hlibre ht =>
      obtain ⟨hlen, hcur, hres⟩ := ht.enRango hinv.cursor
        (hinv.reservas _ (List.getElem_mem hh)) (hok _ (List.getElem?_eq_getElem hh))
      refine ⟨by simpa only [hlen] using hcur, ?_⟩
      simp only [hlen]
      exact forall_hilos_set hinv.reservas hres
  | registroNuevo ip hf hb => exact ⟨hinv.cursor, hinv.reservas⟩
  | registroRepetido ip i hb => exact hinv
  | alta ip azar memoria nuevo hf hn =>
      refine ⟨?_, fun t ht i hi => ?_⟩
      · have := hinv.cursor
        simp only [List.length_append, List.length_singleton]
        omega
      · have := hinv.reservas t ht i hi
        simp only [List.length_append, List.length_singleton]
        omega
  | bajaAusente ip hb => exact hinv
  | bajaPresente ip posicion hf hb => exact ⟨hinv.cursor, hinv.reservas⟩
  | borrado posicion hf hp =>
      -- one entry less: this is where the condition on the step is needed
      obtain ⟨hres, hcur⟩ := hok
      have hlen := List.length_eraseIdx_of_lt hp
      refine ⟨?_, fun t ht i hi => ?_⟩
      · have := hinv.cursor
        simp only [hlen]
        omega
      · have h0 := hinv.reservas t ht i hi
        have h1 := hres t ht i hi
        simp only [hlen]
        omega

theorem indicesEnRango_inicial : IndicesEnRango Estado.inicial where
  cursor := .inl rfl
  reservas := by
    intro t ht
    cases ht

/-- An access to a table in the invariant is inside it. -/
theorem IndicesEnRango.accede {s : Estado} {a : Accion} {i : ℤ} (hinv : IndicesEnRango s)
    (ha : Accede s a i) : 0 ≤ i ∧ i < s.balanceador.servidores.length := by
  cases ha with
  | escaneo h hh hf vueltas value hv =>
      -- a thread that scans still depends on position `0`
      have hpos : (0 : ℤ) < s.balanceador.servidores.length := by
        refine (hinv.reservas _ (List.getElem_mem hh) 0 ?_).2
        rcases hf with hf | hf <;> rw [hf] <;> rfl
      have hlt := escanear_sigue_lt (by omega) hv
      omega
  | asociado h hh hf random hr =>
      have hpos := (hinv.reservas _ (List.getElem_mem hh) 0 (by rw [hf]; rfl)).2
      have hbounds := Utilidades.getNumeroRandom_bounds (by omega) hr
      omega
  | carga h hh i hf => exact hinv.reservas _ (List.getElem_mem hh) i (by rw [hf]; rfl)
  | conexion h hh i destino hf => exact hinv.reservas _ (List.getElem_mem hh) i (by rw [hf]; rfl)
  | descarga h hh i destino hf => exact hinv.reservas _ (List.getElem_mem hh) i (by rw [hf]; rfl)
  | registro h hh i hf => exact hinv.reservas _ (List.getElem_mem hh) i (by rw [hf]; rfl)

/-! ## The result -/

/-- **Every access of a request is inside the table**, in every run in which no removal
takes the end of the table away from under a request or the cursor, and every
`CONEXIONES_ACTIVA` selection sees a load below `INT32_MAX`. The position is chosen in one critical
section and used in later ones, and only a removal makes the table shorter in between. -/
theorem accesos_en_rango {s : Estado} (hr : Reach paso PasoSeguro Estado.inicial s)
    {a : Accion} {i : ℤ} (ha : Accede s a i) :
    0 ≤ i ∧ i < s.balanceador.servidores.length := by
  have hinv : IndicesEnRango s :=
    hr.invariant IndicesEnRango indicesEnRango_inicial fun _ _ _ hinv hok h => hinv.paso hok h
  exact hinv.accede ha

/-- A run of the kind the theorem is about: a request has chosen the first of two servers
when the second one disconnects. -/
theorem accesos_en_rango_tras_una_baja :
    ∃ s, Reach paso PasoSeguro Estado.inicial s ∧ Accede s (.hilo 0) 0
      ∧ 0 ≤ (0 : ℤ) ∧ (0 : ℤ) < s.balanceador.servidores.length := by
  obtain ⟨s, hs, hh, hf⟩ : ∃ s, exec paso Estado.inicial
      [.registro "10.0.0.1/80".toList, .alta 0 [], .registro "10.0.0.2/80".toList, .alta 0 [],
        .metodo .ROUND_ROBIN_PESOS, .llegada (.minima true), .hilo 0, .hilo 0, .hilo 0,
        .baja "10.0.0.2/80".toList, .borrado] = some s
      ∧ ∃ hh : 0 < s.hilos.length, s.hilos[0].fase = .cargar 0 := ⟨_, rfl, by decide, rfl⟩
  have hok : AllOk paso PasoSeguro Estado.inicial
      [.registro "10.0.0.1/80".toList, .alta 0 [], .registro "10.0.0.2/80".toList, .alta 0 [],
        .metodo .ROUND_ROBIN_PESOS, .llegada (.minima true), .hilo 0, .hilo 0, .hilo 0,
        .baja "10.0.0.2/80".toList, .borrado] := by
    refine ⟨trivial, trivial, trivial, trivial, trivial, trivial, ?_, ?_, ?_, trivial,
      ⟨fun t ht i hi => ?_, .inr (by decide)⟩, trivial⟩
    -- the three steps of the request: none is a `CONEXIONES_ACTIVA` selection
    iterate 3 (intro t ht hf; cases ht; cases hf)
    -- the removal: the one request depends on position `0`, and two servers are registered
    obtain rfl := List.mem_singleton.mp ht
    cases hi
    decide
  have hr := Reach.of_exec hok hs
  have ha : Accede s (.hilo 0) 0 := .carga 0 hh 0 hf
  exact ⟨s, hr, ha, accesos_en_rango hr ha⟩

/-- **A request uses a position past the end.** It chooses position `0` of a table of one
server; the server disconnects before the `carga_actual++`. -/
theorem acceso_fuera_de_rango :
    ¬ ∀ s, Reach paso always Estado.inicial s → ∀ a i, Accede s a i →
      0 ≤ i ∧ i < s.balanceador.servidores.length := by
  intro hall
  obtain ⟨s, hs, hh, hf, hvacia⟩ : ∃ s, exec paso Estado.inicial
      [.registro "10.0.0.1/80".toList, .alta 0 [], .llegada (.minima true),
        .hilo 0, .hilo 0, .hilo 0, .baja "10.0.0.1/80".toList, .borrado] = some s
      ∧ ∃ hh : 0 < s.hilos.length, s.hilos[0].fase = .cargar 0
        ∧ s.balanceador.servidores.length = 0 := ⟨_, rfl, by decide, rfl, rfl⟩
  have hrango := hall s (Reach.of_exec (allOk_always _ _) hs) _ _ (.carga 0 hh 0 hf)
  omega

end LoadBalancer
