/-
`CONEXIONES_ACTIVA`: the least load when it is looked up, and when it is raised.

`buscarServidorConMenorCarga` looks for the least load in one critical section, and the
`carga_actual++` is in a later one. What was the least load then need not be it now
([`carga_sobre_la_menor`]): another request may have raised it, or one that completes may have
lowered another server's. [`MinimoConservado`] is the condition on such steps under which no
waiting request is left with a server that has not got the least load any more, and
[`minimo_al_contar_iff`] says that it is exact.
-/
import LoadBalancer.Metodo
import LoadBalancer.Restitucion

set_option autoImplicit false

namespace LoadBalancer

open LoadBalancer.Transition

/-! ## Loads by position -/

/-- `servidores[j].carga_actual`, for a position inside the table. -/
def cargaEn (servidores : List ServidorRegistrado) (j : ℕ) : ℤ :=
  (servidores.map (·.carga_actual)).getD j 0

theorem cargaEn_eq {servidores : List ServidorRegistrado} {j : ℕ} (hj : j < servidores.length) :
    cargaEn servidores j = servidores[j].carga_actual := by
  rw [cargaEn, List.getD_eq_getElem?_getD, List.getElem?_map, List.getElem?_eq_getElem hj]
  rfl

theorem cargaEn_set {servidores : List ServidorRegistrado} {i : ℕ} (hi : i < servidores.length)
    (c : ℤ) (j : ℕ) :
    cargaEn (servidores.set i { servidores[i] with carga_actual := c }) j
      = if j = i then c else cargaEn servidores j := by
  have hi' : i < (servidores.map (·.carga_actual)).length := by rwa [List.length_map]
  unfold cargaEn
  rw [List.map_set, List.getD_eq_getElem?_getD, List.getD_eq_getElem?_getD]
  split_ifs with hji
  · rw [hji, List.getElem?_set_self hi', Option.getD_some]
  · rw [List.getElem?_set_ne (Ne.symm hji)]

/-- The server at position `i` has the least load of all. -/
def CargaMinima (servidores : List ServidorRegistrado) (i : ℕ) : Prop :=
  i < servidores.length ∧ ∀ j < servidores.length, cargaEn servidores i ≤ cargaEn servidores j

/-- What `buscarServidorConMenorCarga` finds has the least load. -/
theorem cargaMinima_of_buscar {servidores : List ServidorRegistrado} {i : ℕ}
    (h : buscarServidorConMenorCarga servidores = i) : CargaMinima servidores i := by
  obtain ⟨hi, hall⟩ := buscarServidorConMenorCarga_le h
  refine ⟨hi, fun j hj => ?_⟩
  rw [cargaEn_eq hi, cargaEn_eq hj]
  exact hall _ (List.getElem_mem hj)

/-- The first of the least loads is the one that is less than every load before it. -/
theorem isLeast_cargaMinima {servidores : List ServidorRegistrado} {k : ℕ}
    (hk : k < servidores.length)
    (hall : ∀ s ∈ servidores, servidores[k].carga_actual ≤ s.carga_actual)
    (hfirst : ∀ (j : ℕ) (hj : j < servidores.length), j < k →
      servidores[k].carga_actual < servidores[j].carga_actual) :
    IsLeast {j | CargaMinima servidores j} k := by
  constructor
  · refine ⟨hk, fun j hj => ?_⟩
    rw [cargaEn_eq hk, cargaEn_eq hj]
    exact hall _ (List.getElem_mem hj)
  · rintro j ⟨hj, hle⟩
    by_contra hjk
    have hkj := hle k hk
    rw [cargaEn_eq hk, cargaEn_eq hj] at hkj
    exact absurd (hfirst j hj (by omega)) (not_lt.mpr hkj)

/-- **`buscarServidorConMenorCarga`** returns the first position of least load, whatever the
table, as long as no load has reached the value that the running minimum starts with; of an empty
table it returns `-1`. It is the first one because a later position replaces it only with a smaller
load. -/
theorem buscarServidorConMenorCarga_primera (servidores : List ServidorRegistrado)
    (hmax : ∀ s ∈ servidores, s.carga_actual < INT32_MAX) :
    (servidores ≠ [] → ∃ i : ℕ, buscarServidorConMenorCarga servidores = i
        ∧ IsLeast {j | CargaMinima servidores j} i)
      ∧ (servidores = [] → buscarServidorConMenorCarga servidores = -1) := by
  unfold buscarServidorConMenorCarga
  constructor
  · intro hne
    rcases menorCarga_casos servidores 0 (-1) INT32_MAX with ⟨-, hall⟩ | ⟨k, hk, heq, -, hall, hfirst⟩
    · -- the position has moved: the first load is already below the start value
      obtain ⟨s, hs⟩ := List.exists_mem_of_ne_nil servidores hne
      exact absurd (hmax s hs) (not_lt.mpr (hall s hs))
    · rw [Nat.zero_add] at heq
      exact ⟨k, heq, isLeast_cargaMinima hk hall fun j _ hj => hfirst j hj⟩
  · intro hnil
    rw [hnil, menorCarga]

/-- Three servers with these loads. -/
def tresCargas (a b c : ℤ) : List ServidorRegistrado :=
  [⟨['a', '/', '1'], [], 1, a, 5⟩, ⟨['b', '/', '1'], [], 1, b, 5⟩, ⟨['c', '/', '1'], [], 1, c, 5⟩]

/-- Loads 3, 1 and 1: the second server, and not the third. -/
theorem buscarServidorConMenorCarga_tres_cargas :
    ∃ i : ℕ, buscarServidorConMenorCarga (tresCargas 3 1 1) = i
      ∧ IsLeast {j | CargaMinima (tresCargas 3 1 1) j} i :=
  (buscarServidorConMenorCarga_primera (tresCargas 3 1 1) (by decide)).1 (by decide)

/-- A server of least load still has it after the load of `i` is raised, unless it is `i` itself
and not the only one. -/
theorem cargaMinima_suma {servidores : List ServidorRegistrado} {i i' : ℕ}
    (hi : i < servidores.length) (hmin : CargaMinima servidores i') :
    CargaMinima (servidores.set i
        { servidores[i] with carga_actual := servidores[i].carga_actual + 1 }) i'
      ↔ (i' = i → ∀ j < servidores.length, j ≠ i →
          cargaEn servidores i < cargaEn servidores j) := by
  obtain ⟨hi', hle⟩ := hmin
  unfold CargaMinima
  simp only [List.length_set, cargaEn_set hi, ← cargaEn_eq hi]
  constructor
  · rintro ⟨-, hall⟩ rfl j hj hji
    have := hall j hj
    rw [if_pos rfl, if_neg hji] at this
    omega
  · refine fun hraise => ⟨hi', fun j hj => ?_⟩
    have hj' := hle j hj
    by_cases hii : i' = i
    · rw [if_pos hii]
      split_ifs with hji
      · exact le_refl _
      · have := hraise hii j hj hji
        omega
    · rw [if_neg hii]
      split_ifs with hji
      · rw [← hji]
        omega
      · exact hj'

/-- A server of least load still has it after the load of `i` is lowered, if it is `i` itself or
has less. -/
theorem cargaMinima_resta {servidores : List ServidorRegistrado} {i i' : ℕ}
    (hi : i < servidores.length) (hmin : CargaMinima servidores i') :
    CargaMinima (servidores.set i
        { servidores[i] with carga_actual := servidores[i].carga_actual - 1 }) i'
      ↔ (i' ≠ i → cargaEn servidores i' < cargaEn servidores i) := by
  obtain ⟨hi', hle⟩ := hmin
  unfold CargaMinima
  simp only [List.length_set, cargaEn_set hi, ← cargaEn_eq hi]
  constructor
  · rintro ⟨-, hall⟩ hii
    have := hall i hi
    rw [if_neg hii, if_pos rfl] at this
    omega
  · refine fun hlower => ⟨hi', fun j hj => ?_⟩
    have hj' := hle j hj
    by_cases hii : i' = i
    · subst hii
      rw [if_pos rfl]
      split_ifs <;> omega
    · rw [if_neg hii]
      split_ifs with hji
      · have := hlower hii
        omega
      · exact hj'

/-! ## Requests that are about to count themselves -/

/-- The next step of the thread at position `k` is `servidores[i].carga_actual++`. -/
def PorContar (s : Estado) (k i : ℕ) : Prop := ∃ p, s.hilos[k]? = some ⟨p, .cargar i⟩

/-- Every request that is about to count itself, each of which may be the next to run, does so
at a server of least load. -/
def EnMinimo (s : Estado) : Prop :=
  ∀ k i, PorContar s k i → CargaMinima s.balanceador.servidores i

/-- The step leaves the others' servers with the least load. Raising the load of `i`: if another
request has chosen `i` too, every other load is greater. Lowering the load of `j`: it is greater
than the load of every other server that has been chosen. -/
def MinimoConservado (s : Estado) : Accion → Prop
  | .hilo h =>
      (∀ i k, PorContar s h i → k ≠ h → PorContar s k i →
        ∀ j < s.balanceador.servidores.length, j ≠ i →
          cargaEn s.balanceador.servidores i < cargaEn s.balanceador.servidores j)
      ∧ ∀ p (j : ℕ) destino, s.hilos[h]? = some ⟨p, .descargar j destino⟩ →
        ∀ i k, i ≠ j → k ≠ h → PorContar s k i →
          cargaEn s.balanceador.servidores i < cargaEn s.balanceador.servidores j
  | _ => True

/-- What a thread's step does, on the way through `CONEXIONES_ACTIVA`, to what this file is
about: it raises a load, it lowers one, or it leaves them all; and what it chooses has the least
load. -/
theorem Transita.menorCarga {b b' : Balanceador} {p : Peticion} {f f' : Fase}
    (ht : Transita b p f b' f') (hf : f.enMetodo .CONEXIONES_ACTIVA) :
    (∃ (i : ℕ) (hi : i < b.servidores.length), f = .cargar i ∧ (∀ j : ℤ, f' ≠ .cargar j)
        ∧ b'.servidores = b.servidores.set i
            { b.servidores[i] with carga_actual := b.servidores[i].carga_actual + 1 })
      ∨ (∃ (i : ℕ) (hi : i < b.servidores.length) (destino : Texto), f = .descargar i destino
        ∧ (∀ j : ℤ, f' ≠ .cargar j)
        ∧ b'.servidores = b.servidores.set i
            { b.servidores[i] with carga_actual := b.servidores[i].carga_actual - 1 })
      ∨ ((∀ i : ℤ, f ≠ .cargar i) ∧ (∀ (i : ℤ) destino, f ≠ .descargar i destino)
        ∧ b'.servidores = b.servidores
        ∧ ∀ i : ℕ, f' = .cargar i → CargaMinima b.servidores i) := by
  cases ht with
  | carga i hi hmax => exact .inl ⟨i, hi, rfl, fun j h => (by cases h), rfl⟩
  | descarga i hi destino hmin =>
      exact .inr (.inl ⟨i, hi, destino, rfl, fun j h => (by cases h), rfl⟩)
  | menosConexiones =>
      refine .inr (.inr ⟨fun i h => (by cases h), fun i d h => (by cases h), rfl, fun i h => ?_⟩)
      exact cargaMinima_of_buscar (Fase.cargar.inj h)
  -- the choices of the other methods
  | roundRobin => cases hf
  | pesos i h => cases hf
  | clienteConocido c h => cases hf
  | clienteRepetido c h => cases hf
  | guardado random => cases hf
  | _ =>
      exact .inr (.inr ⟨fun i h => (by cases h), fun i d h => (by cases h), rfl,
        fun i h => (by cases h)⟩)

section Paso

variable {s s' : Estado} {h k i : ℕ} {b : Balanceador} {f : Fase}

/-- Who is about to count itself after a step of the thread at `h`. -/
theorem porContar_set (hh : h < s.hilos.length) :
    PorContar { s with balanceador := b, hilos := s.hilos.set h ⟨s.hilos[h].peticion, f⟩ } k i
      ↔ (k ≠ h ∧ PorContar s k i) ∨ (k = h ∧ f = .cargar i) := by
  unfold PorContar
  dsimp only
  by_cases hk : k = h
  · subst hk
    rw [List.getElem?_set_self hh]
    simp
  · rw [List.getElem?_set_ne (Ne.symm hk)]
    simp [hk]

theorem porContar_self (hh : h < s.hilos.length) (hf : s.hilos[h].fase = .cargar i) :
    PorContar s h i :=
  ⟨s.hilos[h].peticion, by rw [List.getElem?_eq_getElem hh, ← hf]⟩

theorem fase_of_getElem? (hh : h < s.hilos.length) {p : Peticion} (heq : s.hilos[h]? = some ⟨p, f⟩) :
    s.hilos[h].fase = f := by
  rw [List.getElem?_eq_getElem hh, Option.some.injEq] at heq
  rw [heq]

/-- After a step of the thread at `h` that chooses no server: the others are those who wait. -/
theorem enMinimo_set (hh : h < s.hilos.length) (hf : ∀ j : ℤ, f ≠ .cargar j) :
    EnMinimo { s with balanceador := b, hilos := s.hilos.set h ⟨s.hilos[h].peticion, f⟩ }
      ↔ ∀ k i, k ≠ h → PorContar s k i → CargaMinima b.servidores i := by
  constructor
  · intro hall k i hk hpor
    exact hall k i ((porContar_set hh).mpr (.inl ⟨hk, hpor⟩))
  · intro hall k i hpor
    obtain ⟨hk, hpor⟩ | ⟨-, hcargar⟩ := (porContar_set hh).mp hpor
    · exact hall k i hk hpor
    · exact absurd hcargar (hf i)

/-- After a `carga_actual++`. -/
theorem enMinimo_carga (hmin : EnMinimo s) (hh : h < s.hilos.length)
    (hi : i < s.balanceador.servidores.length) (hfase : s.hilos[h].fase = .cargar i)
    (hf : ∀ j : ℤ, f ≠ .cargar j)
    (hserv : b.servidores = s.balanceador.servidores.set i
      { s.balanceador.servidores[i] with
        carga_actual := s.balanceador.servidores[i].carga_actual + 1 }) :
    EnMinimo { s with balanceador := b, hilos := s.hilos.set h ⟨s.hilos[h].peticion, f⟩ }
      ↔ MinimoConservado s (.hilo h) := by
  rw [enMinimo_set hh hf, hserv]
  constructor
  · intro hall
    refine ⟨fun i' k hself hk hpor => ?_, fun p j destino heq => ?_⟩
    · obtain ⟨p, hp⟩ := hself
      have hi' := fase_of_getElem? hh hp
      rw [hfase, Fase.cargar.injEq, Nat.cast_inj] at hi'
      subst hi'
      exact (cargaMinima_suma hi (hmin k i hpor)).mp (hall k i hk hpor) rfl
    · have := fase_of_getElem? hh heq
      rw [hfase] at this
      cases this
  · rintro ⟨hraise, -⟩ k i' hk hpor
    refine (cargaMinima_suma hi (hmin k i' hpor)).mpr fun hii => ?_
    subst hii
    exact hraise i' k (porContar_self hh hfase) hk hpor

/-- After a `carga_actual--`. -/
theorem enMinimo_descarga (hmin : EnMinimo s) (hh : h < s.hilos.length)
    (hi : i < s.balanceador.servidores.length) {destino : Texto}
    (hfase : s.hilos[h].fase = .descargar i destino) (hf : ∀ j : ℤ, f ≠ .cargar j)
    (hserv : b.servidores = s.balanceador.servidores.set i
      { s.balanceador.servidores[i] with
        carga_actual := s.balanceador.servidores[i].carga_actual - 1 }) :
    EnMinimo { s with balanceador := b, hilos := s.hilos.set h ⟨s.hilos[h].peticion, f⟩ }
      ↔ MinimoConservado s (.hilo h) := by
  rw [enMinimo_set hh hf, hserv]
  constructor
  · intro hall
    refine ⟨fun i' k hself => ?_, fun p j destino' heq i' k hij hk hpor => ?_⟩
    · obtain ⟨p, hp⟩ := hself
      have := fase_of_getElem? hh hp
      rw [hfase] at this
      cases this
    · have hj := fase_of_getElem? hh heq
      rw [hfase, Fase.descargar.injEq, Nat.cast_inj] at hj
      obtain ⟨rfl, -⟩ := hj
      exact (cargaMinima_resta hi (hmin k i' hpor)).mp (hall k i' hk hpor) hij
  · rintro ⟨-, hlower⟩ k i' hk hpor
    refine (cargaMinima_resta hi (hmin k i' hpor)).mpr fun hii => ?_
    have heq : s.hilos[h]? = some ⟨s.hilos[h].peticion, .descargar i destino⟩ := by
      rw [List.getElem?_eq_getElem hh, ← hfase]
    exact hlower s.hilos[h].peticion i destino heq i' k hii hk hpor

/-- Of the steps of a run through `CONEXIONES_ACTIVA`, exactly those that meet the condition
keep every waiting request at a server of least load. -/
theorem enMinimo_paso {a : Accion} (hmet : EnMetodo .CONEXIONES_ACTIVA s) (hmin : EnMinimo s)
    (hfija : TablaFija s a) (hpaso : paso s a = some s') :
    EnMinimo s' ↔ MinimoConservado s a := by
  cases paso_avanza hpaso with
  | llegada p =>
      refine iff_of_true (fun k i hpor => hmin k i ?_) trivial
      obtain ⟨q, hq⟩ := hpor
      refine ⟨q, ?_⟩
      dsimp only at hq
      -- the new thread stands at its start
      rw [List.getElem?_append] at hq
      split_ifs at hq with hlt
      · exact hq
      · simp [List.getElem?_singleton] at hq
  | metodo m => exact iff_of_true hmin trivial
  | registroNuevo ip hf hb => exact iff_of_true hmin trivial
  | registroRepetido ip i hb => exact iff_of_true hmin trivial
  | bajaAusente ip hb => exact iff_of_true hmin trivial
  | bajaPresente ip posicion hf hb => exact iff_of_true hmin trivial
  | alta ip azar memoria nuevo hf hn => exact hfija.elim
  | borrado posicion hf hp => exact hfija.elim
  | hilo h' hh b f hlibre ht =>
      rcases ht.menorCarga (hmet _ (List.getElem_mem hh)) with ⟨i, hi, hfase, hf, hserv⟩
        | ⟨i, hi, destino, hfase, hf, hserv⟩ | ⟨hcargar, hdescargar, hserv, helige⟩
      · exact enMinimo_carga hmin hh hi hfase hf hserv
      · exact enMinimo_descarga hmin hh hi hfase hf hserv
      · apply iff_of_true
        · intro k i hpor
          dsimp only
          rw [hserv]
          obtain ⟨-, hpor⟩ | ⟨-, hf⟩ := (porContar_set hh).mp hpor
          · exact hmin k i hpor
          · exact helige i hf
        · refine ⟨fun i k hself => ?_, fun p j destino heq => ?_⟩
          · obtain ⟨p, hp⟩ := hself
            exact absurd (fase_of_getElem? hh hp) (hcargar i)
          · exact absurd (fase_of_getElem? hh heq) (hdescargar j destino)

end Paso

/-! ## The result -/

/-- **Requests count themselves at a server of least load exactly as long as no step in between
takes it away from them.** In every run with a fixed table whose requests are all dispatched by
`CONEXIONES_ACTIVA`: whoever is about to count itself does so at a server of least load, in
every state of the run, if and only if every step leaves the servers of those who wait with the
least load. It is asked in every state, and not only at the `carga_actual++`, because any of those
who wait may be the next to run; at the `carga_actual++` it is the least load that is raised. -/
theorem minimo_al_contar_iff {tabla : List ServidorRegistrado} {as : List Accion} {s : Estado}
    (hok : AllOk paso (fun s a => TablaFija s a ∧ Despacho .CONEXIONES_ACTIVA s a)
      (.conServidores tabla) as)
    (hrun : exec paso (.conServidores tabla) as = some s) :
    Throughout paso EnMinimo (.conServidores tabla) as
      ↔ AllOk paso MinimoConservado (.conServidores tabla) as := by
  apply throughout_iff_allOk (EnMetodo .CONEXIONES_ACTIVA) EnMinimo _
    (enMetodo_conServidores _ tabla) _ hok hrun
  · intro s a s' hmet hmin hok hpaso
    exact ⟨hmet.paso hok.2 hpaso, enMinimo_paso hmet hmin hok.1 hpaso⟩
  · rintro k i ⟨p, hp⟩
    cases hp

/-- Nobody but the thread that runs is about to count itself. -/
def NadieMasPorContar (s : Estado) : Accion → Prop
  | .hilo h => ∀ k < s.hilos.length, k ≠ h → (s.hilos[k]?.any (·.fase.porContar)) = false
  | _ => True

instance (s : Estado) : ∀ a, Decidable (NadieMasPorContar s a)
  | .hilo _ => inferInstanceAs (Decidable (∀ _ < _, _ → _))
  | .llegada _ => isTrue trivial
  | .metodo _ => isTrue trivial
  | .registro _ => isTrue trivial
  | .alta _ _ => isTrue trivial
  | .baja _ => isTrue trivial
  | .borrado => isTrue trivial

/-- Then the step takes nothing away from anybody. -/
theorem NadieMasPorContar.minimoConservado {s : Estado} {a : Accion}
    (hnadie : NadieMasPorContar s a) : MinimoConservado s a := by
  cases a with
  | hilo h =>
      have hno {i k : ℕ} (hk : k ≠ h) : ¬ PorContar s k i := by
        rintro ⟨p, hp⟩
        have hcuenta := hnadie k (List.getElem?_eq_some_iff.mp hp).1 hk
        rw [hp] at hcuenta
        cases hcuenta
      exact ⟨fun i k _ hk hwait => absurd hwait (hno hk),
        fun p j destino _ i k _ hk hwait => absurd hwait (hno hk)⟩
  | _ => trivial

/-- Two servers without load and two requests, the second of which looks for the least load after
the first has counted itself. -/
theorem minimo_al_contar_dos_peticiones :
    let tabla : List ServidorRegistrado :=
      [.libre "10.0.0.1/80".toList 5, .libre "10.0.0.2/80".toList 5]
    let as : List Accion :=
      [.metodo .CONEXIONES_ACTIVA, .llegada (.minima true), .llegada (.minima true), .hilo 0,
        .hilo 0, .hilo 0, .hilo 0, .hilo 1, .hilo 1, .hilo 1, .hilo 1]
    ∃ s, exec paso (.conServidores tabla) as = some s
      ∧ s.balanceador.servidores.map (·.carga_actual) = [1, 1]
      ∧ Throughout paso EnMinimo (.conServidores tabla) as := by
  intro tabla as
  obtain ⟨s, hs, hcarga⟩ : ∃ s, exec paso (.conServidores tabla) as = some s
      ∧ s.balanceador.servidores.map (·.carga_actual) = [1, 1] := ⟨_, rfl, rfl⟩
  have hok : AllOk paso (fun s a => TablaFija s a ∧ Despacho .CONEXIONES_ACTIVA s a)
      (.conServidores tabla) as := by decide +kernel
  have hnadie : AllOk paso NadieMasPorContar (.conServidores tabla) as := by decide +kernel
  exact ⟨s, hs, hcarga, (minimo_al_contar_iff hok hs).mpr
    (hnadie.mono fun _ _ => NadieMasPorContar.minimoConservado)⟩

/-- **The load that is raised need not be the least.** Two requests look it up before either of
them counts itself; the second raises the load of the first server from `1`, while the other
server has `0`. -/
theorem carga_sobre_la_menor :
    ¬ ∀ (tabla : List ServidorRegistrado) (s s' : Estado) (k i : ℕ), tabla ≠ [] →
      Reach paso (fun s a => TablaFija s a ∧ Despacho .CONEXIONES_ACTIVA s a)
        (.conServidores tabla) s →
      PorContar s k i → paso s (.hilo k) = some s' → CargaMinima s.balanceador.servidores i := by
  intro hall
  let tabla : List ServidorRegistrado :=
    [.libre "10.0.0.1/80".toList 5, .libre "10.0.0.2/80".toList 5]
  let as : List Accion :=
    [.metodo .CONEXIONES_ACTIVA, .llegada (.minima true), .llegada (.minima true), .hilo 0,
      .hilo 0, .hilo 0, .hilo 1, .hilo 1, .hilo 1, .hilo 0]
  obtain ⟨s, s', hs, hlen, hpor, hpaso, hmenor⟩ : ∃ s s',
      exec paso (.conServidores tabla) as = some s ∧ s.balanceador.servidores.length = 2
      ∧ PorContar s 1 0 ∧ paso s (.hilo 1) = some s'
      ∧ cargaEn s.balanceador.servidores 1 < cargaEn s.balanceador.servidores 0 :=
    ⟨_, _, rfl, rfl, ⟨_, rfl⟩, rfl, by decide⟩
  have hok : AllOk paso (fun s a => TablaFija s a ∧ Despacho .CONEXIONES_ACTIVA s a)
      (.conServidores tabla) as := by decide +kernel
  obtain ⟨-, hle⟩ := hall tabla s s' 1 0 (by simp [tabla]) (Reach.of_exec hok hs) hpor hpaso
  exact absurd (hle 1 (by omega)) (by omega)

end LoadBalancer
