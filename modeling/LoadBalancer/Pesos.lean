/-
`ROUND_ROBIN_PESOS`: when the scan ends.

The loop
`while(servidores[value].carga_actual > servidores[value].carga_maxima)`
goes round the table until it meets a server that is not above its maximum. It runs
under `mutex_servidores`, so no load changes while it runs: it ends exactly when there is
such a server, and then at the first one ([`escanear_elige_iff`]). The comparison lets a
request through when the load *equals* the maximum, so the state in which every server is
above its maximum is one that requests reach by themselves; there the scan never ends
([`escanear_sin_fin`]) and the thread keeps the mutex that every `carga_actual--` needs
([`escaneo_retiene_mutex`]).
-/
import Mathlib.Order.Lattice.Nat
import LoadBalancer.Carga

set_option autoImplicit false

namespace LoadBalancer

open LoadBalancer.Transition

/-! ## The scan -/

theorem sobrecargado_iff (s : ServidorRegistrado) :
    sobrecargado s = true ↔ s.carga_maxima < s.carga_actual := by
  simp [sobrecargado]

theorem not_sobrecargado_iff (s : ServidorRegistrado) :
    sobrecargado s = false ↔ s.carga_actual ≤ s.carga_maxima := by
  simp [sobrecargado]

section Escaneo

variable {servidores : List ServidorRegistrado}

/-- **With every server above its maximum the scan never ends**: after any number of turns
it is about to test one more position. -/
theorem escanear_sin_fin (hall : ∀ s ∈ servidores, sobrecargado s = true) (vueltas : ℕ)
    {value : ℕ} (hvalue : value < servidores.length) :
    ∃ value', escanear servidores vueltas value = .sigue value' := by
  induction vueltas generalizing value with
  | zero => exact ⟨value, rfl⟩
  | succ vueltas ih =>
      rw [escanear, List.getElem?_eq_getElem hvalue]
      dsimp only
      rw [if_pos (hall _ (List.getElem_mem hvalue))]
      exact ih (siguienteRoundRobin_lt (by omega))

/-- The scan passes the servers above their maximum and stops at the next one. -/
theorem escanear_hasta {i : ℕ} (hi : i < servidores.length)
    (hlibre : sobrecargado servidores[i] = false) (vueltas value : ℕ) (hle : value ≤ i)
    (hpre : ∀ (j : ℕ) (hj : j < i), value ≤ j → sobrecargado servidores[j] = true)
    (hvueltas : i < value + vueltas) : escanear servidores vueltas value = .elige i := by
  induction vueltas generalizing value with
  | zero => omega
  | succ vueltas ih =>
      have hvalue : value < servidores.length := by omega
      rw [escanear, List.getElem?_eq_getElem hvalue]
      dsimp only
      rcases Nat.eq_or_lt_of_le hle with rfl | hlt
      -- at the first server that is not above its maximum the loop ends
      · rw [if_neg (by simp [hlibre])]
      · have hsig : siguienteRoundRobin value servidores.length = value + 1 := by
          unfold siguienteRoundRobin
          rw [if_neg (by omega)]
        rw [if_pos (hpre value hlt (Nat.le_refl _)), hsig]
        exact ih (value + 1) (by omega) (fun j hj hle' => hpre j hj (by omega)) (by omega)

/-- More turns do not change where the scan has stopped. -/
theorem escanear_elige_add {vueltas value i : ℕ} (n : ℕ)
    (h : escanear servidores vueltas value = .elige i) :
    escanear servidores (vueltas + n) value = .elige i := by
  induction vueltas generalizing value with
  | zero => rw [escanear] at h; cases h
  | succ vueltas ih =>
      rw [Nat.succ_add, escanear]
      rw [escanear] at h
      cases hs : servidores[value]? with
      | none => rw [hs] at h; cases h
      | some s =>
          rw [hs] at h
          dsimp only at h ⊢
          split_ifs at h ⊢ with hover
          · exact ih h
          · exact h

end Escaneo

/-- The positions of the servers that are not above their maximum. -/
def admisibles (servidores : List ServidorRegistrado) : Set ℕ :=
  { i | ∃ hi : i < servidores.length, servidores[i].carga_actual ≤ servidores[i].carga_maxima }

theorem admisibles_nonempty_iff (servidores : List ServidorRegistrado) :
    (admisibles servidores).Nonempty ↔ ∃ s ∈ servidores, s.carga_actual ≤ s.carga_maxima := by
  constructor
  · rintro ⟨i, hi, hle⟩
    exact ⟨_, List.getElem_mem hi, hle⟩
  · rintro ⟨s, hs, hle⟩
    obtain ⟨i, hi, rfl⟩ := List.getElem_of_mem hs
    exact ⟨i, hi, hle⟩

/-- With as many turns as there are servers, the scan reaches the first one that is not above
its maximum. -/
theorem escanear_of_isLeast {servidores : List ServidorRegistrado} {i vueltas : ℕ}
    (h : IsLeast (admisibles servidores) i) (hvueltas : i < vueltas) :
    escanear servidores vueltas 0 = .elige i := by
  obtain ⟨⟨hi, hle⟩, hmin⟩ := h
  refine escanear_hasta hi ((not_sobrecargado_iff _).mpr hle) _ _ (Nat.zero_le _) ?_ (by omega)
  intro j hj _
  rw [sobrecargado_iff]
  by_contra hlt
  have := hmin ⟨by omega, not_lt.mp hlt⟩
  omega

/-- **Where the scan ends**: at the first server that is not above its maximum. -/
theorem escanear_elige_iff (servidores : List ServidorRegistrado) (i : ℕ) :
    (∃ vueltas, escanear servidores vueltas 0 = .elige i) ↔ IsLeast (admisibles servidores) i := by
  constructor
  · rintro ⟨vueltas, h⟩
    obtain ⟨hi, hlibre⟩ := escanear_elige_libre h
    have hne : (admisibles servidores).Nonempty := ⟨i, hi, (not_sobrecargado_iff _).mp hlibre⟩
    -- the scan is deterministic, so it stops where it would stop at the first one
    have hleast := isLeast_csInf hne
    have hstop := escanear_of_isLeast hleast
      (show sInf (admisibles servidores) < vueltas + (sInf (admisibles servidores) + 1) by omega)
    rw [escanear_elige_add _ h, Escaneo.elige.injEq] at hstop
    rwa [hstop]
  · intro h
    exact ⟨i + 1, escanear_of_isLeast h (Nat.lt_succ_self i)⟩

/-! ## When the selection terminates -/

/-- The selection of `ROUND_ROBIN_PESOS` ends, with the least position that is not above its
maximum. -/
def SeleccionTermina (servidores : List ServidorRegistrado) : Prop :=
  ∃ i, (∃ vueltas, escanear servidores vueltas 0 = .elige i) ∧ IsLeast (admisibles servidores) i

theorem seleccionTermina_iff_exists (servidores : List ServidorRegistrado) :
    SeleccionTermina servidores ↔ ∃ s ∈ servidores, s.carga_actual ≤ s.carga_maxima := by
  rw [← admisibles_nonempty_iff]
  constructor
  · rintro ⟨i, -, hi⟩
    exact ⟨i, hi.1⟩
  · intro hne
    have hleast := isLeast_csInf hne
    exact ⟨_, (escanear_elige_iff servidores _).mpr hleast, hleast⟩

/-- The step starts a selection of `ROUND_ROBIN_PESOS`. -/
def Fase.eligePesos : Fase → Bool
  | .elegir .ROUND_ROBIN_PESOS => true
  | _ => false

/-- When a selection of `ROUND_ROBIN_PESOS` starts, some server is not above its maximum. -/
def SeleccionPosible (s : Estado) : Accion → Prop
  | .hilo h => (s.hilos[h]?.any fun t => t.fase.eligePesos) = true →
      ∃ srv ∈ s.balanceador.servidores, srv.carga_actual ≤ srv.carga_maxima
  | _ => True

instance : ∀ s a, Decidable (SeleccionPosible s a)
  | _, .hilo _ => inferInstanceAs (Decidable (_ → _))
  | _, .llegada _ => isTrue trivial
  | _, .metodo _ => isTrue trivial
  | _, .registro _ => isTrue trivial
  | _, .alta _ _ => isTrue trivial
  | _, .baja _ => isTrue trivial
  | _, .borrado => isTrue trivial

/-- A thread enters the endless scan only from a selection with no server to stop at. -/
theorem Transita.esEscaneo {b b' : Balanceador} {p : Peticion} {f f' : Fase}
    (ht : Transita b p f b' f') (hf : f.esEscaneo = false)
    (hposible : f.eligePesos = true → ∃ srv ∈ b.servidores, srv.carga_actual ≤ srv.carga_maxima) :
    f'.esEscaneo = false := by
  cases ht with
  | pesosSinFin i h =>
      -- such a server is found within as many turns as there are servers
      obtain ⟨k, hk⟩ := (admisibles_nonempty_iff _).mpr (hposible rfl)
      have hleast := isLeast_csInf ⟨k, hk⟩
      have hlt := hleast.1.1
      rw [escanear_of_isLeast hleast (by omega)] at h
      cases h
  | escaneo => cases hf
  | _ => rfl

theorem mutexLibre_iff {s : Estado} :
    s.mutexLibre = true ↔ ∀ t ∈ s.hilos, t.fase.esEscaneo = false := by
  simp [Estado.mutexLibre, List.all_eq_true]

/-- **The step lemma**: the mutex stays free. -/
theorem mutexLibre_paso {s s' : Estado} {a : Accion} (hlibre : s.mutexLibre = true)
    (hok : SeleccionPosible s a) (h : paso s a = some s') : s'.mutexLibre = true := by
  rw [mutexLibre_iff] at hlibre ⊢
  cases paso_avanza h with
  | llegada p =>
      exact forall_hilos_append hlibre rfl
  | hilo h hh b f hm ht =>
      apply forall_hilos_set hlibre
      refine ht.esEscaneo (hlibre _ (List.getElem_mem hh)) fun hf => hok ?_
      rw [List.getElem?_eq_getElem hh]
      exact hf
  | _ => exact hlibre

/-- The table changes only while the mutex is free. -/
theorem mutexLibre_of_servidores_ne {s s' : Estado} {a : Accion} (h : paso s a = some s')
    (hne : s'.balanceador.servidores ≠ s.balanceador.servidores) : s.mutexLibre = true := by
  cases paso_avanza h with
  | hilo h hh b f hlibre ht =>
      apply hlibre
      rcases ht.efecto with ⟨heq, -, -⟩ | ⟨i, hi, hf, -, -⟩ | ⟨i, hi, d, -, rfl, -, -⟩
        | ⟨i, hi, d, -, rfl, -, -⟩ | ⟨i, hi, d, hf, -, -⟩
      -- only `carga_actual++` and `carga_actual--` change it, and both take the mutex
      · exact absurd heq hne
      · rw [hf]
        rfl
      · exact absurd rfl hne
      · exact absurd rfl hne
      · rw [hf]
        rfl
  | alta ip azar memoria nuevo hf hn =>
      simp only [paso, hf] at h
      split_ifs at h with hm
      exact hm
  | borrado posicion hf hp =>
      simp only [paso, hf] at h
      split_ifs at h with hm
      exact hm.1
  | _ => exact absurd rfl hne

/-- **An endless scan keeps the mutex for ever**, and with it every load: no run leaves the
state. -/
theorem escaneo_retiene_mutex {s s' : Estado} (hr : Reach paso always s s')
    (hm : s.mutexLibre = false) :
    s'.mutexLibre = false ∧ s'.balanceador.servidores = s.balanceador.servidores := by
  refine hr.invariant (fun t => t.mutexLibre = false
    ∧ t.balanceador.servidores = s.balanceador.servidores) ⟨hm, rfl⟩ ?_
  rintro t a t' ⟨htm, hts⟩ - hpaso
  refine ⟨?_, ?_⟩
  · -- the thread in the scan stays in it
    rw [Bool.eq_false_iff, ne_eq, mutexLibre_iff] at htm ⊢
    push Not at htm ⊢
    obtain ⟨u, hu, huf⟩ := htm
    cases paso_avanza hpaso with
    | llegada p => exact ⟨u, List.mem_append_left _ hu, huf⟩
    | hilo h hh b f hlibre ht =>
        obtain ⟨k, hk, rfl⟩ := List.getElem_of_mem hu
        rcases eq_or_ne h k with rfl | hne
        -- it is the one that moved: its step goes from `escaneando` to `escaneando`
        · refine ⟨_, List.mem_set hh _, ?_⟩
          cases hf : t.hilos[h].fase with
          | escaneando =>
              rw [hf] at ht
              cases ht
              exact Bool.noConfusion
          | _ => exact absurd (by rw [hf]; rfl) huf
        · have hk' : k < (t.hilos.set h ⟨t.hilos[h].peticion, f⟩).length := by simpa using hk
          refine ⟨_, List.getElem_mem hk', ?_⟩
          rwa [List.getElem_set_ne hne]
    | _ => exact ⟨u, hu, huf⟩
  · by_contra hne
    rw [← hts] at hne
    rw [mutexLibre_of_servidores_ne hpaso hne] at htm
    cases htm

/-- **The selection of `ROUND_ROBIN_PESOS` terminates exactly when some server is not above
its maximum.** In every run in which that holds whenever a selection starts, from any table,
no thread is ever left in the scan with the mutex held; and in every state of such a run the
selection ends, at the least position that is not above its maximum, if and only if there is
one. Nobody can change a load during the scan, because it holds the mutex. -/
theorem seleccion_termina_iff {tabla : List ServidorRegistrado} {s : Estado}
    (hr : Reach paso SeleccionPosible (.conServidores tabla) s) :
    s.mutexLibre = true
      ∧ (s.balanceador.servidores ≠ [] →
        (SeleccionTermina s.balanceador.servidores
          ↔ ∃ srv ∈ s.balanceador.servidores, srv.carga_actual ≤ srv.carga_maxima)) := by
  have hlibre : s.mutexLibre = true :=
    hr.invariant (fun s => s.mutexLibre = true) rfl fun _ _ _ hinv hok h =>
      mutexLibre_paso hinv hok h
  exact ⟨hlibre, fun _ => seleccionTermina_iff_exists _⟩

/-- One server, and enough requests to bring it to its maximum. -/
def seisPeticiones : List Accion :=
  [.registro "10.0.0.1/80".toList, .alta 0 [], .metodo .ROUND_ROBIN_PESOS]
    ++ List.replicate 6 (.llegada (.minima true))
    ++ (List.range 6).flatMap fun h => List.replicate 4 (.hilo h)

/-- The first of those requests finds a server. -/
theorem seleccion_termina_una_peticion :
    ∃ s, exec paso (.conServidores []) (seisPeticiones.take 12) = some s
      ∧ s.mutexLibre = true ∧ SeleccionTermina s.balanceador.servidores := by
  obtain ⟨s, hs, hne, hlibre⟩ : ∃ s,
      exec paso (.conServidores []) (seisPeticiones.take 12) = some s
      ∧ s.balanceador.servidores ≠ []
      ∧ ∃ srv ∈ s.balanceador.servidores, srv.carga_actual ≤ srv.carga_maxima :=
    ⟨_, rfl, by decide, by decide⟩
  have hok : AllOk paso SeleccionPosible (.conServidores []) (seisPeticiones.take 12) := by
    decide
  have hres := seleccion_termina_iff (Reach.of_exec hok hs)
  exact ⟨s, hs, hres.1, (hres.2 hne).mpr hlibre⟩

/-- **The scan that never ends is reachable.** One server with maximum `5` admits six requests,
since the load `5` is not above it; the seventh selection has no server to stop at. -/
theorem seleccion_sin_fin :
    ¬ ∀ s, Reach paso always Estado.inicial s → s.balanceador.servidores ≠ [] →
      SeleccionTermina s.balanceador.servidores := by
  intro hall
  obtain ⟨s, hs, hne, hall'⟩ : ∃ s, exec paso Estado.inicial seisPeticiones = some s
      ∧ s.balanceador.servidores ≠ []
      ∧ ∀ srv ∈ s.balanceador.servidores, srv.carga_maxima < srv.carga_actual :=
    ⟨_, rfl, by decide, by decide⟩
  -- the six requests are at `conectar`, and the load is `6`
  obtain ⟨srv, hsrv, hle⟩ := (seleccionTermina_iff_exists _).mp
    (hall s (Reach.of_exec (allOk_always _ _) hs) hne)
  have := hall' srv hsrv
  omega

end LoadBalancer
