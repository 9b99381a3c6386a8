/-
`carga_maxima`, and how far above it `ROUND_ROBIN_PESOS` lets a load go.

The selection and the `carga_actual++` are two critical sections. How much room a server
has left is therefore its load *and* the requests that have chosen it and not counted
themselves yet ([`pendientes`]). A selection leaves room in that sense when the server it
stops at has more room than that; the loads stay within the maxima in the runs in which
every selection does, and every registration and removal keeps the pending requests within
the maxima of the positions they point at ([`carga_le_maxima`]). They do not in general
([`carga_sobre_maxima`]): the test itself admits a request at `carga_actual = carga_maxima`,
and several requests can pass it before any of them counts itself.
-/
import LoadBalancer.Metodo
import LoadBalancer.Pesos

set_option autoImplicit false

namespace LoadBalancer

open LoadBalancer.Transition

/-! ## Requests between the selection and the `carga_actual++` -/

/-- The position that a request has chosen and not counted itself at yet. -/
def Fase.elegida : Fase → Option ℤ
  | .cargar i => some i
  | _ => none

/-- How many requests have chosen position `j` and not counted themselves yet. -/
def pendientes (hilos : List Hilo) (j : ℕ) : ℕ := cuenta hilos fun f => f.elegida = some (j : ℤ)

theorem pendientes_set {hilos : List Hilo} {h : ℕ} (hh : h < hilos.length) (t : Hilo) (j : ℕ) :
    pendientes (hilos.set h t) j + (if hilos[h].fase.elegida = some (j : ℤ) then 1 else 0)
      = pendientes hilos j + (if t.fase.elegida = some (j : ℤ) then 1 else 0) := by
  have := cuenta_set hh t fun f => decide (f.elegida = some (j : ℤ))
  simpa only [pendientes, decide_eq_true_eq] using this

/-- Every server has room for the requests that have chosen it. -/
def HayLugar (servidores : List ServidorRegistrado) (hilos : List Hilo) : Prop :=
  ∀ (j : ℕ) (hj : j < servidores.length),
    servidores[j].carga_actual + pendientes hilos j ≤ servidores[j].carga_maxima

/-! ## The runs -/

/-- The step leaves room. A selection: the first server not above its maximum has room for one
request more. A registration: the new server has room for the requests that already point at
its position. A removal: so have the servers that move. -/
def QuedaLugar (s : Estado) : Accion → Prop
  | .hilo h => (s.hilos[h]?.any fun t => t.fase.eligePesos) = true →
      ∀ i, IsLeast (admisibles s.balanceador.servidores) i →
      ∀ srv, s.balanceador.servidores[i]? = some srv →
        srv.carga_actual + pendientes s.hilos i < srv.carga_maxima
  | .alta azar memoria => ∀ ip, s.escuchador = .agregando ip →
      ∀ nuevo, nuevoServidor ip azar memoria = some nuevo →
        (pendientes s.hilos s.balanceador.servidores.length : ℤ) ≤ nuevo.carga_maxima
  | .borrado => ∀ posicion, s.escuchador = .eliminando posicion →
      HayLugar (s.balanceador.servidores.eraseIdx posicion) s.hilos
  | _ => True

/-- The invariant: nobody is on the way through another method, and there is room. -/
structure LugarInv (s : Estado) : Prop where
  metodo : EnMetodo .ROUND_ROBIN_PESOS s
  lugar : HayLugar s.balanceador.servidores s.hilos

section HayLugar

variable {servidores : List ServidorRegistrado} {hilos : List Hilo} {h : ℕ} {t : Hilo}

/-- A thread that has chosen nothing, before and after its step. -/
theorem HayLugar.quieto (hinv : HayLugar servidores hilos) (hh : h < hilos.length)
    (heq : t.fase.elegida = hilos[h].fase.elegida) : HayLugar servidores (hilos.set h t) := by
  intro j hj
  rw [pendientes, cuenta_set_of_eq hh (by rw [heq])]
  exact hinv j hj

/-- A selection of a server with room for one request more. -/
theorem HayLugar.elige (hinv : HayLugar servidores hilos) (hh : h < hilos.length) {i : ℕ}
    (hi : i < servidores.length)
    (hcabe : servidores[i].carga_actual + pendientes hilos i < servidores[i].carga_maxima)
    (hantes : hilos[h].fase.elegida = none) (hdespues : t.fase.elegida = some (i : ℤ)) :
    HayLugar servidores (hilos.set h t) := by
  intro j hj
  have hcount := pendientes_set hh t j
  have hold := hinv j hj
  rw [hantes, hdespues, if_neg (by simp)] at hcount
  split_ifs at hcount with hij
  -- one pending request more at the chosen position
  · obtain rfl : i = j := by simpa using hij
    omega
  · omega

/-- `carga_actual++`: the request stops being pending. -/
theorem HayLugar.carga (hinv : HayLugar servidores hilos) (hh : h < hilos.length) {i : ℕ}
    (hi : i < servidores.length) (hantes : hilos[h].fase.elegida = some (i : ℤ))
    (hdespues : t.fase.elegida = none) :
    HayLugar
      (servidores.set i { servidores[i] with carga_actual := servidores[i].carga_actual + 1 })
      (hilos.set h t) := by
  intro j hj
  rw [List.length_set] at hj
  have hcount := pendientes_set hh t j
  have hold := hinv j hj
  rw [hantes, hdespues, if_neg (by simp : ¬ none = some (j : ℤ))] at hcount
  rw [List.getElem_set]
  by_cases hij : i = j
  -- the load goes up by the one that is not pending any more
  · subst hij
    rw [if_pos rfl] at hcount ⊢
    dsimp only
    omega
  · rw [if_neg (by simpa using hij)] at hcount
    rw [if_neg hij]
    omega

/-- `carga_actual--`. -/
theorem HayLugar.descarga (hinv : HayLugar servidores hilos) (hh : h < hilos.length) {i : ℕ}
    (hi : i < servidores.length) (heq : t.fase.elegida = hilos[h].fase.elegida) :
    HayLugar
      (servidores.set i { servidores[i] with carga_actual := servidores[i].carga_actual - 1 })
      (hilos.set h t) := by
  intro j hj
  rw [List.length_set] at hj
  have hold := hinv.quieto hh heq j hj
  rw [List.getElem_set]
  split_ifs with hij
  · subst hij
    dsimp only
    omega
  · exact hold

/-- A thread starts. -/
theorem HayLugar.llegada (hinv : HayLugar servidores hilos) (ht : t.fase.elegida = none) :
    HayLugar servidores (hilos ++ [t]) := by
  intro j hj
  rw [pendientes, cuenta_llegada (by rw [ht]; rfl)]
  exact hinv j hj

/-- `push_back` of a server with room for the requests that point at its position. -/
theorem HayLugar.alta (hinv : HayLugar servidores hilos) {nuevo : ServidorRegistrado}
    (hcero : nuevo.carga_actual = 0)
    (hcabe : (pendientes hilos servidores.length : ℤ) ≤ nuevo.carga_maxima) :
    HayLugar (servidores ++ [nuevo]) hilos := by
  intro j hj
  by_cases hlt : j < servidores.length
  · rw [List.getElem_append_left hlt]
    exact hinv j hlt
  · obtain rfl : j = servidores.length := by
      rw [List.length_append, List.length_singleton] at hj
      omega
    rw [List.getElem_concat_length rfl, hcero]
    omega

end HayLugar

/-! ## The invariant -/

/-- **One step of a thread** on the way through `ROUND_ROBIN_PESOS` keeps the room, when its
selection leaves some. -/
theorem Transita.hayLugar {b b' : Balanceador} {hilos : List Hilo} {h : ℕ} {f' : Fase}
    (hh : h < hilos.length) (ht : Transita b hilos[h].peticion hilos[h].fase b' f')
    (hmetodo : hilos[h].fase.enMetodo .ROUND_ROBIN_PESOS) (hinv : HayLugar b.servidores hilos)
    (hcabe : hilos[h].fase.eligePesos = true → ∀ i, IsLeast (admisibles b.servidores) i →
      ∀ srv, b.servidores[i]? = some srv → srv.carga_actual + pendientes hilos i < srv.carga_maxima) :
    HayLugar b'.servidores (hilos.set h ⟨hilos[h].peticion, f'⟩) := by
  generalize hp : hilos[h].peticion = p at ht ⊢
  generalize hf : hilos[h].fase = f at ht hmetodo hcabe
  cases ht with
  | pesos i hi =>
      -- the scan stops at the first server that is not above its maximum, which has room
      have hleast := (escanear_elige_iff _ i).mp ⟨_, hi⟩
      have hlt := hleast.1.1
      refine hinv.elige hh hlt ?_ (by rw [hf]; rfl) rfl
      exact hcabe rfl i hleast _ (List.getElem?_eq_getElem hlt)
  -- the other methods choose a position without looking at any maximum
  | roundRobin => cases hmetodo
  | menosConexiones => cases hmetodo
  | clienteConocido c hc => cases hmetodo
  | clienteRepetido c hc => cases hmetodo
  | guardado random => cases hmetodo
  | carga i hi hmax => exact hinv.carga hh hi (by rw [hf]; rfl) rfl
  | descarga i hi destino hmin => exact hinv.descarga hh hi (by rw [hf]; rfl)
  | _ => exact hinv.quieto hh (hf ▸ rfl)

/-- **The step lemma.** -/
theorem LugarInv.paso {s s' : Estado} {a : Accion} (hinv : LugarInv s)
    (hmet : Despacho .ROUND_ROBIN_PESOS s a) (hok : QuedaLugar s a)
    (h : LoadBalancer.paso s a = some s') : LugarInv s' := by
  refine ⟨hinv.metodo.paso hmet h, ?_⟩
  cases paso_avanza h with
  | llegada p => exact hinv.lugar.llegada rfl
  | metodo m => exact hinv.lugar
  | hilo h hh b f hlibre ht =>
      refine ht.hayLugar hh (hinv.metodo _ (List.getElem_mem hh)) hinv.lugar fun hf => hok ?_
      rw [List.getElem?_eq_getElem hh]
      exact hf
  | registroNuevo ip hf hb => exact hinv.lugar
  | registroRepetido ip i hb => exact hinv.lugar
  | alta ip azar memoria nuevo hf hn =>
      obtain ⟨-, hcero, -⟩ := nuevoServidor_eq_some hn
      exact hinv.lugar.alta hcero (hok ip hf nuevo hn)
  | bajaAusente ip hb => exact hinv.lugar
  | bajaPresente ip posicion hf hb => exact hinv.lugar
  | borrado posicion hf hp => exact hok posicion hf

/-- There is room at the start, with servers without load. -/
theorem lugarInv_conServidores {tabla : List ServidorRegistrado}
    (htabla : ∀ srv ∈ tabla, srv.carga_actual = 0 ∧ 0 ≤ srv.carga_maxima) :
    LugarInv (.conServidores tabla) where
  metodo := enMetodo_conServidores _ tabla
  lugar := by
    intro j hj
    obtain ⟨hcero, hmax⟩ := htabla _ (List.getElem_mem hj)
    have hzero : pendientes (Estado.conServidores tabla).hilos j = 0 := rfl
    rw [hzero]
    omega

/-! ## The result -/

/-- **No load exceeds its maximum** in the runs of `ROUND_ROBIN_PESOS` in which every
selection, registration and removal leaves room for the requests that have chosen a server
and not counted themselves yet. The room is asked for with the pending requests, because the test of
the maximum sees only those that have counted themselves. -/
theorem carga_le_maxima {tabla : List ServidorRegistrado} {s : Estado}
    (htabla : ∀ srv ∈ tabla, srv.carga_actual = 0 ∧ 0 ≤ srv.carga_maxima)
    (hr : Reach paso (fun s a => Despacho .ROUND_ROBIN_PESOS s a ∧ QuedaLugar s a)
      (.conServidores tabla) s) :
    ∀ srv ∈ s.balanceador.servidores, srv.carga_actual ≤ srv.carga_maxima := by
  have hinv : LugarInv s := hr.invariant LugarInv (lugarInv_conServidores htabla)
    fun _ _ _ hinv hok h => hinv.paso hok.1 hok.2 h
  intro srv hsrv
  obtain ⟨j, hj, rfl⟩ := List.getElem_of_mem hsrv
  have := hinv.lugar j hj
  omega

/-- One request to a server with maximum `5`. -/
theorem carga_le_maxima_una_peticion :
    ∃ s, exec paso (.conServidores [.libre "10.0.0.1/80".toList 5])
        (.metodo .ROUND_ROBIN_PESOS :: .llegada (.minima true) :: List.replicate 4 (.hilo 0))
          = some s
      ∧ s.balanceador.servidores.map (·.carga_actual) = [1]
      ∧ ∀ srv ∈ s.balanceador.servidores, srv.carga_actual ≤ srv.carga_maxima := by
  obtain ⟨s, hs, hcarga⟩ : ∃ s, exec paso (.conServidores [.libre "10.0.0.1/80".toList 5])
        (.metodo .ROUND_ROBIN_PESOS :: .llegada (.minima true) :: List.replicate 4 (.hilo 0))
          = some s
      ∧ s.balanceador.servidores.map (·.carga_actual) = [1] := ⟨_, rfl, rfl⟩
  have hok : AllOk paso (fun s a => Despacho .ROUND_ROBIN_PESOS s a ∧ QuedaLugar s a)
      (.conServidores [.libre "10.0.0.1/80".toList 5])
      (.metodo .ROUND_ROBIN_PESOS :: .llegada (.minima true) :: List.replicate 4 (.hilo 0)) := by
    refine ⟨⟨trivial, trivial⟩, ⟨trivial, trivial⟩, ⟨nofun, nofun⟩, ⟨fun _ => rfl, nofun⟩,
      ⟨nofun, fun _ i hi srv hsrv => ?_⟩, ⟨nofun, nofun⟩, trivial⟩
    -- the selection: there is only position `0`, with load `0` and nobody pending
    obtain rfl : i = 0 := Nat.lt_one_iff.mp hi.1.1
    cases hsrv
    decide
  have hr := Reach.of_exec hok hs
  exact ⟨s, hs, hcarga, carga_le_maxima (by decide) hr⟩

/-- **A load above its maximum.** The server has maximum `5`; the sixth request finds the load
`5`, which is not above it, and is let through. -/
theorem carga_sobre_maxima :
    ¬ ∀ s, Reach paso (Despacho .ROUND_ROBIN_PESOS) Estado.inicial s →
      ∀ srv ∈ s.balanceador.servidores, srv.carga_actual ≤ srv.carga_maxima := by
  intro hall
  obtain ⟨s, hs, srv, hsrv, hlt⟩ : ∃ s, exec paso Estado.inicial seisPeticiones = some s
      ∧ ∃ srv ∈ s.balanceador.servidores, srv.carga_maxima < srv.carga_actual :=
    ⟨_, rfl, by decide⟩
  have hok : AllOk paso (Despacho .ROUND_ROBIN_PESOS) Estado.inicial seisPeticiones := by decide
  have := hall s (Reach.of_exec hok hs) srv hsrv
  omega

end LoadBalancer
