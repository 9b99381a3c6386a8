/-
The process of a web server that watches for the balancer's departure.

`ejecutarServidor` forks twice. One child does the handshake, on a socket that it opens
itself; the other one, the watcher, waits until `*conectado` is set and only then reads,
from the socket of the constructor. Everything that was broadcast since the constructor
is still in that socket's queue, in the order of arrival, so the watcher begins with what
was sent long before the server became connected. That the handshake closes its own copy
of the descriptor, and shuts down a datagram socket that has no peer, takes nothing out of
the queue.

A datagram is known by the position at which it arrived. The queue of the constructor's
socket is what has arrived from [`Vigilante.leidas`] on, that of the handshake's socket
what has arrived from the position on at which [`Apreton`] stands.
-/
import LoadBalancer.Lib.Transition
import LoadBalancer.Datagrama

set_option autoImplicit false

namespace LoadBalancer

open LoadBalancer.Transition

/-! ## The processes -/

/-- The child that does the handshake. -/
inductive Apreton
  /-- Its socket is not open yet. -/
  | inicio
  /-- In stand-by: the next datagram to read, and the array that it reads into. -/
  | esperando (atendidas : ℕ) (bufferBalanceadorRespuesta : Pila)
  /-- `*conectado` is set: the position of the `B/C` that did it. -/
  | conectado (conexion : ℕ)

/-- A web server, as far as its broadcasts go. -/
structure Vigilante where
  /-- What has arrived since the constructor. -/
  llegadas : List Texto
  apreton : Apreton
  /-- The number of datagrams that the watcher has read. -/
  leidas : ℕ
  /-- `*ejecutandose`. -/
  ejecutandose : Bool
  /-- The positions of the datagrams on which the watcher set it to `false`. -/
  paradas : List ℕ

/-- After the constructor. -/
def Vigilante.inicial : Vigilante where
  llegadas := []
  apreton := .inicio
  leidas := 0
  ejecutandose := true
  paradas := []

/-- The steps of the processes and of the network. -/
inductive AccionVigilante
  /-- A broadcast arrives. -/
  | llega (datagrama : Texto)
  /-- The handshake opens its socket; its array holds `memoria`. -/
  | abre (memoria : Pila)
  /-- The handshake reads a datagram. -/
  | atiende
  /-- The watcher reads a datagram, into an array that held `pila`: it is declared in the loop. -/
  | vigila (pila : Pila)
  /-- `controladorInterrupciones`. -/
  | interrupcion

/-- One step. -/
def pasoVigilante (v : Vigilante) : AccionVigilante → Option Vigilante
  | .llega datagrama => some { v with llegadas := v.llegadas ++ [datagrama] }
  | .abre memoria =>
      match v.apreton with
      | .inicio => some { v with apreton := .esperando v.llegadas.length memoria }
      | _ => none
  | .atiende =>
      match v.apreton with
      | .esperando atendidas memoria =>
          v.llegadas[atendidas]?.bind fun datagrama =>
            (memoria.recibir datagrama).map fun buffer =>
              if buffer.es 'B' 'C' then { v with apreton := .conectado atendidas }
              else { v with apreton := .esperando (atendidas + 1) buffer }
      | _ => none
  | .vigila pila =>
      match v.apreton with
      -- `while(*conectado)`
      | .conectado _ =>
          v.llegadas[v.leidas]?.bind fun datagrama =>
            (pila.recibir datagrama).map fun buffer =>
              if buffer.es 'B' 'D' then
                { v with
                  leidas := v.leidas + 1
                  ejecutandose := false
                  paradas := v.paradas ++ [v.leidas] }
              else { v with leidas := v.leidas + 1 }
      | _ => none
  | .interrupcion => some { v with ejecutandose := false }

/-! ## What a step can do -/

/-- **What a step can do.** -/
inductive Vigila (v : Vigilante) : AccionVigilante → Vigilante → Prop
  | llega (datagrama : Texto) :
      Vigila v (.llega datagrama) { v with llegadas := v.llegadas ++ [datagrama] }
  | abre (memoria : Pila) (ha : v.apreton = .inicio) :
      Vigila v (.abre memoria) { v with apreton := .esperando v.llegadas.length memoria }
  | conecta (k : ℕ) (memoria buffer : Pila) (datagrama : Texto)
      (ha : v.apreton = .esperando k memoria) (hk : v.llegadas[k]? = some datagrama)
      (hrec : memoria.recibir datagrama = some buffer) (hes : buffer.es 'B' 'C' = true) :
      Vigila v .atiende { v with apreton := .conectado k }
  | ignora (k : ℕ) (memoria buffer : Pila) (datagrama : Texto)
      (ha : v.apreton = .esperando k memoria) (hk : v.llegadas[k]? = some datagrama)
      (hrec : memoria.recibir datagrama = some buffer) (hes : buffer.es 'B' 'C' = false) :
      Vigila v .atiende { v with apreton := .esperando (k + 1) buffer }
  | para (c : ℕ) (pila buffer : Pila) (datagrama : Texto) (ha : v.apreton = .conectado c)
      (hk : v.llegadas[v.leidas]? = some datagrama)
      (hrec : pila.recibir datagrama = some buffer) (hes : buffer.es 'B' 'D' = true) :
      Vigila v (.vigila pila)
        { v with
          leidas := v.leidas + 1
          ejecutandose := false
          paradas := v.paradas ++ [v.leidas] }
  | sigue (c : ℕ) (pila buffer : Pila) (datagrama : Texto) (ha : v.apreton = .conectado c)
      (hk : v.llegadas[v.leidas]? = some datagrama)
      (hrec : pila.recibir datagrama = some buffer) (hes : buffer.es 'B' 'D' = false) :
      Vigila v (.vigila pila) { v with leidas := v.leidas + 1 }
  | interrupcion : Vigila v .interrupcion { v with ejecutandose := false }

theorem pasoVigilante_vigila {v v' : Vigilante} {a : AccionVigilante}
    (h : pasoVigilante v a = some v') : Vigila v a v' := by
  cases a with
  | llega datagrama =>
      obtain rfl := Option.some.inj h
      exact .llega datagrama
  | abre memoria =>
      simp only [pasoVigilante] at h
      split at h
      · next ha =>
          obtain rfl := Option.some.inj h
          exact .abre memoria ha
      · cases h
  | atiende =>
      simp only [pasoVigilante] at h
      split at h
      · next k memoria ha =>
          obtain ⟨datagrama, hk, h⟩ := Option.bind_eq_some_iff.mp h
          obtain ⟨buffer, hrec, h⟩ := Option.map_eq_some_iff.mp h
          by_cases hes : buffer.es 'B' 'C' = true
          · rw [if_pos hes] at h
            rw [← h]
            exact .conecta k memoria buffer datagrama ha hk hrec hes
          · rw [if_neg hes] at h
            rw [← h]
            exact .ignora k memoria buffer datagrama ha hk hrec (Bool.eq_false_iff.mpr hes)
      · cases h
  | vigila pila =>
      simp only [pasoVigilante] at h
      split at h
      · next c ha =>
          obtain ⟨datagrama, hk, h⟩ := Option.bind_eq_some_iff.mp h
          obtain ⟨buffer, hrec, h⟩ := Option.map_eq_some_iff.mp h
          by_cases hes : buffer.es 'B' 'D' = true
          · rw [if_pos hes] at h
            rw [← h]
            exact .para c pila buffer datagrama ha hk hrec hes
          · rw [if_neg hes] at h
            rw [← h]
            exact .sigue c pila buffer datagrama ha hk hrec (Bool.eq_false_iff.mpr hes)
      · cases h
  | interrupcion =>
      obtain rfl := Option.some.inj h
      exact .interrupcion

/-! ## The condition -/

/-- The handshake, reading `pendientes` into an array that holds `memoria`, becomes connected. -/
def conectara : Pila → List Texto → Bool
  | _, [] => false
  | memoria, datagrama :: pendientes =>
      match memoria.recibir datagrama with
      | none => false
      | some buffer => if buffer.es 'B' 'C' then true else conectara buffer pendientes

/-- Of the datagrams `llegadas`, one before position `n` connects the server, or has connected it
already. -/
def Apreton.Antes (llegadas : List Texto) (n : ℕ) : Apreton → Prop
  | .inicio => False
  | .esperando k memoria => conectara memoria ((llegadas.take n).drop k) = true
  | .conectado c => c < n

/-- The `B/C` by which the server becomes connected has arrived before position `n`. -/
def ConectadoAntes (v : Vigilante) (n : ℕ) : Prop := v.apreton.Antes v.llegadas n

/-- A `B/D` arrives only behind the `B/C` by which the server becomes connected, and the watcher
does not read a lone `B` over an old `D`. -/
def DespedidaPosterior (v : Vigilante) : AccionVigilante → Prop
  | .llega datagrama => esDatagrama 'B' 'D' datagrama = true → ConectadoAntes v v.llegadas.length
  | .vigila pila => v.llegadas[v.leidas]? = some ['B'] → pila.bytes[2]? ≠ some 'D'
  | _ => True

instance (llegadas : List Texto) (n : ℕ) : DecidablePred (Apreton.Antes llegadas n) := fun a =>
  match a with
  | .inicio => inferInstanceAs (Decidable False)
  | .esperando k memoria =>
      inferInstanceAs (Decidable (conectara memoria ((llegadas.take n).drop k) = true))
  | .conectado c => inferInstanceAs (Decidable (c < n))

instance (v : Vigilante) : DecidablePred (DespedidaPosterior v) := fun a =>
  match a with
  | .llega datagrama =>
      inferInstanceAs (Decidable
        (esDatagrama 'B' 'D' datagrama = true → v.apreton.Antes v.llegadas v.llegadas.length))
  | .vigila pila =>
      inferInstanceAs (Decidable (v.llegadas[v.leidas]? = some ['B'] → pila.bytes[2]? ≠ some 'D'))
  | .abre _ => inferInstanceAs (Decidable True)
  | .atiende => inferInstanceAs (Decidable True)
  | .interrupcion => inferInstanceAs (Decidable True)

/-- What the watcher may stop the server for: a `B/D` that arrived behind the connecting `B/C`. -/
def ParadaPropia (v : Vigilante) (n : ℕ) : Prop :=
  ∃ c datagrama, v.apreton = .conectado c ∧ c < n ∧ v.llegadas[n]? = some datagrama
    ∧ esDatagrama 'B' 'D' datagrama = true

/-! ## The invariant -/

structure VigilanteInv (v : Vigilante) : Prop where
  /-- The connecting `B/C` has arrived. -/
  conexion : ∀ c, v.apreton = .conectado c → c < v.llegadas.length
  despedidas : ∀ n datagrama, v.llegadas[n]? = some datagrama →
    esDatagrama 'B' 'D' datagrama = true → ConectadoAntes v n
  paradas : ∀ n ∈ v.paradas, ParadaPropia v n

theorem vigilanteInv_inicial : VigilanteInv Vigilante.inicial where
  conexion := nofun
  despedidas := nofun
  paradas := nofun

section Vigilante

variable {v v' : Vigilante} {n : ℕ} {datagrama : Texto}

/-- What has arrived before a position does not depend on what arrives later. -/
theorem conectadoAntes_llega (hn : n ≤ v.llegadas.length) :
    ConectadoAntes { v with llegadas := v.llegadas ++ [datagrama] } n ↔ ConectadoAntes v n := by
  unfold ConectadoAntes Apreton.Antes
  dsimp only
  rw [List.take_append_of_le_length hn]

/-- An arrival. -/
theorem VigilanteInv.llega (hinv : VigilanteInv v)
    (hok : esDatagrama 'B' 'D' datagrama = true → ConectadoAntes v v.llegadas.length) :
    VigilanteInv { v with llegadas := v.llegadas ++ [datagrama] } where
  conexion := by
    intro c hc
    have := hinv.conexion c hc
    rw [List.length_append]
    omega
  despedidas := by
    intro n d hd hes
    by_cases hn : n < v.llegadas.length
    · rw [List.getElem?_append_left hn] at hd
      exact (conectadoAntes_llega (Nat.le_of_lt hn)).mpr (hinv.despedidas n d hd hes)
    · -- it is the one that arrives
      have hlt : n < (v.llegadas ++ [datagrama]).length := (List.getElem?_eq_some_iff.mp hd).1
      have heq : n = v.llegadas.length := by
        rw [List.length_append, List.length_singleton] at hlt
        omega
      rw [heq, List.getElem?_concat_length, Option.some.injEq] at hd
      rw [heq]
      rw [← hd] at hes
      exact (conectadoAntes_llega (Nat.le_refl _)).mpr (hok hes)
  paradas := by
    intro n hn
    obtain ⟨c, d, hc, hlt, hd, hes⟩ := hinv.paradas n hn
    have hlen : n < v.llegadas.length := (List.getElem?_eq_some_iff.mp hd).1
    refine ⟨c, d, hc, hlt, ?_, hes⟩
    rw [List.getElem?_append_left hlen]
    exact hd

/-- The watcher has stopped the server for nothing as long as the handshake goes on. -/
theorem VigilanteInv.sin_paradas (hinv : VigilanteInv v) (ha : ∀ c, v.apreton ≠ .conectado c) :
    v.paradas = [] := by
  rw [List.eq_nil_iff_forall_not_mem]
  intro n hn
  obtain ⟨c, -, hc, -⟩ := hinv.paradas n hn
  exact ha c hc

/-- A step of the handshake: what connects the server before a `B/D` is the same, one datagram
later. -/
theorem VigilanteInv.apreton (hinv : VigilanteInv v) (ha : ∀ c, v.apreton ≠ .conectado c)
    {apreton : Apreton} (hconexion : ∀ c, apreton = .conectado c → c < v.llegadas.length)
    (hantes : ∀ n, ConectadoAntes v n → ConectadoAntes { v with apreton := apreton } n) :
    VigilanteInv { v with apreton := apreton } where
  conexion := hconexion
  despedidas := by
    intro n d hd hes
    exact hantes n (hinv.despedidas n d hd hes)
  paradas := by
    have hnada : v.paradas = [] := hinv.sin_paradas ha
    intro n hn
    dsimp only at hn
    rw [hnada] at hn
    exact absurd hn List.not_mem_nil

/-- Where the handshake has not read up to `n`, its next datagram is the first of those that
are left before `n`. -/
theorem drop_take_llegadas {k : ℕ} (hk : v.llegadas[k]? = some datagrama) (hkn : k < n) :
    (v.llegadas.take n).drop k = datagrama :: (v.llegadas.take n).drop (k + 1) := by
  obtain ⟨hlt, hget⟩ := List.getElem?_eq_some_iff.mp hk
  have hlen : k < (v.llegadas.take n).length := by
    rw [List.length_take]
    omega
  rw [List.drop_eq_getElem_cons hlen, List.getElem_take, hget]

/-- What connects the server before `n` has not been read by the handshake yet. -/
theorem lt_of_conectara {k : ℕ} {memoria : Pila}
    (h : conectara memoria ((v.llegadas.take n).drop k) = true) : k < n := by
  by_contra hkn
  have hnada : (v.llegadas.take n).drop k = [] := by
    apply List.drop_eq_nil_of_le
    rw [List.length_take]
    omega
  rw [hnada, conectara] at h
  cases h

/-- The handshake reads the `B/C`. -/
theorem VigilanteInv.conecta (hinv : VigilanteInv v) {k : ℕ} {memoria : Pila}
    (ha : v.apreton = .esperando k memoria) (hk : v.llegadas[k]? = some datagrama) :
    VigilanteInv { v with apreton := .conectado k } := by
  apply hinv.apreton
  · intro c hc
    rw [ha] at hc
    cases hc
  · intro c hc
    cases hc
    exact (List.getElem?_eq_some_iff.mp hk).1
  · intro n hantes
    rw [ConectadoAntes, ha, Apreton.Antes] at hantes
    exact lt_of_conectara hantes

/-- The handshake reads something else. -/
theorem VigilanteInv.ignora (hinv : VigilanteInv v) {k : ℕ} {memoria buffer : Pila}
    (ha : v.apreton = .esperando k memoria) (hk : v.llegadas[k]? = some datagrama)
    (hrec : memoria.recibir datagrama = some buffer) (hes : buffer.es 'B' 'C' = false) :
    VigilanteInv { v with apreton := .esperando (k + 1) buffer } := by
  apply hinv.apreton
  · intro c hc
    rw [ha] at hc
    cases hc
  · intro c hc
    cases hc
  · intro n hantes
    rw [ConectadoAntes, ha, Apreton.Antes] at hantes
    rw [drop_take_llegadas hk (lt_of_conectara hantes), conectara, hrec] at hantes
    dsimp only at hantes
    rw [hes, if_neg Bool.false_ne_true] at hantes
    exact hantes

/-- The watcher reads a datagram that stops the server. -/
theorem VigilanteInv.para (hinv : VigilanteInv v) {c : ℕ} {pila buffer : Pila}
    (ha : v.apreton = .conectado c) (hk : v.llegadas[v.leidas]? = some datagrama)
    (hrec : pila.recibir datagrama = some buffer) (hes : buffer.es 'B' 'D' = true)
    (hok : v.llegadas[v.leidas]? = some ['B'] → pila.bytes[2]? ≠ some 'D') :
    VigilanteInv
      { v with
        leidas := v.leidas + 1
        ejecutandose := false
        paradas := v.paradas ++ [v.leidas] } where
  conexion := hinv.conexion
  despedidas := hinv.despedidas
  paradas := by
    -- the test on the array is the test on the datagram
    have hpropio : esDatagrama 'B' 'D' datagrama = true := by
      rcases (Pila.es_recibir hrec (by decide) (by decide)).mp hes with h | ⟨h, hD⟩
      · exact h
      · rw [h] at hk
        exact absurd hD (hok hk)
    have hantes : c < v.leidas := by
      have := hinv.despedidas v.leidas datagrama hk hpropio
      rwa [ConectadoAntes, ha, Apreton.Antes] at this
    intro n hn
    rcases List.mem_append.mp hn with hn | hn
    · exact hinv.paradas n hn
    · rw [List.mem_singleton.mp hn]
      exact ⟨c, datagrama, ha, hantes, hk, hpropio⟩

/-- What one step keeps. -/
theorem VigilanteInv.paso {a : AccionVigilante} (hinv : VigilanteInv v)
    (hok : DespedidaPosterior v a) (h : pasoVigilante v a = some v') : VigilanteInv v' := by
  cases pasoVigilante_vigila h with
  | llega datagrama => exact hinv.llega hok
  | abre memoria ha =>
      apply hinv.apreton
      · intro c hc
        rw [ha] at hc
        cases hc
      · intro c hc
        cases hc
      · intro n hantes
        rw [ConectadoAntes, ha, Apreton.Antes] at hantes
        exact hantes.elim
  | conecta k memoria buffer datagrama ha hk hrec hes => exact hinv.conecta ha hk
  | ignora k memoria buffer datagrama ha hk hrec hes => exact hinv.ignora ha hk hrec hes
  | para c pila buffer datagrama ha hk hrec hes => exact hinv.para ha hk hrec hes hok
  | sigue c pila buffer datagrama ha hk hrec hes =>
      exact ⟨hinv.conexion, hinv.despedidas, hinv.paradas⟩
  | interrupcion => exact ⟨hinv.conexion, hinv.despedidas, hinv.paradas⟩

end Vigilante

/-! ## The result on departures -/

/-- **The watcher stops the server for a departure of its own balancer only**, in every run in which
each `B/D` arrives behind the `B/C` by which the server becomes connected. The watcher reads its
queue from the constructor on, and cannot tell for whom a `B/D` in it was meant. -/
theorem parada_propia {v : Vigilante}
    (hr : Reach pasoVigilante DespedidaPosterior Vigilante.inicial v) :
    ∀ n ∈ v.paradas, ParadaPropia v n := by
  have hinv : VigilanteInv v := by
    apply hr.invariant VigilanteInv vigilanteInv_inicial
    intro v a v' hinv hok h
    exact hinv.paso hok h
  exact hinv.paradas

/-- The server's own `S/C`, the balancer's `B/C`, and later its `B/D`. -/
theorem parada_propia_despedida :
    ∃ v, Reach pasoVigilante DespedidaPosterior Vigilante.inicial v ∧ v.paradas = [2]
      ∧ ∀ n ∈ v.paradas, ParadaPropia v n := by
  let subnet := "10.0.0.1".toList
  let port := "80".toList
  let as : List AccionVigilante :=
    [.abre .ceros, .llega (WebServidor.avisarBalanceadores false subnet port),
      .llega (Balanceador.avisarServidores false subnet port), .atiende, .atiende,
      .llega (Balanceador.avisarServidores true subnet port), .vigila .ceros, .vigila .ceros,
      .vigila .ceros]
  obtain ⟨v, hv, hparadas⟩ : ∃ v, exec pasoVigilante Vigilante.inicial as = some v
      ∧ v.paradas = [2] := ⟨_, rfl, rfl⟩
  have hok : AllOk pasoVigilante DespedidaPosterior Vigilante.inicial as := by
    decide
  have hr := Reach.of_exec hok hv
  exact ⟨v, hr, hparadas, parada_propia hr⟩

/-- **The departure of an earlier balancer.** Its `B/D` arrives after the constructor and before the
handshake, on which another balancer then answers. -/
theorem parada_ajena :
    ¬ ∀ v, Reach pasoVigilante always Vigilante.inicial v → ∀ n ∈ v.paradas, ParadaPropia v n := by
  intro hall
  let subnet := "10.0.0.1".toList
  let port := "80".toList
  let as : List AccionVigilante :=
    [.llega (Balanceador.avisarServidores true subnet port), .abre .ceros,
      .llega (Balanceador.avisarServidores false subnet port), .atiende, .vigila .ceros]
  obtain ⟨v, hv, hparadas, hapreton⟩ : ∃ v, exec pasoVigilante Vigilante.inicial as = some v
      ∧ v.paradas = [0] ∧ v.apreton = .conectado 1 := ⟨_, rfl, rfl, rfl⟩
  have hcero : 0 ∈ v.paradas := by
    rw [hparadas]
    exact List.mem_singleton_self 0
  obtain ⟨c, -, -, hlt, -⟩ := hall v (Reach.of_exec (allOk_always as _) hv) 0 hcero
  exact absurd hlt (Nat.not_lt_zero c)

end LoadBalancer
