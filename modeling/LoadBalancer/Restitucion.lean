/-
The exit paths of `hilo_Cliente`, and the unit of load each of them owes.

With a table that does not change, a request owes one unit of load at `indice_ip` from
its `carga_actual++` on. The `carga_actual--` at the end pays it back; the return after a
failed `conectar` does not, so the debt stays with the finished thread. [`deudas`] counts
both, and load minus debts at a position is the same in every state of a run
([`Saldo`]). Once the requests of a run have finished, the loads have therefore moved by
exactly the refused connections.
-/
import LoadBalancer.Carga

set_option autoImplicit false

namespace LoadBalancer

open LoadBalancer.Transition

/-! ## Debts -/

/-- The position at which a thread owes a unit of load. -/
def Fase.deuda (f : Fase) : Option ℤ :=
  match f.cargada with
  | some (i, _) => some i
  | none => f.perdida

/-- The units of load owed at position `j`. -/
def deudas (hilos : List Hilo) (j : ℕ) : ℕ := cuenta hilos fun f => f.deuda = some (j : ℤ)

/-- The count of the debts when one thread changes its phase. -/
theorem deudas_set {hilos : List Hilo} {h : ℕ} (hh : h < hilos.length) (t : Hilo) (j : ℕ) :
    deudas (hilos.set h t) j + (if hilos[h].fase.deuda = some (j : ℤ) then 1 else 0)
      = deudas hilos j + (if t.fase.deuda = some (j : ℤ) then 1 else 0) := by
  have := cuenta_set hh t fun f => decide (f.deuda = some (j : ℤ))
  simpa only [deudas, decide_eq_true_eq] using this

/-- A thread that keeps its debt leaves the count alone. -/
theorem deudas_set_of_eq {hilos : List Hilo} {h : ℕ} (hh : h < hilos.length) {t : Hilo}
    (heq : t.fase.deuda = hilos[h].fase.deuda) (j : ℕ) :
    deudas (hilos.set h t) j = deudas hilos j :=
  cuenta_set_of_eq hh (by rw [heq])

/-- **Load minus debt** at every position does not change in a step of a thread. -/
theorem Transita.saldo {b b' : Balanceador} {hilos : List Hilo} {h : ℕ} {f' : Fase}
    (hh : h < hilos.length) (ht : Transita b hilos[h].peticion hilos[h].fase b' f')
    {j : ℕ} (hj : j < b.servidores.length) (hj' : j < b'.servidores.length) :
    b'.servidores[j].carga_actual - deudas (hilos.set h ⟨hilos[h].peticion, f'⟩) j
      = b.servidores[j].carga_actual - deudas hilos j := by
  rcases ht.efecto with ⟨heq, hcarg, hperd⟩ | ⟨i, hi, hf, rfl, heq⟩ | ⟨i, hi, d, hf, rfl, -, rfl⟩
    | ⟨i, hi, d, hf, rfl, -, rfl⟩ | ⟨i, hi, d, hf, rfl, heq⟩
  · rw [deudas_set_of_eq hh (by unfold Fase.deuda; rw [hcarg, hperd])]
    simp only [heq]
  · -- the load at `i` and the debt at `i` both go up by one
    have hcount := deudas_set hh ⟨hilos[h].peticion, .conectar i b.servidores[i].comparador⟩ j
    simp only [hf, Fase.deuda, Fase.cargada, Fase.perdida, reduceCtorEq, if_false,
      Option.some.injEq, Nat.cast_inj] at hcount
    simp only [heq, List.getElem_set]
    split_ifs at hcount ⊢ with hij
    · subst hij
      dsimp only
      omega
    · omega
  · rw [deudas_set_of_eq hh (by rw [hf]; rfl)]
  · rw [deudas_set_of_eq hh (by rw [hf]; rfl)]
  · -- both go down by one
    have hcount := deudas_set hh ⟨hilos[h].peticion, .registrar i⟩ j
    simp only [hf, Fase.deuda, Fase.cargada, Fase.perdida, reduceCtorEq, if_false,
      Option.some.injEq, Nat.cast_inj] at hcount
    simp only [heq, List.getElem_set]
    split_ifs at hcount ⊢ with hij
    · subst hij
      dsimp only
      omega
    · omega

/-! ## Which exit a request takes -/

/-- What a request that started with `n` servers registered has learned at its point. -/
def Recorrido (n : ℕ) (p : Peticion) : Fase → Prop
  | .inicio => True
  | .terminado .sinServicio => n = 0
  | .terminado (.rechazado i) => p.conexion = false ∧ ∃ j : ℕ, i = j ∧ j < n
  | .terminado .completo => 0 < n ∧ p.conexion = true
  | .recibir _ _ _ _ => 0 < n ∧ p.conexion = true
  | .responder _ _ _ => 0 < n ∧ p.conexion = true
  | .descargar _ _ => 0 < n ∧ p.conexion = true
  | .registrar _ => 0 < n ∧ p.conexion = true
  | _ => 0 < n

theorem Transita.recorrido {b b' : Balanceador} {p : Peticion} {f f' : Fase}
    (ht : Transita b p f b' f') (hrec : Recorrido b.servidores.length p f) :
    Recorrido b.servidores.length p f' := by
  cases ht with
  | vacia h => exact List.length_eq_zero_iff.mpr h
  | noVacia h => exact List.length_pos_iff.mpr h
  | conexion i hi destino h => exact ⟨hrec, h⟩
  | rechazo i hi destino h => exact ⟨h, i, rfl, hi⟩
  | _ => exact hrec

/-! ## Runs with a fixed table -/

/-- No server is added or removed. -/
def TablaFija (_ : Estado) : Accion → Prop
  | .alta _ _ => False
  | .borrado => False
  | _ => True

instance : ∀ s a, Decidable (TablaFija s a)
  | _, .alta _ _ => isFalse id
  | _, .borrado => isFalse id
  | _, .llegada _ => isTrue trivial
  | _, .metodo _ => isTrue trivial
  | _, .hilo _ => isTrue trivial
  | _, .registro _ => isTrue trivial
  | _, .baja _ => isTrue trivial

/-- The invariant of a run from `s₀`: the table keeps its size, load minus debt is what it
was, and the threads started since then are where [`Recorrido`] says. -/
structure Saldo (s₀ s : Estado) : Prop where
  largo : s.balanceador.servidores.length = s₀.balanceador.servidores.length
  saldo : ∀ (j : ℕ) (hj₀ : j < s₀.balanceador.servidores.length)
    (hj : j < s.balanceador.servidores.length),
    s.balanceador.servidores[j].carga_actual - deudas s.hilos j
      = s₀.balanceador.servidores[j].carga_actual - deudas s₀.hilos j
  hilos : s₀.hilos.length ≤ s.hilos.length
  recorridos : ∀ t ∈ s.hilos.drop s₀.hilos.length,
    Recorrido s₀.balanceador.servidores.length t.peticion t.fase

theorem saldo_refl (s₀ : Estado) : Saldo s₀ s₀ where
  largo := rfl
  saldo := fun _ _ _ => rfl
  hilos := Nat.le_refl _
  recorridos := by
    intro t ht
    rw [List.drop_length] at ht
    cases ht

theorem Transita.length_servidores {b b' : Balanceador} {p : Peticion} {f f' : Fase}
    (ht : Transita b p f b' f') : b'.servidores.length = b.servidores.length := by
  have := congrArg List.length ht.comparadores
  simpa only [List.length_map] using this

/-- **The step lemma.** -/
theorem Saldo.paso {s₀ s s' : Estado} {a : Accion} (hinv : Saldo s₀ s) (hok : TablaFija s a)
    (hpaso : LoadBalancer.paso s a = some s') : Saldo s₀ s' := by
  cases paso_avanza hpaso with
  | llegada p =>
      refine ⟨hinv.largo, fun j hj₀ hj => ?_, ?_, ?_⟩
      · have hsum : deudas (s.hilos ++ [⟨p, .inicio⟩]) j = deudas s.hilos j := cuenta_llegada rfl
        rw [hsum]
        exact hinv.saldo j hj₀ hj
      · have := hinv.hilos
        simp only [List.length_append]
        omega
      · rw [List.drop_append_of_le_length hinv.hilos]
        exact forall_hilos_append hinv.recorridos trivial
  | metodo m => exact ⟨hinv.largo, hinv.saldo, hinv.hilos, hinv.recorridos⟩
  | hilo h hh b f hlibre ht =>
      have hlen := ht.length_servidores
      refine ⟨hlen.trans hinv.largo, fun j hj₀ hj => ?_, ?_, ?_⟩
      · have hjs : j < s.balanceador.servidores.length := by
          rw [hinv.largo]
          exact hj₀
        exact (ht.saldo hh hjs hj).trans (hinv.saldo j hj₀ hjs)
      · simpa only [List.length_set] using hinv.hilos
      · rw [List.drop_set]
        split_ifs with hlt
        · exact hinv.recorridos
        · -- the thread that moved is one of the new ones
          have hnew : s.hilos[h] ∈ s.hilos.drop s₀.hilos.length := by
            rw [List.mem_drop_iff_getElem]
            refine ⟨h - s₀.hilos.length, by omega, ?_⟩
            congr 1
            omega
          have hrec := hinv.recorridos _ hnew
          apply forall_hilos_set hinv.recorridos
          rw [← hinv.largo] at hrec ⊢
          exact ht.recorrido hrec
  | registroNuevo ip hf hb => exact ⟨hinv.largo, hinv.saldo, hinv.hilos, hinv.recorridos⟩
  | registroRepetido ip i hb => exact hinv
  | alta ip azar memoria nuevo hf hn => exact hok.elim
  | bajaAusente ip hb => exact hinv
  | bajaPresente ip posicion hf hb => exact ⟨hinv.largo, hinv.saldo, hinv.hilos, hinv.recorridos⟩
  | borrado posicion hf hp => exact hok.elim

theorem saldo_of_reach {s₀ s : Estado} (hr : Reach paso TablaFija s₀ s) : Saldo s₀ s :=
  hr.invariant (Saldo s₀) (saldo_refl s₀) fun _ _ _ hinv hok h => hinv.paso hok h

/-! ## The result -/

/-- The loads are the same list when every position has the same load. -/
theorem map_carga_eq_iff {l l' : List ServidorRegistrado} (hlen : l.length = l'.length) :
    l.map (·.carga_actual) = l'.map (·.carga_actual)
      ↔ ∀ (j : ℕ) (hj : j < l.length) (hj' : j < l'.length),
          l[j].carga_actual = l'[j].carga_actual := by
  constructor
  · intro heq j hj hj'
    have := List.getElem_of_eq heq (i := j) (by simpa using hj)
    simpa using this
  · intro hall
    apply List.ext_getElem (by simpa using hlen)
    intro j h₁ h₂
    simpa using hall j (by simpa using h₁) (by simpa using h₂)

/-- Among finished requests, the debts are the refused ones. -/
theorem deudas_eq_zero_iff {n : ℕ} {hilos : List Hilo}
    (hrec : ∀ t ∈ hilos, Recorrido n t.peticion t.fase)
    (hfin : ∀ t ∈ hilos, ∃ salida, t.fase = .terminado salida) :
    (∀ j < n, deudas hilos j = 0) ↔ n = 0 ∨ ∀ t ∈ hilos, t.peticion.conexion = true := by
  constructor
  · intro hzero
    rcases Nat.eq_zero_or_pos n with hn | hn
    · exact .inl hn
    refine .inr fun t ht => ?_
    -- which exit it took decides what it owes
    have hrect := hrec t ht
    obtain ⟨salida, hsalida⟩ := hfin t ht
    rw [hsalida] at hrect
    cases salida with
    | sinServicio => exact absurd hrect (by simpa [Recorrido] using Nat.pos_iff_ne_zero.mp hn)
    | completo => exact hrect.2
    | rechazado i =>
        -- the refused request is counted at its position
        obtain ⟨-, j, rfl, hj⟩ := hrect
        have hcount := hzero j hj
        rw [deudas, cuenta, List.countP_eq_zero] at hcount
        have := hcount t ht
        rw [hsalida] at this
        simp [Fase.deuda, Fase.cargada, Fase.perdida] at this
  · rintro (rfl | hacep) j hj
    · cases hj
    apply cuenta_eq_zero
    intro t ht
    have hrect := hrec t ht
    obtain ⟨salida, hsalida⟩ := hfin t ht
    rw [hsalida] at hrect ⊢
    cases salida with
    | sinServicio => rfl
    | completo => rfl
    | rechazado i =>
        obtain ⟨hno, -⟩ := hrect
        rw [hacep t ht] at hno
        cases hno

/-- **A request that returns leaves the loads as they were exactly when its connection was
accepted or the table was empty.** From any state, let any number of requests start and
return, in any interleaving, while the table stays as it is and the threads that were
already there stay where they are: the loads are what they were, and all `0` if they were
all `0`, if and only if there is no server or every connection was accepted. The way out after a
refused connection is the only one without the `carga_actual--`. -/
theorem cargas_restauradas_iff {s₀ s : Estado} (hr : Reach paso TablaFija s₀ s)
    (hviejos : s.hilos.take s₀.hilos.length = s₀.hilos)
    (hfin : ∀ t ∈ s.hilos.drop s₀.hilos.length, ∃ salida, t.fase = .terminado salida) :
    (s.balanceador.servidores.map (·.carga_actual)
        = s₀.balanceador.servidores.map (·.carga_actual)
      ↔ s₀.balanceador.servidores = []
        ∨ ∀ t ∈ s.hilos.drop s₀.hilos.length, t.peticion.conexion = true)
      ∧ ((∀ srv ∈ s₀.balanceador.servidores, srv.carga_actual = 0) →
        ((∀ srv ∈ s.balanceador.servidores, srv.carga_actual = 0)
          ↔ s₀.balanceador.servidores = []
            ∨ ∀ t ∈ s.hilos.drop s₀.hilos.length, t.peticion.conexion = true)) := by
  have hsaldo := saldo_of_reach hr
  have hlen := hsaldo.largo
  -- the debts of the run are those of the threads that were there and those of the new ones
  have hdeudas : ∀ j, deudas s.hilos j
      = deudas s₀.hilos j + deudas (s.hilos.drop s₀.hilos.length) j := by
    intro j
    have hsplit := congrArg (deudas · j) (List.take_append_drop s₀.hilos.length s.hilos)
    rw [← hsplit, hviejos]
    exact List.countP_append
  have hiff : (s.balanceador.servidores.map (·.carga_actual)
        = s₀.balanceador.servidores.map (·.carga_actual))
      ↔ s₀.balanceador.servidores = []
        ∨ ∀ t ∈ s.hilos.drop s₀.hilos.length, t.peticion.conexion = true := by
    -- position by position, the loads agree exactly when the new threads owe nothing
    rw [map_carga_eq_iff hlen, ← List.length_eq_zero_iff,
      ← deudas_eq_zero_iff hsaldo.recorridos hfin]
    constructor
    · intro hall j hj
      have h₁ := hsaldo.saldo j hj (by omega)
      have h₂ := hall j (by omega) hj
      have h₃ := hdeudas j
      omega
    · intro hzero j hj hj₀
      have h₁ := hsaldo.saldo j hj₀ hj
      have h₂ := hzero j hj₀
      have h₃ := hdeudas j
      omega
  -- if all loads were `0`, being what they were is being `0`
  refine ⟨hiff, fun hcero => ?_⟩
  rw [← hiff, map_carga_eq_iff hlen]
  constructor
  · intro hall j hj hj₀
    rw [hall _ (List.getElem_mem hj), hcero _ (List.getElem_mem hj₀)]
  · intro hall srv hsrv
    obtain ⟨j, hj, rfl⟩ := List.getElem_of_mem hsrv
    rw [hall j hj (by omega), hcero _ (List.getElem_mem (by omega))]

/-- One request to one server, its connection accepted. -/
theorem cargas_restauradas_una_peticion :
    ∃ s, exec paso (.conServidores [.libre "10.0.0.1/80".toList 5])
        (.llegada (.minima true) :: List.replicate 9 (.hilo 0)) = some s
      ∧ s.balanceador.servidores.map (·.carga_actual) = [0] := by
  obtain ⟨s, hs, hhilos⟩ : ∃ s, exec paso (.conServidores [.libre "10.0.0.1/80".toList 5])
        (.llegada (.minima true) :: List.replicate 9 (.hilo 0)) = some s
      ∧ s.hilos = [⟨.minima true, .terminado .completo⟩] := ⟨_, rfl, rfl⟩
  have hok : AllOk paso TablaFija (.conServidores [.libre "10.0.0.1/80".toList 5])
      (.llegada (.minima true) :: List.replicate 9 (.hilo 0)) :=
    ⟨trivial, trivial, trivial, trivial, trivial, trivial, trivial, trivial, trivial, trivial,
      trivial⟩
  have hiff := (cargas_restauradas_iff (Reach.of_exec hok hs) rfl (by
    intro t ht
    rw [hhilos] at ht
    rw [List.mem_singleton.mp ht]
    exact ⟨_, rfl⟩)).1
  refine ⟨s, hs, hiff.mpr (.inr fun t ht => ?_)⟩
  rw [hhilos] at ht
  rw [List.mem_singleton.mp ht]
  rfl

/-- **A refused connection keeps its unit of load for ever.** -/
theorem carga_perdida :
    ¬ ∀ s₀ s, Reach paso TablaFija s₀ s → s.hilos.take s₀.hilos.length = s₀.hilos →
      (∀ t ∈ s.hilos.drop s₀.hilos.length, ∃ salida, t.fase = .terminado salida) →
      s.balanceador.servidores.map (·.carga_actual)
        = s₀.balanceador.servidores.map (·.carga_actual) := by
  intro hall
  obtain ⟨s, hs, hhilos, hcarga⟩ : ∃ s,
      exec paso (.conServidores [.libre "10.0.0.1/80".toList 5])
        (.llegada (.minima false) :: List.replicate 5 (.hilo 0)) = some s
      ∧ s.hilos = [⟨.minima false, .terminado (.rechazado 0)⟩]
      ∧ s.balanceador.servidores.map (·.carga_actual) = [1] := ⟨_, rfl, rfl, rfl⟩
  have hok : AllOk paso TablaFija (.conServidores [.libre "10.0.0.1/80".toList 5])
      (.llegada (.minima false) :: List.replicate 5 (.hilo 0)) :=
    ⟨trivial, trivial, trivial, trivial, trivial, trivial, trivial⟩
  have heq := hall _ s (Reach.of_exec hok hs) rfl (by
    intro t ht
    rw [hhilos] at ht
    rw [List.mem_singleton.mp ht]
    exact ⟨_, rfl⟩)
  rw [hcarga] at heq
  cases heq

end LoadBalancer
