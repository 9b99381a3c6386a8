/-
Which web servers can be left waiting for a `B/C`.

A web server that starts always waits for an answer, but `agregarServidor` answers only an
`S/C` whose text is not in the table. So a server is safe as long as a `B/C` is in its
queue already, or the balancer will come upon an `S/C` that it answers: [`responde`], which
replays on the table what waits for the balancer. Neither goes away before the server has
its `B/C`; what has to be assumed is that it is there when the server starts.
-/
import LoadBalancer.Enlace

set_option autoImplicit false

namespace LoadBalancer

open LoadBalancer.Transition LoadBalancer.Registry

/-! ## The answer to come -/

/-- Of what waits for the balancer, some `S/C` will be answered: when the balancer comes to it,
its text is not in the table. -/
def responde : List Texto → List Mensaje → Bool
  | _, [] => false
  | tabla, .SC i :: resto => if tabla.contains i then responde tabla resto else true
  | tabla, m :: resto => responde (tratar tabla m) resto

/-- The balancer handles a datagram that it does not answer. -/
theorem responde_cons {tabla : List Texto} {m : Mensaje} {resto : List Mensaje}
    (h : ∀ i, m = .SC i → i ∈ tabla) :
    responde tabla (m :: resto) = responde (tratar tabla m) resto := by
  cases m with
  | BC => rfl
  | SC i =>
      have hi : i ∈ tabla := h i rfl
      rw [responde, if_pos (List.contains_iff_mem.mpr hi), tratar, apply_add_of_mem hi]
  | SD i => rfl

/-- What comes later does not take the answer back. -/
theorem responde_append {tabla : List Texto} {cola : List Mensaje} (h : responde tabla cola = true)
    (m : Mensaje) : responde tabla (cola ++ [m]) = true := by
  induction cola generalizing tabla with
  | nil => cases h
  | cons m' resto ih =>
      rw [List.cons_append]
      by_cases hnueva : ∀ i, m' = .SC i → i ∈ tabla
      · rw [responde_cons hnueva] at h ⊢
        exact ih h
      · -- the answer is to `m'`
        push Not at hnueva
        obtain ⟨i, rfl, hi⟩ := hnueva
        rw [responde, if_neg (mt List.contains_iff_mem.mp hi)]

/-! ## The condition and the invariant -/

/-- A web server that starts while the balancer is running will be answered: some `S/C` among
those that wait for the balancer, its own the last, is new to the table when its turn comes. -/
def Respondida (e : Enlace) : AccionEnlace → Prop
  | .arranque i => e.enMarcha = true → responde e.tabla (e.cola ++ [.SC i]) = true
  | _ => True

instance (e : Enlace) : DecidablePred (Respondida e) := fun a =>
  match a with
  | .arranque _ => inferInstanceAs (Decidable (e.enMarcha = true → _))
  | .arranqueBalanceador => inferInstanceAs (Decidable True)
  | .entregaBalanceador => inferInstanceAs (Decidable True)
  | .entrega _ => inferInstanceAs (Decidable True)
  | .cierre _ => inferInstanceAs (Decidable True)
  | .caida _ => inferInstanceAs (Decidable True)

/-- A `B/C` is on its way to server `i`, or will be. -/
def Espera (e : Enlace) (i : Texto) : Prop :=
  .BC ∈ (e.servidores i).cola ∨ responde e.tabla e.cola = true

/-- Everyone who waits, waits for something. -/
def EsperaInv (e : Enlace) : Prop :=
  e.enMarcha = true → ∀ i, (e.servidores i).fase = .standBy → Espera e i

section Espera

variable {e : Enlace} {i j : Texto} {m : Mensaje} {s : Servidor}

/-- A broadcast takes nothing away from anyone. -/
theorem Espera.difundir (h : Espera e j) (hm : e.enMarcha = true) : Espera (e.difundir m) j := by
  rcases h with h | h
  · exact .inl (Servidor.mem_recibir m h)
  · refine .inr ?_
    rw [Enlace.difundir_cola_enMarcha e m hm, Enlace.difundir_tabla]
    exact responde_append h m

/-- Nor does a change at another server. -/
theorem Espera.poner_otro (h : Espera e j) (hji : j ≠ i) : Espera (e.poner i s) j := by
  unfold Espera
  rw [Enlace.poner_servidores_of_ne e s hji]
  exact h

/-- After `avisarServidores` everyone who waits has a `B/C`. -/
theorem esperaInv_avisarServidores (e : Enlace) : EsperaInv e.avisarServidores := by
  intro _ i hf
  rw [Enlace.avisarServidores, Enlace.difundir_servidores, Servidor.recibir_fase] at hf
  have hbound : (e.servidores i).fase ≠ .apagado := by
    rw [hf]
    intro h
    cases h
  apply Or.inl
  rw [Enlace.avisarServidores, Enlace.difundir_servidores, Servidor.recibir_cola _ hbound]
  exact List.mem_append_right _ (List.mem_singleton_self _)

/-- A change at server `i`, after which it waits no more or waits for something. -/
theorem EsperaInv.poner (hinv : EsperaInv e)
    (hi : e.enMarcha = true → s.fase = .standBy → Espera (e.poner i s) i) :
    EsperaInv (e.poner i s) := by
  intro hm j hf
  by_cases hji : j = i
  · subst hji
    rw [Enlace.poner_servidores_self] at hf
    exact hi hm hf
  · rw [Enlace.poner_servidores_of_ne e s hji] at hf
    exact (hinv hm j hf).poner_otro hji

/-- A broadcast keeps the invariant. -/
theorem EsperaInv.difundir (hinv : EsperaInv e) : EsperaInv (e.difundir m) := by
  intro hm j hf
  rw [Enlace.difundir_servidores, Servidor.recibir_fase] at hf
  exact (hinv hm j hf).difundir hm

/-- What one step keeps. -/
theorem EsperaInv.paso {e' : Enlace} {a : AccionEnlace} (hinv : EsperaInv e)
    (hok : Respondida e a) (h : pasoEnlace e a = some e') : EsperaInv e' := by
  cases pasoEnlace_enlaza h with
  | arranqueBalanceador hm => exact esperaInv_avisarServidores _
  | arranque i hf =>
      intro hm j hfase
      by_cases hji : j = i
      · -- its own `S/C` is the last datagram that waits for the balancer
        apply Or.inr
        rw [Enlace.avisarBalanceadores,
          Enlace.difundir_cola_enMarcha (e.poner i ⟨.standBy, []⟩) (.SC i) hm]
        exact hok hm
      · rw [Enlace.avisarBalanceadores, Enlace.difundir_servidores, Servidor.recibir_fase,
          Enlace.poner_servidores_of_ne e _ hji] at hfase
        exact ((hinv hm j hfase).poner_otro hji).difundir hm
  | registro i resto hm hc hi => exact esperaInv_avisarServidores _
  | sinRespuesta m resto hm hc hSC =>
      intro _ j hfase
      rcases hinv hm j hfase with hBC | hresp
      · exact .inl hBC
      · rw [hc, responde_cons hSC] at hresp
        exact .inr hresp
  | conexion i resto hf hc =>
      apply EsperaInv.difundir
      apply hinv.poner
      intro _ hfase
      cases hfase
  | ignorado i m resto hf hc hBC =>
      apply hinv.poner
      intro hm _
      rcases hinv hm i hf with h | h
      · rw [hc] at h
        apply Or.inl
        rw [Enlace.poner_servidores_self]
        exact (List.mem_cons.mp h).resolve_left hBC.symm
      · exact .inr h
  | despedida i hf =>
      apply EsperaInv.difundir
      apply hinv.poner
      intro _ hfase
      cases hfase
  | abandono i hf =>
      apply hinv.poner
      intro _ hfase
      cases hfase
  | caida i hf =>
      apply hinv.poner
      intro _ hfase
      cases hfase

end Espera

/-! ## The result on waiting -/

/-- **Nobody is left waiting**, in every run in which a web server that starts while the balancer is
running finds an answer to come: at rest no web server is in stand-by. The `B/C` that it waits for
is in its queue, or follows from an `S/C` that the balancer has yet to read; neither goes away. -/
theorem nadie_en_espera {e : Enlace} (hr : Reach pasoEnlace Respondida Enlace.inicial e)
    (hm : e.enMarcha = true) (hreposo : e.EnReposo) (i : Texto) :
    (e.servidores i).fase ≠ .standBy := by
  intro hf
  have hinicial : EsperaInv Enlace.inicial := by
    intro h
    cases h
  have hinv : EsperaInv e := by
    apply hr.invariant EsperaInv hinicial
    intro e a e' hinv hok h
    exact hinv.paso hok h
  rcases hinv hm i hf with h | h
  · rw [hreposo.servidores i hf] at h
    exact absurd h List.not_mem_nil
  · rw [hreposo.balanceador, responde] at h
    cases h

/-- A registered server stops without a word and starts again, behind the first `S/C` of another
one: the answer to that is an answer to both. -/
theorem nadie_en_espera_reinicio :
    ∃ e, Reach pasoEnlace Respondida Enlace.inicial e ∧ e.enMarcha = true ∧ e.EnReposo
      ∧ (e.servidores "10.0.0.1/80".toList).fase ≠ .standBy := by
  let uno := "10.0.0.1/80".toList
  let dos := "10.0.0.2/80".toList
  let as : List AccionEnlace :=
    [.arranqueBalanceador, .entregaBalanceador, .arranque uno, .entregaBalanceador, .entrega uno,
      .entrega uno, .entregaBalanceador, .entregaBalanceador, .caida uno, .arranque dos,
      .arranque uno, .entregaBalanceador, .entrega dos, .entrega dos, .entrega dos, .entrega uno,
      .entrega uno, .entregaBalanceador, .entregaBalanceador, .entregaBalanceador]
  obtain ⟨e, he, hm, hcola, huno, hdos⟩ : ∃ e, exec pasoEnlace Enlace.inicial as = some e
      ∧ e.enMarcha = true ∧ e.cola = [] ∧ (e.servidores uno).fase = .conectado
      ∧ (e.servidores dos).fase = .conectado := ⟨_, rfl, rfl, rfl, rfl, rfl⟩
  have hok : AllOk pasoEnlace Respondida Enlace.inicial as := by decide
  have hr := Reach.of_exec hok he
  have hreposo : e.EnReposo := by
    apply enReposo_of_exec he hcola
    intro i hi
    have hcual : i = uno ∨ i = dos := by simpa [as, or_comm] using hi
    rcases hcual with rfl | rfl
    · simp [huno]
    · simp [hdos]
  exact ⟨e, hr, hm, hreposo, nadie_en_espera hr hm hreposo uno⟩

/-- **A server that waits for ever.** It is registered, stops without a word and starts again: its
`S/C` is not new to the table. -/
theorem espera_sin_respuesta :
    ¬ ∀ e, Reach pasoEnlace always Enlace.inicial e → e.enMarcha = true → e.EnReposo →
      ∀ i, (e.servidores i).fase ≠ .standBy := by
  intro hall
  let uno := "10.0.0.1/80".toList
  let as : List AccionEnlace :=
    [.arranqueBalanceador, .entregaBalanceador, .arranque uno, .entregaBalanceador, .entrega uno,
      .entrega uno, .entregaBalanceador, .entregaBalanceador, .caida uno, .arranque uno,
      .entregaBalanceador, .entrega uno]
  obtain ⟨e, he, hm, hcola, huno, hsuya⟩ : ∃ e, exec pasoEnlace Enlace.inicial as = some e
      ∧ e.enMarcha = true ∧ e.cola = [] ∧ (e.servidores uno).fase = .standBy
      ∧ (e.servidores uno).cola = [] := ⟨_, rfl, rfl, rfl, rfl, rfl⟩
  have hreposo : e.EnReposo := by
    apply enReposo_of_exec he hcola
    intro i hi _
    have hcual : i = uno := by simpa [as] using hi
    rw [hcual]
    exact hsuya
  exact hall e (Reach.of_exec (allOk_always as _) he) hm hreposo uno huno

end LoadBalancer
