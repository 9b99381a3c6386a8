/-
Who is in the balancer's table once every datagram has been handled.

The table alone says little while datagrams are on their way. What is compared with the
web servers is [`Enlace.futura`], the table that the balancer would end with if it handled
all that waits for it now and nothing more came: a connected server is in it, one that is
down is not. Handling one datagram does not change it, except for the ones that
`agregarServidor` makes `avisarServidores` discard; [`SinPerdida`] is what these must not be.
-/
import LoadBalancer.Enlace

set_option autoImplicit false

namespace LoadBalancer

open LoadBalancer.Transition LoadBalancer.Registry

/-! ## The table to come -/

/-- The table after everything that waits for the balancer. -/
def Enlace.futura (e : Enlace) : List Texto := e.cola.foldl tratar e.tabla

section Tratar

variable {tabla : List Texto} {i : Texto}

theorem nodup_tratar (h : tabla.Nodup) (m : Mensaje) : (tratar tabla m).Nodup := by
  cases m with
  | BC => exact h
  | SC j => exact nodup_apply h (.add j)
  | SD j => exact nodup_apply h (.remove j)

theorem mem_tratar (h : tabla.Nodup) {m : Mensaje} :
    i ∈ tratar tabla m ↔ m = .SC i ∨ m ≠ .SD i ∧ i ∈ tabla := by
  cases m with
  | BC => simp [tratar]
  | SC j =>
      by_cases hji : j = i
      · simp [tratar, mem_apply h, hji]
      · simp [tratar, mem_apply h, Event.key, hji]
  | SD j => simp [tratar, mem_apply h, Event.key]

theorem nodup_foldl_tratar (h : tabla.Nodup) (cola : List Mensaje) :
    (cola.foldl tratar tabla).Nodup := by
  induction cola generalizing tabla with
  | nil => exact h
  | cons m cola ih => exact ih (nodup_tratar h m)

/-- A server gets into the table by an `S/C` only. -/
theorem mem_foldl_tratar_of_mem (h : tabla.Nodup) {cola : List Mensaje}
    (hi : i ∈ cola.foldl tratar tabla) : i ∈ tabla ∨ .SC i ∈ cola := by
  induction cola generalizing tabla with
  | nil => exact .inl hi
  | cons m cola ih =>
      rcases ih (nodup_tratar h m) hi with hm | hc
      · rcases (mem_tratar h).mp hm with rfl | ⟨-, ht⟩
        · exact .inr List.mem_cons_self
        · exact .inl ht
      · exact .inr (List.mem_cons_of_mem m hc)

/-- A server gets out of the table by an `S/D` only. -/
theorem mem_cola_of_not_mem_foldl_tratar (h : tabla.Nodup) {cola : List Mensaje}
    (hi : i ∉ cola.foldl tratar tabla) (ht : i ∈ tabla) : .SD i ∈ cola := by
  induction cola generalizing tabla with
  | nil => exact absurd ht hi
  | cons m cola ih =>
      by_cases hm : m = .SD i
      · rw [hm]
        exact List.mem_cons_self
      · exact List.mem_cons_of_mem m
          (ih (nodup_tratar h m) hi ((mem_tratar h).mpr (.inr ⟨hm, ht⟩)))

end Tratar

section Futura

variable {e : Enlace} {m : Mensaje} {i : Texto}

theorem Enlace.nodup_futura (h : e.tabla.Nodup) : e.futura.Nodup := nodup_foldl_tratar h e.cola

theorem Enlace.futura_difundir (h : e.enMarcha = true) (m : Mensaje) :
    (e.difundir m).futura = tratar e.futura m := by
  unfold Enlace.futura
  rw [Enlace.difundir_cola_enMarcha e m h, List.foldl_append]
  rfl

/-- A datagram of another server changes nothing for `i`. -/
theorem Enlace.mem_futura_difundir (hn : e.tabla.Nodup) (hc : m ≠ .SC i) (hd : m ≠ .SD i) :
    i ∈ (e.difundir m).futura ↔ i ∈ e.futura := by
  by_cases hm : e.enMarcha = true
  · rw [Enlace.futura_difundir hm, mem_tratar (Enlace.nodup_futura hn)]
    constructor
    · rintro (h | ⟨-, h⟩)
      · exact absurd h hc
      · exact h
    · intro h
      exact .inr ⟨hd, h⟩
  · rw [Enlace.futura, Enlace.difundir_cola_parado e m (Bool.eq_false_of_not_eq_true hm)]
    rfl

/-- The balancer's new socket has nothing in it but its own `B/C`. -/
theorem Enlace.futura_avisarServidores (e : Enlace) : e.avisarServidores.futura = e.tabla := by
  unfold Enlace.futura Enlace.avisarServidores Enlace.difundir
  dsimp only
  split_ifs
  · rfl
  · rfl

/-- What a server's own broadcast does to its place in the table to come. -/
theorem Enlace.mem_futura_propio (hn : e.tabla.Nodup) (hm : e.enMarcha = true) (s : Servidor) :
    i ∈ ((e.poner i s).difundir m).futura ↔ m = .SC i ∨ m ≠ .SD i ∧ i ∈ e.futura := by
  have hfutura : ((e.poner i s).difundir m).futura = tratar e.futura m :=
    Enlace.futura_difundir (e := e.poner i s) hm m
  rw [hfutura, mem_tratar (Enlace.nodup_futura hn)]

end Futura

/-! ## The condition -/

/-- The balancer can do without `m` when it discards it because of the `S/C` of `i`: it is
neither the `S/C` of a connected server that stays out of the table nor the `S/D` of a server
that is down and stays in it. -/
def Prescindible (e : Enlace) (i : Texto) : Mensaje → Prop
  | .BC => True
  | .SC j => (e.servidores j).fase = .conectado → j ∈ e.tabla ∨ j = i
  | .SD j => (e.servidores j).fase = .apagado → j ∉ e.tabla ∧ j ≠ i

/-- Of what waits for the balancer, the first datagram makes it discard only what it can do
without. -/
def DescarteInocuo (e : Enlace) : List Mensaje → Prop
  | .SC i :: resto => i ∉ e.tabla → ∀ m ∈ resto, Prescindible e i m
  | _ => True

/-- The step loses nothing that agreement depends on: `avisarServidores` discards only what the
balancer can do without, and a server that is closed in stand-by is not in the table and has
no `S/C` waiting. -/
def SinPerdida (e : Enlace) : AccionEnlace → Prop
  | .entregaBalanceador => DescarteInocuo e e.cola
  | .cierre i => (e.servidores i).fase = .standBy → i ∉ e.tabla ∧ .SC i ∉ e.cola
  | _ => True

/-- The web servers are only closed in an orderly way. -/
def Ordenada : AccionEnlace → Prop
  | .caida _ => False
  | _ => True

instance (e : Enlace) (i : Texto) : DecidablePred (Prescindible e i) := fun m =>
  match m with
  | .BC => inferInstanceAs (Decidable True)
  | .SC j => inferInstanceAs (Decidable ((e.servidores j).fase = .conectado → _))
  | .SD j => inferInstanceAs (Decidable ((e.servidores j).fase = .apagado → _))

instance (e : Enlace) : DecidablePred (DescarteInocuo e) := fun cola =>
  match cola with
  | [] => inferInstanceAs (Decidable True)
  | .BC :: _ => inferInstanceAs (Decidable True)
  | .SC i :: resto => inferInstanceAs (Decidable (i ∉ e.tabla → ∀ m ∈ resto, _))
  | .SD _ :: _ => inferInstanceAs (Decidable True)

instance (e : Enlace) : DecidablePred (SinPerdida e) := fun a =>
  match a with
  | .entregaBalanceador => inferInstanceAs (Decidable (DescarteInocuo e e.cola))
  | .cierre i => inferInstanceAs (Decidable ((e.servidores i).fase = .standBy → _))
  | .arranqueBalanceador => inferInstanceAs (Decidable True)
  | .arranque _ => inferInstanceAs (Decidable True)
  | .entrega _ => inferInstanceAs (Decidable True)
  | .caida _ => inferInstanceAs (Decidable True)

instance : DecidablePred Ordenada := fun a =>
  match a with
  | .caida _ => inferInstanceAs (Decidable False)
  | .arranqueBalanceador => inferInstanceAs (Decidable True)
  | .entregaBalanceador => inferInstanceAs (Decidable True)
  | .arranque _ => inferInstanceAs (Decidable True)
  | .entrega _ => inferInstanceAs (Decidable True)
  | .cierre _ => inferInstanceAs (Decidable True)

/-! ## The invariant -/

/-- What holds of one server. -/
def Acorde (e : Enlace) (i : Texto) : Prop :=
  match (e.servidores i).fase with
  | .conectado => i ∈ e.futura
  | .apagado => i ∉ e.futura
  | .standBy => i ∈ e.tabla → .BC ∈ (e.servidores i).cola ∨ .SD i ∈ e.cola

/-- Before the balancer is started nobody has seen a `B/C`. -/
structure Parado (e : Enlace) : Prop where
  tabla : e.tabla = []
  cola : e.cola = []
  servidores : ∀ i, (e.servidores i).fase ≠ .conectado ∧ .BC ∉ (e.servidores i).cola

structure AcuerdoInv (e : Enlace) : Prop where
  distintos : e.tabla.Nodup
  parado : e.enMarcha = false → Parado e
  acordes : ∀ i, Acorde e i

theorem acuerdoInv_inicial : AcuerdoInv Enlace.inicial where
  distintos := List.nodup_nil
  parado := fun _ => ⟨rfl, rfl, fun _ => ⟨nofun, List.not_mem_nil⟩⟩
  acordes := fun _ => List.not_mem_nil

section Acuerdo

variable {e : Enlace} {i j : Texto} {m : Mensaje} {s : Servidor}

/-- A broadcast that is not about a server does not touch it. -/
theorem Acorde.difundir (hn : e.tabla.Nodup) (h : Acorde e j) (hc : m ≠ .SC j) (hd : m ≠ .SD j) :
    Acorde (e.difundir m) j := by
  unfold Acorde at h ⊢
  rw [Enlace.difundir_servidores, Servidor.recibir_fase, Enlace.mem_futura_difundir hn hc hd]
  split
  · next hf =>
      rw [hf] at h
      exact h
  · next hf =>
      rw [hf] at h
      exact h
  · next hf =>
      rw [hf] at h
      intro ht
      rcases h ht with hBC | hSD
      · exact .inl (Servidor.mem_recibir m hBC)
      · exact .inr (Enlace.mem_difundir e m hSD)

/-- A change at server `i` alone does not touch another one. -/
theorem Acorde.poner_otro (h : Acorde e j) (hji : j ≠ i) : Acorde (e.poner i s) j := by
  unfold Acorde at h ⊢
  rw [Enlace.poner_servidores_of_ne e s hji]
  exact h

theorem Parado.poner (h : Parado e) (hs : s.fase ≠ .conectado ∧ .BC ∉ s.cola) :
    Parado (e.poner i s) := by
  refine ⟨h.tabla, h.cola, ?_⟩
  intro j
  by_cases hji : j = i
  · subst hji
    rw [Enlace.poner_servidores_self]
    exact hs
  · rw [Enlace.poner_servidores_of_ne e s hji]
    exact h.servidores j

theorem Parado.difundir (h : Parado e) (hm : e.enMarcha = false) (hBC : m ≠ .BC) :
    Parado (e.difundir m) := by
  refine ⟨h.tabla, ?_, ?_⟩
  · rw [Enlace.difundir_cola_parado e m hm]
    exact h.cola
  · intro j
    rw [Enlace.difundir_servidores, Servidor.recibir_fase]
    refine ⟨(h.servidores j).1, ?_⟩
    intro hmem
    exact (h.servidores j).2 (Servidor.mem_of_mem_recibir m hBC.symm hmem)

/-- Every web server but `i` is untouched by a change there and a broadcast about `i`. -/
theorem AcuerdoInv.otros (hinv : AcuerdoInv e) (hji : j ≠ i) (hm : m = .SC i ∨ m = .SD i) :
    Acorde ((e.poner i s).difundir m) j := by
  apply Acorde.difundir (e := e.poner i s) hinv.distintos ((hinv.acordes j).poner_otro hji)
  · rintro rfl
    rcases hm with hm | hm
    · exact hji (Mensaje.SC.inj hm)
    · cases hm
  · rintro rfl
    rcases hm with hm | hm
    · cases hm
    · exact hji (Mensaje.SD.inj hm)

/-- A web server opens its socket again in phase `s.fase` and broadcasts an `S/C`. -/
theorem AcuerdoInv.avisarBalanceadores (hinv : AcuerdoInv e) {fase : FaseServidor}
    (hparado : e.enMarcha = false → fase ≠ .conectado)
    (hpropio : Acorde (e.avisarBalanceadores i fase) i) :
    AcuerdoInv (e.avisarBalanceadores i fase) where
  distintos := hinv.distintos
  parado := by
    intro hm
    have hponer : Parado (e.poner i ⟨fase, []⟩) :=
      (hinv.parado hm).poner ⟨hparado hm, List.not_mem_nil⟩
    apply hponer.difundir hm
    intro h
    cases h
  acordes := by
    intro j
    by_cases hji : j = i
    · rw [hji]
      exact hpropio
    · exact hinv.otros hji (.inl rfl)

/-- The balancer is started: no server is connected yet. -/
theorem AcuerdoInv.arranqueBalanceador (hinv : AcuerdoInv e) (hm : e.enMarcha = false) :
    AcuerdoInv ({ e with enMarcha := true, tabla := [] } : Enlace).avisarServidores where
  distintos := List.nodup_nil
  parado := nofun
  acordes := by
    intro i
    unfold Acorde
    rw [Enlace.futura_avisarServidores, Enlace.avisarServidores, Enlace.difundir_servidores,
      Servidor.recibir_fase]
    split
    · next hf => exact absurd hf ((hinv.parado hm).servidores i).1
    · exact List.not_mem_nil
    · intro ht
      exact absurd ht List.not_mem_nil

/-- A web server is started: it was down, so if the table holds it an `S/D` is on its way. -/
theorem AcuerdoInv.arranque (hinv : AcuerdoInv e) (hf : (e.servidores i).fase = .apagado) :
    AcuerdoInv (e.avisarBalanceadores i .standBy) := by
  apply hinv.avisarBalanceadores
  · intro _ h
    cases h
  · have hfuera : i ∉ e.futura := by
      have := hinv.acordes i
      rwa [Acorde, hf] at this
    unfold Acorde Enlace.avisarBalanceadores
    rw [Enlace.difundir_servidores, Servidor.recibir_fase, Enlace.poner_servidores_self]
    intro ht
    have hSD : .SD i ∈ e.cola := mem_cola_of_not_mem_foldl_tratar hinv.distintos hfuera ht
    exact .inr (Enlace.mem_difundir _ _ hSD)

/-- A web server handles a `B/C`, so the balancer is there to register it. -/
theorem AcuerdoInv.conexion (hinv : AcuerdoInv e) {resto : List Mensaje}
    (hc : (e.servidores i).cola = .BC :: resto) :
    AcuerdoInv (e.avisarBalanceadores i .conectado) := by
  have hm : e.enMarcha = true := by
    by_contra hno
    apply ((hinv.parado (Bool.eq_false_of_not_eq_true hno)).servidores i).2
    rw [hc]
    exact List.mem_cons_self
  apply hinv.avisarBalanceadores
  · intro hno
    exact absurd (hm.symm.trans hno) nofun
  · unfold Acorde Enlace.avisarBalanceadores
    rw [Enlace.difundir_servidores, Servidor.recibir_fase, Enlace.poner_servidores_self]
    exact (Enlace.mem_futura_propio hinv.distintos hm _).mpr (.inl rfl)

/-- A web server in stand-by handles another datagram, with the `B/C` still behind it. -/
theorem AcuerdoInv.ignorado (hinv : AcuerdoInv e) {resto : List Mensaje}
    (hf : (e.servidores i).fase = .standBy) (hc : (e.servidores i).cola = m :: resto)
    (hBC : m ≠ .BC) : AcuerdoInv (e.poner i ⟨.standBy, resto⟩) where
  distintos := hinv.distintos
  parado := by
    intro hm
    apply (hinv.parado hm).poner
    refine ⟨nofun, ?_⟩
    intro hmem
    apply ((hinv.parado hm).servidores i).2
    rw [hc]
    exact List.mem_cons_of_mem m hmem
  acordes := by
    intro j
    by_cases hji : j = i
    · subst hji
      have hacorde := hinv.acordes j
      rw [Acorde, hf, hc] at hacorde
      unfold Acorde
      rw [Enlace.poner_servidores_self]
      intro ht
      rcases hacorde ht with h | h
      · exact .inl ((List.mem_cons.mp h).resolve_left hBC.symm)
      · exact .inr h
    · exact (hinv.acordes j).poner_otro hji

/-- A connected server says goodbye. -/
theorem AcuerdoInv.despedida (hinv : AcuerdoInv e) (hf : (e.servidores i).fase = .conectado) :
    AcuerdoInv ((e.poner i ⟨.apagado, []⟩).difundir (.SD i)) where
  distintos := hinv.distintos
  parado := fun hm => absurd hf ((hinv.parado hm).servidores i).1
  acordes := by
    intro j
    by_cases hji : j = i
    · subst hji
      have hm : e.enMarcha = true := by
        by_contra hno
        exact ((hinv.parado (Bool.eq_false_of_not_eq_true hno)).servidores j).1 hf
      unfold Acorde
      rw [Enlace.difundir_servidores, Servidor.recibir_fase, Enlace.poner_servidores_self]
      intro hmem
      rcases (Enlace.mem_futura_propio hinv.distintos hm _).mp hmem with h | ⟨h, -⟩
      · cases h
      · exact h rfl
    · exact hinv.otros hji (.inr rfl)

/-- A server in stand-by that the balancer does not know of is closed. -/
theorem AcuerdoInv.abandono (hinv : AcuerdoInv e) (hi : i ∉ e.tabla) (hc : .SC i ∉ e.cola) :
    AcuerdoInv (e.poner i ⟨.apagado, []⟩) where
  distintos := hinv.distintos
  parado := fun hm => (hinv.parado hm).poner ⟨nofun, List.not_mem_nil⟩
  acordes := by
    intro j
    by_cases hji : j = i
    · subst hji
      unfold Acorde
      rw [Enlace.poner_servidores_self]
      intro hmem
      rcases mem_foldl_tratar_of_mem hinv.distintos hmem with h | h
      · exact hi h
      · exact hc h
    · exact (hinv.acordes j).poner_otro hji

/-- The balancer handles a datagram that it does not answer: the table to come is the same. -/
theorem AcuerdoInv.sinRespuesta (hinv : AcuerdoInv e) {resto : List Mensaje}
    (hm : e.enMarcha = true) (hc : e.cola = m :: resto) (hSC : ∀ i, m = .SC i → i ∈ e.tabla) :
    AcuerdoInv { e with tabla := tratar e.tabla m, cola := resto } where
  distintos := nodup_tratar hinv.distintos m
  parado := fun hno => absurd (hm.symm.trans hno) nofun
  acordes := by
    intro j
    have hacorde := hinv.acordes j
    have hfutura : ({ e with tabla := tratar e.tabla m, cola := resto } : Enlace).futura
        = e.futura := by
      unfold Enlace.futura
      rw [hc]
      rfl
    unfold Acorde at hacorde ⊢
    rw [hfutura]
    split
    · next hf =>
        rw [hf] at hacorde
        exact hacorde
    · next hf =>
        rw [hf] at hacorde
        exact hacorde
    · next hf =>
        rw [hf, hc] at hacorde
        intro ht
        -- it was in the table before, and `m` is not the `S/D` that it waits for
        have hantes : j ∈ e.tabla ∧ m ≠ .SD j := by
          rcases (mem_tratar hinv.distintos).mp ht with h | ⟨hne, h⟩
          · refine ⟨hSC j h, ?_⟩
            rw [h]
            intro h'
            cases h'
          · exact ⟨h, hne⟩
        rcases hacorde hantes.1 with h | h
        · exact .inl h
        · exact .inr ((List.mem_cons.mp h).resolve_left hantes.2.symm)

/-- The balancer registers a server and discards what is behind the `S/C`. -/
theorem AcuerdoInv.registro (hinv : AcuerdoInv e) {resto : List Mensaje}
    (hm : e.enMarcha = true) (hc : e.cola = .SC i :: resto)
    (hresto : ∀ m ∈ resto, Prescindible e i m) :
    AcuerdoInv
      ({ e with tabla := tratar e.tabla (.SC i), cola := resto } : Enlace).avisarServidores where
  distintos := nodup_tratar hinv.distintos (.SC i)
  parado := fun hno => absurd (hm.symm.trans hno) nofun
  acordes := by
    intro j
    have hacorde := hinv.acordes j
    have hantes : e.futura = resto.foldl tratar (tratar e.tabla (.SC i)) := by
      unfold Enlace.futura
      rw [hc]
      rfl
    have hen : j ∈ tratar e.tabla (.SC i) ↔ j = i ∨ j ∈ e.tabla := by
      rw [mem_tratar hinv.distintos, Mensaje.SC.injEq, eq_comm]
      simp
    unfold Acorde at hacorde ⊢
    rw [Enlace.futura_avisarServidores, Enlace.avisarServidores, Enlace.difundir_servidores,
      Servidor.recibir_fase]
    split
    · next hf =>
        rw [hf, hantes] at hacorde
        rcases mem_foldl_tratar_of_mem (nodup_tratar hinv.distintos _) hacorde with h | h
        · exact h
        · exact hen.mpr (hresto (.SC j) h hf).symm
    · next hf =>
        rw [hf, hantes] at hacorde
        intro ht
        have hmem := mem_cola_of_not_mem_foldl_tratar (nodup_tratar hinv.distintos _) hacorde ht
        rcases hen.mp ht with h | h
        · exact (hresto (.SD j) hmem hf).2 h
        · exact (hresto (.SD j) hmem hf).1 h
    · next hf =>
        intro _
        have hbound : (e.servidores j).fase ≠ .apagado := by
          rw [hf]
          intro h
          cases h
        rw [Servidor.recibir_cola _ hbound]
        exact .inl (List.mem_append_right _ (List.mem_singleton_self _))

/-- What one step without loss keeps. -/
theorem AcuerdoInv.paso {e' : Enlace} {a : AccionEnlace} (hinv : AcuerdoInv e)
    (hord : Ordenada a) (hok : SinPerdida e a) (h : pasoEnlace e a = some e') :
    AcuerdoInv e' := by
  cases pasoEnlace_enlaza h with
  | arranqueBalanceador hm => exact hinv.arranqueBalanceador hm
  | arranque i hf => exact hinv.arranque hf
  | registro i resto hm hc hi =>
      rw [SinPerdida, hc] at hok
      exact hinv.registro hm hc (hok hi)
  | sinRespuesta m resto hm hc hSC => exact hinv.sinRespuesta hm hc hSC
  | conexion i resto hf hc => exact hinv.conexion hc
  | ignorado i m resto hf hc hBC => exact hinv.ignorado hf hc hBC
  | despedida i hf => exact hinv.despedida hf
  | abandono i hf =>
      obtain ⟨hi, hc⟩ := hok hf
      exact hinv.abandono hi hc
  | caida i hf => exact hord.elim

end Acuerdo

/-! ## The result on agreement -/

/-- The balancer's table is the connected servers. -/
def Enlace.DeAcuerdo (e : Enlace) : Prop :=
  ∀ i, i ∈ e.tabla ↔ (e.servidores i).fase = .conectado

/-- **Agreement at rest**, in every run that loses nothing that it depends on. What waits for the
balancer says already what its table will be ([`Enlace.futura`]), and handling it does not change
that, but for the datagrams that are discarded. -/
theorem acuerdo_en_reposo {e : Enlace}
    (hr : Reach pasoEnlace (fun e a => Ordenada a ∧ SinPerdida e a) Enlace.inicial e)
    (hreposo : e.EnReposo) : e.DeAcuerdo := by
  have hinv : AcuerdoInv e := by
    apply hr.invariant AcuerdoInv acuerdoInv_inicial
    intro e a e' hinv hok h
    exact hinv.paso hok.1 hok.2 h
  have hfutura : e.futura = e.tabla := by
    rw [Enlace.futura, hreposo.balanceador]
    rfl
  intro i
  have hacorde := hinv.acordes i
  rw [Acorde, hfutura] at hacorde
  split at hacorde
  · next hf =>
      rw [hf]
      exact ⟨fun _ => rfl, fun _ => hacorde⟩
  · next hf =>
      rw [hf]
      exact ⟨fun h => absurd h hacorde, nofun⟩
  · next hf =>
      rw [hreposo.balanceador, hreposo.servidores i hf] at hacorde
      rw [hf]
      refine ⟨?_, nofun⟩
      intro h
      rcases hacorde h with h' | h'
      · exact absurd h' List.not_mem_nil
      · exact absurd h' List.not_mem_nil

/-- Two servers, the second one started after the first is registered; the first says
goodbye. -/
theorem acuerdo_en_reposo_dos_servidores :
    ∃ e, Reach pasoEnlace (fun e a => Ordenada a ∧ SinPerdida e a) Enlace.inicial e
      ∧ e.EnReposo ∧ e.tabla = ["10.0.0.2/80".toList] ∧ e.DeAcuerdo := by
  let uno := "10.0.0.1/80".toList
  let dos := "10.0.0.2/80".toList
  let as : List AccionEnlace :=
    [.arranqueBalanceador, .entregaBalanceador, .arranque uno, .entregaBalanceador, .entrega uno,
      .entrega uno, .entregaBalanceador, .entregaBalanceador, .arranque dos, .entregaBalanceador,
      .entrega dos, .entrega dos, .entregaBalanceador, .entregaBalanceador, .cierre uno,
      .entregaBalanceador]
  obtain ⟨e, he, hcola, htabla, huno, hdos⟩ : ∃ e, exec pasoEnlace Enlace.inicial as = some e
      ∧ e.cola = [] ∧ e.tabla = [dos] ∧ (e.servidores uno).fase = .apagado
      ∧ (e.servidores dos).fase = .conectado := ⟨_, rfl, rfl, rfl, rfl, rfl⟩
  have hok : AllOk pasoEnlace (fun e a => Ordenada a ∧ SinPerdida e a) Enlace.inicial as := by
    decide
  have hr := Reach.of_exec hok he
  have hreposo : e.EnReposo := by
    apply enReposo_of_exec he hcola
    intro i hi
    have hcual : i = uno ∨ i = dos := by simpa [as] using hi
    rcases hcual with rfl | rfl
    · simp [huno]
    · simp [hdos]
  exact ⟨e, hr, hreposo, htabla, acuerdo_en_reposo hr hreposo⟩

/-- **A connected server that is not in the table.** Two servers wait for the balancer; both answer
its `B/C`, and registering the first discards the `S/C` of the second. -/
theorem desacuerdo_en_reposo :
    ¬ ∀ e, Reach pasoEnlace (fun _ a => Ordenada a) Enlace.inicial e → e.EnReposo →
      e.DeAcuerdo := by
  intro hall
  let uno := "10.0.0.1/80".toList
  let dos := "10.0.0.2/80".toList
  let as : List AccionEnlace :=
    [.arranque uno, .arranque dos, .arranqueBalanceador, .entrega uno, .entrega uno, .entrega uno,
      .entrega dos, .entrega dos, .entregaBalanceador, .entregaBalanceador, .entregaBalanceador]
  obtain ⟨e, he, hcola, htabla, huno, hdos⟩ : ∃ e, exec pasoEnlace Enlace.inicial as = some e
      ∧ e.cola = [] ∧ e.tabla = [uno] ∧ (e.servidores uno).fase = .conectado
      ∧ (e.servidores dos).fase = .conectado := ⟨_, rfl, rfl, rfl, rfl, rfl⟩
  have hok : AllOk pasoEnlace (fun _ a => Ordenada a) Enlace.inicial as := by decide
  have hreposo : e.EnReposo := by
    apply enReposo_of_exec he hcola
    intro i hi
    have hcual : i = uno ∨ i = dos := by simpa [as] using hi
    rcases hcual with rfl | rfl
    · simp [huno]
    · simp [hdos]
  have hdentro := (hall e (Reach.of_exec hok he) hreposo dos).mpr hdos
  rw [htabla] at hdentro
  exact absurd hdentro (by decide)

end LoadBalancer
