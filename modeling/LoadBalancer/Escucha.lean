/-
What one datagram does to the server table.

`hilo_Escuchador_Servidores` tests bytes `0` and `2` of its array, and `agregarServidor` and
`eliminarServidor` take the C string from byte `4` on for an `<ip>/<port>`, whatever it is. So the
table is changed by texts that no web server sends, and a datagram that ends before byte `4` (or
before byte `2`) is completed with bytes that an older one has left in the array.
[`efecto_debido_iff`] says which datagrams do no such thing.

[`escuchar`] is the whole treatment of a datagram, as the listener makes it when no other thread
comes in between; [`exec_paso_agregarServidor`] and [`exec_paso_eliminarServidor`] connect its two
functions with the steps of the balancer.
-/
import LoadBalancer.Registro

set_option autoImplicit false

namespace LoadBalancer

open LoadBalancer.Search LoadBalancer.Transition

/-! ## The two functions of the listener -/

/-- `agregarServidor(ip)`, `ip` being the text from byte `4` on. -/
def agregarServidor (b : Balanceador) (ip : Texto) (azar : ℕ) (memoria : List Char) :
    Option Balanceador :=
  match buscarServidor b.servidores ip with
  | some _ => some b
  | none =>
      (nuevoServidor ip azar memoria).map fun s =>
        { b with
          servidores := b.servidores ++ [s]
          servidoresActuales := b.servidoresActuales + 1 }

/-- `eliminarServidor(ip)`. -/
def eliminarServidor (b : Balanceador) (ip : Texto) : Balanceador :=
  match buscarServidor b.servidores ip with
  | some posicion =>
      { b with
        servidores := b.servidores.eraseIdx posicion
        servidoresActuales := b.servidoresActuales - 1 }
  | none => b

/-- One turn of `hilo_Escuchador_Servidores`: the datagram is received into an array that held
`pila`, and treated. -/
def escuchar (pila : Pila) (datagrama : Texto) (azar : ℕ) (memoria : List Char)
    (b : Balanceador) : Option Balanceador :=
  (hilo_Escuchador_Servidores pila datagrama).bind fun tratamiento =>
    match tratamiento with
    | some (.registro ip) => agregarServidor b ip azar memoria
    | some (.baja ip) => some (eliminarServidor b ip)
    | _ => some b

section Pasos

variable {s : Estado} {ip : Texto}

/-- The listener is not in the middle of a datagram, and nobody keeps it from its mutex. -/
def Estado.escuchaLibre (s : Estado) : Prop := s.mutexLibre = true ∧ s.escuchador = .libre

theorem exec_paso_agregarServidor (h : s.escuchaLibre) (azar : ℕ) (memoria : List Char) :
    exec paso s
        (if (buscarServidor s.balanceador.servidores ip).isSome then [.registro ip]
          else [.registro ip, .alta azar memoria])
      = (agregarServidor s.balanceador ip azar memoria).map fun b =>
          { s with balanceador := b } := by
  obtain ⟨hmutex, hlibre⟩ := h
  have hm (f : FaseEscuchador) : ({ s with escuchador := f } : Estado).mutexLibre = true := hmutex
  unfold agregarServidor
  cases hb : buscarServidor s.balanceador.servidores ip with
  | some posicion =>
      simp only [Option.isSome_some, if_true, exec, paso, hmutex, hlibre, hb, and_self,
        Option.bind_some, Option.map_some]
      rw [← hlibre]
  | none =>
      simp only [Option.isSome_none, Bool.false_eq_true, if_false, exec, paso, hmutex, hlibre, hb,
        and_self, if_true, Option.bind_some, hm]
      cases nuevoServidor ip azar memoria with
      | none => rfl
      | some nuevo => simp [← hlibre]

theorem exec_paso_eliminarServidor (h : s.escuchaLibre) :
    exec paso s
        (if (buscarServidor s.balanceador.servidores ip).isSome then [.baja ip, .borrado]
          else [.baja ip])
      = some { s with balanceador := eliminarServidor s.balanceador ip } := by
  obtain ⟨hmutex, hlibre⟩ := h
  have hm (f : FaseEscuchador) : ({ s with escuchador := f } : Estado).mutexLibre = true := hmutex
  unfold eliminarServidor
  cases hb : buscarServidor s.balanceador.servidores ip with
  | none =>
      simp only [Option.isSome_none, Bool.false_eq_true, if_false, exec, paso, hmutex, hlibre, hb,
        and_self, if_true, Option.bind_some]
      rw [← hlibre]
  | some posicion =>
      obtain ⟨hlt, -⟩ := List.findIdx?_eq_some_iff_getElem.mp hb
      simp only [Option.isSome_some, if_true, exec, paso, hmutex, hlibre, hb, and_self,
        Option.bind_some, hm, hlt]

end Pasos

/-! ## When the two functions change something -/

theorem buscarServidor_isSome_iff {servidores : List ServidorRegistrado} {ip : Texto} :
    (buscarServidor servidores ip).isSome ↔ ip ∈ servidores.map (·.comparador) := by
  rw [buscarServidor, List.findIdx?_isSome, List.any_eq_true, List.mem_map]
  simp only [decide_eq_true_eq]
  exact exists_congr fun s => and_congr_right fun _ => eq_comm

/-- `agregarServidor` leaves everything as it was exactly when the text is registered. -/
theorem agregarServidor_eq_self_iff {b : Balanceador} {ip : Texto} {azar : ℕ}
    {memoria : List Char} :
    agregarServidor b ip azar memoria = some b ↔ ip ∈ b.servidores.map (·.comparador) := by
  rw [← buscarServidor_isSome_iff]
  unfold agregarServidor
  cases buscarServidor b.servidores ip with
  | some posicion => simp
  | none =>
      simp only [Option.map_eq_some_iff, Option.isSome_none, Bool.false_eq_true, iff_false]
      rintro ⟨s, -, hb⟩
      have hlen := congrArg (·.servidoresActuales) hb
      exact absurd hlen (by simp)

/-- `eliminarServidor` does exactly when it is not. -/
theorem eliminarServidor_eq_self_iff {b : Balanceador} {ip : Texto} :
    eliminarServidor b ip = b ↔ ip ∉ b.servidores.map (·.comparador) := by
  rw [← buscarServidor_isSome_iff]
  unfold eliminarServidor
  cases buscarServidor b.servidores ip with
  | none => simp
  | some posicion =>
      simp only [Option.isSome_some, not_true_eq_false, iff_false]
      intro hb
      have hlen := congrArg (·.servidoresActuales) hb
      exact absurd hlen (by simp)

/-! ## What the listener takes a datagram for -/

section Tratamiento

variable {pila : Pila} {datagrama : Texto}

/-- The two orders. -/
def EsOrden (orden : Char) : Prop := orden = 'C' ∨ orden = 'D'

/-- **From four bytes on, only the datagram counts**: the order in its third byte and the text from
its fifth. -/
theorem tratamiento_of_largo (hlargo : 3 < datagrama.length) (hcabe : datagrama.length < 64)
    (pila : Pila) :
    hilo_Escuchador_Servidores pila datagrama
      = some (if esDatagrama 'S' 'C' datagrama then some (.registro (c_str (datagrama.drop 4)))
          else if esDatagrama 'S' 'D' datagrama then some (.baja (c_str (datagrama.drop 4)))
          else none) := by
  obtain ⟨leida, hleida, hbytes⟩ := pila.recibir_eq hcabe
  have hno (c : Char) : datagrama ≠ [c] := by
    rintro rfl
    exact absurd hlargo (by simp)
  have hes (orden : Char) (ho : orden ≠ NUL) :
      leida.es 'S' orden = esDatagrama 'S' orden datagrama := by
    rw [Bool.eq_iff_iff, Pila.es_recibir hleida (by decide) ho]
    simp only [hno, false_and, or_false]
  have hhilera : leida.hilera = some (c_str (datagrama.drop 4)) := by
    have hdrop : leida.bytes.drop 4
        = datagrama.drop 4 ++ NUL :: pila.bytes.drop (datagrama.length + 1) := by
      rw [hbytes, List.drop_append_of_le_length (by omega)]
    rw [Pila.hilera, hdrop, leerCadena_of_mem (List.mem_append_right _ List.mem_cons_self)]
    by_cases hnul : NUL ∈ datagrama.drop 4
    · rw [c_str_append_of_mem hnul]
    · rw [c_str_append_of_not_mem hnul, c_str_cons, if_pos rfl, List.append_nil,
        c_str_of_not_mem hnul]
  rw [hilo_Escuchador_Servidores, hleida, Option.bind_some, hes 'C' (by decide),
    hes 'D' (by decide), hhilera]
  have hpos : 0 < datagrama.length := by omega
  cases esDatagrama 'S' 'C' datagrama <;> cases esDatagrama 'S' 'D' datagrama <;> simp [hpos]

/-- A datagram without sender or order is ignored, unless it leaves the order to the array. -/
theorem tratamiento_of_ajeno (hcabe : datagrama.length < 64) (huno : datagrama ≠ ['S'])
    (hno : ∀ orden, EsOrden orden → esDatagrama 'S' orden datagrama = false) (pila : Pila) :
    hilo_Escuchador_Servidores pila datagrama = some none := by
  obtain ⟨leida, hleida, -⟩ := pila.recibir_eq hcabe
  have hes (orden : Char) (ho : EsOrden orden) : leida.es 'S' orden = false := by
    have hnul : orden ≠ NUL := by
      rcases ho with rfl | rfl <;> decide
    rw [← Bool.not_eq_true, Pila.es_recibir hleida (by decide) hnul, hno orden ho]
    simp [huno]
  rw [hilo_Escuchador_Servidores, hleida, Option.bind_some, hes 'C' (.inl rfl), hes 'D' (.inr rfl)]
  simp

/-- An array without a zero byte, with an order in its third. -/
def Pila.equis (orden : Char) : Pila := ⟨'x' :: 'x' :: orden :: List.replicate 61 'x', rfl⟩

/-- Of one byte, or of three, a datagram leaves the text to the array, and there may be no end to
it. -/
theorem tratamiento_of_corto {orden : Char} (ho : EsOrden orden)
    (h : datagrama = ['S'] ∨ datagrama.length = 3 ∧ esDatagrama 'S' orden datagrama = true) :
    hilo_Escuchador_Servidores (.equis orden) datagrama = none := by
  have hcabe : datagrama.length < 64 := by
    rcases h with rfl | ⟨h, -⟩
    · decide
    · omega
  obtain ⟨leida, hleida, hbytes⟩ := (Pila.equis orden).recibir_eq hcabe
  have hnul : orden ≠ NUL := by
    rcases ho with rfl | rfl <;> decide
  have hes : leida.es 'S' orden = true := by
    rw [Pila.es_recibir hleida (by decide) hnul]
    rcases h with rfl | ⟨-, h⟩
    · exact .inr ⟨rfl, rfl⟩
    · exact .inl h
  have hhilera : leida.hilera = none := by
    have hdrop : leida.bytes.drop 4 = List.replicate 60 'x' := by
      rw [hbytes]
      rcases h with rfl | ⟨h, -⟩
      · rfl
      · rw [List.drop_append, List.drop_of_length_le (by omega), h]
        rfl
    rw [Pila.hilera, hdrop]
    exact leerCadena_of_not_mem (by decide)
  have hpos : 0 < datagrama.length := by
    rcases h with rfl | ⟨h, -⟩
    · decide
    · omega
  rw [hilo_Escuchador_Servidores, hleida, Option.bind_some, hhilera]
  rcases ho with rfl | rfl
  · simp [hpos, hes]
  · simp [hpos, hes]

end Tratamiento

/-! ## The result -/

/-- The datagrams that web servers send: `S/C/` or `S/D/`, a non-empty address without `/`, a `/`
and a decimal port. -/
def BienFormado (datagrama : Texto) : Prop :=
  ∃ orden ip port, EsOrden orden ∧ ip ≠ [] ∧ '/' ∉ ip ∧ port ≠ [] ∧ (∀ c ∈ port, c.isDigit)
    ∧ datagrama = formar 'S' orden ip port

theorem BienFormado.length_lt {datagrama : Texto} (h : BienFormado datagrama) :
    3 < datagrama.length := by
  obtain ⟨orden, ip, port, -, -, -, -, -, rfl⟩ := h
  rw [length_formar]
  omega

/-- What the effect of a datagram on the table should be: none at all if it is not well formed, and
in any case one that does not depend on what the array held. -/
def EfectoDebido (b : Balanceador) (datagrama : Texto) : Prop :=
  (¬ BienFormado datagrama → ∀ pila azar memoria, escuchar pila datagrama azar memoria b = some b)
    ∧ ∀ pila pila' azar memoria,
        escuchar pila datagrama azar memoria b = escuchar pila' datagrama azar memoria b

/-- The condition of [`efecto_debido_iff`]: the datagram is not a lone `S`, and if it is taken for
an order it has a text, and it is well formed unless there is nothing to do for that text. -/
def SeEntiende (b : Balanceador) (datagrama : Texto) : Prop :=
  datagrama ≠ ['S'] ∧ ∀ orden, EsOrden orden → esDatagrama 'S' orden datagrama = true →
    3 < datagrama.length ∧ (BienFormado datagrama
      ∨ (c_str (datagrama.drop 4) ∈ b.servidores.map (·.comparador) ↔ orden = 'C'))

section Efecto

variable {b : Balanceador} {datagrama : Texto}

/-- An order of four bytes or more has no effect when there is nothing to do for its text. -/
theorem escuchar_eq_self_iff (hlargo : 3 < datagrama.length) (hcabe : datagrama.length < 64)
    {orden : Char} (ho : EsOrden orden) (hes : esDatagrama 'S' orden datagrama = true) (pila : Pila)
    (azar : ℕ) (memoria : List Char) :
    escuchar pila datagrama azar memoria b = some b
      ↔ (c_str (datagrama.drop 4) ∈ b.servidores.map (·.comparador) ↔ orden = 'C') := by
  rw [escuchar, tratamiento_of_largo hlargo hcabe, Option.bind_some]
  rcases ho with rfl | rfl
  · rw [if_pos hes]
    simp only [agregarServidor_eq_self_iff, iff_true]
  · have hno : esDatagrama 'S' 'C' datagrama = false := by
      unfold esDatagrama at hes ⊢
      simp only [Bool.and_eq_true, decide_eq_true_eq] at hes
      simp [hes.2]
    rw [hno, if_neg Bool.false_ne_true, if_pos hes]
    simp only [Option.some.injEq, eliminarServidor_eq_self_iff, show ('D' : Char) ≠ 'C' by decide,
      iff_false]

/-- With an order in its third byte, a datagram has three at least. -/
theorem length_of_esDatagrama {emisor orden : Char} (h : esDatagrama emisor orden datagrama = true) :
    2 < datagrama.length := by
  unfold esDatagrama at h
  simp only [Bool.and_eq_true, decide_eq_true_eq] at h
  obtain ⟨hlt, -⟩ := List.getElem?_eq_some_iff.mp h.2
  exact hlt

/-- In front of an array without a zero byte, a text that the datagram lacks has no end. -/
theorem EfectoDebido.not_corto (h : EfectoDebido b datagrama) {orden : Char} (ho : EsOrden orden) :
    ¬ (datagrama = ['S'] ∨ datagrama.length = 3 ∧ esDatagrama 'S' orden datagrama = true) := by
  intro hcorto
  have hmal : ¬ BienFormado datagrama := by
    intro hbien
    have hlen := hbien.length_lt
    rcases hcorto with rfl | ⟨h, -⟩
    · exact absurd hlen (by decide)
    · omega
  have hnada := h.1 hmal (.equis orden) 0 []
  rw [escuchar, tratamiento_of_corto ho hcorto] at hnada
  cases hnada

theorem EfectoDebido.seEntiende (h : EfectoDebido b datagrama) (hcabe : datagrama.length < 64) :
    SeEntiende b datagrama := by
  refine ⟨fun huno => h.not_corto (.inl rfl : EsOrden 'C') (.inl huno), fun orden ho hes => ?_⟩
  have htres := length_of_esDatagrama hes
  have hlargo : 3 < datagrama.length := by
    by_contra hle
    exact h.not_corto ho (.inr ⟨by omega, hes⟩)
  refine ⟨hlargo, ?_⟩
  by_cases hbien : BienFormado datagrama
  · exact .inl hbien
  · exact .inr ((escuchar_eq_self_iff hlargo hcabe ho hes _ _ _).mp (h.1 hbien .ceros 0 []))

theorem SeEntiende.efectoDebido (h : SeEntiende b datagrama) (hcabe : datagrama.length < 64) :
    EfectoDebido b datagrama := by
  obtain ⟨huno, hord⟩ := h
  by_cases hes : ∃ orden, EsOrden orden ∧ esDatagrama 'S' orden datagrama = true
  · obtain ⟨orden, ho, hes⟩ := hes
    obtain ⟨hlargo, htexto⟩ := hord orden ho hes
    refine ⟨fun hmal pila azar memoria => ?_, fun pila pila' azar memoria => ?_⟩
    · exact (escuchar_eq_self_iff hlargo hcabe ho hes pila azar memoria).mpr
        (htexto.resolve_left hmal)
    · rw [escuchar, escuchar, tratamiento_of_largo hlargo hcabe pila,
        tratamiento_of_largo hlargo hcabe pila']
  · -- the listener does not react
    have hno : ∀ orden, EsOrden orden → esDatagrama 'S' orden datagrama = false :=
      fun orden ho => Bool.eq_false_iff.mpr fun h => hes ⟨orden, ho, h⟩
    have hsin : ∀ pila azar memoria, escuchar pila datagrama azar memoria b = some b := by
      intro pila azar memoria
      rw [escuchar, tratamiento_of_ajeno hcabe huno hno pila]
      rfl
    exact ⟨fun _ => hsin, fun pila pila' azar memoria => by rw [hsin, hsin]⟩

/-- **Which datagrams change the table only as they should**, for every table, every datagram of at
most 63 bytes, and every previous contents of the array. The listener looks at two bytes and takes
what is behind the fourth for an address, whatever it is. -/
theorem efecto_debido_iff (b : Balanceador) (datagrama : Texto) (hcabe : datagrama.length ≤ 63) :
    EfectoDebido b datagrama ↔ SeEntiende b datagrama :=
  have hlt : datagrama.length < 64 := Nat.lt_succ_of_le hcabe
  ⟨fun h => h.seEntiende hlt, fun h => h.efectoDebido hlt⟩

end Efecto

/-- The registration of a web server on port 80. -/
theorem efecto_debido_de_un_registro :
    EfectoDebido Estado.inicial.balanceador "S/C/10.0.0.1/80".toList := by
  refine (efecto_debido_iff Estado.inicial.balanceador "S/C/10.0.0.1/80".toList (by decide)).mpr
    ⟨by decide, fun orden _ _ => ⟨by decide, .inl ?_⟩⟩
  exact ⟨'C', "10.0.0.1".toList, "80".toList, .inl rfl, by decide, by decide, by decide,
    List.all_eq_true.mp (by decide), rfl⟩

/-- **A server of which the datagram names neither the address nor the port**: `SxCx` is none of the
two forms, and registers the empty text. -/
theorem registro_mal_formado :
    ¬ ∀ (b : Balanceador) (datagrama : Texto), datagrama.length ≤ 63 → EfectoDebido b datagrama := by
  intro hall
  obtain ⟨-, hord⟩ :=
    (hall Estado.inicial.balanceador ['S', 'x', 'C', 'x'] (by decide)).seEntiende (by decide)
  obtain ⟨-, ⟨orden, ip, port, -, -, -, -, -, heq⟩ | htexto⟩ := hord 'C' (.inl rfl) (by decide)
  · rw [formar] at heq
    exact absurd (List.cons.inj (List.cons.inj heq).2).1 (by decide)
  · exact absurd (htexto.mpr rfl) (by decide)

end LoadBalancer
