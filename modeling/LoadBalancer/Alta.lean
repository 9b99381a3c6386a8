/-
What a registration leaves in the table: the address and the port that a web server sent.

The web server writes its address and its port into the text of a datagram, and
`agregarServidor` cuts them out again. The port comes back as it was. The address is copied
with `strncpy(s.ip, addr.c_str(), addr.length())`, which writes the characters and no
terminator into an array that is a local variable without an initial value; `hilo_Cliente`
reads that array as a C string. So the address comes back if the byte behind it happens to
be zero, and only then ([`alta_fiel_iff`]).
-/
import LoadBalancer.Registro

set_option autoImplicit false

namespace LoadBalancer

open LoadBalancer.Transition

/-! ## The datagram of a web server -/

/-- A dotted IPv4 address: four groups of one to three digits. -/
def EsIPv4 (host : Texto) : Prop :=
  ∃ a b c d : Texto, host = a ++ '.' :: (b ++ '.' :: (c ++ '.' :: d))
    ∧ ∀ grupo ∈ [a, b, c, d], grupo ≠ [] ∧ grupo.length ≤ 3 ∧ ∀ x ∈ grupo, x.isDigit = true

theorem EsIPv4.length_le {host : Texto} (h : EsIPv4 host) : host.length ≤ 15 := by
  obtain ⟨a, b, c, d, rfl, hgrupos⟩ := h
  have ha := (hgrupos a (by simp)).2.1
  have hb := (hgrupos b (by simp)).2.1
  have hc := (hgrupos c (by simp)).2.1
  have hd := (hgrupos d (by simp)).2.1
  simp only [List.length_append, List.length_cons]
  omega

/-- It is made of digits and dots. -/
theorem EsIPv4.caracteres {host : Texto} (h : EsIPv4 host) {x : Char} (hx : x ∈ host) :
    x.isDigit = true ∨ x = '.' := by
  obtain ⟨a, b, c, d, rfl, hgrupos⟩ := h
  simp only [List.mem_append, List.mem_cons] at hx
  rcases hx with hx | rfl | hx | rfl | hx | rfl | hx
  · exact .inl ((hgrupos a (by simp)).2.2 x hx)
  · exact .inr rfl
  · exact .inl ((hgrupos b (by simp)).2.2 x hx)
  · exact .inr rfl
  · exact .inl ((hgrupos c (by simp)).2.2 x hx)
  · exact .inr rfl
  · exact .inl ((hgrupos d (by simp)).2.2 x hx)

theorem EsIPv4.not_mem {host : Texto} (h : EsIPv4 host) {x : Char} (hdigito : x.isDigit = false)
    (hpunto : x ≠ '.') : x ∉ host := by
  intro hx
  rcases h.caracteres hx with hd | rfl
  · rw [hdigito] at hd
    cases hd
  · exact hpunto rfl

/-- The `S/C` that the web server at this address and port sends. -/
def Aviso.conexion {host : Texto} (hhost : EsIPv4 host) {port : ℕ} (hport : port < 2147483648) :
    Aviso where
  desconectar := false
  ip := host
  port := Utilidades.to_string port
  ip_sin_barra := hhost.not_mem (by decide) (by decide)
  ip_sin_nul := hhost.not_mem (by decide) (by decide)
  port_sin_nul := fun h => absurd (Utilidades.isDigit_of_mem_to_string h) (by decide)
  ip_cabe := by
    have := hhost.length_le
    omega
  cabe := by
    have hip := hhost.length_le
    have hcifras : (Utilidades.to_string port).length ≤ 10 := by
      rw [Utilidades.to_string_eq, Nat.length_toDigits_le_iff (by decide) (by decide)]
      omega
    rw [WebServidor.avisarBalanceadores, length_formar]
    omega

/-! ## The address that is read back -/

/-- **An address in an array without a terminator** ends where the array was zero before. -/
theorem leerCadena_copiada {addr : Texto} (hnul : NUL ∉ addr) (memoria : List Char) :
    leerCadena (addr ++ memoria.drop addr.length) = some addr
      ↔ memoria[addr.length]? = some NUL := by
  rw [← List.head?_drop]
  cases memoria.drop addr.length with
  | nil =>
      rw [List.append_nil, leerCadena_of_not_mem hnul]
      simp
  | cons c resto =>
      rw [List.head?_cons, Option.some.injEq]
      by_cases hc : c = NUL
      · rw [hc, leerCadena_of_mem (List.mem_append_right addr List.mem_cons_self),
          c_str_append_of_not_mem hnul, c_str_cons, if_pos rfl, List.append_nil]
        simp
      · refine iff_of_false (fun h => ?_) hc
        -- whatever is read goes on with `c`
        unfold leerCadena at h
        split_ifs at h
        rw [c_str_append_of_not_mem hnul, c_str_cons, if_neg hc, Option.some.injEq] at h
        have := congrArg List.length h
        rw [List.length_append, List.length_cons] at this
        omega

/-- The entry that `agregarServidor` builds from the text of a datagram. -/
theorem Aviso.nuevoServidor (d : Aviso) (azar : ℕ) (memoria : List Char) :
    ∃ nuevo, LoadBalancer.nuevoServidor d.hilera azar memoria = some nuevo
      ∧ nuevo.ip = d.ip ++ memoria.drop d.ip.length ∧ nuevo.port = Utilidades.atoi d.port := by
  have hmaxima : Utilidades.getNumeroRandom azar 5 10 = some (5 + azar % 6) := rfl
  unfold LoadBalancer.nuevoServidor
  rw [d.partirRegistro_hilera, hmaxima]
  exact ⟨_, rfl, rfl, rfl⟩

/-! ## The listener between its search and its `push_back` -/

/-- The steps of the balancer that are not the listener's. -/
def Accion.ajena : Accion → Bool
  | .llegada _ => true
  | .metodo _ => true
  | .hilo _ => true
  | _ => false

theorem Accion.ajena_escuchador {a : Accion} (ha : a.ajena = true) {s s' : Estado}
    (h : paso s a = some s') : s'.escuchador = s.escuchador := by
  cases paso_avanza h with
  | llegada p => rfl
  | metodo m => rfl
  | hilo h hh b f hlibre ht => rfl
  | _ => cases ha

/-- The other threads leave the listener where it is. -/
theorem exec_ajenas {medio : List Accion} (hmedio : ∀ a ∈ medio, a.ajena = true) {s s' : Estado}
    (h : exec pasoRed s (medio.map .otro) = some s') : s'.escuchador = s.escuchador := by
  induction medio generalizing s with
  | nil =>
      rw [List.map_nil, exec, Option.some.injEq] at h
      rw [h]
  | cons a medio ih =>
      rw [List.forall_mem_cons] at hmedio
      rw [List.map_cons, exec] at h
      obtain ⟨t, ht, hresto⟩ := Option.bind_eq_some_iff.mp h
      rw [pasoRed] at ht
      split_ifs at ht
      rw [ih hmedio.2 hresto, Accion.ajena_escuchador hmedio.1 ht]

/-- The table with one more entry, and the listener done. -/
def Estado.conAlta (s : Estado) (nuevo : ServidorRegistrado) : Estado :=
  { s with
    balanceador :=
      { s.balanceador with
        servidores := s.balanceador.servidores ++ [nuevo]
        servidoresActuales := s.balanceador.servidoresActuales + 1 }
    escuchador := .libre }

/-- The `push_back`, with the entry that it appends. -/
theorem paso_alta {s : Estado} {ip : Texto} (hesc : s.escuchador = .agregando ip)
    (hlibre : s.mutexLibre = true) {azar : ℕ} {memoria : List Char} {nuevo : ServidorRegistrado}
    (hn : nuevoServidor ip azar memoria = some nuevo) :
    pasoRed s (.otro (.alta azar memoria)) = some (s.conAlta nuevo) := by
  have halta : Accion.esBusqueda (.alta azar memoria) ≠ true := Bool.false_ne_true
  rw [pasoRed, if_neg halta, paso, hesc]
  dsimp only
  rw [if_pos hlibre, hn]
  rfl

/-- The search that an `S/C` with a new text begins with. -/
theorem pasoRed_busqueda {s s' : Estado} {pila : Pila} {d : Aviso} (hd : d.desconectar = false)
    (hnuevo : buscarServidor s.balanceador.servidores d.hilera = none)
    (h : pasoRed s (.datagrama pila d) = some s') : s'.escuchador = .agregando d.hilera := by
  rw [pasoRed_datagrama, hd] at h
  simp only [Bool.false_eq_true, if_false, paso, hnuevo] at h
  split_ifs at h
  cases h
  rfl

/-! ## The result -/

/-- **The round trip of a registration.** After the `S/C` of a web server that is not in the
table, whatever the other threads do until the listener goes on, the new entry has the
server's port, and its `ip` reads as the server's address if and only if the array held a
zero byte right behind the room of that address. `strncpy` is given the length of the address, and
so it copies no terminator. -/
theorem alta_fiel_iff {host : Texto} (hhost : EsIPv4 host) {port : ℕ} (hport : port < 2147483648)
    (pila : Pila) (azar : ℕ) (memoria : List Char) {s s' : Estado} {medio : List Accion}
    (hnuevo : buscarServidor s.balanceador.servidores (Aviso.conexion hhost hport).hilera = none)
    (hmedio : ∀ a ∈ medio, a.ajena = true)
    (h : exec pasoRed s (.datagrama pila (Aviso.conexion hhost hport) :: medio.map .otro)
      = some s')
    (hlibre : s'.mutexLibre = true) :
    (∃ nuevo, pasoRed s' (.otro (.alta azar memoria)) = some (s'.conAlta nuevo)
        ∧ leerCadena nuevo.ip = some host ∧ nuevo.port = port)
      ↔ memoria[host.length]? = some NUL := by
  rw [exec] at h
  obtain ⟨t, ht, hresto⟩ := Option.bind_eq_some_iff.mp h
  have hesc : s'.escuchador = .agregando (Aviso.conexion hhost hport).hilera := by
    rw [exec_ajenas hmedio hresto]
    exact pasoRed_busqueda rfl hnuevo ht
  obtain ⟨nuevo, hn, hip, hpuerto⟩ := (Aviso.conexion hhost hport).nuevoServidor azar memoria
  have halta := paso_alta hesc hlibre hn
  have hpuerto' : nuevo.port = port := by
    rw [hpuerto]
    exact Utilidades.atoi_to_string hport
  have hnul : NUL ∉ host := (Aviso.conexion hhost hport).ip_sin_nul
  rw [← leerCadena_copiada hnul memoria]
  constructor
  · rintro ⟨otro, hotro, hlee, -⟩
    -- the entry that was appended is the one that was built
    rw [halta, Option.some.injEq] at hotro
    have hlista := congrArg (fun s => s.balanceador.servidores) hotro
    obtain rfl : nuevo = otro := by simpa [Estado.conAlta] using hlista
    rw [← hlee, hip]
    rfl
  · intro hlee
    exact ⟨nuevo, halta, by rw [hip]; exact hlee, hpuerto'⟩

/-- The address of a web server, `10.84.14.1`. -/
theorem esIPv4_10_84_14_1 : EsIPv4 "10.84.14.1".toList :=
  ⟨"10".toList, "84".toList, "14".toList, "1".toList, rfl, by simp [Char.isDigit]⟩

/-- Into an array of zero bytes its address is copied well. -/
theorem alta_fiel_memoria_en_cero :
    let d := Aviso.conexion esIPv4_10_84_14_1 (show 8080 < 2147483648 by decide)
    let s' := { Estado.inicial with escuchador := .agregando d.hilera }
    ∃ nuevo, pasoRed s' (.otro (.alta 0 (List.replicate 32 NUL))) = some (s'.conAlta nuevo)
      ∧ leerCadena nuevo.ip = some "10.84.14.1".toList ∧ nuevo.port = (8080 : ℕ) :=
  (alta_fiel_iff esIPv4_10_84_14_1 (by decide) .ceros 0 (List.replicate 32 NUL)
    (s := Estado.inicial) rfl (fun a (ha : a ∈ []) => (by cases ha)) rfl rfl).mpr rfl

/-- Into an array that still holds the address of an earlier registration, `10.84.14.15`, it is
not: the new entry has that server's address. -/
theorem alta_infiel :
    (exec pasoRed Estado.inicial
        [.datagrama .ceros (Aviso.conexion esIPv4_10_84_14_1 (show 8080 < 2147483648 by decide)),
          .otro (.alta 0 ("10.84.14.15".toList ++ List.replicate 21 NUL))]).map
        (fun s => s.balanceador.servidores.map fun t => (leerCadena t.ip, t.port))
      = some [(some "10.84.14.15".toList, 8080)] := by
  decide +kernel

end LoadBalancer
