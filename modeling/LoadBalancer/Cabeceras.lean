/-
The `Host` test, over all the header lines of a request.

The test is a search for `ost: ` in `request[1]`, and `split` with `veces = 1` makes two cuts:
`request[1]` is the first header line, not the block of them. A `Host` header further down is
not seen, and on the first line the letters `ost: ` are taken wherever they stand.
[`rechazo_sin_host_iff`] says for which requests the answer nevertheless depends on the
presence of the header alone, as it is meant to; [`pasaHost_iff`] says what the test
asks of a line.
-/
import LoadBalancer.InterpreteHTTP

set_option autoImplicit false

namespace LoadBalancer

open LoadBalancer.Search

namespace InterpreteHTTP

/-! ## Requests by their lines -/

/-- A request by its lines: the request line, the header lines, and what follows the blank
line. -/
structure PeticionConCabeceras where
  linea : Texto
  cabeceras : List Texto
  cuerpo : Texto
  linea_sin_crlf : ¬ CRLF <:+: linea
  cabeceras_sin_crlf : ∀ c ∈ cabeceras, ¬ CRLF <:+: c
  cabeceras_no_vacias : ∀ c ∈ cabeceras, c ≠ []

/-- The text: every line ended by `CRLF`, and a blank line after the last one. -/
def PeticionConCabeceras.texto (p : PeticionConCabeceras) : Texto :=
  p.linea ++ CRLF ++ (p.cabeceras.flatMap (· ++ CRLF) ++ CRLF ++ p.cuerpo)

/-- The first header line; without one, the blank line. -/
def PeticionConCabeceras.primera (p : PeticionConCabeceras) : Texto := p.cabeceras.headD []

/-- **Two cuts leave the first header line alone in the second piece.** -/
theorem PeticionConCabeceras.split_texto (p : PeticionConCabeceras) :
    ∃ resto, Utilidades.split p.texto CRLF 1 = p.linea :: p.primera :: resto := by
  rw [PeticionConCabeceras.texto, Utilidades.split_crlf p.linea_sin_crlf,
    PeticionConCabeceras.primera]
  cases hcab : p.cabeceras with
  | nil =>
      -- the blank line comes first
      have hblanco : Utilidades.split.bucle CRLF 1 ([] ++ CRLF ++ p.cuerpo)
          = [] :: Utilidades.split.bucle CRLF 0 p.cuerpo :=
        Utilidades.split.bucle_crlf (by decide) 0
      exact ⟨_, congrArg (p.linea :: ·) hblanco⟩
  | cons c cabeceras =>
      have hc : ¬ CRLF <:+: c := p.cabeceras_sin_crlf c (by rw [hcab]; exact List.mem_cons_self)
      rw [List.flatMap_cons, List.append_assoc, List.append_assoc,
        Utilidades.split.bucle_crlf hc]
      exact ⟨_, rfl⟩

/-! ## What the request should be judged by -/

/-- The header line is named `Host` or `host`. -/
def EsHost (cabecera : Texto) : Prop :=
  "Host:".toList <+: cabecera ∨ "host:".toList <+: cabecera

instance (cabecera : Texto) : Decidable (EsHost cabecera) := inferInstanceAs (Decidable (_ ∨ _))

/-- A `GET` or `HEAD` request line of a supported version. -/
def LineaBienFormada (linea : Texto) : Prop :=
  ∃ metodo ruta htmlv, linea = metodo ++ ' ' :: (ruta ++ ' ' :: htmlv)
    ∧ (metodo = GET ∨ metodo = HEAD) ∧ ruta ≠ [] ∧ ' ' ∉ ruta ∧ (htmlv = HTTP10 ∨ htmlv = HTTP11)

/-- The `Host` test is passed by this line. -/
def PasaHost (headers : Texto) : Prop := Utilidades.extraerValorHeader headers OST ≠ []

/-- **What the test asks of a line**, of any length below `2^31`: the letters `ost: `, anywhere,
and at least one character behind their first occurrence, which is not a `;`. -/
theorem pasaHost_iff {headers : Texto} (hlen : headers.length < 2147483648)
    (hcrlf : ¬ CRLF <:+: headers) :
    PasaHost headers
      ↔ ∃ p c resto, find OST headers = some p ∧ headers.drop (p + OST.length) = c :: resto
          ∧ c ≠ ';' := by
  unfold PasaHost
  cases hfind : find OST headers with
  | none => simp [Utilidades.extraerValorHeader, hfind]
  | some p =>
      have hno : find CRLF (headers.drop (p + OST.length)) = none := by
        rw [find_eq_none_iff]
        exact fun h => hcrlf (h.trans (List.drop_suffix _ _).isInfix)
      rw [Utilidades.extraerValorHeader_eq hlen hfind, hno]
      cases hresto : headers.drop (p + OST.length) with
      | nil => simp [hresto]
      | cons c resto =>
          have hpos : headers.length ≠ 0 := by
            intro h0
            rw [List.length_eq_zero_iff.mp h0, List.drop_nil] at hresto
            cases hresto
          by_cases hc : c = ';'
          · -- the value ends where it begins
            subst hc
            have hcierre : find [';'] (';' :: resto) = some 0 := by
              rw [find_cons, if_pos (by simp)]
            rw [hcierre]
            simp [hresto]
          · have hcierre : find [';'] (c :: resto) ≠ some 0 := by
              rw [find_cons, if_neg (by simpa using Ne.symm hc)]
              simp
            have hmin : min headers.length ((find [';'] (c :: resto)).getD headers.length) ≠ 0 := by
              cases hf : find [';'] (c :: resto) with
              | none => simpa using hpos
              | some d =>
                  rw [hf] at hcierre
                  have hd : d ≠ 0 := fun h => hcierre (h ▸ rfl)
                  simp only [Option.getD_some]
                  omega
            refine ⟨fun _ => ⟨p, c, resto, rfl, hresto, hc⟩, fun _ hnil => ?_⟩
            rcases List.take_eq_nil_iff.mp hnil with h | h
            · exact hmin h
            · cases h

/-- The line is answered with 400 whatever the headers are. -/
def LineaRechazada (linea : Texto) : Prop :=
  match Utilidades.split linea [' '] 3 with
  | metodo :: ruta :: htmlv :: mas =>
      [] ∈ metodo :: ruta :: htmlv :: mas ∨ htmlv = HTTP30
        ∨ (htmlv = HTTP10 ∨ htmlv = HTTP11) ∧ ¬ (metodo = GET ∨ metodo = HEAD)
  | _ => True

/-- **400 is the answer to a line without `Host` behind it, and to a line rejected anyway.** -/
theorem estadoLinea_eq_400_iff (sis : Sistema) (linea headers : Texto) :
    estadoLinea sis linea headers = STATUS_BAD_REQ_400
      ↔ ¬ PasaHost headers ∨ LineaRechazada linea := by
  unfold estadoLinea LineaRechazada
  rcases Utilidades.split linea [' '] 3 with _ | ⟨metodo, _ | ⟨ruta, _ | ⟨htmlv, mas⟩⟩⟩
  · simp
  · simp
  · simp
  dsimp only
  by_cases hvacia : [] ∈ metodo :: ruta :: htmlv :: mas
  · rw [if_pos hvacia]
    exact ⟨fun _ => .inr (.inl hvacia), fun _ => rfl⟩
  rw [if_neg hvacia, estado]
  by_cases hhost : Utilidades.extraerValorHeader headers OST = []
  · rw [if_pos hhost]
    exact ⟨fun _ => .inl (not_not_intro hhost), fun _ => rfl⟩
  -- the test is passed, so only the line can be at fault
  have hpasa : ¬ ¬ PasaHost headers := not_not_intro hhost
  rw [if_neg hhost]
  by_cases hver : htmlv = HTTP10 ∨ htmlv = HTTP11
  · have h30 : ¬ htmlv = HTTP30 := by
      rintro rfl
      exact absurd hver (by decide)
    rw [if_pos hver]
    by_cases hm : metodo = GET ∨ metodo = HEAD
    · -- the file decides, and none of its codes is 400
      have hne : estadoArchivo sis ruta ≠ STATUS_BAD_REQ_400 := by
        unfold estadoArchivo
        split_ifs <;> decide
      rw [if_pos hm]
      refine ⟨fun h => absurd h hne, fun h => ?_⟩
      rcases h.resolve_left hpasa with h | h | h
      · exact absurd h hvacia
      · exact absurd h h30
      · exact absurd hm h.2
    · rw [if_neg hm]
      exact ⟨fun _ => .inr (.inr (.inr ⟨hver, hm⟩)), fun _ => rfl⟩
  rw [if_neg hver]
  by_cases h30 : htmlv = HTTP30
  · have hsop : ¬ (htmlv = HTTP20 ∨ htmlv ≠ HTTP30) := by
      rintro (h20 | h)
      · rw [h30] at h20
        exact absurd h20 (by decide)
      · exact h h30
    -- `HTTP/3.0` is the one version that the second test lets through to the 400
    rw [if_neg hsop]
    exact ⟨fun _ => .inr (.inr (.inl h30)), fun _ => rfl⟩
  · rw [if_pos (.inr h30)]
    refine ⟨fun h => absurd h (by decide), fun h => ?_⟩
    rcases h.resolve_left hpasa with h | h | h
    · exact absurd h hvacia
    · exact absurd h h30
    · exact absurd h.1 hver

/-- A well-formed line has its three parts. -/
theorem split_of_bienFormada {metodo ruta htmlv : Texto} (hmetodo : ' ' ∉ metodo)
    (hruta : ' ' ∉ ruta) (hhtmlv : ' ' ∉ htmlv) (hne : htmlv ≠ []) :
    Utilidades.split (metodo ++ ' ' :: (ruta ++ ' ' :: htmlv)) [' '] 3 = [metodo, ruta, htmlv] := by
  have hpos : 0 < (metodo ++ ' ' :: (ruta ++ ' ' :: htmlv)).length := by
    rw [List.length_append, List.length_cons]
    omega
  rw [Utilidades.split, if_pos hpos, Utilidades.split.bucle_singleton hmetodo,
    Utilidades.split.bucle_singleton hruta,
    Utilidades.split.bucle_break (find_singleton_none hhtmlv), if_pos hne]

/-- A well-formed line is not rejected for itself. -/
theorem LineaBienFormada.not_rechazada {linea : Texto} (h : LineaBienFormada linea) :
    ¬ LineaRechazada linea := by
  obtain ⟨metodo, ruta, htmlv, rfl, hmetodo, hne, hruta, hver⟩ := h
  have hm : ' ' ∉ metodo ∧ metodo ≠ [] := by
    rcases hmetodo with rfl | rfl <;> decide
  have hv : ' ' ∉ htmlv ∧ htmlv ≠ [] ∧ htmlv ≠ HTTP30 := by
    rcases hver with rfl | rfl <;> decide
  unfold LineaRechazada
  rw [split_of_bienFormada hm.1 hruta hv.1 hv.2.1]
  rintro (hvacia | h30 | ⟨-, hno⟩)
  · simp only [List.mem_cons, List.not_mem_nil, or_false] at hvacia
    -- none of the three parts is empty
    rcases hvacia with h | h | h
    · exact hm.2 h.symm
    · exact hne h.symm
    · exact hv.2.1 h.symm
  · exact hv.2.2 h30
  · exact hno hmetodo

/-! ## The result -/

/-- The answer depends on the presence of the header: a well-formed request with one is not
rejected with 400, and every request without one is. -/
def JuzgaPorHost (p : PeticionConCabeceras) (codigo : ℤ) : Prop :=
  (LineaBienFormada p.linea → (∃ c ∈ p.cabeceras, EsHost c) → codigo ≠ STATUS_BAD_REQ_400)
    ∧ ((∀ c ∈ p.cabeceras, ¬ EsHost c) → codigo = STATUS_BAD_REQ_400)

/-- **When the answer depends on the presence of the `Host` header**: a well-formed request that
has one must pass the test with its first header line, and a request that has none must fail it
there, or have a line that is rejected anyway. The test sees no other line, since `split` makes two
cuts only. -/
theorem rechazo_sin_host_iff (sis : Sistema) (i : InterpreteHTTP) (p : PeticionConCabeceras) :
    (∃ i' codigo, i.construirRespuesta sis p.texto = some (i', codigo) ∧ JuzgaPorHost p codigo)
      ↔ (LineaBienFormada p.linea → (∃ c ∈ p.cabeceras, EsHost c) → PasaHost p.primera)
        ∧ ((∀ c ∈ p.cabeceras, ¬ EsHost c) → ¬ PasaHost p.primera ∨ LineaRechazada p.linea) := by
  obtain ⟨resto, hsplit⟩ := p.split_texto
  obtain ⟨i', hi'⟩ := construirRespuesta_estado sis i hsplit
  have h400 := estadoLinea_eq_400_iff sis p.linea p.primera
  -- a well-formed line leaves the decision to the test
  have hbien : LineaBienFormada p.linea →
      (estadoLinea sis p.linea p.primera ≠ STATUS_BAD_REQ_400 ↔ PasaHost p.primera) := by
    intro hbf
    rw [ne_eq, h400, or_iff_left hbf.not_rechazada, not_not]
  constructor
  · rintro ⟨j, codigo, hj, hcon, hsin⟩
    rw [hi'] at hj
    obtain rfl := (Prod.mk.inj (Option.some.inj hj)).2
    exact ⟨fun hbf hhost => (hbien hbf).mp (hcon hbf hhost), fun hno => h400.mp (hsin hno)⟩
  · rintro ⟨hcon, hsin⟩
    exact ⟨i', _, hi', fun hbf hhost => (hbien hbf).mpr (hcon hbf hhost),
      fun hno => h400.mpr (hsin hno)⟩

/-- A request with the `Host` header on its second header line. -/
def peticionHostSegundo : PeticionConCabeceras where
  linea := "GET / HTTP/1.1".toList
  cabeceras := ["Accept: a".toList, "Host: b".toList]
  cuerpo := []
  linea_sin_crlf := by decide
  cabeceras_sin_crlf := by decide
  cabeceras_no_vacias := by decide

/-- **A `Host` header on the second header line is not seen.** -/
theorem host_segundo_rechazado :
    ¬ ∀ (sis : Sistema) (i : InterpreteHTTP) (p : PeticionConCabeceras),
      ∃ i' codigo, i.construirRespuesta sis p.texto = some (i', codigo)
        ∧ JuzgaPorHost p codigo := by
  intro hall
  obtain ⟨i', codigo, h, hcon, -⟩ := hall .sinArchivos .nuevo peticionHostSegundo
  have hbien : LineaBienFormada peticionHostSegundo.linea :=
    ⟨GET, ['/'], HTTP11, rfl, .inl rfl, by decide, by decide, .inr rfl⟩
  have hcodigo : (construirRespuesta .sinArchivos peticionHostSegundo.texto .nuevo).map Prod.snd
      = some STATUS_BAD_REQ_400 := rfl
  rw [h] at hcodigo
  exact hcon hbien (by decide) (Option.some.inj hcodigo)

end InterpreteHTTP

end LoadBalancer
