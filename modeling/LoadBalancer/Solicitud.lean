/-
The two request-reading loops over whole sequences of reads.

The balancer's loop is one [`vueltaBalanceador`] a turn, and the bytes just read go on to the
back-end; the web server's is one [`vueltaServidor`] a turn. Both end when a text they look
at contains `CRLFCRLF`, and only then. The text is not what was received:

* the balancer looks at the array after the read, as a C string: the bytes just read up to a
  zero byte among them or, when there is none, those bytes followed by what the array still
  holds *behind* them ([`detras`]), up to the first zero byte there. Earlier reads are not
  in the text, later bytes of longer earlier reads are. [`relevo_exacto_iff`] says exactly
  when the loop nevertheless stops where it should;
* the web server concatenates such texts, each from a fresh array.

At the end of the stream the reads store nothing, so the balancer tests the same array for
ever and the web server appends what its stack happens to hold. [`bucles_terminan_iff`] says
exactly when the two loops terminate.
-/
import LoadBalancer.Lib.Loop
import LoadBalancer.Socket

set_option autoImplicit false

namespace LoadBalancer

open LoadBalancer.Search LoadBalancer.Loop

/-! ## What a peer sends -/

/-- How a peer's stream ends. -/
inductive Cierre
  | fin
  | error
deriving DecidableEq, Repr

def Cierre.lectura : Cierre → Lectura
  | .fin => .fin
  | .error => .error

/-- The reads on a connection: the pieces that arrived, then the end for ever. -/
def entrada (trozos : List Trozo) (cierre : Cierre) (n : ℕ) : Lectura :=
  match trozos[n]? with
  | some trozo => .datos trozo
  | none => cierre.lectura

/-- The bytes received in the first `n` reads. -/
def recibido (trozos : List Trozo) (n : ℕ) : List Char := (trozos.take n).flatMap (·.bytes)

theorem entrada_bytes (trozos : List Trozo) (cierre : Cierre) (n : ℕ) :
    recibido trozos (n + 1) = recibido trozos n ++ (entrada trozos cierre n).bytes := by
  unfold recibido entrada
  rw [List.take_add_one, List.flatMap_append]
  cases trozos[n]? with
  | none => cases cierre <;> rfl
  | some trozo => simp [Lectura.bytes]

/-- `read` returned the number of bytes it stored, if it stored any. -/
theorem Bufer.take_leer (b : Bufer) (l : Lectura) :
    (b.leer l).bytes.take l.estado.toNat = l.bytes := by
  cases l with
  | datos t => simp [Lectura.estado, Lectura.bytes]
  | fin => rfl
  | error => rfl

/-! ## The balancer's loop -/

/-- What the loop of `hilo_Cliente` changes: the array, and the bytes written to the
back-end. -/
structure Relevo where
  httpRequest : Bufer
  enviado : List Char

/-- One turn of the loop: read, send the `bytes` bytes read on, test. -/
def vueltaRelevo (r : Relevo) (l : Lectura) : Option (Relevo × Bool) :=
  (vueltaBalanceador r.httpRequest l).map fun (leido, encontroFinal) =>
    (⟨leido, r.enviado ++ leido.bytes.take l.estado.toNat⟩, encontroFinal)

/-- The array after these pieces have been read into it. -/
def arreglo (httpRequest : Bufer) (trozos : List Trozo) : Bufer :=
  trozos.foldl (fun b t => b.leer (.datos t)) httpRequest

theorem arreglo_leer (httpRequest : Bufer) (trozos : List Trozo) (cierre : Cierre) (n : ℕ) :
    (arreglo httpRequest (trozos.take n)).leer (entrada trozos cierre n)
      = arreglo httpRequest (trozos.take (n + 1)) := by
  unfold arreglo entrada
  rw [List.take_add_one, List.foldl_append]
  cases trozos[n]? with
  | none => cases cierre <;> rfl
  | some trozo => rfl

/-- The test has a text to look at after read `n`. -/
def HayCadena (httpRequest : Bufer) (trozos : List Trozo) (n : ℕ) : Prop :=
  NUL ∈ (arreglo httpRequest (trozos.take (n + 1))).bytes

/-- The text that the test looks at after read `n` contains `CRLFCRLF`. -/
def VeFinal (httpRequest : Bufer) (trozos : List Trozo) (n : ℕ) : Prop :=
  DOUBLECRLF <:+: c_str (arreglo httpRequest (trozos.take (n + 1))).bytes

/-- **The turns of the balancer's loop** in closed form. -/
theorem vueltaRelevo_trace (httpRequest : Bufer) (trozos : List Trozo) (cierre : Cierre) :
    Trace vueltaRelevo ⟨httpRequest, []⟩ (entrada trozos cierre)
      (fun n => ⟨arreglo httpRequest (trozos.take n), recibido trozos n⟩)
      (HayCadena httpRequest trozos) (VeFinal httpRequest trozos) := by
  -- one turn, from the state that the closed form gives before read `n`
  have hturn : ∀ n, vueltaRelevo ⟨arreglo httpRequest (trozos.take n), recibido trozos n⟩
        (entrada trozos cierre n)
      = (leerCadena (arreglo httpRequest (trozos.take (n + 1))).bytes).map fun buffer =>
          (⟨arreglo httpRequest (trozos.take (n + 1)), recibido trozos (n + 1)⟩,
            (find DOUBLECRLF buffer).isSome) := by
    intro n
    have htake := Bufer.take_leer (arreglo httpRequest (trozos.take n)) (entrada trozos cierre n)
    simp only [vueltaRelevo, vueltaBalanceador, Option.map_map, Function.comp_def, Bufer.cadena]
    rw [htake, ← entrada_bytes, arreglo_leer]
  refine ⟨rfl, fun n hok hstop => ?_, fun n hok hstop => ?_, fun n hok => ?_⟩
  · rw [hturn, leerCadena_of_mem hok, Option.map_some, (find_isSome_iff _ _).mpr hstop]
  · have hno := hstop
    rw [VeFinal, ← find_isSome_iff, Bool.not_eq_true] at hno
    rw [hturn, leerCadena_of_mem hok, Option.map_some, hno]
  · rw [hturn, leerCadena_of_not_mem hok, Option.map_none]

/-! ## When the balancer's loop stops where it should -/

/-- What the array still holds behind `trozo` when `trozo` has been read after `trozos`. -/
def detras (httpRequest : Bufer) (trozos : List Trozo) (trozo : Trozo) : List Char :=
  (arreglo httpRequest trozos).bytes.drop trozo.bytes.length

/-- The test after a read that must not stop the loop: there is a zero byte among the bytes
read, or there is one behind them and what is in between adds no `CRLFCRLF`. -/
def Calla (trozo detras : List Char) : Prop :=
  NUL ∈ trozo ∨ (NUL ∈ detras ∧ ¬ DOUBLECRLF <:+: trozo ++ c_str detras)

/-- The test after the read that must stop the loop: `CRLFCRLF` is in the bytes read before
any zero byte or, without one among them, in what there is up to the first zero byte behind
them. -/
def Anuncia (trozo detras : List Char) : Prop :=
  (NUL ∈ trozo ∧ DOUBLECRLF <:+: c_str trozo)
    ∨ (NUL ∉ trozo ∧ NUL ∈ detras ∧ DOUBLECRLF <:+: trozo ++ c_str detras)

/-- The first read after which the bytes received contain `CRLFCRLF`. -/
def PrimerFinal (trozos : List Trozo) (m : ℕ) : Prop :=
  IsLeast { n | n < trozos.length ∧ DOUBLECRLF <:+: recibido trozos (n + 1) } m

theorem exists_primerFinal {trozos : List Trozo}
    (h : DOUBLECRLF <:+: trozos.flatMap (·.bytes)) : ∃ m, PrimerFinal trozos m := by
  have hne : { n | n < trozos.length ∧ DOUBLECRLF <:+: recibido trozos (n + 1) }.Nonempty := by
    cases trozos with
    | nil => exact absurd h (by decide)
    | cons t ts =>
        refine ⟨ts.length, Nat.lt_succ_self _, ?_⟩
        rwa [recibido, List.take_of_length_le (by simp)]
  exact ⟨_, isLeast_csInf hne⟩

theorem c_str_replicate_nul (n : ℕ) : c_str (List.replicate n NUL) = [] := by
  cases n with
  | zero => rfl
  | succ n => rw [List.replicate_succ, c_str_cons, if_pos rfl]

/-- In a cleared array, nothing but zero bytes is behind the bytes of equally long reads. -/
theorem detras_ceros {trozos : List Trozo} {t : Trozo}
    (h : ∀ u ∈ trozos, u.bytes.length = t.bytes.length) :
    detras .ceros trozos t = List.replicate (BUFFER_SIZE - t.bytes.length) NUL := by
  induction trozos using List.reverseRecOn with
  | nil => exact List.drop_replicate
  | append_singleton trozos u ih =>
      have hu := h u (by simp)
      have hprev := ih fun v hv => h v (by simp [hv])
      -- the last of the earlier reads covers the same positions as the ones before it
      rw [← hprev, detras, arreglo, List.foldl_append]
      rw [detras, arreglo, ← hu]
      exact List.drop_left

section Pruebas

variable {httpRequest : Bufer} {trozos : List Trozo} {n : ℕ} {t : Trozo}

theorem arreglo_succ (ht : trozos[n]? = some t) :
    (arreglo httpRequest (trozos.take (n + 1))).bytes
      = t.bytes ++ detras httpRequest (trozos.take n) t := by
  rw [arreglo, List.take_add_one, ht, List.foldl_append]
  rfl

/-- A read without `CRLFCRLF` in its bytes leaves the loop running exactly when its test is
quiet. -/
theorem calla_iff (ht : trozos[n]? = some t) (hno : ¬ DOUBLECRLF <:+: t.bytes) :
    (HayCadena httpRequest trozos n ∧ ¬ VeFinal httpRequest trozos n)
      ↔ Calla t.bytes (detras httpRequest (trozos.take n) t) := by
  unfold HayCadena VeFinal Calla
  rw [arreglo_succ ht, List.mem_append]
  by_cases hnul : NUL ∈ t.bytes
  · rw [c_str_append_of_mem hnul]
    have hpre : ¬ DOUBLECRLF <:+: c_str t.bytes :=
      fun h => hno (h.trans (c_str_isPrefix t.bytes).isInfix)
    exact ⟨fun _ => .inl hnul, fun _ => ⟨.inl hnul, hpre⟩⟩
  -- the text runs on into what is behind the piece
  · rw [c_str_append_of_not_mem hnul]
    simp only [hnul, false_or]

/-- A read stops the loop exactly when its test announces the end. -/
theorem anuncia_iff (ht : trozos[n]? = some t) :
    (HayCadena httpRequest trozos n ∧ VeFinal httpRequest trozos n)
      ↔ Anuncia t.bytes (detras httpRequest (trozos.take n) t) := by
  unfold HayCadena VeFinal Anuncia
  rw [arreglo_succ ht, List.mem_append]
  by_cases hnul : NUL ∈ t.bytes
  · rw [c_str_append_of_mem hnul]
    simp only [hnul, true_or, true_and, not_true_eq_false, false_and, or_false]
  · rw [c_str_append_of_not_mem hnul]
    simp only [hnul, false_or, not_false_eq_true, true_and, false_and]

/-- The bytes of a read are among the bytes received. -/
theorem bytes_infix_recibido (ht : trozos[n]? = some t) :
    t.bytes <:+: recibido trozos (n + 1) := by
  rw [recibido, List.take_add_one, ht, List.flatMap_append]
  exact ⟨recibido trozos n, [], by simp [recibido]⟩

end Pruebas

/-- The condition of [`relevo_exacto_iff`]: every test before the first end is quiet, and the
one there announces it. -/
def PruebasFieles (httpRequest : Bufer) (trozos : List Trozo) (m : ℕ) : Prop :=
  (∀ k < m, ∀ t, trozos[k]? = some t → Calla t.bytes (detras httpRequest (trozos.take k) t))
    ∧ ∀ t, trozos[m]? = some t → Anuncia t.bytes (detras httpRequest (trozos.take m) t)

/-- Where the loop stops, with what it has sent. -/
theorem stopsAfter_iff_pruebasFieles (httpRequest : Bufer) {trozos : List Trozo} (cierre : Cierre)
    {m : ℕ} (hm : PrimerFinal trozos m) :
    (∃ r, StopsAfter vueltaRelevo ⟨httpRequest, []⟩ (entrada trozos cierre) (m + 1) r
        ∧ r.enviado = recibido trozos (m + 1))
      ↔ PruebasFieles httpRequest trozos m := by
  obtain ⟨⟨hlt, -⟩, hmin⟩ := hm
  have htrace := vueltaRelevo_trace httpRequest trozos cierre
  -- no read before `m` contains the delimiter, since what was received up to it does not
  have hno : ∀ k < m, ∀ t, trozos[k]? = some t → ¬ DOUBLECRLF <:+: t.bytes := by
    intro k hk t ht hin
    have := hmin ⟨by omega, hin.trans (bytes_infix_recibido ht)⟩
    omega
  constructor
  · rintro ⟨r, hr, -⟩
    obtain ⟨hpre, hok, hstop, -⟩ := (htrace.stopsAfter_iff m r).mp hr
    exact ⟨fun k hk t ht => (calla_iff ht (hno k hk t ht)).mp (hpre k hk),
      fun t ht => (anuncia_iff ht).mp ⟨hok, hstop⟩⟩
  · rintro ⟨hpre, hlast⟩
    have hquiet : ∀ k < m, HayCadena httpRequest trozos k ∧ ¬ VeFinal httpRequest trozos k := by
      intro k hk
      have ht := List.getElem?_eq_getElem (l := trozos) (i := k) (by omega)
      exact (calla_iff ht (hno k hk _ ht)).mpr (hpre k hk _ ht)
    have ht := List.getElem?_eq_getElem hlt
    obtain ⟨hok, hstop⟩ := (anuncia_iff ht).mpr (hlast _ ht)
    exact ⟨_, (htrace.stopsAfter_iff m _).mpr ⟨hquiet, hok, hstop, rfl⟩, rfl⟩

/-- **The balancer's loop stops exactly after the read that completes the request, with
everything received sent on, if and only if the tests are faithful there.** For every request
that contains `CRLFCRLF`, every way of cutting it, and every previous contents of the array. The
test is made on the array and not on the bytes read, and so what older reads have left there counts
as well. -/
theorem relevo_exacto_iff (httpRequest : Bufer) (trozos : List Trozo) (cierre : Cierre)
    (hfin : DOUBLECRLF <:+: trozos.flatMap (·.bytes)) :
    ∃ m, PrimerFinal trozos m
      ∧ ((∃ r, StopsAfter vueltaRelevo ⟨httpRequest, []⟩ (entrada trozos cierre) (m + 1) r
            ∧ r.enviado = recibido trozos (m + 1))
        ↔ PruebasFieles httpRequest trozos m) := by
  obtain ⟨m, hm⟩ := exists_primerFinal hfin
  exact ⟨m, hm, stopsAfter_iff_pruebasFieles httpRequest cierre hm⟩

/-- A request in two pieces of one length. -/
def enDosTrozos : List Trozo := [⟨"GET ".toList, by decide⟩, ⟨"\r\n\r\n".toList, by decide⟩]

/-- Read into a cleared array, it is sent on with the second piece. -/
theorem relevo_exacto_de_dos_veces :
    PrimerFinal enDosTrozos 1
      ∧ ∃ r, StopsAfter vueltaRelevo ⟨.ceros, []⟩ (entrada enDosTrozos .fin) 2 r
        ∧ r.enviado = "GET \r\n\r\n".toList := by
  obtain ⟨m, hm, hiff⟩ := relevo_exacto_iff .ceros enDosTrozos .fin (by decide)
  obtain rfl : m = 1 := by
    have hlt : m < 2 := hm.1.1
    have hno : m ≠ 0 := by
      rintro rfl
      exact absurd hm.1.2 (by decide)
    omega
  -- nothing but zero bytes is behind the piece that was read last
  have hdetras (k : ℕ) (t : Trozo) (ht : t ∈ enDosTrozos) :
      detras .ceros (enDosTrozos.take k) t = List.replicate (BUFFER_SIZE - 4) NUL
        ∧ NUL ∈ List.replicate (BUFFER_SIZE - 4) NUL := by
    have hlargo : ∀ u ∈ enDosTrozos, u.bytes.length = 4 := by decide
    refine ⟨?_, List.mem_replicate.mpr ⟨by decide, rfl⟩⟩
    rw [← hlargo t ht]
    exact detras_ceros fun u hu => (hlargo u (List.mem_of_mem_take hu)).trans (hlargo t ht).symm
  refine ⟨hm, hiff.mpr ⟨fun k hk t ht => ?_, fun t ht => ?_⟩⟩
  · obtain rfl : k = 0 := Nat.lt_one_iff.mp hk
    obtain ⟨heq, hnul⟩ := hdetras 0 t (List.mem_of_getElem? ht)
    obtain rfl := Option.some.inj ht
    rw [heq]
    exact .inr ⟨hnul, by rw [c_str_replicate_nul]; decide⟩
  · obtain ⟨heq, hnul⟩ := hdetras 1 t (List.mem_of_getElem? ht)
    obtain rfl := Option.some.inj ht
    rw [heq]
    exact .inr ⟨by decide, hnul, by rw [c_str_replicate_nul]; decide⟩

/-- **A request that the loop does not see the end of**: the `CRLFCRLF` arrives in two reads of
one `CRLF` each. -/
theorem relevo_pasa_el_final :
    ¬ ∀ (httpRequest : Bufer) (trozos : List Trozo) (cierre : Cierre),
      DOUBLECRLF <:+: trozos.flatMap (·.bytes) →
      ∃ m, PrimerFinal trozos m
        ∧ ∃ r, StopsAfter vueltaRelevo ⟨httpRequest, []⟩ (entrada trozos cierre) (m + 1) r
          ∧ r.enviado = recibido trozos (m + 1) := by
  intro hall
  -- it should stop after the second read, so that test should announce the end
  obtain ⟨m, hm, hstops⟩ := hall .ceros [⟨CRLF, by decide⟩, ⟨CRLF, by decide⟩] .fin (by decide)
  obtain ⟨-, hlast⟩ := (stopsAfter_iff_pruebasFieles .ceros .fin hm).mp hstops
  obtain rfl : m = 1 := by
    have hlt : m < 2 := hm.1.1
    have hne : m ≠ 0 := by
      rintro rfl
      exact absurd hm.1.2 (by decide)
    omega
  have hfinal := hlast _ rfl
  rw [detras_ceros (by simp)] at hfinal
  rcases hfinal with ⟨hnul, -⟩ | ⟨-, -, hin⟩
  · exact absurd hnul (by decide)
  · rw [c_str_replicate_nul] at hin
    exact absurd hin (by decide)

/-! ## The web server's loop -/

/-- One turn of the loop of `ejecutarServidor`; the array of `Socket::leer(string*)` is part of
the input, since it is a new one at every call. -/
def vueltaPeticion (peticion : Texto) (lectura : Bufer × Lectura) : Option (Texto × Bool) :=
  vueltaServidor lectura.1 peticion lectura.2

/-- What `Socket::leer(string*)` finds in its array at read `n`. -/
def pilaLeida (pilas : ℕ → Bufer) (trozos : List Trozo) (cierre : Cierre) (n : ℕ) : List Char :=
  ((pilas n).leer (entrada trozos cierre n)).bytes

/-- `peticion` after `n` reads. -/
def peticionLeida (pilas : ℕ → Bufer) (trozos : List Trozo) (cierre : Cierre) (n : ℕ) : Texto :=
  (List.range n).flatMap fun k => c_str (pilaLeida pilas trozos cierre k)

/-- **The turns of the web server's loop** in closed form. -/
theorem vueltaPeticion_trace (pilas : ℕ → Bufer) (trozos : List Trozo) (cierre : Cierre) :
    Trace vueltaPeticion [] (fun n => (pilas n, entrada trozos cierre n))
      (peticionLeida pilas trozos cierre)
      (fun n => NUL ∈ pilaLeida pilas trozos cierre n)
      (fun n => DOUBLECRLF <:+: peticionLeida pilas trozos cierre (n + 1)) := by
  have hsucc : ∀ n, peticionLeida pilas trozos cierre (n + 1)
      = peticionLeida pilas trozos cierre n ++ c_str (pilaLeida pilas trozos cierre n) := by
    intro n
    rw [peticionLeida, List.range_succ, List.flatMap_append]
    simp [peticionLeida]
  have hturn : ∀ n, vueltaPeticion (peticionLeida pilas trozos cierre n)
        (pilas n, entrada trozos cierre n)
      = (leerCadena (pilaLeida pilas trozos cierre n)).map fun parcial =>
          (peticionLeida pilas trozos cierre n ++ parcial,
            (find DOUBLECRLF (peticionLeida pilas trozos cierre n ++ parcial)).isSome) :=
    fun n => rfl
  refine ⟨rfl, fun n hok hstop => ?_, fun n hok hstop => ?_, fun n hok => ?_⟩
  · rw [hturn, leerCadena_of_mem hok, Option.map_some, ← hsucc, (find_isSome_iff _ _).mpr hstop]
  · rw [← find_isSome_iff, Bool.not_eq_true] at hstop
    rw [hturn, leerCadena_of_mem hok, Option.map_some, ← hsucc, hstop]
  · rw [hturn, leerCadena_of_not_mem hok, Option.map_none]

/-! ## When the web server's loop accumulates what was received -/

/-- Texts that begin with the parts join to what the parts join to only if they are the parts. -/
theorem eq_of_flatMap_range_eq {partes textos : ℕ → Texto} {n : ℕ}
    (hpre : ∀ k < n, partes k <+: textos k)
    (h : (List.range n).flatMap textos = (List.range n).flatMap partes) :
    ∀ k < n, textos k = partes k := by
  have hlen : ∀ m ≤ n, ((List.range m).flatMap partes).length
      ≤ ((List.range m).flatMap textos).length := by
    intro m hm
    induction m with
    | zero => exact le_refl _
    | succ m ih =>
        have hle := (hpre m hm).length_le
        have hprev := ih (by omega)
        simp only [List.range_succ, List.flatMap_append, List.flatMap_singleton, List.length_append]
        omega
  induction n with
  | zero => exact fun k hk => absurd hk (Nat.not_lt_zero k)
  | succ n ih =>
      have hle := (hpre n (Nat.lt_succ_self n)).length_le
      have hprev := hlen n (Nat.le_succ n)
      simp only [List.range_succ, List.flatMap_append, List.flatMap_singleton] at h
      have htotal := congrArg List.length h
      rw [List.length_append, List.length_append] at htotal
      obtain ⟨hinit, hlast⟩ := List.append_inj h (by omega)
      intro k hk
      rcases Nat.lt_succ_iff_lt_or_eq.mp hk with hk | rfl
      · exact ih (fun j hj => hpre j (by omega)) hinit (fun m hm => hlen m (by omega)) k hk
      · exact hlast

/-- The bytes received, read by read. -/
theorem recibido_eq_range (trozos : List Trozo) (cierre : Cierre) (n : ℕ) :
    recibido trozos n = (List.range n).flatMap fun k => (entrada trozos cierre k).bytes := by
  induction n with
  | zero => rfl
  | succ n ih =>
      rw [entrada_bytes trozos cierre, ih, List.range_succ, List.flatMap_append,
        List.flatMap_singleton]

theorem nul_not_mem_peticionLeida (pilas : ℕ → Bufer) (trozos : List Trozo) (cierre : Cierre)
    (n : ℕ) : NUL ∉ peticionLeida pilas trozos cierre n := by
  rw [peticionLeida, List.mem_flatMap]
  rintro ⟨k, -, hk⟩
  exact nul_not_mem_c_str _ hk

/-- The text that read `k` leaves is the bytes it stored: there is no zero byte among them, and
the byte behind them is one. -/
def SinRestos (pila : Bufer) (bytes : List Char) : Prop :=
  NUL ∉ bytes ∧ pila.bytes[bytes.length]? = some NUL

/-- Without zero bytes among those stored, the text is exactly them when there is a zero byte
right behind. -/
theorem c_str_leer_iff {pila : Bufer} {l : Lectura} (hnul : NUL ∉ l.bytes) :
    (NUL ∈ (pila.leer l).bytes ∧ c_str (pila.leer l).bytes = l.bytes)
      ↔ pila.bytes[l.bytes.length]? = some NUL := by
  have hdrop : ∀ b : Texto, (NUL ∈ b ∧ c_str b = []) ↔ b[0]? = some NUL := by
    intro b
    cases b with
    | nil => simp
    | cons c b => rw [c_str_cons]; split_ifs with hc <;> simp [hc]
  rw [Bufer.leer_bytes, c_str_append_of_not_mem hnul, List.append_right_eq_self, List.mem_append,
    or_iff_right hnul, hdrop, List.getElem?_drop, Nat.add_zero]

/-- **The reads that leave exactly what they stored**, up to any of them. -/
theorem peticionLeida_eq_recibido_iff (pilas : ℕ → Bufer) (trozos : List Trozo) (cierre : Cierre)
    (n : ℕ) :
    ((∀ k < n, NUL ∈ pilaLeida pilas trozos cierre k)
        ∧ peticionLeida pilas trozos cierre n = recibido trozos n)
      ↔ ∀ k < n, SinRestos (pilas k) (entrada trozos cierre k).bytes := by
  constructor
  · rintro ⟨hok, heq⟩ k hk
    -- the text has no zero byte, so none was received
    have hnul : ∀ j < n, NUL ∉ (entrada trozos cierre j).bytes := by
      intro j hj hmem
      apply nul_not_mem_peticionLeida pilas trozos cierre n
      rw [heq, recibido_eq_range trozos cierre, List.mem_flatMap]
      exact ⟨j, List.mem_range.mpr hj, hmem⟩
    have hpre : ∀ j < n, (entrada trozos cierre j).bytes <+: c_str (pilaLeida pilas trozos cierre j) := by
      intro j hj
      rw [pilaLeida, Bufer.leer_bytes, c_str_append_of_not_mem (hnul j hj)]
      exact List.prefix_append _ _
    rw [recibido_eq_range trozos cierre] at heq
    have htexto := eq_of_flatMap_range_eq hpre heq k hk
    exact ⟨hnul k hk, (c_str_leer_iff (hnul k hk)).mp ⟨hok k hk, htexto⟩⟩
  · intro hall
    have hread : ∀ k < n, NUL ∈ pilaLeida pilas trozos cierre k
        ∧ c_str (pilaLeida pilas trozos cierre k) = (entrada trozos cierre k).bytes :=
      fun k hk => (c_str_leer_iff (hall k hk).1).mpr (hall k hk).2
    refine ⟨fun k hk => (hread k hk).1, ?_⟩
    rw [peticionLeida, recibido_eq_range trozos cierre]
    exact List.flatMap_congr fun k hk => (hread k (List.mem_range.mp hk)).2

/-- **The web server's loop ends with exactly what was received** when, up to the first read that
completes a `CRLFCRLF`, every read leaves exactly what it stored. -/
theorem stopsAfter_recibido_iff (pilas : ℕ → Bufer) {trozos : List Trozo} (cierre : Cierre)
    {m : ℕ} (hm : PrimerFinal trozos m) :
    (∃ n, StopsAfter vueltaPeticion [] (fun k => (pilas k, entrada trozos cierre k)) n
        (recibido trozos n))
      ↔ ∀ k ≤ m, SinRestos (pilas k) (entrada trozos cierre k).bytes := by
  have htrace := vueltaPeticion_trace pilas trozos cierre
  obtain ⟨⟨hlt, hfin⟩, hmin⟩ := hm
  constructor
  · rintro ⟨n, hn⟩
    cases n with
    | zero => cases hn
    | succ n =>
        obtain ⟨hpre, hok, hstop, heq⟩ := (htrace.stopsAfter_iff n _).mp hn
        -- the loop has seen a `CRLFCRLF` among the bytes received, so it has made read `m`
        have hmn : m ≤ n := by
          by_contra hnm
          rw [← heq] at hstop
          have := hmin ⟨by omega, hstop⟩
          omega
        have hreads := (peticionLeida_eq_recibido_iff pilas trozos cierre (n + 1)).mp
          ⟨fun k hk => ?_, heq.symm⟩
        · exact fun k hk => hreads k (by omega)
        · rcases Nat.lt_succ_iff_lt_or_eq.mp hk with hk | rfl
          · exact (hpre k hk).1
          · exact hok
  · intro hall
    have hreads : ∀ n ≤ m + 1, peticionLeida pilas trozos cierre n = recibido trozos n := fun n hn =>
      ((peticionLeida_eq_recibido_iff pilas trozos cierre n).mpr fun k hk =>
        hall k (by omega)).2
    have hok := ((peticionLeida_eq_recibido_iff pilas trozos cierre (m + 1)).mpr fun k hk =>
      hall k (by omega)).1
    refine ⟨m + 1, (htrace.stopsAfter_iff m _).mpr ⟨fun k hk => ⟨hok k (by omega), ?_⟩,
      hok m (Nat.lt_succ_self m), ?_, (hreads _ le_rfl).symm⟩⟩
    · intro hstop
      rw [hreads (k + 1) (by omega)] at hstop
      have := hmin ⟨by omega, hstop⟩
      omega
    · rw [hreads _ le_rfl]
      exact hfin

/-- The stream ends with its first `CRLFCRLF`. -/
def AcabaEnSuFinal (bytes : List Char) : Prop :=
  ∃ p, find DOUBLECRLF bytes = some p ∧ bytes.length = p + DOUBLECRLF.length

/-- Cut into reads that all bring something, such a stream ends with the read that completes the
`CRLFCRLF`. -/
theorem primerFinal_of_acaba {trozos : List Trozo}
    (hfin : AcabaEnSuFinal (trozos.flatMap (·.bytes))) (hne : ∀ t ∈ trozos, t.bytes ≠ []) :
    ∃ m, PrimerFinal trozos m ∧ trozos.length = m + 1 := by
  obtain ⟨p, hp, hlen⟩ := hfin
  have hesta : DOUBLECRLF <:+: trozos.flatMap (·.bytes) :=
    (find_isSome_iff _ _).mp (by rw [hp]; rfl)
  obtain ⟨m, hm⟩ := exists_primerFinal hesta
  refine ⟨m, hm, ?_⟩
  by_contra hlast
  have hlt : m + 1 < trozos.length := by
    have := hm.1.1
    omega
  -- the bytes up to read `m` would be the whole stream, and there is one more read
  have hsplit : trozos.flatMap (·.bytes)
      = recibido trozos (m + 1) ++ (trozos.drop (m + 1)).flatMap (·.bytes) := by
    rw [recibido, ← List.flatMap_append, List.take_append_drop]
  obtain ⟨q, hq⟩ := Option.isSome_iff_exists.mp ((find_isSome_iff _ _).mpr hm.1.2)
  have hqp : q = p := by
    have := find_append_of_eq_some hq ((trozos.drop (m + 1)).flatMap (·.bytes))
    rw [← hsplit, hp] at this
    exact (Option.some.inj this).symm
  have hqle : q + DOUBLECRLF.length ≤ (recibido trozos (m + 1)).length := by
    obtain ⟨hle, hpre, -⟩ := (find_eq_some_iff _ _ _).mp hq
    have hroom := hpre.length_le
    rw [List.length_drop] at hroom
    omega
  have hrest : 0 < ((trozos.drop (m + 1)).flatMap (·.bytes)).length := by
    rw [List.drop_eq_getElem_cons hlt, List.flatMap_cons, List.length_append]
    have := List.length_pos_iff.mpr (hne _ (List.getElem_mem hlt))
    omega
  have := congrArg List.length hsplit
  rw [List.length_append] at this
  omega

/-- **The text passed to `construirRespuesta` is what was received** exactly when each read brings
fewer bytes than the array has, none of them a zero byte, and the array holds a zero byte right
behind them. For every stream that its first `CRLFCRLF` ends, every way of cutting it, and every
previous contents of the arrays. -/
theorem peticion_exacta_iff (pilas : ℕ → Bufer) (trozos : List Trozo) (cierre : Cierre)
    (hfin : AcabaEnSuFinal (trozos.flatMap (·.bytes))) (hne : ∀ t ∈ trozos, t.bytes ≠ []) :
    (∃ n, StopsAfter vueltaPeticion [] (fun k => (pilas k, entrada trozos cierre k)) n
        (recibido trozos n))
      ↔ ∀ k t, trozos[k]? = some t → SinRestos (pilas k) t.bytes := by
  obtain ⟨m, hm, hlen⟩ := primerFinal_of_acaba hfin hne
  rw [stopsAfter_recibido_iff pilas cierre hm]
  constructor
  · intro hall k t ht
    obtain ⟨hk, -⟩ := List.getElem?_eq_some_iff.mp ht
    have hread := hall k (by omega)
    rwa [entrada, ht] at hread
  · intro hall k hk
    have ht := List.getElem?_eq_getElem (l := trozos) (i := k) (by omega)
    rw [entrada, ht]
    exact hall k _ ht

/-- The request in two pieces, each of them over a cleared array. -/
theorem peticion_exacta_de_dos_veces :
    ∃ n, StopsAfter vueltaPeticion [] (fun k => (Bufer.ceros, entrada enDosTrozos .fin k)) n
      (recibido enDosTrozos n) := by
  refine (peticion_exacta_iff (fun _ => .ceros) enDosTrozos .fin ⟨4, by decide, by decide⟩
    (by decide)).mpr fun k t ht => ?_
  have hbytes : ∀ u ∈ enDosTrozos, NUL ∉ u.bytes ∧ u.bytes.length < BUFFER_SIZE := by decide
  obtain ⟨hnul, hlargo⟩ := hbytes t (List.mem_of_getElem? ht)
  exact ⟨hnul, by rw [Bufer.ceros, List.getElem?_replicate, if_pos hlargo]⟩

/-- An array that nothing has cleared. -/
def Bufer.equis : Bufer := ⟨List.replicate BUFFER_SIZE 'x', List.length_replicate⟩

/-- **A request that arrives with more than was sent**: the array is not clear behind it. -/
theorem peticion_con_restos :
    ¬ ∀ (pilas : ℕ → Bufer) (trozos : List Trozo) (cierre : Cierre),
      AcabaEnSuFinal (trozos.flatMap (·.bytes)) → (∀ t ∈ trozos, t.bytes ≠ []) →
      ∃ n, StopsAfter vueltaPeticion [] (fun k => (pilas k, entrada trozos cierre k)) n
        (recibido trozos n) := by
  intro hall
  have hfin : AcabaEnSuFinal ([(⟨DOUBLECRLF, by decide⟩ : Trozo)].flatMap (·.bytes)) :=
    ⟨0, by decide, by decide⟩
  have hne : ∀ t ∈ [(⟨DOUBLECRLF, by decide⟩ : Trozo)], t.bytes ≠ [] := by simp [DOUBLECRLF]
  obtain ⟨m, hm, -⟩ := primerFinal_of_acaba hfin hne
  obtain ⟨-, hbehind⟩ := (stopsAfter_recibido_iff (fun _ => .equis) .fin hm).mp
    (hall (fun _ => .equis) _ .fin hfin hne) 0 (Nat.zero_le m)
  rw [Bufer.equis, List.getElem?_replicate] at hbehind
  simp [DOUBLECRLF, BUFFER_SIZE] at hbehind
  exact absurd hbehind (by decide)

/-! ## When the loops terminate -/

/-- The reads after the last piece do not change the array. -/
theorem arreglo_take_min (httpRequest : Bufer) (trozos : List Trozo) (n : ℕ) :
    arreglo httpRequest (trozos.take (n + 1))
      = arreglo httpRequest (trozos.take (min n trozos.length + 1)) := by
  rcases Nat.le_total n trozos.length with h | h
  · rw [Nat.min_eq_left h]
  · rw [Nat.min_eq_right h, List.take_of_length_le (by omega), List.take_of_length_le (by omega)]

/-- The balancer's loop terminates within one read more than there are pieces, or never. -/
theorem relevo_terminates_iff (httpRequest : Bufer) (trozos : List Trozo) (cierre : Cierre) :
    Terminates vueltaRelevo ⟨httpRequest, []⟩ (entrada trozos cierre)
      ↔ ∃ n ≤ trozos.length, VeFinal httpRequest trozos n
          ∧ ∀ k ≤ n, HayCadena httpRequest trozos k := by
  rw [(vueltaRelevo_trace httpRequest trozos cierre).terminates_iff]
  constructor
  · rintro ⟨n, hfinal, hcadena⟩
    refine ⟨min n trozos.length, Nat.min_le_right _ _, ?_, fun k hk => hcadena k (by omega)⟩
    rwa [VeFinal, ← arreglo_take_min]
  · rintro ⟨n, -, hfinal, hcadena⟩
    exact ⟨n, hfinal, hcadena⟩

/-- **When the two loops terminate.** For every finite sequence of pieces followed by the end of
the stream or an error, for ever. The balancer's loop terminates exactly when, after some read up
to the first one that brings nothing, the array holds `CRLFCRLF` before its first zero byte, and
it held a zero byte after every read so far. The web server's terminates exactly when the texts
that some number of reads left in their arrays, joined, contain `CRLFCRLF`, and each of those
arrays held a zero byte. Neither loop looks for the end of the stream, so nothing else can end them.
-/
theorem bucles_terminan_iff (httpRequest : Bufer) (pilas : ℕ → Bufer) (trozos : List Trozo)
    (cierre : Cierre) :
    (Terminates vueltaRelevo ⟨httpRequest, []⟩ (entrada trozos cierre)
        ↔ ∃ n ≤ trozos.length, VeFinal httpRequest trozos n
            ∧ ∀ k ≤ n, HayCadena httpRequest trozos k)
      ∧ (Terminates vueltaPeticion [] (fun n => (pilas n, entrada trozos cierre n))
        ↔ ∃ n, DOUBLECRLF <:+: peticionLeida pilas trozos cierre (n + 1)
            ∧ ∀ k ≤ n, NUL ∈ pilaLeida pilas trozos cierre k) :=
  ⟨relevo_terminates_iff httpRequest trozos cierre,
    (vueltaPeticion_trace pilas trozos cierre).terminates_iff⟩

/-- **A client that connects and closes keeps both loops running for ever**: the arrays are
clear, and there is nothing to read. -/
theorem bucles_sin_fin :
    ¬ ∀ (httpRequest : Bufer) (pilas : ℕ → Bufer) (trozos : List Trozo) (cierre : Cierre),
      Terminates vueltaRelevo ⟨httpRequest, []⟩ (entrada trozos cierre)
        ∧ Terminates vueltaPeticion [] (fun n => (pilas n, entrada trozos cierre n)) := by
  intro hall
  -- no piece at all, and arrays of zero bytes
  obtain ⟨hrelevo, -⟩ := hall .ceros (fun _ => .ceros) [] .fin
  obtain ⟨n, -, hfinal, -⟩ := (relevo_terminates_iff .ceros [] .fin).mp hrelevo
  have hceros : c_str (arreglo .ceros (([] : List Trozo).take (n + 1))).bytes = [] :=
    c_str_replicate_nul BUFFER_SIZE
  rw [VeFinal, hceros] at hfinal
  exact absurd hfinal (by decide)

end LoadBalancer
