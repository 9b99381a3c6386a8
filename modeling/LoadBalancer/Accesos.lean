/-
Where the treatment of a datagram reads and writes.

The receive call stores at most 64 bytes, and returns how many, or `-1`. `Balanceador` and
`WebServidor` write a zero byte at the position it returned, which the array has not got for a
full datagram and for a failed call; the balancer then takes a C string from byte `4` on, which has
an end only if there is a zero byte, and copies the part in front of its first `/` into an
`ip[32]`. The other copies and the cuts of the text are always inside ([`partirEn_eq`]).

The functions here make each of these accesses a check (`Lib/Checked.lean`), with the positions
computed in `int` and `size_t` as the source does. What they compute is what `Escucha.lean` says
([`hilo_Escuchador_ServidoresEn_eq_ok_iff`]); where they go wrong is [`accesos_dentro_iff`].
-/
import LoadBalancer.Lib.Checked
import LoadBalancer.Escucha

set_option autoImplicit false

namespace LoadBalancer

open LoadBalancer.Search LoadBalancer.Checked

/-! ## Accesses -/

/-- An access of the code to one of its arrays, or to a text. -/
inductive Acceso
  /-- The byte at a position of an array of this size. -/
  | byte (capacidad : ℕ) (posicion : ℤ)
  /-- The C string in the rest of an array. -/
  | cadena (resto : List Char)
  /-- A copy of some bytes into an array of this size. -/
  | copia (capacidad largo : ℕ)
  /-- `substr` from a position of a text of this length. -/
  | substr (largo inicio : ℕ)
deriving DecidableEq, Repr

/-- The access is inside. -/
def Acceso.Dentro : Acceso → Prop
  | .byte capacidad posicion => 0 ≤ posicion ∧ posicion < capacidad
  | .cadena resto => NUL ∈ resto
  | .copia capacidad largo => largo ≤ capacidad
  | .substr largo inicio => inicio ≤ largo

instance Acceso.decidableDentro : (a : Acceso) → Decidable a.Dentro
  | .byte _ _ => inferInstanceAs (Decidable (_ ∧ _))
  | .cadena resto => inferInstanceAs (Decidable (NUL ∈ resto))
  | .copia capacidad largo => inferInstanceAs (Decidable (largo ≤ capacidad))
  | .substr largo inicio => inferInstanceAs (Decidable (inicio ≤ largo))

def accede (a : Acceso) : Except Acceso Unit := check a.Dentro a

/-- `text.substr(inicio, largo)`. -/
def substr (text : Texto) (inicio largo : ℕ) : Except Acceso Texto := do
  accede (.substr text.length inicio)
  pure ((text.drop inicio).take largo)

/-- `string(&array[i])`, with `resto` the array from `i` on. -/
def cadenaEn (resto : List Char) : Except Acceso Texto := do
  accede (.cadena resto)
  pure (c_str resto)

/-- `array[i]`. -/
def byteEn (array : List Char) (i : ℕ) : Except Acceso Char :=
  match array[i]? with
  | some c => pure c
  | none => throw (.byte array.length i)

/-! ## Receiving -/

/-- What `recvfrom` answers: a datagram, or `-1`. -/
inductive Recepcion
  | datagrama (bytes : Texto)
  | error
deriving DecidableEq, Repr

/-- What it returns: the bytes of a longer datagram are discarded. -/
def Recepcion.leidos : Recepcion → ℤ
  | .datagrama bytes => min bytes.length 64
  | .error => -1

/-- The array after `leerDe(buffer, 64)`. -/
def Recepcion.guardar (pila : Pila) : Recepcion → List Char
  | .datagrama bytes => bytes.take 64 ++ pila.bytes.drop (bytes.take 64).length
  | .error => pila.bytes

/-- `int leidos = leerDe(buffer, 64); buffer[leidos] = '\0';`. -/
def recibirDatagram (pila : Pila) (r : Recepcion) : Except Acceso (List Char) := do
  accede (.byte 64 r.leidos)
  pure ((r.guardar pila).set r.leidos.toNat NUL)

/-! ## The balancer -/

/-- The two cuts of the text, the same in `agregarServidor` and in `eliminarServidor`. -/
def partirEn (ip : Texto) : Except Acceso (Texto × Texto) := do
  let strpos : ℤ := aInt (aSizeT ((findDesde ['/'] ip 0 : ℤ) - 1))
  let addr ← substr ip 0 (aSizeT (strpos + 1))
  let port ← substr ip (aSizeT (strpos + 2)) npos
  pure (addr, port)

/-- `agregarServidor(buffer)`: its accesses, and then what it does to the table. -/
def agregarServidorEn (buffer : List Char) (azar : ℕ) (memoria : List Char) (b : Balanceador) :
    Except Acceso (Option Balanceador) := do
  let ip ← cadenaEn (buffer.drop 4)
  let (addr, _) ← partirEn ip
  if buscarServidor b.servidores ip = none then
    -- `strncpy(s.ip, addr.c_str(), addr.length())` and `strcpy(s.comparador, ip)`
    accede (.copia 32 addr.length)
    accede (.copia 64 (ip.length + 1))
    pure (agregarServidor b ip azar memoria)
  else pure (agregarServidor b ip azar memoria)

/-- `eliminarServidor(buffer)`. -/
def eliminarServidorEn (buffer : List Char) (b : Balanceador) :
    Except Acceso (Option Balanceador) := do
  let ip ← cadenaEn (buffer.drop 4)
  let _ ← partirEn ip
  pure (some (eliminarServidor b ip))

/-- What `hilo_Escuchador_Servidores` does with its array. -/
def tratarDatagram (buffer : List Char) (leidos : ℤ) (azar : ℕ) (memoria : List Char)
    (b : Balanceador) : Except Acceso (Option Balanceador) := do
  let emisor ← byteEn buffer 0
  if 0 < leidos ∧ emisor = 'S' then
    let orden ← byteEn buffer 2
    -- the two tests are for different letters, so at most one of the functions is called
    if orden = 'C' then agregarServidorEn buffer azar memoria b
    else if orden = 'D' then eliminarServidorEn buffer b
    else pure (some b)
  else pure (some b)

/-- One turn of `hilo_Escuchador_Servidores`. -/
def hilo_Escuchador_ServidoresEn (pila : Pila) (r : Recepcion) (azar : ℕ) (memoria : List Char)
    (b : Balanceador) : Except Acceso (Option Balanceador) := do
  let buffer ← recibirDatagram pila r
  tratarDatagram buffer r.leidos azar memoria b

/-! ## The web server -/

/-- One turn of a receive loop of `WebServidor::ejecutarServidor`: whether the datagram is the
balancer's `orden`. -/
def recepcionServidor (orden : Char) (pila : Pila) (r : Recepcion) : Except Acceso Bool := do
  let buffer ← recibirDatagram pila r
  let emisor ← byteEn buffer 0
  if emisor = 'B' then
    let leida ← byteEn buffer 2
    pure (decide (leida = orden))
  else pure false

/-- The loop that waits for a balancer. -/
def WebServidor.esperarApertura : Pila → Recepcion → Except Acceso Bool := recepcionServidor 'C'

/-- The loop that waits for the balancer to close. -/
def WebServidor.esperarCierre : Pila → Recepcion → Except Acceso Bool := recepcionServidor 'D'

/-! ## Receiving inside the array -/

section Recibir

variable {pila : Pila} {r : Recepcion}

/-- A datagram of at most 63 bytes is received inside the array, and nothing else is. -/
def Recepcion.Cabe : Recepcion → Prop
  | .datagrama bytes => bytes.length ≤ 63
  | .error => False

/-- What the array holds after it. -/
def Pila.contenido (pila : Pila) (datagrama : Texto) : List Char :=
  datagrama ++ NUL :: pila.bytes.drop (datagrama.length + 1)

theorem Pila.length_contenido (pila : Pila) {datagrama : Texto} (h : datagrama.length ≤ 63) :
    (pila.contenido datagrama).length = 64 := by
  have := pila.largo
  simp only [Pila.contenido, List.length_append, List.length_cons, List.length_drop]
  omega

/-- **The terminator is inside** when the datagram is shorter than the array. -/
theorem recibirDatagram_eq_ok_iff {buffer : List Char} :
    recibirDatagram pila r = .ok buffer
      ↔ ∃ datagrama, r = .datagrama datagrama ∧ datagrama.length ≤ 63
          ∧ buffer = pila.contenido datagrama := by
  rw [recibirDatagram, accede, check_bind_eq_ok_iff]
  cases r with
  | error => simp [Recepcion.leidos, Acceso.Dentro]
  | datagrama bytes =>
      simp only [Acceso.Dentro, Recepcion.leidos, Recepcion.guardar, Recepcion.datagrama.injEq, exists_eq_left']
      constructor
      · rintro ⟨⟨-, hlt⟩, h⟩
        have hcabe : bytes.length < 64 := by omega
        obtain ⟨leida, hleida, hbytes⟩ := pila.recibir_eq hcabe
        refine ⟨by omega, ?_⟩
        have htake : bytes.take 64 = bytes := List.take_of_length_le hcabe.le
        have hmin : (min (bytes.length : ℤ) 64).toNat = bytes.length := by omega
        rw [htake, hmin] at h
        rw [Pila.recibir, dif_pos hcabe, Option.some.injEq] at hleida
        rw [← hleida] at hbytes
        exact (Except.ok.inj h).symm.trans hbytes
      · rintro ⟨hcabe, rfl⟩
        have hlt : bytes.length < 64 := by omega
        obtain ⟨leida, hleida, hbytes⟩ := pila.recibir_eq hlt
        refine ⟨by omega, ?_⟩
        have htake : bytes.take 64 = bytes := List.take_of_length_le hlt.le
        have hmin : (min (bytes.length : ℤ) 64).toNat = bytes.length := by omega
        rw [Pila.recibir, dif_pos hlt, Option.some.injEq] at hleida
        rw [← hleida] at hbytes
        rw [htake, hmin]
        exact congrArg Except.ok hbytes

/-- A byte of the array. -/
theorem byteEn_contenido (pila : Pila) {datagrama : Texto} (h : datagrama.length ≤ 63) {i : ℕ}
    (hi : i < 64) :
    ∃ c, (pila.contenido datagrama)[i]? = some c ∧ byteEn (pila.contenido datagrama) i = .ok c := by
  have hlt : i < (pila.contenido datagrama).length := by
    rw [pila.length_contenido h]
    exact hi
  have hget := List.getElem?_eq_getElem hlt
  refine ⟨_, hget, ?_⟩
  rw [byteEn, hget]
  rfl

end Recibir

/-! ## The cuts of the text -/

/-- A position one before one of the text's, in `int`. -/
theorem strpos_eq {p : ℕ} (h : p < 64) : aInt (aSizeT ((p : ℤ) - 1)) = (p : ℤ) - 1 := by
  unfold aInt aSizeT
  rw [Int.bmod_def]
  split_ifs <;> omega

/-- **The cuts are always inside the text**, and cut as [`partirRegistro`] says. -/
theorem partirEn_eq {ip : Texto} (h : ip.length < 64) : partirEn ip = .ok (partirRegistro ip) := by
  have hcut : ∀ inicio largo, inicio ≤ ip.length →
      substr ip inicio largo = .ok ((ip.drop inicio).take largo) := by
    intro inicio largo hle
    rw [substr, bind_eq_ok_iff]
    exact ⟨(), check_eq_ok_iff.mpr hle, rfl⟩
  have hnpos : ∀ texto : Texto, texto.length < 64 → texto.take npos = texto := by
    intro texto ht
    exact List.take_of_length_le (by unfold npos; omega)
  unfold partirEn partirRegistro findDesde
  rw [List.drop_zero]
  cases hfind : find ['/'] ip with
  | none =>
      -- `npos - 1` is `-2` in an `int`
      have hstr : aInt (aSizeT ((npos : ℤ) - 1)) = -2 := by decide
      have hzero : aSizeT (-2 + 2) = 0 := by decide
      have hall : aSizeT (-2 + 1) = npos := by decide
      dsimp only
      rw [hstr, hzero, hall, hcut 0 npos (Nat.zero_le _)]
      simp only [List.drop_zero, hnpos ip h]
      rfl
  | some p =>
      obtain ⟨hp, hpre, -⟩ := (find_eq_some_iff _ _ _).mp hfind
      have hroom := hpre.length_le
      rw [List.length_drop, List.length_singleton] at hroom
      have hstr : aInt (aSizeT (((0 + p : ℕ) : ℤ) - 1)) = (p : ℤ) - 1 := by
        rw [Nat.zero_add]
        exact strpos_eq (by omega)
      have htake : aSizeT ((p : ℤ) - 1 + 1) = p := by
        rw [sub_add_cancel]
        exact aSizeT_natCast (by omega)
      have hdrop : aSizeT ((p : ℤ) - 1 + 2) = p + 1 := by
        have : (p : ℤ) - 1 + 2 = ((p + 1 : ℕ) : ℤ) := by omega
        rw [this]
        exact aSizeT_natCast (by omega)
      dsimp only
      rw [hstr, htake, hdrop, hcut 0 p (Nat.zero_le _), hcut (p + 1) npos (by omega), List.drop_zero]
      have hrest : (ip.drop (p + 1)).take npos = ip.drop (p + 1) :=
        hnpos _ (by rw [List.length_drop]; omega)
      rw [hrest]
      rfl

/-! ## The result -/

section Resultado

variable {pila : Pila} {r : Recepcion} {b : Balanceador} {azar : ℕ} {memoria : List Char}
  {buffer : List Char} {o : Option Balanceador}

/-- The accesses of `agregarServidor`: an end of the text, and room for the address of a server
that is new. -/
theorem agregarServidorEn_eq_ok_iff (h : buffer.length = 64) :
    agregarServidorEn buffer azar memoria b = .ok o
      ↔ (NUL ∈ buffer.drop 4 ∧ (c_str (buffer.drop 4) ∉ b.servidores.map (·.comparador) →
            (partirRegistro (c_str (buffer.drop 4))).1.length ≤ 32))
          ∧ agregarServidor b (c_str (buffer.drop 4)) azar memoria = o := by
  have hlen := (c_str_isPrefix (buffer.drop 4)).length_le
  rw [List.length_drop, h] at hlen
  have hpartir : partirEn (c_str (buffer.drop 4)) = .ok (partirRegistro (c_str (buffer.drop 4))) :=
    partirEn_eq (by omega)
  rw [← buscarServidor_isSome_iff, Bool.not_eq_true, Option.isSome_eq_false_iff, Option.isNone_iff_eq_none]
  unfold agregarServidorEn cadenaEn accede
  simp only [bind_assoc, pure_bind, check_bind_eq_ok_iff, hpartir]
  rw [and_assoc]
  refine and_congr Iff.rfl ?_
  show (if _ then _ else _) = _ ↔ _
  split_ifs with hnuevo
  · rw [check_bind_eq_ok_iff, check_bind_eq_ok_iff]
    simp only [hnuevo, forall_const, Acceso.Dentro]
    refine and_congr Iff.rfl ⟨fun h => Except.ok.inj h.2, fun h => ⟨by omega, congrArg _ h⟩⟩
  · simp only [hnuevo, false_implies, true_and]
    exact ⟨fun h => Except.ok.inj h, fun h => congrArg _ h⟩

/-- Those of `eliminarServidor`: only the end of the text. -/
theorem eliminarServidorEn_eq_ok_iff (h : buffer.length = 64) :
    eliminarServidorEn buffer b = .ok o
      ↔ NUL ∈ buffer.drop 4 ∧ some (eliminarServidor b (c_str (buffer.drop 4))) = o := by
  have hlen := (c_str_isPrefix (buffer.drop 4)).length_le
  rw [List.length_drop, h] at hlen
  have hpartir : partirEn (c_str (buffer.drop 4)) = .ok (partirRegistro (c_str (buffer.drop 4))) :=
    partirEn_eq (by omega)
  unfold eliminarServidorEn cadenaEn accede
  simp only [bind_assoc, pure_bind, check_bind_eq_ok_iff, hpartir]
  exact and_congr Iff.rfl ⟨fun h => Except.ok.inj h, fun h => congrArg _ h⟩

/-- The listener's array when it tests it: if it holds the order of a web server, the text has an
end, and the address of a server that is new has at most 32 bytes. -/
def TextoCabe (pila : Pila) (datagrama : Texto) (b : Balanceador) : Prop :=
  datagrama ≠ [] → (pila.contenido datagrama)[0]? = some 'S' →
    ∀ orden, EsOrden orden → (pila.contenido datagrama)[2]? = some orden →
      NUL ∈ (pila.contenido datagrama).drop 4
        ∧ (orden = 'C' →
            c_str ((pila.contenido datagrama).drop 4) ∉ b.servidores.map (·.comparador) →
            (partirRegistro (c_str ((pila.contenido datagrama).drop 4))).1.length ≤ 32)

/-- The treatment of the array, in the words of `Escucha.lean`. -/
theorem escuchar_eq {datagrama : Texto} (hcabe : datagrama.length ≤ 63) {emisor orden : Char}
    (h0 : (pila.contenido datagrama)[0]? = some emisor)
    (h2 : (pila.contenido datagrama)[2]? = some orden) :
    escuchar pila datagrama azar memoria b
      = if 0 < datagrama.length ∧ emisor = 'S' then
          if orden = 'C' then
            (leerCadena ((pila.contenido datagrama).drop 4)).bind fun ip =>
              agregarServidor b ip azar memoria
          else if orden = 'D' then
            (leerCadena ((pila.contenido datagrama).drop 4)).map fun ip => eliminarServidor b ip
          else some b
        else some b := by
  obtain ⟨leida, hleida, hbytes⟩ := pila.recibir_eq (Nat.lt_succ_of_le hcabe)
  have hcontenido : leida.bytes = pila.contenido datagrama := hbytes
  rw [escuchar, hilo_Escuchador_Servidores, hleida, Option.bind_some]
  simp only [Pila.es, Pila.hilera, hcontenido, h0, h2, Option.some.injEq, Bool.and_eq_true,
    decide_eq_true_eq]
  by_cases hS : 0 < datagrama.length ∧ emisor = 'S'
  · simp only [hS.1, hS.2, true_and, and_self, if_true]
    by_cases hC : orden = 'C'
    · rw [if_pos hC, if_pos hC]
      cases leerCadena ((pila.contenido datagrama).drop 4) <;> rfl
    · rw [if_neg hC, if_neg hC]
      by_cases hD : orden = 'D'
      · rw [if_pos hD, if_pos hD]
        cases leerCadena ((pila.contenido datagrama).drop 4) <;> rfl
      · rw [if_neg hD, if_neg hD]
        rfl
  · rw [if_neg hS, if_neg fun h => hS ⟨h.1, h.2.1⟩, if_neg fun h => hS ⟨h.1, h.2.1⟩]
    rfl

theorem textoCabe_iff {datagrama : Texto} {emisor orden : Char}
    (h0 : (pila.contenido datagrama)[0]? = some emisor)
    (h2 : (pila.contenido datagrama)[2]? = some orden) :
    TextoCabe pila datagrama b
      ↔ (0 < datagrama.length → emisor = 'S' → EsOrden orden →
          NUL ∈ (pila.contenido datagrama).drop 4 ∧ (orden = 'C' →
            c_str ((pila.contenido datagrama).drop 4) ∉ b.servidores.map (·.comparador) →
            (partirRegistro (c_str ((pila.contenido datagrama).drop 4))).1.length ≤ 32)) := by
  unfold TextoCabe
  simp only [h0, h2, Option.some.injEq, List.length_pos_iff]
  constructor
  · exact fun h hne hS ho => h hne hS orden ho rfl
  · rintro h hne hS orden' ho rfl
    exact h hne hS ho

/-- **The accesses of the listener to its array.** -/
theorem tratarDatagram_eq_ok_iff {datagrama : Texto} (hcabe : datagrama.length ≤ 63) :
    tratarDatagram (pila.contenido datagrama) (Recepcion.datagrama datagrama).leidos azar memoria b
        = .ok o
      ↔ TextoCabe pila datagrama b ∧ escuchar pila datagrama azar memoria b = o := by
  obtain ⟨emisor, hemisor, hbyte0⟩ := byteEn_contenido pila hcabe (i := 0) (by decide)
  obtain ⟨orden, horden, hbyte2⟩ := byteEn_contenido pila hcabe (i := 2) (by decide)
  have hlargo := pila.length_contenido hcabe
  have hleidos : 0 < (Recepcion.datagrama datagrama).leidos ↔ 0 < datagrama.length := by
    show (0 : ℤ) < min (datagrama.length : ℤ) 64 ↔ _
    omega
  rw [escuchar_eq hcabe hemisor horden, textoCabe_iff hemisor horden, tratarDatagram,
    bind_eq_ok_iff]
  simp only [hbyte0, Except.ok.injEq, exists_eq_left', hleidos]
  by_cases hS : 0 < datagrama.length ∧ emisor = 'S'
  · rw [if_pos hS, if_pos hS, bind_eq_ok_iff]
    simp only [hbyte2, Except.ok.injEq, exists_eq_left', hS.1, hS.2, forall_const]
    by_cases hC : orden = 'C'
    · rw [if_pos hC, if_pos hC, agregarServidorEn_eq_ok_iff hlargo]
      simp only [EsOrden, hC, true_or, forall_const]
      refine and_congr_right fun hcadena => ?_
      rw [leerCadena_of_mem hcadena.1, Option.bind_some]
    · rw [if_neg hC, if_neg hC]
      by_cases hD : orden = 'D'
      · rw [if_pos hD, if_pos hD, eliminarServidorEn_eq_ok_iff hlargo]
        have hDC : ¬ ('D' : Char) = 'C' := by decide
        simp only [EsOrden, hD, or_true, forall_const, hDC, false_implies, and_true]
        refine and_congr_right fun hcadena => ?_
        rw [leerCadena_of_mem hcadena, Option.map_some]
      · rw [if_neg hD, if_neg hD]
        simp only [EsOrden, hC, hD, or_self, false_implies, true_and]
        exact ⟨Except.ok.inj, congrArg _⟩
  · rw [if_neg hS, if_neg hS]
    have hvacio : (0 < datagrama.length → emisor = 'S' → EsOrden orden →
        NUL ∈ (pila.contenido datagrama).drop 4 ∧ (orden = 'C' →
          c_str ((pila.contenido datagrama).drop 4) ∉ b.servidores.map (·.comparador) →
          (partirRegistro (c_str ((pila.contenido datagrama).drop 4))).1.length ≤ 32)) :=
      fun hpos hemi => absurd ⟨hpos, hemi⟩ hS
    exact ⟨fun h => ⟨hvacio, Except.ok.inj h⟩, fun h => congrArg _ h.2⟩

/-- **The accesses of the listener**, and that what it computes with them is [`escuchar`]. -/
theorem hilo_Escuchador_ServidoresEn_eq_ok_iff :
    hilo_Escuchador_ServidoresEn pila r azar memoria b = .ok o
      ↔ ∃ datagrama, r = .datagrama datagrama ∧ datagrama.length ≤ 63
          ∧ TextoCabe pila datagrama b ∧ escuchar pila datagrama azar memoria b = o := by
  rw [hilo_Escuchador_ServidoresEn, bind_eq_ok_iff]
  simp only [recibirDatagram_eq_ok_iff]
  constructor
  · rintro ⟨buffer, ⟨datagrama, rfl, hcabe, rfl⟩, h⟩
    exact ⟨datagrama, rfl, hcabe, (tratarDatagram_eq_ok_iff hcabe).mp h⟩
  · rintro ⟨datagrama, rfl, hcabe, h⟩
    exact ⟨_, ⟨datagrama, rfl, hcabe, rfl⟩, (tratarDatagram_eq_ok_iff hcabe).mpr h⟩

/-- Those of a receive loop of the web server: only the terminator can be outside. -/
theorem safe_recepcionServidor_iff (orden : Char) : Safe (recepcionServidor orden pila r) ↔ r.Cabe := by
  rw [recepcionServidor, safe_bind_iff]
  simp only [recibirDatagram_eq_ok_iff]
  constructor
  · rintro ⟨buffer, ⟨datagrama, rfl, hcabe, -⟩, -⟩
    exact hcabe
  · intro hcabe
    cases r with
    | error => exact hcabe.elim
    | datagrama datagrama =>
        obtain ⟨emisor, -, hbyte0⟩ := byteEn_contenido pila hcabe (i := 0) (by decide)
        obtain ⟨leida, -, hbyte2⟩ := byteEn_contenido pila hcabe (i := 2) (by decide)
        refine ⟨_, ⟨datagrama, rfl, hcabe, rfl⟩, ?_⟩
        rw [hbyte0, hbyte2]
        by_cases hB : emisor = 'B'
        · exact ⟨decide (leida = orden), if_pos hB⟩
        · exact ⟨false, if_neg hB⟩

end Resultado

/-- The accesses of the code that handles what a receive call answered, in the balancer and in the
two loops of the web server. -/
def AccesosDentro (pila : Pila) (r : Recepcion) (azar : ℕ) (memoria : List Char) (b : Balanceador) :
    Prop :=
  Safe (hilo_Escuchador_ServidoresEn pila r azar memoria b)
    ∧ Safe (WebServidor.esperarApertura pila r) ∧ Safe (WebServidor.esperarCierre pila r)

/-- **The code stays inside its arrays exactly when** the call received at most 63 bytes and, if the
balancer takes them for an order, its text has an end and the address of a new server at most 32
bytes. For every datagram and for a failed call, every previous contents of the array and every
table. The terminator is written at the position that the call returned, and the address is copied
with its own length. -/
theorem accesos_dentro_iff (pila : Pila) (r : Recepcion) (azar : ℕ) (memoria : List Char)
    (b : Balanceador) :
    AccesosDentro pila r azar memoria b
      ↔ ∃ datagrama, r = .datagrama datagrama ∧ datagrama.length ≤ 63
          ∧ TextoCabe pila datagrama b := by
  unfold AccesosDentro WebServidor.esperarApertura WebServidor.esperarCierre
  rw [safe_recepcionServidor_iff, safe_recepcionServidor_iff]
  simp only [Safe, hilo_Escuchador_ServidoresEn_eq_ok_iff]
  constructor
  · rintro ⟨⟨o, datagrama, hr, hcabe, htexto, -⟩, -⟩
    exact ⟨datagrama, hr, hcabe, htexto⟩
  · rintro ⟨datagrama, rfl, hcabe, htexto⟩
    exact ⟨⟨_, datagrama, rfl, hcabe, htexto, rfl⟩, hcabe, hcabe⟩

/-- From four bytes on the text always has an end: the terminator of the datagram itself. -/
theorem nul_mem_contenido (pila : Pila) {datagrama : Texto} (h : 4 ≤ datagrama.length) :
    NUL ∈ (pila.contenido datagrama).drop 4 := by
  rw [Pila.contenido, List.drop_append_of_le_length h]
  exact List.mem_append_right _ List.mem_cons_self

/-- **A datagram that fills the array**: the terminator is written behind it. -/
theorem terminador_fuera :
    ¬ ∀ (pila : Pila) (r : Recepcion) (azar : ℕ) (memoria : List Char) (b : Balanceador),
      AccesosDentro pila r azar memoria b := by
  intro hall
  obtain ⟨-, hapertura, -⟩ :=
    hall .ceros (.datagrama (List.replicate 64 'x')) 0 [] Estado.inicial.balanceador
  rw [WebServidor.esperarApertura, safe_recepcionServidor_iff] at hapertura
  have hcabe : (List.replicate 64 'x').length ≤ 63 := hapertura
  exact absurd hcabe (by decide)

end LoadBalancer
