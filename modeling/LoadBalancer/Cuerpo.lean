/-
`recuperarBody`, and the loop of `ejecutarServidor` that sends what it brings.

For status 200 the body is the file, a block at a time. Progress is kept twice: in the
loop's `posicionBuffer`, which counts what was read, and in the reader's `bytesFaltantes`,
from which every call takes a whole block, so that it falls below zero at the end. The two
agree as long as every block but the last is full ([`leerArchivo_eq`]), and so the pieces
that are sent are the file, and as many bytes as the header block announced
([`cuerpo_exacto`]).

The contents of the files are a parameter, by the path they were opened with.
-/
import LoadBalancer.Respuesta
import LoadBalancer.Solicitud

set_option autoImplicit false

namespace LoadBalancer

open LoadBalancer.Loop

/-! ## `leerArchivo` -/

namespace FileSystem

/-- `leerArchivo`: `none` inside is the `-1` of `read`. The difference is an `int`, and what is
read has to fit in the `len` characters of the caller's array. -/
def leerArchivo (contenido : Texto → Texto) (posicion len : ℕ) (fs : FileSystem) :
    Option (FileSystem × Option Texto) :=
  let bytesFaltantes := fs.bytesFaltantes - len
  if bytesFaltantes < INT32_MIN then none
  else
    let bytesPorLeer := if bytesFaltantes > 0 then (len : ℤ) else aInt (fs.tamanoArchivo - posicion)
    let fs := { fs with bytesFaltantes := bytesFaltantes }
    match fs.fichero with
    | none => some (fs, none)
    | some fichero =>
        let leidos := ((contenido fichero.ruta).drop posicion).take (aSizeT bytesPorLeer)
        if leidos.length ≤ len then some (fs, some leidos) else none

/-- The reader with `bytes` still missing. -/
def faltando (fs : FileSystem) (bytes : ℤ) : FileSystem := { fs with bytesFaltantes := bytes }

/-- **A block of the file**: with both counters after `m` bytes, the next `len` bytes are read,
or what is left of them. -/
theorem leerArchivo_eq {contenido : Texto → Texto} {fs : FileSystem} {fichero : Fichero}
    {n m len : ℕ} (hfichero : fs.fichero = some fichero)
    (hn : (contenido fichero.ruta).length = n) (hlt : n < 2147483648)
    (hlen : len < 2147483648) (htam : fs.tamanoArchivo = n)
    (hok : INT32_MIN ≤ (n : ℤ) - (m + len : ℕ)) :
    leerArchivo contenido (min m n) len (fs.faltando ((n : ℤ) - m))
      = some (fs.faltando ((n : ℤ) - (m + len : ℕ)),
          some (((contenido fichero.ruta).drop m).take len)) := by
  have hresta : (n : ℤ) - m - len = (n : ℤ) - (m + len : ℕ) := by
    push_cast
    omega
  have hdrop : (contenido fichero.ruta).drop (min m n) = (contenido fichero.ruta).drop m := by
    rcases Nat.le_total m n with h | h
    · rw [Nat.min_eq_left h]
    · rw [Nat.min_eq_right h, List.drop_of_length_le hn.le, List.drop_of_length_le (hn.trans_le h)]
  -- the last block is shorter than `len`, and asking for more brings the same
  have hbloque : ((contenido fichero.ruta).drop m).take
      (aSizeT (if (n : ℤ) - (m + len : ℕ) > 0 then (len : ℤ)
        else aInt ((n : ℤ) - (min m n : ℕ))))
      = ((contenido fichero.ruta).drop m).take len := by
    split
    · rw [aSizeT_natCast (by omega)]
    · have hint : (n : ℤ) - (min m n : ℕ) < 2147483648 := by
        have := hlt
        omega
      rw [aInt_of_lt (by omega) hint, ← Int.ofNat_sub (Nat.min_le_right m n),
        aSizeT_natCast (by omega)]
      have hresto : ((contenido fichero.ruta).drop m).length ≤ n - min m n := by
        rw [List.length_drop, hn]
        omega
      rw [List.take_of_length_le hresto, List.take_of_length_le (by omega)]
  unfold leerArchivo faltando
  dsimp only
  rw [hresta, if_neg (not_lt.mpr hok), hfichero, htam]
  dsimp only
  rw [hdrop, hbloque, if_pos (List.length_take_le _ _)]

/-- After `INT32_MIN` the counter has no defined value. -/
theorem leerArchivo_eq_none (contenido : Texto → Texto) (posicion : ℕ) {fs : FileSystem} {len : ℕ}
    (h : fs.bytesFaltantes - len < INT32_MIN) : leerArchivo contenido posicion len fs = none :=
  if_pos h

/-- **When the first read brings nothing**: the file is empty, or its size becomes `0` in an
`int`. The counter has to stay in the range of `int`. -/
theorem leerArchivo_vacio_iff (contenido : Texto → Texto) {fs : FileSystem} {fichero : Fichero}
    (hfichero : fs.fichero = some fichero) (hfaltan : fs.bytesFaltantes = aInt fs.tamanoArchivo) :
    (∃ fs', fs.leerArchivo contenido 0 BUFFER_SIZE = some (fs', some []))
      ↔ INT32_MIN + BUFFER_SIZE ≤ aInt fs.tamanoArchivo
        ∧ (contenido fichero.ruta = [] ∨ aInt fs.tamanoArchivo = 0) := by
  have hbuf : (BUFFER_SIZE : ℤ) = 4096 := rfl
  have hmin : INT32_MIN = -2147483648 := rfl
  obtain ⟨hbajo, halto⟩ : -2147483648 ≤ aInt fs.tamanoArchivo
      ∧ aInt fs.tamanoArchivo < 2147483648 := ⟨Int.le_bmod (by decide), Int.bmod_lt (by decide)⟩
  unfold leerArchivo
  dsimp only
  rw [hfaltan, hfichero, Int.natCast_zero, Int.sub_zero]
  dsimp only
  generalize aInt fs.tamanoArchivo = tamano at *
  by_cases hok : tamano - (BUFFER_SIZE : ℤ) < INT32_MIN
  · rw [if_pos hok]
    constructor
    · rintro ⟨fs', h⟩
      cases h
    · rintro ⟨h, -⟩
      omega
  rw [if_neg hok, List.drop_zero]
  -- the number of bytes asked for is `0` only for a size of `0`
  have hcero : aSizeT (if tamano - (BUFFER_SIZE : ℤ) > 0 then (BUFFER_SIZE : ℤ) else tamano) = 0
      ↔ tamano = 0 := by
    unfold aSizeT
    split <;> omega
  generalize aSizeT (if tamano - (BUFFER_SIZE : ℤ) > 0 then (BUFFER_SIZE : ℤ) else tamano) = pedidos
    at hcero ⊢
  have hvacio : (contenido fichero.ruta).take pedidos = []
      ↔ contenido fichero.ruta = [] ∨ tamano = 0 := by
    rw [List.take_eq_nil_iff, hcero, or_comm]
  constructor
  · rintro ⟨fs', h⟩
    split at h
    · exact ⟨by omega, hvacio.mp (Option.some.inj (Prod.mk.inj (Option.some.inj h)).2)⟩
    · cases h
  · rintro ⟨-, h⟩
    rw [hvacio.mpr h]
    exact ⟨_, rfl⟩

end FileSystem

/-! ## `recuperarBody` -/

namespace InterpreteHTTP

/-- `bodyErrorParte1`. -/
def bodyErrorParte1 : Texto :=
  "<html>\n\t<head>\n\t\t<title></title>\n\t\t<meta content=\"\">\n\t\t<style></style>\n\t</head>\n\t<body>".toList

/-- `bodyErrorParte2`. -/
def bodyErrorParte2 : Texto := "</body>\n</html>\r\n".toList

/-- The body of an answer that is not a file. -/
def cuerpoError (codigo : ℤ) : Texto :=
  bodyErrorParte1 ++ "\tError Processing Request: ".toList ++ recuperarEstado codigo
    ++ bodyErrorParte2

/-- `recuperarBody`: what it puts into the array and returns the length of; `none` inside is `-1`.
`snprintf` returns the length of the whole text, so a longer one would be sent past the array. -/
def recuperarBody (contenido : Texto → Texto) (pos buffersize : ℕ) (i : InterpreteHTTP) :
    Option (InterpreteHTTP × Option Texto) :=
  if i.respuesta_estadoCodigo = STATUS_OK_200 then
    if i.enviarSoloHeaders then some (i, some [])
    else
      (i.fs.leerArchivo contenido pos buffersize).map fun (fs, leidos) =>
        ({ i with fs := fs }, leidos)
  else if i.errorOcurrido = false then
    let respuesta := c_str (cuerpoError i.respuesta_estadoCodigo)
    if respuesta.length < buffersize then
      some ({ i with errorOcurrido := true }, some respuesta)
    else none
  else some (i, some [])

theorem recuperarBody_servido {i : InterpreteHTTP} (contenido : Texto → Texto) (pos len : ℕ)
    (hest : i.respuesta_estadoCodigo = STATUS_OK_200) (hsolo : i.enviarSoloHeaders = false) :
    i.recuperarBody contenido pos len
      = (i.fs.leerArchivo contenido pos len).map fun p => ({ i with fs := p.1 }, p.2) := by
  rw [recuperarBody, if_pos hest, if_neg (by rw [hsolo]; decide)]

theorem length_toList_ofList (cs : List Char) : (String.ofList cs).toList.length = cs.length := by
  rw [String.toList_ofList]

/-- The text of an error fits in the array, and there is one. -/
theorem c_str_cuerpoError_length (codigo : ℤ) :
    0 < (c_str (cuerpoError codigo)).length
      ∧ (c_str (cuerpoError codigo)).length < BUFFER_SIZE := by
  have hestado : (recuperarEstado codigo).length ≤ 26 := by
    unfold recuperarEstado
    split_ifs <;> decide
  have hbuf : BUFFER_SIZE = 4096 := rfl
  have hparte1 : bodyErrorParte1.length ≤ 100 :=
    (length_toList_ofList _).trans_le (by decide)
  have hparte2 : bodyErrorParte2.length ≤ 30 := (length_toList_ofList _).trans_le (by decide)
  have hmedio : "\tError Processing Request: ".toList.length ≤ 30 :=
    (length_toList_ofList _).trans_le (by decide)
  have hle := (c_str_isPrefix (cuerpoError codigo)).length_le
  have hsuma : (cuerpoError codigo).length = bodyErrorParte1.length
      + "\tError Processing Request: ".toList.length + (recuperarEstado codigo).length
      + bodyErrorParte2.length := by
    rw [cuerpoError, List.length_append, List.length_append, List.length_append]
  refine ⟨?_, by omega⟩
  have hcabeza : (c_str (cuerpoError codigo)).head? = some '<' := rfl
  exact List.length_pos_iff.mpr fun hnil => by
    rw [hnil] at hcabeza
    cases hcabeza

/-- The first call for an error brings its text, and the calls after it nothing. -/
theorem recuperarBody_error {i : InterpreteHTTP} (contenido : Texto → Texto) (pos : ℕ)
    (hest : i.respuesta_estadoCodigo ≠ STATUS_OK_200) :
    i.recuperarBody contenido pos BUFFER_SIZE
      = some ({ i with errorOcurrido := true },
          some (if i.errorOcurrido then [] else c_str (cuerpoError i.respuesta_estadoCodigo))) := by
  have hlargo := (c_str_cuerpoError_length i.respuesta_estadoCodigo).2
  unfold recuperarBody
  rw [if_neg hest]
  cases herr : i.errorOcurrido with
  | false => rw [if_pos rfl, if_pos hlargo, if_neg (by decide)]
  | true =>
      rw [if_neg (by decide), if_pos rfl, ← herr]

/-! ## The loop -/

/-- The variables of the loop that sends the body, and what it has sent. -/
structure Envio where
  httpman : InterpreteHTTP
  posicionBuffer : ℕ
  enviado : Texto

/-- A turn of the loop. `posicionBuffer` is an `int`. -/
def enviarCuerpo (contenido : Texto → Texto) (e : Envio) (_ : Unit) : Option (Envio × Bool) :=
  match e.httpman.recuperarBody contenido e.posicionBuffer BUFFER_SIZE with
  | none => none
  | some (httpman, none) => some ({ e with httpman := httpman }, true)
  | some (httpman, some leidos) =>
      if 0 < leidos.length then
        if INT32_MAX < e.posicionBuffer + leidos.length then none
        else
          some (⟨httpman, e.posicionBuffer + leidos.length, e.enviado ++ leidos⟩, false)
      else some ({ e with httpman := httpman }, true)

/-- The loop before its first turn. -/
def Envio.inicio (i : InterpreteHTTP) : Envio := ⟨i, 0, []⟩

/-- An answer whose body is the file `fichero`, of `n` bytes. -/
structure SirveFichero (contenido : Texto → Texto) (i : InterpreteHTTP) (fichero : Fichero)
    (n : ℕ) : Prop where
  estado : i.respuesta_estadoCodigo = STATUS_OK_200
  conCuerpo : i.enviarSoloHeaders = false
  abierto : i.fs.fichero = some fichero
  largo : (contenido fichero.ruta).length = n
  tamano : i.fs.tamanoArchivo = n
  faltan : i.fs.bytesFaltantes = n
  cabe : n < 2147483648

/-- The interpreter with `bytes` still missing. -/
def faltando (i : InterpreteHTTP) (bytes : ℤ) : InterpreteHTTP :=
  { i with fs := i.fs.faltando bytes }

/-- The loop before turn `k`. -/
def Envio.antes (i : InterpreteHTTP) (fichero : Texto) (k : ℕ) : Envio where
  httpman := i.faltando ((fichero.length : ℤ) - (BUFFER_SIZE * k : ℕ))
  posicionBuffer := min (BUFFER_SIZE * k) fichero.length
  enviado := fichero.take (BUFFER_SIZE * k)

/-- **A turn of the loop**: it sends the next block, and stops behind the end of the file. -/
theorem enviarCuerpo_antes {contenido : Texto → Texto} {i : InterpreteHTTP} {fichero : Fichero}
    {n : ℕ} (h : SirveFichero contenido i fichero n) (k : ℕ)
    (hok : INT32_MIN ≤ (n : ℤ) - (BUFFER_SIZE * (k + 1) : ℕ)) :
    enviarCuerpo contenido (.antes i (contenido fichero.ruta) k) ()
      = some (.antes i (contenido fichero.ruta) (k + 1), decide (n ≤ BUFFER_SIZE * k)) := by
  have hn := h.largo
  have hlt := h.cabe
  have hbuf : BUFFER_SIZE = 4096 := rfl
  have hsucc : BUFFER_SIZE * (k + 1) = BUFFER_SIZE * k + BUFFER_SIZE := Nat.mul_succ _ _
  rw [hsucc] at hok
  have hleer := FileSystem.leerArchivo_eq h.abierto hn hlt (show BUFFER_SIZE < 2147483648 by omega)
    h.tamano hok
  generalize hm : BUFFER_SIZE * k = m at *
  have hbody : recuperarBody contenido (min m n) BUFFER_SIZE (i.faltando ((n : ℤ) - m))
      = some (i.faltando ((n : ℤ) - (m + BUFFER_SIZE : ℕ)),
          some (((contenido fichero.ruta).drop m).take BUFFER_SIZE)) := by
    rw [recuperarBody_servido (i := i.faltando ((n : ℤ) - m)) _ _ _ h.estado h.conCuerpo]
    exact congrArg _ hleer
  have hlargo : (((contenido fichero.ruta).drop m).take BUFFER_SIZE).length
      = min BUFFER_SIZE (n - m) := by
    rw [List.length_take, List.length_drop, hn]
  have hantes (k : ℕ) : Envio.antes i (contenido fichero.ruta) k
      = ⟨i.faltando ((n : ℤ) - (BUFFER_SIZE * k : ℕ)),
          min (BUFFER_SIZE * k) n, (contenido fichero.ruta).take (BUFFER_SIZE * k)⟩ := by
    rw [Envio.antes, hn]
  rw [enviarCuerpo, hantes, hantes, hsucc, hm]
  dsimp only
  rw [hbody]
  dsimp only
  rw [hlargo]
  have hmax : INT32_MAX = 2147483647 := rfl
  by_cases hfin : n ≤ m
  · -- nothing was left, and nothing is sent
    have hpos : min (m + BUFFER_SIZE) n = min m n := by omega
    have htodo : (contenido fichero.ruta).take (m + BUFFER_SIZE) = (contenido fichero.ruta).take m := by
      rw [List.take_of_length_le (hn.trans_le hfin), List.take_of_length_le (by omega)]
    rw [if_neg (by omega), decide_eq_true hfin, hpos, htodo]
  · have hpos : min m n + min BUFFER_SIZE (n - m) = min (m + BUFFER_SIZE) n := by omega
    rw [if_pos (by omega), if_neg (by omega), decide_eq_false hfin, hpos, List.take_add]

/-- The counter falls below the range of `int` when the loop goes on for too long. -/
theorem enviarCuerpo_antes_none {contenido : Texto → Texto} {i : InterpreteHTTP}
    {fichero : Fichero} {n : ℕ} (h : SirveFichero contenido i fichero n) (k : ℕ)
    (hok : ¬ INT32_MIN ≤ (n : ℤ) - (BUFFER_SIZE * (k + 1) : ℕ)) :
    enviarCuerpo contenido (.antes i (contenido fichero.ruta) k) () = none := by
  have hmenos : (n : ℤ) - (BUFFER_SIZE * k : ℕ) - BUFFER_SIZE < INT32_MIN := by
    rw [Nat.mul_succ] at hok
    omega
  rw [← h.largo] at hmenos
  have hfaltan : (Envio.antes i (contenido fichero.ruta) k).httpman.fs.bytesFaltantes - BUFFER_SIZE
      < INT32_MIN := hmenos
  have hleer := FileSystem.leerArchivo_eq_none contenido
    (min (BUFFER_SIZE * k) (contenido fichero.ruta).length) hfaltan
  have hbody : recuperarBody contenido (min (BUFFER_SIZE * k) (contenido fichero.ruta).length)
      BUFFER_SIZE (Envio.antes i (contenido fichero.ruta) k).httpman = none := by
    rw [recuperarBody_servido (i := (Envio.antes i _ k).httpman) _ _ _ h.estado h.conCuerpo]
    exact congrArg _ hleer
  unfold enviarCuerpo
  dsimp only [Envio.antes] at hbody ⊢
  rw [hbody]

/-- The turns of the loop. -/
theorem enviarCuerpo_trace {contenido : Texto → Texto} {i : InterpreteHTTP} {fichero : Fichero}
    {n : ℕ} (h : SirveFichero contenido i fichero n) :
    Trace (enviarCuerpo contenido) (.inicio i) (fun _ => ())
      (.antes i (contenido fichero.ruta))
      (fun k => INT32_MIN ≤ (n : ℤ) - (BUFFER_SIZE * (k + 1) : ℕ))
      (fun k => n ≤ BUFFER_SIZE * k) where
  start := by
    have hfaltan : ((contenido fichero.ruta).length : ℤ) - (BUFFER_SIZE * 0 : ℕ)
        = i.fs.bytesFaltantes := by
      rw [h.largo, h.faltan, Nat.mul_zero]
      omega
    rw [Envio.antes, hfaltan, Nat.mul_zero, Nat.zero_min, List.take_zero, Envio.inicio]
    rfl
  turn_stop k hok hstop := by
    rw [enviarCuerpo_antes h k hok, decide_eq_true hstop]
  turn_goes_on k hok hstop := by
    rw [enviarCuerpo_antes h k hok, decide_eq_false hstop]
  turn_undefined k hok := enviarCuerpo_antes_none h k hok

/-- **The loop sends the file** and stops. -/
theorem enviarCuerpo_fichero {contenido : Texto → Texto} {i : InterpreteHTTP} {fichero : Fichero}
    {n : ℕ} (h : SirveFichero contenido i fichero n) :
    ∃ vueltas e, StopsAfter (enviarCuerpo contenido) (.inicio i) (fun _ => ()) vueltas e
      ∧ e.enviado = contenido fichero.ruta := by
  have hcabe := h.cabe
  have hbuf : BUFFER_SIZE = 4096 := rfl
  have hmin : INT32_MIN = -2147483648 := rfl
  -- the first turn that finds nothing left
  obtain ⟨k, hk⟩ : ∃ k, k = (n + 4095) / 4096 := ⟨_, rfl⟩
  refine ⟨k + 1, .antes i (contenido fichero.ruta) (k + 1),
    ((enviarCuerpo_trace h).stopsAfter_iff k _).mpr ⟨fun m hm => ⟨?_, ?_⟩, ?_, ?_, rfl⟩, ?_⟩
  · rw [hbuf, hmin]
    omega
  · rw [hbuf]
    omega
  · rw [hbuf, hmin]
    omega
  · rw [hbuf]
    omega
  · apply List.take_of_length_le
    rw [h.largo, hbuf]
    omega

/-- The turn of an error that has been sent stops the loop. -/
theorem enviarCuerpo_enviado (contenido : Texto → Texto) {e : Envio}
    (hest : e.httpman.respuesta_estadoCodigo ≠ STATUS_OK_200)
    (henviado : e.httpman.errorOcurrido = true) :
    enviarCuerpo contenido e () = some (e, true) := by
  rw [enviarCuerpo, recuperarBody_error contenido _ hest, henviado, if_pos rfl]
  dsimp only
  rw [if_neg (by decide), ← henviado]

/-- Any other answer sends its text, and stops at the next turn. -/
theorem enviarCuerpo_error (contenido : Texto → Texto) {i : InterpreteHTTP}
    (hest : i.respuesta_estadoCodigo ≠ STATUS_OK_200) (hprimera : i.errorOcurrido = false) :
    ∃ vueltas e, StopsAfter (enviarCuerpo contenido) (.inicio i) (fun _ => ()) vueltas e
      ∧ e.enviado = c_str (cuerpoError i.respuesta_estadoCodigo) := by
  obtain ⟨hpos, hlargo⟩ := c_str_cuerpoError_length i.respuesta_estadoCodigo
  have hmax : ¬ INT32_MAX < ((0 : ℕ) : ℤ)
      + ((c_str (cuerpoError i.respuesta_estadoCodigo)).length : ℕ) := by
    have hint : INT32_MAX = 2147483647 := rfl
    have hbuf : BUFFER_SIZE = 4096 := rfl
    omega
  obtain ⟨e, he⟩ : ∃ e : Envio, e = ⟨{ i with errorOcurrido := true },
    0 + (c_str (cuerpoError i.respuesta_estadoCodigo)).length,
    [] ++ c_str (cuerpoError i.respuesta_estadoCodigo)⟩ := ⟨_, rfl⟩
  have hprimero : enviarCuerpo contenido (.inicio i) () = some (e, false) := by
    rw [he, enviarCuerpo, Envio.inicio]
    dsimp only
    rw [recuperarBody_error contenido _ hest, hprimera, if_neg (by decide)]
    dsimp only
    rw [if_pos hpos, if_neg hmax]
  have hsegundo : enviarCuerpo contenido e () = some (e, true) :=
    enviarCuerpo_enviado contenido (he ▸ hest) (he ▸ rfl)
  refine ⟨2, e, ?_, by rw [he, List.nil_append]⟩
  rw [StopsAfter, afterTurns, afterTurns, afterTurns]
  dsimp only
  rw [hprimero]
  dsimp only
  rw [hsegundo]

/-! ## The result -/

/-- **The body of a 200 answer is the file.** For every directory tree, every file below `2^31`
bytes that was opened, whatever it holds: the loop ends, what it has sent is the file that the
path of the request names, and the header block announced its length. The reader's `bytesFaltantes`
and the loop's `posicionBuffer` are two counts of one thing, because every block but the last is
full. -/
theorem cuerpo_exacto {sis : Sistema} {contenido : Texto → Texto} {httpRequest : Texto}
    {i i' : InterpreteHTTP} {fichero : Fichero} {st : Stat} (fecha : Texto)
    (h : i.construirRespuesta sis httpRequest = some (i', STATUS_OK_200))
    (hfichero : i'.fs.fichero = some fichero) (hst : sis.stat fichero.ruta = some st)
    (hsize : st.st_size = (contenido fichero.ruta).length)
    (hcabe : (contenido fichero.ruta).length < 2147483648) :
    ∃ ruta vueltas e, Despachada httpRequest ruta
      ∧ fichero.ruta = c_str (directorioPedido ruta ++ nombrePedido ruta)
      ∧ StopsAfter (enviarCuerpo contenido) (.inicio i') (fun _ => ()) vueltas e
      ∧ e.enviado = contenido fichero.ruta
      ∧ "Content-Length: ".toList ++ (toString (e.enviado.length : ℤ)).toList ∈ i'.lineas fecha := by
  obtain ⟨hest, -, hcampos, -⟩ := construirRespuesta_campos h
  obtain ⟨ruta, hd, hservida⟩ := hcampos rfl
  obtain ⟨hruta, htam⟩ := hservida.abierto fichero hfichero
  obtain ⟨htamano, hfaltan⟩ := htam st hst
  rw [hsize] at htamano hfaltan
  rw [aInt_of_lt (by omega) (by omega)] at hfaltan
  rw [hservida.rutaDirectorios, hservida.nombreArchivo] at hruta
  obtain ⟨vueltas, e, hstop, henv⟩ := enviarCuerpo_fichero
    ⟨hest, hservida.enviarSoloHeaders, hfichero, rfl, htamano, hfaltan, hcabe⟩
  refine ⟨ruta, vueltas, e, hd, hruta, hstop, henv, ?_⟩
  rw [lineas, if_pos hest, henv, ← htamano, ← hservida.size]
  -- the fourth line behind the status line
  exact List.mem_cons_of_mem _ (List.mem_cons_of_mem _ (List.mem_cons_of_mem _ List.mem_cons_self))

/-- The directory tree with a home page of 10000 bytes. -/
def indiceLargo : Sistema := { Sistema.conIndice with stat := fun _ => some ⟨0, 10000⟩ }

/-- The home page is sent, in several blocks. -/
theorem cuerpo_exacto_indice :
    ∃ i' fichero, construirRespuesta indiceLargo peticionHost .nuevo = some (i', STATUS_OK_200)
      ∧ i'.fs.fichero = some fichero ∧ indiceLargo.stat fichero.ruta = some ⟨0, 10000⟩
      ∧ ∃ ruta vueltas e, Despachada peticionHost ruta
        ∧ fichero.ruta = c_str (directorioPedido ruta ++ nombrePedido ruta)
        ∧ StopsAfter (enviarCuerpo fun _ => List.replicate 10000 'x') (.inicio i') (fun _ => ())
          vueltas e
        ∧ e.enviado = List.replicate 10000 'x'
        ∧ "Content-Length: ".toList ++ (toString (e.enviado.length : ℤ)).toList ∈ i'.lineas [] := by
  obtain ⟨i', codigo, h⟩ := exists_construirRespuesta indiceLargo .nuevo
    (show peticionHost ≠ [] by decide)
  have hcodigo : (construirRespuesta indiceLargo peticionHost .nuevo).map Prod.snd
      = some STATUS_OK_200 := rfl
  have hruta : (construirRespuesta indiceLargo peticionHost .nuevo).map (·.1.fs.fichero.isSome)
      = some true := rfl
  rw [h] at hcodigo hruta
  obtain rfl : codigo = STATUS_OK_200 := Option.some.inj hcodigo
  obtain ⟨fichero, hfichero⟩ := Option.isSome_iff_exists.mp (Option.some.inj hruta)
  have hst : indiceLargo.stat fichero.ruta = some ⟨0, 10000⟩ := rfl
  have hlargo : (List.replicate 10000 'x').length = 10000 := List.length_replicate
  exact ⟨i', fichero, h, hfichero, hst, cuerpo_exacto [] h hfichero hst
    (by rw [hlargo]; rfl) (by rw [hlargo]; decide)⟩

end InterpreteHTTP

end LoadBalancer
