/-
`WebCliente -download`: from the bytes of an answer to the downloaded file.

The first 4096 bytes are read into one array, cut at the first `CRLFCRLF`, and what is
behind it is moved to the front of the array and written to the file. The size of that
piece is taken from the size of the array and not from the number of bytes that were read,
so an answer shorter than the array leaves its old contents in the file. The rest of the
answer is read a block at a time and written behind it.

[`escrito_iff`] says for which answers the body is what is written. Whether there is a file to write it
to is decided before, by its name and by what is on the disk (`Guardado.lean`).
-/
import LoadBalancer.Socket
import LoadBalancer.Utilidades
import LoadBalancer.Lib.Loop

set_option autoImplicit false

namespace LoadBalancer

open LoadBalancer.Search LoadBalancer.Loop

/-! ## The pieces -/

/-- `strstr`: the position of the first occurrence in a C string. A null pointer and a read past
the end of the memory are both `none`. -/
def strstr (memoria pat : Texto) : Option ℕ :=
  match find pat memoria with
  | none => none
  | some p => if NUL ∈ memoria.take (p + pat.length) then none else some p

/-- `split(char*, const char*, int*)`: the text up to the delimiter, the array with the rest moved
to its front, and the position. `siguiente` is the last character of `bufferTemporal`, which is
never written; a null pointer has no position, and a rest of negative size cannot be moved. -/
def Utilidades.splitMemoria (siguiente : Char) (line : Bufer) (delimitador : Texto) :
    Option (Texto × Bufer × ℕ) :=
  match strstr (line.bytes ++ [siguiente]) delimitador with
  | none => none
  | some p =>
      let pos := p + 4
      if h : pos ≤ BUFFER_SIZE then
        let resto : Bufer :=
          { bytes := line.bytes.drop pos ++ NUL :: line.bytes.drop (BUFFER_SIZE - pos + 1)
            largo := by
              have hlargo := line.largo
              simp only [List.length_append, List.length_drop, List.length_cons]
              omega }
        some (c_str (line.bytes.take pos), resto, pos)
      else none

/-- `escribirArchivo`, on the contents of the file: `lseek` past the end leaves a hole of zero
bytes. -/
def FileSystem.escribirArchivo (buffer : Texto) (posicion len : ℕ) (archivo : Texto) : Texto :=
  archivo.take posicion ++ List.replicate (posicion - archivo.length) NUL ++ buffer.take len
    ++ archivo.drop (posicion + (buffer.take len).length)

/-- `recv` with `MSG_WAITALL`: 4096 bytes, or what is left of the stream; and the rest of it. -/
def recibir (flujo : Texto) : Lectura × Texto :=
  if flujo = [] then (.fin, [])
  else (.datos ⟨flujo.take BUFFER_SIZE, List.length_take_le _ _⟩, flujo.drop BUFFER_SIZE)

theorem recibir_bytes (flujo : Texto) :
    (recibir flujo).1.bytes = flujo.take BUFFER_SIZE ∧ (recibir flujo).2 = flujo.drop BUFFER_SIZE
      ∧ (recibir flujo).1.estado = (flujo.take BUFFER_SIZE).length := by
  unfold recibir
  split
  · next h =>
      subst h
      exact ⟨rfl, rfl, rfl⟩
  · exact ⟨rfl, rfl, rfl⟩

/-! ## `main` -/

namespace WebCliente

/-- The variables of the loop, the stream and the file. -/
structure Descarga where
  flujo : Texto
  bufferSocket : Bufer
  posBuffer : ℕ
  archivo : Texto

/-- A turn of the loop behind the first piece. `posBuffer` is an `int`. -/
def vuelta (d : Descarga) (_ : Unit) : Option (Descarga × Bool) :=
  let (l, flujo) := recibir d.flujo
  let bufferSocket := d.bufferSocket.leer l
  if 0 < l.estado then
    let bytesLeidos := l.bytes.length
    if INT32_MAX < d.posBuffer + bytesLeidos then none
    else
      some ({ flujo := flujo
              bufferSocket := .ceros
              posBuffer := d.posBuffer + bytesLeidos
              archivo := FileSystem.escribirArchivo bufferSocket.bytes d.posBuffer bytesLeidos
                d.archivo }, false)
  else some ({ d with flujo := flujo, bufferSocket := bufferSocket }, true)

/-- `main` with `-download`, up to the loop: `none` inside when nothing is downloaded. Indices
past the end of the two vectors have no defined result. -/
def empezar (siguiente : Char) (backbufferSocket bufferSocket : Bufer) (flujo : Texto) :
    Option (Option Descarga) :=
  let (l, flujo) := recibir flujo
  match Utilidades.splitMemoria siguiente (backbufferSocket.leer l) DOUBLECRLF with
  | none => none
  | some (headers, backbufferSocket, pos) =>
      let sizePostSplit := BUFFER_SIZE - pos
      match Utilidades.split headers CRLF 2 with
      | [] => none
      | linea :: _ =>
          match Utilidades.split linea [' '] 2 with
          | _ :: codigo :: _ =>
              if codigo = "200".toList then
                some (some
                  { flujo := flujo
                    bufferSocket := bufferSocket
                    posBuffer := sizePostSplit
                    archivo := FileSystem.escribirArchivo backbufferSocket.bytes 0 sizePostSplit [] })
              else some none
          | _ => none

/-- The download of `flujo` ends with `archivo` in the file that is written to, if that is there. -/
def Escrito (siguiente : Char) (backbufferSocket bufferSocket : Bufer) (flujo archivo : Texto) :
    Prop :=
  ∃ d vueltas d', empezar siguiente backbufferSocket bufferSocket flujo = some (some d)
    ∧ StopsAfter vuelta d (fun _ => ()) vueltas d' ∧ d'.archivo = archivo

/-! ## The first piece -/

/-- The second word of a status line. -/
def TieneEstado (linea codigo : Texto) : Prop :=
  ∃ version cola, linea = version ++ ' ' :: (codigo ++ cola) ∧ ' ' ∉ version
    ∧ (cola = [] ∨ cola.head? = some ' ')

/-- An answer of status 200: its header block ends with its first `CRLFCRLF`, holds no zero byte
and fits in one read. -/
structure RespuestaHTTP where
  linea : Texto
  cabeceras : Texto
  cuerpo : Texto
  estado : TieneEstado linea "200".toList
  linea_sin_crlf : ¬ CRLF <:+: linea
  fin : ∃ p, find DOUBLECRLF (linea ++ CRLF ++ cabeceras) = some p
    ∧ p + DOUBLECRLF.length = (linea ++ CRLF ++ cabeceras).length
  sin_nul : NUL ∉ linea ++ CRLF ++ cabeceras
  cabe : (linea ++ CRLF ++ cabeceras).length ≤ BUFFER_SIZE

namespace RespuestaHTTP

/-- The status line and the headers. -/
def cabecera (r : RespuestaHTTP) : Texto := r.linea ++ CRLF ++ r.cabeceras

def texto (r : RespuestaHTTP) : Texto := r.cabecera ++ r.cuerpo

end RespuestaHTTP

/-- The status is the second piece of the line. -/
theorem split_estado {linea codigo : Texto} (h : TieneEstado linea codigo) (hcodigo : ' ' ∉ codigo)
    (hne : codigo ≠ []) : ∃ version resto, Utilidades.split linea [' '] 2 = version :: codigo :: resto := by
  obtain ⟨version, cola, rfl, hversion, hcola⟩ := h
  have hpos : 0 < (version ++ ' ' :: (codigo ++ cola)).length := by
    rw [List.length_append, List.length_cons]
    omega
  rw [Utilidades.split, if_pos hpos, Utilidades.split.bucle_singleton hversion]
  cases cola with
  | nil =>
      -- the code is what is left when the loop breaks
      rw [List.append_nil, Utilidades.split.bucle_break (find_singleton_none hcodigo), if_pos hne]
      exact ⟨version, [], rfl⟩
  | cons c cola =>
      obtain rfl : c = ' ' := by simpa using hcola
      rw [Utilidades.split.bucle_singleton hcodigo]
      exact ⟨version, _, rfl⟩

/-- The header block is cut off whatever is behind it in the array. -/
theorem splitMemoria_respuesta (r : RespuestaHTTP) (siguiente : Char) {line : Bufer} {detras : Texto}
    (h : line.bytes = r.cabecera ++ detras) :
    ∃ resto : Bufer, Utilidades.splitMemoria siguiente line DOUBLECRLF
        = some (r.cabecera, resto, r.cabecera.length)
      ∧ resto.bytes.take (BUFFER_SIZE - r.cabecera.length) = detras := by
  obtain ⟨p, hp, hfin⟩ := r.fin
  change find DOUBLECRLF r.cabecera = some p at hp
  change p + 4 = r.cabecera.length at hfin
  have hcabe : r.cabecera.length ≤ BUFFER_SIZE := r.cabe
  have hlargo := line.largo
  have hstr : strstr (line.bytes ++ [siguiente]) DOUBLECRLF = some p := by
    have hfind := find_append_of_eq_some hp (detras ++ [siguiente])
    rw [← List.append_assoc, ← h] at hfind
    have hsin : NUL ∉ (line.bytes ++ [siguiente]).take (p + DOUBLECRLF.length) := by
      rw [h, List.append_assoc, show p + DOUBLECRLF.length = r.cabecera.length from hfin,
        List.take_left]
      exact r.sin_nul
    rw [strstr, hfind]
    exact if_neg hsin
  have hcab : c_str (line.bytes.take (p + 4)) = r.cabecera := by
    rw [h, hfin, List.take_left]
    have hc := c_str_append_of_not_mem (b := []) r.sin_nul
    rwa [List.append_nil, show c_str [] = [] from rfl, List.append_nil] at hc
  unfold Utilidades.splitMemoria
  rw [hstr]
  dsimp only
  rw [dif_pos (hfin.trans_le hcabe), hcab]
  simp only [hfin]
  refine ⟨_, rfl, ?_⟩
  dsimp only
  rw [h, List.drop_left]
  apply List.take_left'
  rw [h, List.length_append] at hlargo
  omega

/-- What the array holds behind the header block after the first read. -/
def primerTrozo (r : RespuestaHTTP) (backbufferSocket : Bufer) : Texto :=
  r.cuerpo.take (BUFFER_SIZE - r.cabecera.length) ++ backbufferSocket.bytes.drop r.texto.length

/-- What is left of the body after the first read. -/
def restoCuerpo (r : RespuestaHTTP) : Texto := r.cuerpo.drop (BUFFER_SIZE - r.cabecera.length)

theorem leer_texto (r : RespuestaHTTP) (backbufferSocket : Bufer) :
    (backbufferSocket.leer (recibir r.texto).1).bytes = r.cabecera ++ primerTrozo r backbufferSocket
      ∧ (recibir r.texto).2 = restoCuerpo r := by
  obtain ⟨hbytes, hresto, -⟩ := recibir_bytes r.texto
  have hcabe : r.cabecera.length ≤ BUFFER_SIZE := r.cabe
  have hlargo := backbufferSocket.largo
  have htake : r.texto.take BUFFER_SIZE
      = r.cabecera ++ r.cuerpo.take (BUFFER_SIZE - r.cabecera.length) := by
    rw [RespuestaHTTP.texto, List.take_append, List.take_of_length_le hcabe]
  -- nothing is left of the old contents when the answer fills the array
  have hdrop : backbufferSocket.bytes.drop (r.texto.take BUFFER_SIZE).length
      = backbufferSocket.bytes.drop r.texto.length := by
    rw [List.length_take]
    rcases Nat.le_total BUFFER_SIZE r.texto.length with h | h
    · rw [Nat.min_eq_left h, List.drop_of_length_le hlargo.le,
        List.drop_of_length_le (hlargo.trans_le h)]
    · rw [Nat.min_eq_right h]
  constructor
  · rw [Bufer.leer_bytes, hbytes, hdrop, htake, primerTrozo, List.append_assoc]
  · rw [hresto, RespuestaHTTP.texto, restoCuerpo, List.drop_append,
      List.drop_of_length_le hcabe, List.nil_append]

/-- The first piece fills the array behind the header block. -/
theorem length_primerTrozo (r : RespuestaHTTP) (backbufferSocket : Bufer) :
    (primerTrozo r backbufferSocket).length = BUFFER_SIZE - r.cabecera.length := by
  have hleido := (backbufferSocket.leer (recibir r.texto).1).largo
  rw [(leer_texto r backbufferSocket).1, List.length_append] at hleido
  omega

/-- Writing behind the end of the file. -/
theorem escribirArchivo_final (buffer archivo : Texto) (len : ℕ) :
    FileSystem.escribirArchivo buffer archivo.length len archivo = archivo ++ buffer.take len := by
  rw [FileSystem.escribirArchivo, List.take_length, Nat.sub_self, List.replicate_zero,
    List.append_nil, List.drop_of_length_le (Nat.le_add_right _ _), List.append_nil]

/-- **The download up to the loop**: the whole array behind the header block is written. -/
theorem empezar_eq (r : RespuestaHTTP) (siguiente : Char) (backbufferSocket bufferSocket : Bufer) :
    empezar siguiente backbufferSocket bufferSocket r.texto
      = some (some
          { flujo := restoCuerpo r
            bufferSocket := bufferSocket
            posBuffer := (primerTrozo r backbufferSocket).length
            archivo := primerTrozo r backbufferSocket }) := by
  obtain ⟨hbytes, hflujo⟩ := leer_texto r backbufferSocket
  obtain ⟨resto, hsplit, hresto⟩ := splitMemoria_respuesta r siguiente hbytes
  obtain ⟨version, mas, hestado⟩ := split_estado r.estado (by decide) (by decide)
  have hlineas : Utilidades.split r.cabecera CRLF 2
      = r.linea :: Utilidades.split.bucle CRLF 2 r.cabeceras :=
    Utilidades.split_crlf r.linea_sin_crlf 2
  have harchivo : FileSystem.escribirArchivo resto.bytes 0 (BUFFER_SIZE - r.cabecera.length) []
      = primerTrozo r backbufferSocket := by
    have hfinal := escribirArchivo_final resto.bytes [] (BUFFER_SIZE - r.cabecera.length)
    rwa [hresto] at hfinal
  unfold empezar
  dsimp only
  rw [hsplit]
  dsimp only
  rw [hlineas]
  dsimp only
  rw [hestado]
  dsimp only
  rw [if_pos rfl, harchivo, hflujo, length_primerTrozo]

/-! ## The loop -/

/-- The loop before turn `k`. -/
def Descarga.antes (d : Descarga) (k : ℕ) : Descarga where
  flujo := d.flujo.drop (BUFFER_SIZE * k)
  -- the array is cleared behind every read that brought something
  bufferSocket := if k = 0 ∨ d.flujo = [] then d.bufferSocket else .ceros
  posBuffer := d.posBuffer + min (BUFFER_SIZE * k) d.flujo.length
  archivo := d.archivo ++ d.flujo.take (BUFFER_SIZE * k)

/-- The turn behind the end of the stream. -/
theorem vuelta_fin {d : Descarga} {k : ℕ} (h : d.flujo.length ≤ BUFFER_SIZE * k) :
    vuelta (d.antes k) () = some (d.antes (k + 1), true) := by
  have hsucc : BUFFER_SIZE * (k + 1) = BUFFER_SIZE * k + BUFFER_SIZE := Nat.mul_succ _ _
  have hnil : (d.antes k).flujo = [] := List.drop_of_length_le h
  have hleer (b : Bufer) : b.leer .fin = b := rfl
  unfold vuelta
  rw [hnil]
  dsimp only [recibir, if_true]
  rw [if_pos rfl]
  dsimp only
  rw [hleer, if_neg (by decide)]
  have hbuffer : (if k = 0 ∨ d.flujo = [] then d.bufferSocket else Bufer.ceros)
      = if k + 1 = 0 ∨ d.flujo = [] then d.bufferSocket else Bufer.ceros := by
    by_cases hf : d.flujo = []
    · rw [if_pos (.inr hf), if_pos (.inr hf)]
    · -- with something to read, this is not the first turn
      have hk : k ≠ 0 := by
        rintro rfl
        exact hf (List.length_eq_zero_iff.mp (Nat.le_zero.mp h))
      rw [if_neg (not_or.mpr ⟨hk, hf⟩), if_neg (not_or.mpr ⟨Nat.succ_ne_zero k, hf⟩)]
  have hpos : min (BUFFER_SIZE * k) d.flujo.length = min (BUFFER_SIZE * (k + 1)) d.flujo.length := by
    omega
  have htake : d.flujo.take (BUFFER_SIZE * k) = d.flujo.take (BUFFER_SIZE * (k + 1)) := by
    rw [List.take_of_length_le h, List.take_of_length_le (by omega)]
  have hdrop : d.flujo.drop (BUFFER_SIZE * (k + 1)) = [] := List.drop_of_length_le (by omega)
  rw [Descarga.antes, Descarga.antes, hbuffer, hpos, htake, hdrop]

/-- Any other turn writes the next block behind the file. -/
theorem vuelta_bloque {d : Descarga} {k : ℕ} (hlargo : d.archivo.length = d.posBuffer)
    (h : ¬ d.flujo.length ≤ BUFFER_SIZE * k) :
    vuelta (d.antes k) ()
      = if INT32_MAX < ((d.posBuffer + min (BUFFER_SIZE * (k + 1)) d.flujo.length : ℕ) : ℤ) then none
        else some (d.antes (k + 1), false) := by
  have hbuf : BUFFER_SIZE = 4096 := rfl
  have hsucc : BUFFER_SIZE * (k + 1) = BUFFER_SIZE * k + BUFFER_SIZE := Nat.mul_succ _ _
  obtain ⟨hbytes, hresto, hestado⟩ := recibir_bytes (d.antes k).flujo
  have hflujo : (d.antes k).flujo = d.flujo.drop (BUFFER_SIZE * k) := rfl
  rw [hflujo] at hbytes hresto hestado
  have hleidos : ((d.flujo.drop (BUFFER_SIZE * k)).take BUFFER_SIZE).length
      = min BUFFER_SIZE (d.flujo.length - BUFFER_SIZE * k) := by
    rw [List.length_take, List.length_drop]
  have hpos : (d.antes k).posBuffer + ((d.flujo.drop (BUFFER_SIZE * k)).take BUFFER_SIZE).length
      = d.posBuffer + min (BUFFER_SIZE * (k + 1)) d.flujo.length := by
    rw [hleidos, Descarga.antes]
    dsimp only
    omega
  have hne : d.flujo ≠ [] := by
    intro hnil
    rw [hnil] at h
    exact h (Nat.zero_le _)
  have harchivo : (d.antes k).archivo.length = (d.antes k).posBuffer := by
    rw [Descarga.antes]
    dsimp only
    rw [List.length_append, List.length_take, hlargo]
  have hescrito := escribirArchivo_final
    ((d.antes k).bufferSocket.leer (recibir (d.flujo.drop (BUFFER_SIZE * k))).1).bytes
    (d.antes k).archivo ((d.flujo.drop (BUFFER_SIZE * k)).take BUFFER_SIZE).length
  rw [harchivo, Bufer.leer_bytes, hbytes, List.take_left] at hescrito
  unfold vuelta
  rw [hflujo]
  dsimp only
  rw [hestado, if_pos (by omega), hbytes, hresto, Bufer.leer_bytes, hbytes, hescrito,
    ← Int.natCast_add, hpos, List.drop_drop, ← hsucc]
  apply if_congr Iff.rfl rfl
  rw [Descarga.antes, Descarga.antes, if_neg (not_or.mpr ⟨Nat.succ_ne_zero k, hne⟩)]
  dsimp only
  rw [List.append_assoc, ← List.take_add, ← hsucc]

/-- The turns of the loop. -/
theorem vuelta_trace {d : Descarga} (hlargo : d.archivo.length = d.posBuffer) :
    Trace vuelta d (fun _ => ()) d.antes
      (fun k => d.flujo.length ≤ BUFFER_SIZE * k
        ∨ ((d.posBuffer + min (BUFFER_SIZE * (k + 1)) d.flujo.length : ℕ) : ℤ) ≤ INT32_MAX)
      (fun k => d.flujo.length ≤ BUFFER_SIZE * k) where
  start := by
    rw [Descarga.antes, Nat.mul_zero, List.drop_zero, if_pos (.inl rfl), Nat.zero_min, Nat.add_zero,
      List.take_zero, List.append_nil]
  turn_stop k _ hstop := vuelta_fin hstop
  turn_goes_on k hok hstop := by
    rw [vuelta_bloque hlargo hstop, if_neg (not_lt.mpr (hok.resolve_left hstop))]
  turn_undefined k hok := by
    obtain ⟨hstop, hmax⟩ := not_or.mp hok
    rw [vuelta_bloque hlargo hstop, if_pos (not_le.mp hmax)]

/-- **What the loop leaves**: the stream behind the file, if its position stays an `int`. -/
theorem vuelta_stops_iff {d : Descarga} (hlargo : d.archivo.length = d.posBuffer)
    (archivo : Texto) :
    (∃ vueltas d', StopsAfter vuelta d (fun _ => ()) vueltas d' ∧ d'.archivo = archivo)
      ↔ archivo = d.archivo ++ d.flujo
        ∧ (d.flujo = [] ∨ ((d.posBuffer + d.flujo.length : ℕ) : ℤ) ≤ INT32_MAX) := by
  have htrace := vuelta_trace hlargo
  have hbuf : BUFFER_SIZE = 4096 := rfl
  constructor
  · rintro ⟨vueltas, d', hstop, rfl⟩
    cases vueltas with
    | zero => cases hstop
    | succ n =>
        obtain ⟨hpre, -, hfin, rfl⟩ := (htrace.stopsAfter_iff n d').mp hstop
        have htodo : d.flujo.length ≤ BUFFER_SIZE * (n + 1) :=
          hfin.trans (Nat.mul_le_mul_left _ (Nat.le_succ n))
        refine ⟨by rw [Descarga.antes, List.take_of_length_le htodo], ?_⟩
        cases n with
        | zero => exact .inl (List.length_eq_zero_iff.mp (Nat.le_zero.mp hfin))
        | succ n =>
            -- the turn before the last one moved the position to the end
            obtain ⟨hok, hno⟩ := hpre n (Nat.lt_succ_self n)
            have hmax := hok.resolve_left hno
            rw [Nat.min_eq_right hfin] at hmax
            exact .inr hmax
  · rintro ⟨rfl, hcabe⟩
    obtain ⟨k, hk⟩ : ∃ k, k = (d.flujo.length + 4095) / 4096 := ⟨_, rfl⟩
    have hfin : d.flujo.length ≤ BUFFER_SIZE * k := by
      rw [hbuf]
      omega
    refine ⟨k + 1, d.antes (k + 1), (htrace.stopsAfter_iff k _).mpr
      ⟨fun m hm => ⟨.inr ?_, ?_⟩, .inl hfin, hfin, rfl⟩, ?_⟩
    · have hle : d.posBuffer + min (BUFFER_SIZE * (m + 1)) d.flujo.length
          ≤ d.posBuffer + d.flujo.length := by omega
      rcases hcabe with hnil | hmax
      · rw [hnil, List.length_nil] at hk
        omega
      · omega
    · rw [hbuf]
      omega
    · have htodo := hfin.trans (Nat.mul_le_mul_left _ (Nat.le_succ k))
      rw [Descarga.antes, List.take_of_length_le htodo]

/-! ## The result -/

/-- The file is the body exactly when the array held the beginning of it behind the header block. -/
theorem escrito_cuerpo_iff (r : RespuestaHTTP) (siguiente : Char)
    (backbufferSocket bufferSocket : Bufer) :
    Escrito siguiente backbufferSocket bufferSocket r.texto r.cuerpo
      ↔ r.cuerpo = primerTrozo r backbufferSocket ++ restoCuerpo r
        ∧ (restoCuerpo r = [] ∨ (((primerTrozo r backbufferSocket).length
            + (restoCuerpo r).length : ℕ) : ℤ) ≤ INT32_MAX) := by
  unfold Escrito
  rw [empezar_eq r siguiente backbufferSocket bufferSocket]
  simp only [Option.some.injEq, exists_and_left, exists_eq_left']
  exact vuelta_stops_iff rfl r.cuerpo

/-- **When the body is written.** For every answer, every length of its body and whatever the
arrays held: the answer fills the first array, and the position stays an `int`. -/
theorem escrito_iff (r : RespuestaHTTP) (siguiente : Char) (backbufferSocket bufferSocket : Bufer) :
    Escrito siguiente backbufferSocket bufferSocket r.texto r.cuerpo
      ↔ BUFFER_SIZE ≤ r.texto.length ∧ (r.cuerpo.length : ℤ) ≤ INT32_MAX := by
  have hlargo := length_primerTrozo r backbufferSocket
  have hcabe : r.cabecera.length ≤ BUFFER_SIZE := r.cabe
  have hbuf : BUFFER_SIZE = 4096 := rfl
  have hmax : INT32_MAX = 2147483647 := rfl
  have htexto : r.texto.length = r.cabecera.length + r.cuerpo.length := List.length_append
  have hresto : (restoCuerpo r).length = r.cuerpo.length - (BUFFER_SIZE - r.cabecera.length) :=
    List.length_drop
  rw [escrito_cuerpo_iff]
  constructor
  · rintro ⟨heq, hpos⟩
    have hsuma := congrArg List.length heq
    rw [List.length_append, hlargo, hresto] at hsuma
    have hlleno : BUFFER_SIZE ≤ r.texto.length := by omega
    refine ⟨hlleno, ?_⟩
    rcases hpos with hnil | hpos
    · rw [hnil, List.length_nil] at hresto
      omega
    · rw [hlargo, hresto] at hpos
      omega
  · rintro ⟨hlleno, hcuerpo⟩
    -- nothing of the old contents is left
    have hsobra : backbufferSocket.bytes.drop r.texto.length = [] :=
      List.drop_of_length_le (backbufferSocket.largo.trans_le hlleno)
    refine ⟨?_, .inr ?_⟩
    · rw [primerTrozo, hsobra, List.append_nil, restoCuerpo, List.take_append_drop]
    · rw [hlargo, hresto]
      omega

/-- An answer of 21 bytes. -/
def respuestaCorta : RespuestaHTTP where
  linea := "HTTP/1.1 200 OK".toList
  cabeceras := CRLF
  cuerpo := "hi".toList
  estado := ⟨"HTTP/1.1".toList, " OK".toList, rfl, by decide, .inr rfl⟩
  linea_sin_crlf := by decide
  fin := ⟨15, by decide, by decide⟩
  sin_nul := by decide
  cabe := by decide

/-- It does not fill the array, and what the array held is written as well. -/
theorem not_escrito_respuestaCorta (siguiente : Char) (backbufferSocket bufferSocket : Bufer) :
    ¬ Escrito siguiente backbufferSocket bufferSocket respuestaCorta.texto respuestaCorta.cuerpo := by
  intro h
  have hlargo : respuestaCorta.texto.length = 21 := by decide
  obtain ⟨hlleno, -⟩ := (escrito_iff _ _ _ _).mp h
  rw [hlargo] at hlleno
  exact absurd hlleno (by decide)

end WebCliente

end LoadBalancer
