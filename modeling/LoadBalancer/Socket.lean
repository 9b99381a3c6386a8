/-
`Socket.cpp`: what one read leaves in a buffer, and the two request-reading loops.

Both servers read a request into a `char[4096]` that they neither clear nor
terminate, and look for `CRLFCRLF` in what they take for text:

* the balancer's `hilo_Cliente` reads into one array for the whole request and
  tests the array, read as a C string, after every read;
* `WebServidor::ejecutarServidor` goes through `Socket::leer(string*)`, whose array
  is a fresh piece of stack at every call, appends the C string it finds there to
  `peticion`, and tests `peticion`.

Neither loop looks at the value `read()` returned. [`Bufer`] and [`Trozo`] carry
their sizes, so a read can neither overrun the array nor change its length.
-/
import LoadBalancer.Texto

set_option autoImplicit false

namespace LoadBalancer

open LoadBalancer.Search

/-- `BUFFER_SIZE`. -/
def BUFFER_SIZE : ℕ := 4096

/-- The contents of a `char[4096]`. -/
structure Bufer where
  bytes : List Char
  largo : bytes.length = BUFFER_SIZE

/-- The bytes that one `read(id, buffer, 4096)` delivers. -/
structure Trozo where
  bytes : List Char
  cabe : bytes.length ≤ BUFFER_SIZE

/-- What a `read` can answer: bytes, `0` at the end of the stream, or `-1`. -/
inductive Lectura
  | datos (t : Trozo)
  | fin
  | error

/-- The bytes a read stored. -/
def Lectura.bytes : Lectura → List Char
  | .datos t => t.bytes
  | .fin => []
  | .error => []

/-- The value `read` returned. -/
def Lectura.estado : Lectura → ℤ
  | .datos t => t.bytes.length
  | .fin => 0
  | .error => -1

theorem Lectura.length_bytes_le (l : Lectura) : l.bytes.length ≤ BUFFER_SIZE := by
  cases l with
  | datos t => exact t.cabe
  | fin => exact Nat.zero_le _
  | error => exact Nat.zero_le _

/-- `Socket::leer(char*)`: the bytes read go to the front of the array, and the rest of
it keeps what it held. -/
def Bufer.leer (b : Bufer) (l : Lectura) : Bufer where
  bytes := l.bytes ++ b.bytes.drop l.bytes.length
  largo := by
    have h := l.length_bytes_le
    have hb := b.largo
    simp only [List.length_append, List.length_drop]
    omega

@[simp] theorem Bufer.leer_bytes (b : Bufer) (l : Lectura) :
    (b.leer l).bytes = l.bytes ++ b.bytes.drop l.bytes.length := rfl

/-- The array as `string buffer(httpRequest)` reads it. -/
def Bufer.cadena (b : Bufer) : Option Texto := leerCadena b.bytes

/-- An array of zero bytes. -/
def Bufer.ceros : Bufer := ⟨List.replicate BUFFER_SIZE NUL, List.length_replicate⟩

/-! ## One turn of each loop -/

/-- One turn of the balancer's `while(!encontroFinal)`: the array after the read and
whether the text in it contains `CRLFCRLF`. The turn has no defined result when the
array holds no terminator. -/
def vueltaBalanceador (httpRequest : Bufer) (l : Lectura) : Option (Bufer × Bool) :=
  let leido := httpRequest.leer l
  leido.cadena.map fun buffer => (leido, (find DOUBLECRLF buffer).isSome)

/-- One turn of the web server's `while(!encontroFinal)`: `Socket::leer(string*)` reads
into a fresh array `pila` and assigns its C string, which is appended to `peticion`. -/
def vueltaServidor (pila : Bufer) (peticion : Texto) (l : Lectura) : Option (Texto × Bool) :=
  (pila.leer l).cadena.map fun peticionParcial =>
    (peticion ++ peticionParcial, (find DOUBLECRLF (peticion ++ peticionParcial)).isSome)

end LoadBalancer
