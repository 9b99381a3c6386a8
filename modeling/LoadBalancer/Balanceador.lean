/-
`Balanceador.hpp` and the critical sections of `Balanceador.cpp`: the server table, the
client table, the round-robin cursor, and the four server selections.

Each definition here is what one thread does under the mutexes it holds, as a function
of the tables. Where C++ gives an operation no result -- an index past the end of a
vector, a signed overflow, a remainder by zero -- the function returns `none`; nothing
in this file decides which thread runs when, that is `Hilos.lean`.

An index keeps the source's type: `indice_ip` is an `int` and can be `-1`.
-/
import Mathlib.Tactic.NormNum
import LoadBalancer.Utilidades

set_option autoImplicit false

namespace LoadBalancer

open LoadBalancer.Search

/-! ## The tables -/

/-- `ServidorRegistrado`. `ip` is the contents of the array `char ip[32]`; `comparador` is
the `<ip>/<port>` text of the datagram, the identity that the code compares. -/
structure ServidorRegistrado where
  comparador : Texto
  ip : List Char
  port : ℤ
  carga_actual : ℤ
  carga_maxima : ℤ
deriving DecidableEq, Repr

/-- An IPv4 address, `sin_addr`. -/
abbrev Direccion := BitVec 32

/-- `ClienteRegistrado`. The pointer `&servidores[random]` is kept as the position it was
taken at. -/
structure ClienteRegistrado where
  IP : Direccion
  servidor_asociado : ℤ
deriving DecidableEq, Repr

/-- `Balanceador::ALGORITMO`. -/
inductive Algoritmo
  | ROUND_ROBIN
  | ROUND_ROBIN_PESOS
  | DIRECCION_CLIENTE
  | CONEXIONES_ACTIVA
deriving DecidableEq, Repr

/-- The members of `Balanceador` that requests and registrations share. -/
structure Balanceador where
  servidores : List ServidorRegistrado
  clientes : List ClienteRegistrado
  roundRobin_Actual : ℕ
  algoritmoBalanceo : Algoritmo
  servidoresActuales : ℤ
deriving DecidableEq, Repr

/-- `servidores[indice]`. -/
def acceso (servidores : List ServidorRegistrado) (indice : ℤ) : Option ServidorRegistrado :=
  if 0 ≤ indice then servidores[indice.toNat]? else none

theorem acceso_natCast (servidores : List ServidorRegistrado) (i : ℕ) :
    acceso servidores (i : ℤ) = servidores[i]? := by
  rw [acceso, if_pos (Int.natCast_nonneg i), Int.toNat_natCast]

/-- An access that has a result is inside the vector, and reads the entry there. -/
theorem acceso_eq_some {servidores : List ServidorRegistrado} {indice : ℤ}
    {s : ServidorRegistrado} (h : acceso servidores indice = some s) :
    ∃ i : ℕ, indice = i ∧ ∃ hi : i < servidores.length, servidores[i] = s := by
  unfold acceso at h
  split_ifs at h with h0
  obtain ⟨hi, hs⟩ := List.getElem?_eq_some_iff.mp h
  exact ⟨indice.toNat, (Int.toNat_of_nonneg h0).symm, hi, hs⟩

/-! ## `carga_actual++` and `carga_actual--` -/

/-- `carga_actual++`; past `INT32_MAX` it overflows. -/
def incrementar (s : ServidorRegistrado) : Option ServidorRegistrado :=
  if s.carga_actual < INT32_MAX then some { s with carga_actual := s.carga_actual + 1 } else none

/-- `carga_actual--`; past `INT32_MIN` it overflows. -/
def decrementar (s : ServidorRegistrado) : Option ServidorRegistrado :=
  if INT32_MIN < s.carga_actual then some { s with carga_actual := s.carga_actual - 1 } else none

/-- `servidores[indice]` changed in place by `f`. -/
def modificar (servidores : List ServidorRegistrado) (indice : ℤ)
    (f : ServidorRegistrado → Option ServidorRegistrado) : Option (List ServidorRegistrado) :=
  (acceso servidores indice).bind fun s => (f s).map fun s' => servidores.set indice.toNat s'

/-- What a change in place does: it happens inside the vector, to that entry alone. -/
theorem modificar_eq_some {servidores servidores' : List ServidorRegistrado} {indice : ℤ}
    {f : ServidorRegistrado → Option ServidorRegistrado}
    (h : modificar servidores indice f = some servidores') :
    ∃ i : ℕ, indice = i ∧ ∃ hi : i < servidores.length, ∃ s', f servidores[i] = some s'
      ∧ servidores' = servidores.set i s' := by
  obtain ⟨s, hs, hmap⟩ := Option.bind_eq_some_iff.mp h
  obtain ⟨s', hs', hset⟩ := Option.map_eq_some_iff.mp hmap
  obtain ⟨i, rfl, hi, rfl⟩ := acceso_eq_some hs
  exact ⟨i, rfl, hi, s', hs', by rw [← hset, Int.toNat_natCast]⟩

theorem incrementar_eq_some {s s' : ServidorRegistrado} (h : incrementar s = some s') :
    s.carga_actual < INT32_MAX ∧ s' = { s with carga_actual := s.carga_actual + 1 } := by
  unfold incrementar at h
  split_ifs at h with hlt
  exact ⟨hlt, (Option.some.inj h).symm⟩

theorem decrementar_eq_some {s s' : ServidorRegistrado} (h : decrementar s = some s') :
    INT32_MIN < s.carga_actual ∧ s' = { s with carga_actual := s.carga_actual - 1 } := by
  unfold decrementar at h
  split_ifs at h with hlt
  exact ⟨hlt, (Option.some.inj h).symm⟩

/-! ## `ROUND_ROBIN` -/

/-- The critical section of `ROUND_ROBIN`: `value + 1`, or `0` from the end of the table. -/
def siguienteRoundRobin (value size : ℕ) : ℕ := if value + 1 ≥ size then 0 else value + 1

theorem siguienteRoundRobin_lt {value size : ℕ} (h : 0 < size) :
    siguienteRoundRobin value size < size := by
  unfold siguienteRoundRobin
  split_ifs <;> omega

/-! ## `ROUND_ROBIN_PESOS` -/

/-- The condition of the `while`: `carga_actual > carga_maxima`. -/
def sobrecargado (s : ServidorRegistrado) : Bool := decide (s.carga_actual > s.carga_maxima)

/-- Where the scan of `ROUND_ROBIN_PESOS` is after some turns of its loop. -/
inductive Escaneo
  /-- The loop ended with this `indice_ip`. -/
  | elige (value : ℕ)
  /-- The loop has not ended; the next test is on this position. -/
  | sigue (value : ℕ)
  /-- The loop read past the end of the vector. -/
  | fuera (value : ℕ)
deriving DecidableEq, Repr

/-- At most `vueltas` turns of
`while(servidores[value].carga_actual > servidores[value].carga_maxima)`, from `value`. -/
def escanear (servidores : List ServidorRegistrado) : ℕ → ℕ → Escaneo
  | 0, value => .sigue value
  | vueltas + 1, value =>
      match servidores[value]? with
      | none => .fuera value
      | some s =>
          -- the cursor wraps around as in `ROUND_ROBIN`
          if sobrecargado s then
            escanear servidores vueltas (siguienteRoundRobin value servidores.length)
          else .elige value

/-! ## `DIRECCION_CLIENTE` -/

/-- `inet_ntoa` returns a pointer to one static buffer, whatever the address: this is that
pointer. -/
def inet_ntoa (_ : Direccion) : ℕ := 0

/-- `buscarCliente`: the `==` compares the two pointers. -/
def buscarCliente (clientes : List ClienteRegistrado) (direccion : Direccion) : Option ℕ :=
  clientes.findIdx? fun c => inet_ntoa direccion == inet_ntoa c.IP

/-! ## `CONEXIONES_ACTIVA` -/

/-- The loop of `buscarServidorConMenorCarga` from position `i` on. -/
def menorCarga : List ServidorRegistrado → ℕ → ℤ → ℤ → ℤ
  | [], _, posicion, _ => posicion
  | s :: resto, i, posicion, carga_menor =>
      -- the first of several least loads wins: the test is `<`
      if s.carga_actual < carga_menor then menorCarga resto (i + 1) i s.carga_actual
      else menorCarga resto (i + 1) posicion carga_menor

/-- `buscarServidorConMenorCarga`. -/
def buscarServidorConMenorCarga (servidores : List ServidorRegistrado) : ℤ :=
  menorCarga servidores 0 (-1) INT32_MAX

/-! ## Registrations -/

/-- `buscarServidor`: the position of the entry with this `comparador`. -/
def buscarServidor (servidores : List ServidorRegistrado) (hilera : Texto) : Option ℕ :=
  servidores.findIdx? fun s => decide (hilera = s.comparador)

/-- The `<ip>` and `<port>` of a registration text, cut at its first `/`. Without one,
`find` gives `npos`, `strpos` is `-2`, and both `substr` calls return the whole text. -/
def partirRegistro (ip : Texto) : Texto × Texto :=
  match find ['/'] ip with
  | none => (ip, ip)
  | some p => (ip.take p, ip.drop (p + 1))

/-- The entry that `agregarServidor` builds: `azar` is what `rand()` returned and `memoria`
what the array `ip` held before the `strncpy`, which writes no terminator. The array has 32 bytes,
but nothing here depends on their number: whether the text fits is a matter of `Accesos.lean`. -/
def nuevoServidor (ip : Texto) (azar : ℕ) (memoria : List Char) : Option ServidorRegistrado :=
  let (addr, port) := partirRegistro ip
  (Utilidades.getNumeroRandom azar 5 10).map fun maxima =>
    { comparador := ip
      -- `strncpy(s.ip, addr.c_str(), addr.length())` leaves the rest of the array as it was
      ip := addr ++ memoria.drop addr.length
      port := Utilidades.atoi port
      carga_actual := 0
      carga_maxima := maxima }

theorem nuevoServidor_eq_some {ip : Texto} {azar : ℕ} {memoria : List Char}
    {s : ServidorRegistrado} (h : nuevoServidor ip azar memoria = some s) :
    s.comparador = ip ∧ s.carga_actual = 0 ∧ 5 ≤ s.carga_maxima ∧ s.carga_maxima ≤ 10 := by
  simp only [nuevoServidor, Option.map_eq_some_iff] at h
  obtain ⟨maxima, hmax, rfl⟩ := h
  obtain ⟨h5, h10⟩ := Utilidades.getNumeroRandom_bounds (by norm_num) hmax
  exact ⟨rfl, rfl, h5, h10⟩

/-! ## What the searches find -/

theorem buscarServidor_eq_none {servidores : List ServidorRegistrado} {hilera : Texto}
    (h : buscarServidor servidores hilera = none) :
    ∀ s ∈ servidores, s.comparador ≠ hilera := by
  intro s hs heq
  have := List.findIdx?_eq_none_iff.mp h s hs
  simp [heq] at this

/-- The scan stops at servers that are not above their maximum. -/
theorem escanear_elige_libre {servidores : List ServidorRegistrado} {vueltas value i : ℕ}
    (h : escanear servidores vueltas value = .elige i) :
    ∃ hi : i < servidores.length, sobrecargado servidores[i] = false := by
  induction vueltas generalizing value with
  | zero => rw [escanear] at h; cases h
  | succ vueltas ih =>
      rw [escanear] at h
      split at h
      · cases h
      · next s hs =>
          split_ifs at h with hover
          · exact ih h
          · rw [Escaneo.elige.injEq] at h
            subst h
            obtain ⟨hi, rfl⟩ := List.getElem?_eq_some_iff.mp hs
            exact ⟨hi, by simpa using hover⟩

/-- The client search only asks whether there is a client at all. -/
theorem buscarCliente_eq (clientes : List ClienteRegistrado) (direccion : Direccion) :
    buscarCliente clientes direccion = if clientes = [] then none else some 0 := by
  cases clientes with
  | nil => rfl
  | cons c resto => simp [buscarCliente, inet_ntoa, List.findIdx?_cons]

/-- **What the scan of the least load finds**: no load below the one it started with, or the
first of the least loads. -/
theorem menorCarga_casos (servidores : List ServidorRegistrado) (i : ℕ) (posicion menor : ℤ) :
    (menorCarga servidores i posicion menor = posicion
        ∧ ∀ s ∈ servidores, menor ≤ s.carga_actual)
      ∨ ∃ (k : ℕ) (hk : k < servidores.length),
          menorCarga servidores i posicion menor = (i + k : ℕ)
            ∧ servidores[k].carga_actual < menor
            ∧ (∀ s ∈ servidores, servidores[k].carga_actual ≤ s.carga_actual)
            ∧ ∀ (j : ℕ) (hj : j < k), servidores[k].carga_actual < servidores[j].carga_actual := by
  induction servidores generalizing i posicion menor with
  | nil => exact .inl ⟨rfl, fun s hs => (by cases hs)⟩
  | cons s resto ih =>
      rw [menorCarga]
      split_ifs with hlt
      · -- the position moves to `i`, and may move again
        rcases ih (i + 1) i s.carga_actual with ⟨heq, hall⟩ | ⟨k, hk, heq, hkm, hall, hfirst⟩
        · refine .inr ⟨0, Nat.zero_lt_succ _, heq, hlt, ?_, fun j hj => absurd hj (Nat.not_lt_zero j)⟩
          exact List.forall_mem_cons.mpr ⟨le_refl _, hall⟩
        · refine .inr ⟨k + 1, Nat.succ_lt_succ hk, ?_, hkm.trans hlt, ?_, fun j hj => ?_⟩
          · rw [heq, Nat.add_assoc, Nat.add_comm 1 k]
          · exact List.forall_mem_cons.mpr ⟨hkm.le, hall⟩
          · cases j with
            | zero => exact hkm
            | succ j => exact hfirst j (by omega)
      · rcases ih (i + 1) posicion menor with ⟨heq, hall⟩ | ⟨k, hk, heq, hkm, hall, hfirst⟩
        · exact .inl ⟨heq, List.forall_mem_cons.mpr ⟨not_lt.mp hlt, hall⟩⟩
        · refine .inr ⟨k + 1, Nat.succ_lt_succ hk, ?_, hkm, ?_, fun j hj => ?_⟩
          · rw [heq, Nat.add_assoc, Nat.add_comm 1 k]
          · exact List.forall_mem_cons.mpr ⟨hkm.le.trans (not_lt.mp hlt), hall⟩
          · cases j with
            | zero => exact hkm.trans_le (not_lt.mp hlt)
            | succ j => exact hfirst j (by omega)

/-- **`buscarServidorConMenorCarga`** returns a position of the table as soon as one load
is below `INT32_MAX`. -/
theorem buscarServidorConMenorCarga_mem {servidores : List ServidorRegistrado}
    (h : ∃ s ∈ servidores, s.carga_actual < INT32_MAX) :
    ∃ j : ℕ, buscarServidorConMenorCarga servidores = j ∧ j < servidores.length := by
  rcases menorCarga_casos servidores 0 (-1) INT32_MAX with ⟨-, hall⟩ | ⟨k, hk, heq, -⟩
  · obtain ⟨s, hs, hlt⟩ := h
    exact absurd hlt (not_lt.mpr (hall s hs))
  · exact ⟨k, by rw [buscarServidorConMenorCarga, heq, Nat.zero_add], hk⟩

/-- A position that it returns is one of least load. -/
theorem buscarServidorConMenorCarga_le {servidores : List ServidorRegistrado} {i : ℕ}
    (h : buscarServidorConMenorCarga servidores = i) :
    ∃ hi : i < servidores.length,
      ∀ s ∈ servidores, servidores[i].carga_actual ≤ s.carga_actual := by
  unfold buscarServidorConMenorCarga at h
  rcases menorCarga_casos servidores 0 (-1) INT32_MAX with ⟨heq, -⟩ | ⟨k, hk, heq, -, hall, -⟩
  · omega
  · obtain rfl : k = i := by omega
    exact ⟨hk, hall⟩

end LoadBalancer
