/-
`buscarCliente` and `agregarCliente`: which client an address is taken for, and which addresses
end up in `clientes`.

`buscarCliente` compares what two calls of `inet_ntoa` return. Both return the address of the same
static buffer, so the comparison is true whatever the two addresses are: the first entry of the
table answers every search, and after the first client `agregarCliente` adds nobody. The search is
right when the first entry happens to be the client's, and the table is complete when there was
only one client ([`registro_de_clientes_iff`]).

In `hilo_Cliente` the three statements of `agregarCliente` are three critical sections;
[`exec_pasoHilo_agregarCliente`] says that a thread nobody comes in between makes this function of
them.
-/
import Mathlib.Order.Bounds.Defs
import LoadBalancer.Hilos

set_option autoImplicit false

namespace LoadBalancer

open LoadBalancer.Transition

/-! ## `agregarCliente` -/

/-- `agregarCliente(socket)` for a connection from `direccion`, with `azar` what `rand()` returns
in it. The index into `servidores` has no result when there is no server. -/
def agregarCliente (b : Balanceador) (direccion : Direccion) (azar : ℕ) : Option Balanceador :=
  match buscarCliente b.clientes direccion with
  | some _ => some b
  | none =>
      (Utilidades.getNumeroRandom azar 0 ((b.servidores.length : ℤ) - 1)).bind fun random =>
        (acceso b.servidores random).map fun _ =>
          { b with clientes := b.clientes ++ [⟨direccion, random⟩] }

/-- One thread alone, its steps counted. -/
def pasoSolo (p : Peticion) (bf : Balanceador × Fase) (_ : Unit) : Option (Balanceador × Fase) :=
  pasoHilo bf.1 p bf.2

/-- **The thread's steps make `agregarCliente`**: one of them if the search finds the client, and
three if it does not. -/
theorem exec_pasoHilo_agregarCliente (b : Balanceador) (p : Peticion) :
    exec (pasoSolo p) (b, .agregarCliente)
        (if (buscarCliente b.clientes p.direccion).isSome then [()] else [(), (), ()])
      = (agregarCliente b p.direccion p.azar).map fun b' => (b', .cargar 0) := by
  unfold agregarCliente
  cases hb : buscarCliente b.clientes p.direccion with
  | some c => simp [exec, pasoSolo, pasoHilo, hb]
  | none =>
      simp only [exec, pasoSolo, pasoHilo, hb, Option.isSome_none, Bool.false_eq_true, if_false,
        Option.bind_some]
      cases Utilidades.getNumeroRandom p.azar 0 ((b.servidores.length : ℤ) - 1) with
      | none => rfl
      | some random =>
          simp only [Option.bind_some]
          cases acceso b.servidores random with
          | none => rfl
          | some s => rfl

/-- With a server registered, the index that is drawn is one of the table. -/
theorem getNumeroRandom_acceso {servidores : List ServidorRegistrado} (h : servidores ≠ [])
    (azar : ℕ) :
    ∃ random s, Utilidades.getNumeroRandom azar 0 ((servidores.length : ℤ) - 1) = some random
      ∧ acceso servidores random = some s := by
  have hpos := List.length_pos_iff.mpr h
  obtain ⟨random, hr⟩ : ∃ random,
      Utilidades.getNumeroRandom azar 0 ((servidores.length : ℤ) - 1) = some random := by
    rw [Utilidades.getNumeroRandom, if_neg (by omega)]
    exact ⟨_, rfl⟩
  obtain ⟨h0, hle⟩ := Utilidades.getNumeroRandom_bounds (by omega) hr
  have hlt : random.toNat < servidores.length := by omega
  refine ⟨random, servidores[random.toNat], hr, ?_⟩
  rw [acceso, if_pos h0, List.getElem?_eq_getElem hlt]

/-- What `agregarCliente` leaves: the table as it was, or the first client of all. -/
theorem agregarCliente_eq {b : Balanceador} (h : b.servidores ≠ []) (direccion : Direccion)
    (azar : ℕ) :
    ∃ nuevos : List ClienteRegistrado,
      agregarCliente b direccion azar = some { b with clientes := b.clientes ++ nuevos }
        ∧ nuevos.map (·.IP) = if b.clientes = [] then [direccion] else [] := by
  unfold agregarCliente
  rw [buscarCliente_eq]
  by_cases hnil : b.clientes = []
  · obtain ⟨random, s, hr, hs⟩ := getNumeroRandom_acceso h azar
    refine ⟨[⟨direccion, random⟩], ?_, by rw [if_pos hnil]; rfl⟩
    rw [if_pos hnil, hr, Option.bind_some, hs, Option.map_some]
  · refine ⟨[], ?_, by rw [if_neg hnil]; rfl⟩
    rw [if_neg hnil, List.append_nil]

/-! ## A sequence of connections -/

/-- A connection that comes to `agregarCliente`: its address, and what `rand()` returns. -/
structure Conexion where
  direccion : Direccion
  azar : ℕ
deriving DecidableEq, Repr

/-- `agregarCliente` for one connection of a sequence. -/
def pasoConexion (b : Balanceador) (c : Conexion) : Option Balanceador :=
  agregarCliente b c.direccion c.azar

/-- Whatever the connections, a table with a client in it stays as it is. -/
theorem exec_pasoConexion_of_ne_nil {b : Balanceador} (h : b.servidores ≠ [])
    (hcli : b.clientes ≠ []) (conexiones : List Conexion) :
    exec pasoConexion b conexiones = some b := by
  induction conexiones with
  | nil => rfl
  | cons c resto ih =>
      obtain ⟨nuevos, hb, hnuevos⟩ := agregarCliente_eq h c.direccion c.azar
      rw [if_neg hcli, List.map_eq_nil_iff] at hnuevos
      rw [hnuevos, List.append_nil] at hb
      rw [exec, pasoConexion, hb, Option.bind_some]
      exact ih

/-- **What a sequence of connections leaves in an empty table**: the first address of all. -/
theorem exec_pasoConexion {b : Balanceador} (h : b.servidores ≠ []) (hcli : b.clientes = [])
    (conexiones : List Conexion) :
    ∃ b', exec pasoConexion b conexiones = some b'
      ∧ b'.clientes.map (·.IP) = (conexiones.map (·.direccion)).take 1 := by
  cases conexiones with
  | nil => exact ⟨b, rfl, by rw [hcli]; rfl⟩
  | cons c resto =>
      obtain ⟨nuevos, hb, hnuevos⟩ := agregarCliente_eq h c.direccion c.azar
      rw [if_pos hcli] at hnuevos
      refine ⟨{ b with clientes := b.clientes ++ nuevos }, ?_, ?_⟩
      · rw [exec, pasoConexion, hb, Option.bind_some]
        refine exec_pasoConexion_of_ne_nil (b := { b with clientes := b.clientes ++ nuevos }) h ?_ resto
        intro hnil
        rw [(List.append_eq_nil_iff.mp hnil).2] at hnuevos
        cases hnuevos
      · rw [hcli, List.nil_append, hnuevos, List.map_cons, List.take_succ_cons, List.take_zero]

/-! ## What the search and the table should be -/

/-- What a search for `direccion` should find: the first position that holds it, or none if none
does. -/
def EsSuPosicion (clientes : List ClienteRegistrado) (direccion : Direccion) : Option ℕ → Prop
  | none => direccion ∉ clientes.map (·.IP)
  | some i => IsLeast {j | (clientes.map (·.IP))[j]? = some direccion} i

/-- Each of these addresses is in the table once, and no other is. -/
def UnaVezCadaUna (clientes : List ClienteRegistrado) (direcciones : List Direccion) : Prop :=
  ∀ d, (clientes.map (·.IP)).count d = if d ∈ direcciones then 1 else 0

/-- The search is right when there is no entry, or the first one has the address. -/
theorem esSuPosicion_iff (clientes : List ClienteRegistrado) (direccion : Direccion) :
    EsSuPosicion clientes direccion (buscarCliente clientes direccion)
      ↔ ∀ c ∈ clientes.head?, c.IP = direccion := by
  rw [buscarCliente_eq]
  cases clientes with
  | nil => simp [EsSuPosicion]
  | cons c resto =>
      simp only [reduceCtorEq, if_false, EsSuPosicion, List.head?_cons, Option.mem_some_iff,
        forall_eq']
      constructor
      · rintro ⟨h0, -⟩
        simpa using h0
      · intro hc
        refine ⟨?_, fun j _ => Nat.zero_le j⟩
        simpa using hc

/-- The first address alone is each of them once when they are all the same. -/
theorem unaVezCadaUna_iff {clientes : List ClienteRegistrado} {direcciones : List Direccion}
    (h : clientes.map (·.IP) = direcciones.take 1) :
    UnaVezCadaUna clientes direcciones
      ↔ ∀ d ∈ direcciones, ∀ d' ∈ direcciones, d = d' := by
  unfold UnaVezCadaUna
  rw [h]
  cases direcciones with
  | nil => simp
  | cons primera resto =>
      rw [List.take_succ_cons, List.take_zero]
      constructor
      · intro hall
        have hprimera : ∀ d ∈ primera :: resto, primera = d := by
          intro d hd
          have hcount := hall d
          rw [if_pos hd] at hcount
          have hmem := List.count_pos_iff.mp (by rw [hcount]; exact Nat.one_pos)
          exact (List.mem_singleton.mp hmem).symm
        exact fun d hd d' hd' => (hprimera d hd).symm.trans (hprimera d' hd')
      · intro hall d
        by_cases hd : d ∈ primera :: resto
        · obtain rfl := hall d hd primera List.mem_cons_self
          rw [if_pos hd, List.count_singleton_self]
        · rw [if_neg hd, List.count_eq_zero, List.mem_singleton]
          rintro rfl
          exact hd List.mem_cons_self

/-! ## The result -/

/-- **The client table**, for every table searched and every sequence of connections to an empty
one: the search finds the address exactly when there is no entry or the first one has it, and
`agregarCliente` leaves each address once exactly when all the addresses are one. The search
compares the two results of `inet_ntoa`, which are one buffer. -/
theorem registro_de_clientes_iff (clientes : List ClienteRegistrado) (direccion : Direccion)
    {b : Balanceador} (hserv : b.servidores ≠ []) (hcli : b.clientes = [])
    (conexiones : List Conexion) :
    (EsSuPosicion clientes direccion (buscarCliente clientes direccion)
        ↔ ∀ c ∈ clientes.head?, c.IP = direccion)
      ∧ ∃ b', exec pasoConexion b conexiones = some b'
        ∧ (UnaVezCadaUna b'.clientes (conexiones.map (·.direccion))
            ↔ ∀ c ∈ conexiones, ∀ c' ∈ conexiones, c.direccion = c'.direccion) := by
  refine ⟨esSuPosicion_iff clientes direccion, ?_⟩
  obtain ⟨b', hexec, hip⟩ := exec_pasoConexion hserv hcli conexiones
  refine ⟨b', hexec, ?_⟩
  rw [unaVezCadaUna_iff hip]
  simp only [List.forall_mem_map]

/-- A balancer with a server and no client. -/
def conUnServidor : Balanceador :=
  (Estado.conServidores [ServidorRegistrado.libre ['a', '/', '1'] 5]).balanceador

/-- One client that connects twice: found at its position, and in the table once. -/
theorem registro_de_un_cliente :
    EsSuPosicion [⟨1, 0⟩] 1 (buscarCliente [⟨1, 0⟩] 1)
      ∧ ∃ b', exec pasoConexion conUnServidor [⟨1, 7⟩, ⟨1, 8⟩] = some b'
        ∧ UnaVezCadaUna b'.clientes [1, 1] := by
  obtain ⟨hposicion, b', hexec, huna⟩ := registro_de_clientes_iff [⟨1, 0⟩] 1
    (show conUnServidor.servidores ≠ [] by decide) rfl [⟨1, 7⟩, ⟨1, 8⟩]
  exact ⟨hposicion.mpr (by decide), b', hexec, huna.mpr (by decide)⟩

/-- The client `2` is taken for the client `1`, and is not in the table after both have
connected. -/
theorem cliente_tomado_por_otro :
    ¬ EsSuPosicion [⟨1, 0⟩] 2 (buscarCliente [⟨1, 0⟩] 2)
      ∧ ¬ ∃ b', exec pasoConexion conUnServidor [⟨1, 7⟩, ⟨2, 8⟩] = some b'
        ∧ UnaVezCadaUna b'.clientes [1, 2] := by
  constructor
  · rw [esSuPosicion_iff]
    decide
  · rintro ⟨b', hexec, huna⟩
    obtain ⟨b'', hexec', hip⟩ :=
      exec_pasoConexion (b := conUnServidor) (by decide) rfl [⟨1, 7⟩, ⟨2, 8⟩]
    obtain rfl : b'' = b' := Option.some.inj (hexec'.symm.trans hexec)
    have huna' := (unaVezCadaUna_iff hip).mp huna
    exact absurd (huna' 1 (by decide) 2 (by decide)) (by decide)

end LoadBalancer
