/-
The broadcast datagrams: the `char[64]` they are received in and the texts that the
balancer and the web servers send each other.

Both sides receive with `leerDe(buffer, 64)` into an array on the stack, put a zero byte
behind what was read, and then look at single bytes of the array: who sent it (byte `0`),
whether it is a connect or a disconnect (byte `2`), and, the balancer only, the
`<ip>/<port>` from byte `4` on. A short datagram leaves the rest of the array as it was,
so the old contents are part of what a received datagram means.
-/
import LoadBalancer.Texto

set_option autoImplicit false

namespace LoadBalancer

/-! ## The array -/

/-- The contents of a `char bufferBalanceadorRespuesta[64]`. -/
structure Pila where
  bytes : List Char
  largo : bytes.length = 64

/-- An array of zero bytes. -/
def Pila.ceros : Pila := ⟨List.replicate 64 NUL, List.length_replicate⟩

/-- `leerDe(buffer, 64)` and then `buffer[leidos] = '\0'`. The kernel cuts a longer datagram
to 64 bytes, and the zero byte is then written behind the array. -/
def Pila.recibir (pila : Pila) (datagrama : Texto) : Option Pila :=
  if h : datagrama.length < 64 then
    some
      { bytes := (datagrama ++ pila.bytes.drop datagrama.length).set datagrama.length NUL
        largo := by
          have := pila.largo
          rw [List.length_set, List.length_append, List.length_drop]
          omega }
  else none

/-- The test `buffer[0] == emisor && buffer[2] == orden`. -/
def Pila.es (pila : Pila) (emisor orden : Char) : Bool :=
  decide (pila.bytes[0]? = some emisor) && decide (pila.bytes[2]? = some orden)

/-- `&buffer[4]`, read as a C string. -/
def Pila.hilera (pila : Pila) : Option Texto := leerCadena (pila.bytes.drop 4)

/-- A datagram below 64 bytes is received: its bytes, the zero byte, and what was there. -/
theorem Pila.recibir_eq (pila : Pila) {datagrama : Texto} (h : datagrama.length < 64) :
    ∃ leida : Pila, pila.recibir datagrama = some leida
      ∧ leida.bytes = datagrama ++ NUL :: pila.bytes.drop (datagrama.length + 1) := by
  unfold Pila.recibir
  rw [dif_pos h]
  refine ⟨_, rfl, ?_⟩
  have hlt : datagrama.length < pila.bytes.length := by
    rw [pila.largo]
    exact h
  dsimp only
  rw [List.set_append_right _ _ (Nat.le_refl _), Nat.sub_self, List.drop_eq_getElem_cons hlt,
    List.set_cons_zero]

/-- A datagram that is received had less than 64 bytes. -/
theorem Pila.recibir_eq_some {pila leida : Pila} {datagrama : Texto}
    (h : pila.recibir datagrama = some leida) :
    leida.bytes = datagrama ++ NUL :: pila.bytes.drop (datagrama.length + 1) := by
  by_cases hlt : datagrama.length < 64
  · obtain ⟨leida', hrec, hbytes⟩ := pila.recibir_eq hlt
    rw [hrec, Option.some.injEq] at h
    rw [← h]
    exact hbytes
  · unfold Pila.recibir at h
    rw [dif_neg hlt] at h
    cases h

/-- The same test on the bytes of a datagram, before it is received. -/
def esDatagrama (emisor orden : Char) (datagrama : Texto) : Bool :=
  decide (datagrama[0]? = some emisor) && decide (datagrama[2]? = some orden)

/-- **What the test on the array says about the datagram**: that it passes the test itself, or that
it is one byte long, in front of a third byte that the array held before. -/
theorem Pila.es_recibir {pila leida : Pila} {datagrama : Texto} {emisor orden : Char}
    (h : pila.recibir datagrama = some leida) (hemisor : emisor ≠ NUL) (horden : orden ≠ NUL) :
    leida.es emisor orden = true
      ↔ esDatagrama emisor orden datagrama = true
        ∨ datagrama = [emisor] ∧ pila.bytes[2]? = some orden := by
  have hbytes := Pila.recibir_eq_some h
  unfold Pila.es esDatagrama
  rw [hbytes]
  match datagrama with
  | [] => simp [hemisor.symm]
  | [x] =>
      -- the terminator is byte `1`, and byte `2` is that of the array
      simp [List.getElem?_drop]
  | [x, y] => simp [horden.symm]
  | x :: y :: z :: resto => simp

/-! ## The texts -/

/-- `<emisor>/<orden>/<ip>/<port>`. -/
def formar (emisor orden : Char) (ip port : Texto) : Texto :=
  emisor :: '/' :: orden :: '/' :: (ip ++ '/' :: port)

/-- What `WebServidor::avisarBalanceadores` sends. -/
def WebServidor.avisarBalanceadores (desconectar : Bool) (direccionHost port : Texto) : Texto :=
  formar 'S' (if desconectar then 'D' else 'C') direccionHost port

/-- What `Balanceador::avisarServidores` sends. -/
def Balanceador.avisarServidores (desconectar : Bool) (subnet port : Texto) : Texto :=
  formar 'B' (if desconectar then 'D' else 'C') subnet port

section Formar

variable {emisor orden : Char} {ip port : Texto} {pila leida : Pila}

theorem length_formar : (formar emisor orden ip port).length = ip.length + port.length + 5 := by
  simp only [formar, List.length_cons, List.length_append]
  omega

/-- A datagram of this form is recognised by its own two letters alone. -/
theorem Pila.es_formar (h : pila.recibir (formar emisor orden ip port) = some leida)
    (emisor' orden' : Char) :
    leida.es emisor' orden' = (decide (emisor = emisor') && decide (orden = orden')) := by
  have hbytes := recibir_eq_some h
  simp [Pila.es, hbytes, formar]

/-- Its `<ip>/<port>` is read back, whatever the array held. -/
theorem Pila.hilera_formar (h : pila.recibir (formar emisor orden ip port) = some leida)
    (hip : NUL ∉ ip) (hport : NUL ∉ port) : leida.hilera = some (ip ++ '/' :: port) := by
  have hbytes := recibir_eq_some h
  have hdrop : leida.bytes.drop 4
      = (ip ++ '/' :: port)
        ++ NUL :: pila.bytes.drop ((formar emisor orden ip port).length + 1) := by
    rw [hbytes]
    rfl
  have hnul : NUL ∉ ip ++ '/' :: port := by
    rw [List.mem_append, List.mem_cons]
    rintro (h | h | h)
    · exact hip h
    · exact absurd h (by decide)
    · exact hport h
  unfold Pila.hilera
  rw [hdrop, leerCadena_of_mem (List.mem_append_right _ (List.mem_cons_self)),
    c_str_append_of_not_mem hnul, c_str_cons, if_pos rfl, List.append_nil]

end Formar

end LoadBalancer
