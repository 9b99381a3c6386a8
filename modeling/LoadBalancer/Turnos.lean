/-
`ROUND_ROBIN`: whose turn it is.

The critical section of the method reads `roundRobin_Actual` and moves it on, so it selects
and advances in one step, whatever the other threads do in between. With a table that does
not change the cursor therefore goes round it like [`Rotation.next`], and the selections of a
run are the places it passes ([`turnos_en_orden`]).
-/
import LoadBalancer.Restitucion
import LoadBalancer.Lib.Rotation

set_option autoImplicit false

namespace LoadBalancer

open LoadBalancer.Transition

/-- The position that a step selects by `ROUND_ROBIN`: the thread stands at that critical
section before the step, and afterwards it has this `indice_ip`. -/
def turno (s : Estado) (a : Accion) (s' : Estado) : Option ℤ :=
  match a with
  | .hilo h =>
      match s.hilos[h]?.map Hilo.fase, s'.hilos[h]?.map Hilo.fase with
      | some (.elegir .ROUND_ROBIN), some (.cargar indice_ip) => some indice_ip
      | _, _ => none
  | _ => none

/-- The selections of a run, in order. -/
def turnos (s : Estado) (as : List Accion) : List ℤ := observed paso turno s as

/-- What a step of a thread does to the cursor. -/
theorem Transita.cursor {b b' : Balanceador} {p : Peticion} {f f' : Fase}
    (ht : Transita b p f b' f') :
    (f = .elegir .ROUND_ROBIN ∧ f' = .cargar b.roundRobin_Actual
        ∧ b'.roundRobin_Actual = siguienteRoundRobin b.roundRobin_Actual b.servidores.length)
      ∨ (f ≠ .elegir .ROUND_ROBIN ∧ b'.roundRobin_Actual = b.roundRobin_Actual) := by
  cases ht with
  | roundRobin => exact .inl ⟨rfl, rfl, rfl⟩
  | _ => exact .inr ⟨fun h => (by cases h), rfl⟩

/-- With a fixed table, every step either selects nothing and leaves the cursor where it is, or
selects the cursor and moves it round. -/
theorem turno_paso {n : ℕ} {s s' : Estado} {a : Accion}
    (hinv : s.balanceador.servidores.length = n ∧ s.balanceador.roundRobin_Actual < n)
    (hok : TablaFija s a) (h : paso s a = some s') :
    (s'.balanceador.servidores.length = n ∧ s'.balanceador.roundRobin_Actual < n)
      ∧ (turno s a s' = none
          ∧ s'.balanceador.roundRobin_Actual = s.balanceador.roundRobin_Actual
        ∨ turno s a s' = some (s.balanceador.roundRobin_Actual : ℤ)
          ∧ s'.balanceador.roundRobin_Actual
            = Rotation.next n s.balanceador.roundRobin_Actual) := by
  obtain ⟨hlen, hcur⟩ := hinv
  cases paso_avanza h with
  | llegada p => exact ⟨⟨hlen, hcur⟩, .inl ⟨rfl, rfl⟩⟩
  | metodo m => exact ⟨⟨hlen, hcur⟩, .inl ⟨rfl, rfl⟩⟩
  | registroNuevo ip hf hb => exact ⟨⟨hlen, hcur⟩, .inl ⟨rfl, rfl⟩⟩
  | registroRepetido ip i hb => exact ⟨⟨hlen, hcur⟩, .inl ⟨rfl, rfl⟩⟩
  | bajaAusente ip hb => exact ⟨⟨hlen, hcur⟩, .inl ⟨rfl, rfl⟩⟩
  | bajaPresente ip posicion hf hb => exact ⟨⟨hlen, hcur⟩, .inl ⟨rfl, rfl⟩⟩
  | alta ip azar memoria nuevo hf hn => exact hok.elim
  | borrado posicion hf hp => exact hok.elim
  | hilo h' hh b f hlibre ht =>
      have hb : b.servidores.length = n := ht.length_servidores.trans hlen
      rcases ht.cursor with ⟨hfase, rfl, hsig⟩ | ⟨hfase, hsig⟩
      · have hnext : b.roundRobin_Actual = Rotation.next n s.balanceador.roundRobin_Actual := by
          rw [hsig, hlen]
          rfl
        refine ⟨⟨hb, ?_⟩, .inr ⟨?_, hnext⟩⟩
        · rw [hsig, hlen]
          exact siguienteRoundRobin_lt (by omega)
        · simp only [turno, List.getElem?_eq_getElem hh, Option.map_some, hfase,
          List.getElem?_set_self hh]
      · refine ⟨⟨hb, hsig ▸ hcur⟩, .inl ⟨?_, hsig⟩⟩
        unfold turno
        dsimp only
        rw [List.getElem?_eq_getElem hh, Option.map_some]
        split
        · next heq _ => exact absurd (Option.some.inj heq) hfase
        · rfl

/-- **The selections of a run go round the table.** While the table does not change, and
whatever requests arrive, interleave and finish, the `k`-th selection is `k` places after the
cursor, modulo the number of servers; so any two servers have been selected equally often, up
to one time. This holds in every interleaving, because the cursor is read and moved on in one
critical section. -/
theorem turnos_en_orden {s : Estado} {n : ℕ} (hlen : s.balanceador.servidores.length = n)
    (hcur : s.balanceador.roundRobin_Actual < n) {as : List Accion}
    (hok : AllOk paso TablaFija s as) :
    (∀ (k : ℕ) (i : ℤ), (turnos s as)[k]? = some i →
        i = ((s.balanceador.roundRobin_Actual + k) % n : ℕ))
      ∧ ∀ i j : ℕ, i < n → j < n →
          (turnos s as).count (i : ℤ) ≤ (turnos s as).count (j : ℤ) + 1 := by
  have hturnos := observed_eq_iterate
    (fun s => s.balanceador.servidores.length = n ∧ s.balanceador.roundRobin_Actual < n)
    (fun s => s.balanceador.roundRobin_Actual) (Rotation.next n) (fun c => (c : ℤ))
    (fun _ _ _ => turno_paso) ⟨hlen, hcur⟩ hok
  change turnos s as = (List.iterate _ _ (turnos s as).length).map _ at hturnos
  generalize (turnos s as).length = m at hturnos
  rw [hturnos]
  constructor
  · intro k i hi
    rw [List.getElem?_map, Option.map_eq_some_iff] at hi
    obtain ⟨c, hc, rfl⟩ := hi
    obtain ⟨hk, rfl⟩ := List.getElem?_eq_some_iff.mp hc
    rw [List.getElem_iterate, Rotation.iterate_next hcur]
  · intro i j hi hj
    rw [List.count_map_of_injective _ _ Nat.cast_injective,
      List.count_map_of_injective _ _ Nat.cast_injective]
    exact Rotation.count_iterate_le hcur hi hj m

/-- Three requests to two servers, the second request selecting before the first one has
counted itself. -/
theorem turnos_en_orden_tres_peticiones :
    let s : Estado :=
      .conServidores [.libre "10.0.0.1/80".toList 5, .libre "10.0.0.2/80".toList 5]
    let as : List Accion :=
      List.replicate 3 (.llegada (.minima true))
        ++ [.hilo 0, .hilo 0, .hilo 1, .hilo 1, .hilo 1, .hilo 0, .hilo 2, .hilo 2, .hilo 2]
    turnos s as = [0, 1, 0]
      ∧ (∀ (k : ℕ) (i : ℤ), (turnos s as)[k]? = some i →
          i = ((s.balanceador.roundRobin_Actual + k) % 2 : ℕ))
      ∧ ∀ i j : ℕ, i < 2 → j < 2 →
          (turnos s as).count (i : ℤ) ≤ (turnos s as).count (j : ℤ) + 1 := by
  intro s as
  have hok : AllOk paso TablaFija s as := by decide +kernel
  have hturnos : turnos s as = [0, 1, 0] := by decide +kernel
  exact ⟨hturnos, turnos_en_orden (n := 2) rfl (by decide) hok⟩

end LoadBalancer
