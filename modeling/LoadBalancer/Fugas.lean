/-
Connections that are served one after another, and what they leave open.

`aceptar` makes a `Socket`, whose constructor calls `socket()`, and then puts the number that
`accept` returned in the place of the one it got there. Every thread closes what it holds on
each of its three ways out, and the number that was overwritten is held by nobody:
[`sin_fugas_iff`] says that the descriptors that are open afterwards are those that were
open before exactly when no connection was served.
-/
import LoadBalancer.Descriptores

set_option autoImplicit false

namespace LoadBalancer.Descriptores

open LoadBalancer.Transition LoadBalancer.Handles

/-! ## Serving one connection -/

/-- How a connection is served. -/
inductive Atencion
  /-- The 503 answer, and whether its page could be opened. -/
  | sinServicio (pagina : Bool)
  /-- `conectar` fails. -/
  | rechazado
  | completo
deriving DecidableEq, Repr

/-- What the thread finds at each of its steps, up to its end. -/
def Atencion.pasos : Atencion → List Bool
  | .sinServicio true => [true, true, true, true]
  | .sinServicio false => [true, false, true]
  | .rechazado => [false, true, false, true, true, true, true]
  | .completo => [false, true, true, true, true, true, true, true]

/-- A connection is accepted, and thread `h` serves it to its end. -/
def Atencion.acciones (h : ℕ) (a : Atencion) : List Accion :=
  .crear :: .aceptar true :: a.pasos.map (.hilo h)

/-- Connections one after another, the first of them served by thread `h`. -/
def atender : ℕ → List Atencion → List Accion
  | _, [] => []
  | h, a :: as => a.acciones h ++ atender (h + 1) as

/-- Two descriptors that are closed by `cerrar()` and once more by `delete`. -/
theorem owner_close_dos (o o' : Dueno) (tabla : Table Dueno) (n : ℕ) :
    owner (close (lowestFree (openAs o tabla)) (close (lowestFree tabla)
        (close (lowestFree (openAs o tabla)) (close (lowestFree tabla)
          (openAs o' (openAs o tabla)))))) n
      = owner tabla n := by
  have hc := owner_lowestFree tabla
  have hv := owner_lowestFree (openAs o tabla)
  rw [owner_openAs] at hv
  split at hv
  · cases hv
  · -- both numbers were free
    simp only [owner_close, owner_openAs]
    split_ifs with h1 h2
    · rw [h1, hv]
    · rw [h2, hc]
    · rfl

/-- The table after a step. -/
def Efecto.enTabla : Efecto → Table Dueno → Table Dueno
  | .nada, tabla => tabla
  | .abre dueno, tabla => openAs dueno tabla
  | .cierra numero, tabla => close numero tabla

/-- The steps of one thread by itself: what they do to the table, and where the thread ends. -/
def recorrer (h : ℕ) : List Bool → Table Dueno → Punto → Option (Table Dueno × Punto)
  | [], tabla, p => some (tabla, p)
  | si :: resto, tabla, p =>
      (siguientePunto h si (lowestFree tabla) p).bind fun (efecto, p') =>
        recorrer h resto (efecto.enTabla tabla) p'

/-- The last thread's steps, as steps of the process. -/
theorem exec_recorrer {hilos : List Punto} {pasos : List Bool} {s : Proceso} {p p' : Punto}
    {tabla : Table Dueno} (hs : s.hilos = hilos ++ [p])
    (h : recorrer hilos.length pasos s.tabla p = some (tabla, p')) :
    ∃ s', exec paso s (pasos.map (.hilo hilos.length)) = some s' ∧ s'.tabla = tabla
      ∧ s'.hilos = hilos ++ [p'] ∧ s'.aceptando = s.aceptando := by
  induction pasos generalizing s p with
  | nil =>
      cases h
      exact ⟨s, rfl, rfl, hs, rfl⟩
  | cons si pasos ih =>
      obtain ⟨⟨e, q⟩, hpunto, hresto⟩ := Option.bind_eq_some_iff.mp h
      have hp : s.hilos[hilos.length]? = some p := by rw [hs, List.getElem?_concat_length]
      have hset : s.hilos.set hilos.length q = hilos ++ [q] := by
        rw [hs, List.set_append_right _ _ (Nat.le_refl _), Nat.sub_self, List.set_cons_zero]
      obtain ⟨s₁, hs₁⟩ : ∃ s₁, s₁ = { s.aplicar hilos.length e with hilos := hilos ++ [q] } :=
        ⟨_, rfl⟩
      have hpaso : paso s (.hilo hilos.length si) = some s₁ := by
        rw [paso, hp, Option.bind_some, hpunto, Option.map_some]
        dsimp only
        rw [hset, hs₁]
      have htabla₁ : s₁.tabla = e.enTabla s.tabla := by
        rw [hs₁]
        cases e <;> rfl
      have hacep₁ : s₁.aceptando = s.aceptando := by
        rw [hs₁]
        cases e <;> rfl
      have hhilos₁ : s₁.hilos = hilos ++ [q] := by rw [hs₁]
      have hresto₁ : recorrer hilos.length pasos s₁.tabla q = some (tabla, p') := by
        rw [htabla₁]
        exact hresto
      obtain ⟨s', hexec, htabla, hhilos, hacep⟩ := ih hhilos₁ hresto₁
      refine ⟨s', ?_, htabla, hhilos, hacep.trans hacep₁⟩
      rw [List.map_cons, exec, hpaso, Option.bind_some, hexec]

/-- **A thread leaves the table as it was before its connection was accepted**, on every way. -/
theorem recorrer_atencion (h : ℕ) (a : Atencion) (tabla : Table Dueno) :
    ∃ tabla', recorrer h a.pasos (openAs (.cliente h) tabla) (.inicio (lowestFree tabla))
        = some (tabla', .terminado)
      ∧ ∀ n, owner tabla' n = owner tabla n := by
  cases a with
  | sinServicio pagina =>
      cases pagina with
      | true =>
          -- the page is closed before the client
          refine ⟨_, rfl, fun n => ?_⟩
          have hpagina := owner_close_openAs (.pagina h) (openAs (.cliente h) tabla)
          exact (owner_close_congr hpagina).trans (owner_close_openAs (.cliente h) tabla n)
      | false => exact ⟨_, rfl, owner_close_openAs _ _⟩
  | rechazado => exact ⟨_, rfl, owner_close_dos _ _ _⟩
  | completo => exact ⟨_, rfl, owner_close_dos _ _ _⟩

/-- **A connection that is served leaves one descriptor open**: the one that `aceptar` made. -/
theorem exec_acciones {s : Proceso} (hs : s.aceptando = false) (a : Atencion) :
    ∃ s', exec paso s (a.acciones s.hilos.length) = some s' ∧ s'.aceptando = false
      ∧ s'.hilos.length = s.hilos.length + 1
      ∧ ∀ n, owner s'.tabla n = owner (openAs .aceptar s.tabla) n := by
  obtain ⟨tabla, hrec, hduenos⟩ :=
    recorrer_atencion s.hilos.length a (openAs .aceptar s.tabla)
  obtain ⟨s₁, hs₁⟩ : ∃ s₁, exec paso s [.crear, .aceptar true] = some s₁ ∧ s₁.aceptando = false
      ∧ s₁.hilos = s.hilos ++ [.inicio (lowestFree (openAs .aceptar s.tabla))]
      ∧ s₁.tabla = openAs (.cliente s.hilos.length) (openAs .aceptar s.tabla) := by
    have hcrear : paso s .crear = some { s.abrir .aceptar with aceptando := true } := by
      rw [paso, hs]
      rfl
    refine ⟨{ (s.abrir .aceptar).abrir (.cliente s.hilos.length) with
      aceptando := false
      hilos := s.hilos ++ [.inicio (lowestFree (openAs .aceptar s.tabla))] }, ?_, rfl, rfl, rfl⟩
    rw [exec, hcrear, Option.bind_some]
    rfl
  obtain ⟨hexec₁, hacep₁, hhilos₁, htabla₁⟩ := hs₁
  obtain ⟨s', hexec, htabla, hhilos, hacep⟩ := exec_recorrer hhilos₁ (htabla₁ ▸ hrec)
  refine ⟨s', ?_, hacep.trans hacep₁, ?_, ?_⟩
  · have hsplit : a.acciones s.hilos.length
        = [.crear, .aceptar true] ++ a.pasos.map (.hilo s.hilos.length) := rfl
    rw [hsplit, exec_append, hexec₁, Option.bind_some, hexec]
  · rw [hhilos, List.length_append, List.length_singleton]
  · rw [htabla]
    exact hduenos

/-! ## Serving many -/

/-- **What is open after a sequence of connections**: what was open before, and one more number for
each connection. -/
theorem exec_atender {s : Proceso} (hs : s.aceptando = false) (atenciones : List Atencion) :
    ∃ s', exec paso s (atender s.hilos.length atenciones) = some s'
      ∧ ∃ fugas : List ℕ, fugas.length = atenciones.length ∧ fugas.Nodup
        ∧ (∀ n ∈ fugas, owner s.tabla n = none)
        ∧ ∀ n, (owner s'.tabla n).isSome ↔ (owner s.tabla n).isSome ∨ n ∈ fugas := by
  induction atenciones generalizing s with
  | nil => exact ⟨s, rfl, [], rfl, List.nodup_nil, by simp, by simp⟩
  | cons a atenciones ih =>
      obtain ⟨s₁, hexec₁, hacep₁, hhilos₁, htabla₁⟩ := exec_acciones hs a
      obtain ⟨s', hexec, fugas, hlargo, hnodup, hlibres, hiff⟩ := ih hacep₁
      have habiertos (n : ℕ) : (owner s₁.tabla n).isSome
          ↔ (owner s.tabla n).isSome ∨ n = lowestFree s.tabla := by
        rw [htabla₁, owner_openAs]
        split
        · next h => simp [h]
        · next h => simp [h]
      refine ⟨s', ?_, lowestFree s.tabla :: fugas, by rw [List.length_cons, hlargo]; rfl, ?_, ?_, ?_⟩
      · rw [atender, exec_append, hexec₁, Option.bind_some, ← hhilos₁, hexec]
      · refine List.nodup_cons.mpr ⟨fun hmem => ?_, hnodup⟩
        -- the first leak is still open when the second connection comes
        have hlibre := hlibres _ hmem
        rw [htabla₁, owner_openAs, if_pos rfl] at hlibre
        cases hlibre
      · intro n hn
        rcases List.mem_cons.mp hn with rfl | hn
        · exact owner_lowestFree s.tabla
        · have hlibre := hlibres n hn
          rw [htabla₁, owner_openAs] at hlibre
          split at hlibre
          · cases hlibre
          · exact hlibre
      · intro n
        rw [hiff, habiertos, List.mem_cons, or_assoc]

/-- **When serving connections leaks no descriptor**: there were none. For every sequence of
connections, each served to its end in any of the three ways, and every table of descriptors. The
number that `aceptar` overwrites is held by nobody, so that none of the three ways can close it. -/
theorem sin_fugas_iff {s : Proceso} (hs : s.aceptando = false) (atenciones : List Atencion) :
    ∃ s', exec paso s (atender s.hilos.length atenciones) = some s'
      ∧ ((∀ n, (owner s'.tabla n).isSome ↔ (owner s.tabla n).isSome) ↔ atenciones = []) := by
  obtain ⟨s', hexec, fugas, hlargo, -, hlibres, hiff⟩ := exec_atender hs atenciones
  refine ⟨s', hexec, fun hmismo => ?_, ?_⟩
  · rw [← List.length_eq_zero_iff, ← hlargo, List.length_eq_zero_iff, List.eq_nil_iff_forall_not_mem]
    intro n hn
    have habierto := (hmismo n).mp ((hiff n).mpr (.inr hn))
    rw [hlibres n hn] at habierto
    cases habierto
  · rintro rfl n
    rw [hiff, List.length_eq_zero_iff.mp hlargo]
    simp

/-- A connection that is refused leaves a number open, and none leaves nothing. -/
theorem sin_fugas_rechazado :
    (∃ s', exec paso (.inicio tablaInicial) (atender 0 [.rechazado]) = some s'
        ∧ ¬ ∀ n, (owner s'.tabla n).isSome ↔ (owner tablaInicial n).isSome)
      ∧ ∃ s', exec paso (.inicio tablaInicial) (atender 0 []) = some s'
        ∧ ∀ n, (owner s'.tabla n).isSome ↔ (owner tablaInicial n).isSome := by
  have hinicio : (Proceso.inicio tablaInicial).aceptando = false := rfl
  obtain ⟨s', hexec, hfuga⟩ := sin_fugas_iff hinicio [.rechazado]
  obtain ⟨s'', hexec', hnada⟩ := sin_fugas_iff hinicio []
  exact ⟨⟨s', hexec, fun hmismo => List.cons_ne_nil _ _ (hfuga.mp hmismo)⟩,
    ⟨s'', hexec', hnada.mpr rfl⟩⟩

/-- **A connection that gets the 503 answer leaves the number 3 open.** -/
theorem fuga_sinServicio :
    ¬ ∀ (s : Proceso) (atenciones : List Atencion), s.aceptando = false →
      ∃ s', exec paso s (atender s.hilos.length atenciones) = some s'
        ∧ ∀ n, (owner s'.tabla n).isSome ↔ (owner s.tabla n).isSome := by
  intro hall
  obtain ⟨s', hexec, hmismo⟩ := hall (.inicio tablaInicial) [.sinServicio false] rfl
  have htabla : (exec paso (.inicio tablaInicial) (atender 0 [.sinServicio false])).map
      (fun s => (owner s.tabla 3).isSome) = some true := rfl
  rw [show (Proceso.inicio tablaInicial).hilos.length = 0 from rfl] at hexec
  rw [hexec, Option.map_some, Option.some.injEq] at htabla
  have habierto := (hmismo 3).mp htabla
  exact absurd habierto (by decide)

end LoadBalancer.Descriptores
