/-
The descriptors of the balancer process: what `aceptar` and the threads of `hilo_Cliente`
open and close.

A `Socket` is closed by `cerrar()` and once more by the destructor that `delete` runs, with
other statements in between. The second `close` is given a number that is free by then, or
one that has been given out again: [`cierres_propios`] says that the threads keep to their
own descriptors as long as no descriptor is opened with the number of a socket that was
closed and not deleted yet.

One step is one system call that changes the table of descriptors, or a statement between
two of them. Which of its ways a thread takes, and what it sends, does not matter here: the
action says so.
-/
import LoadBalancer.Lib.Transition
import LoadBalancer.Lib.Handles

set_option autoImplicit false

namespace LoadBalancer.Descriptores

open LoadBalancer.Transition LoadBalancer.Handles

/-! ## The process -/

/-- What an open descriptor is for. -/
inductive Dueno
  /-- Opened before the first connection. -/
  | proceso
  /-- The socket that `aceptar` creates, and whose number `asignarID` overwrites. -/
  | aceptar
  | cliente (hilo : ℕ)
  | servidor (hilo : ℕ)
  /-- The error page, while `leerArchivo` reads it. -/
  | pagina (hilo : ℕ)
deriving DecidableEq, Repr

/-- The thread that a descriptor belongs to. -/
def Dueno.hilo : Dueno → Option ℕ
  | .proceso => none
  | .aceptar => none
  | .cliente hilo => some hilo
  | .servidor hilo => some hilo
  | .pagina hilo => some hilo

/-- The point of `hilo_Cliente` that is executed next, with the numbers in its two sockets. -/
inductive Punto
  | inicio (socket_cliente : ℕ)
  | abrirPagina (socket_cliente : ℕ)
  | cerrarPagina (socket_cliente archivo : ℕ)
  | despedir (socket_cliente : ℕ)
  | crearServidor (socket_cliente : ℕ)
  | relevar (socket_cliente socket_servidor : ℕ)
  | cerrarCliente (socket_cliente socket_servidor : ℕ) (completo : Bool)
  | cerrarServidor (socket_cliente socket_servidor : ℕ) (completo : Bool)
  | registrar (socket_cliente socket_servidor : ℕ)
  | borrarCliente (socket_cliente socket_servidor : ℕ)
  | borrarServidor (socket_servidor : ℕ)
  | terminado
deriving DecidableEq, Repr

/-- A call of `close`, and who the number belonged to. -/
structure Cierre where
  hilo : ℕ
  numero : ℕ
  dueno : Option Dueno
deriving DecidableEq, Repr

/-- The process. `obtenidos` and `cierres` record what was opened and closed, in order. -/
structure Proceso where
  tabla : Table Dueno
  /-- `hilo_Escuchador_Clientes` is inside `aceptar`, behind its `new Socket`. -/
  aceptando : Bool
  hilos : List Punto
  obtenidos : List Dueno
  cierres : List Cierre

/-- What a step does to the table. -/
inductive Efecto
  | nada
  | abre (dueno : Dueno)
  | cierra (numero : ℕ)
deriving DecidableEq, Repr

/-! ## Steps -/

/-- The next step of thread `h`; `libre` is the number that a descriptor gets if one is opened. -/
def siguientePunto (h : ℕ) (si : Bool) (libre : ℕ) : Punto → Option (Efecto × Punto)
  -- `servidores.empty()`
  | .inicio c => some (.nada, if si then .abrirPagina c else .crearServidor c)
  -- whether the `ifstream` could be opened
  | .abrirPagina c =>
      if si then some (.abre (.pagina h), .cerrarPagina c libre) else some (.nada, .despedir c)
  | .cerrarPagina c archivo => some (.cierra archivo, .despedir c)
  -- `cerrar()` and `return`: this way out has no `delete`
  | .despedir c => some (.cierra c, .terminado)
  | .crearServidor c => some (.abre (.servidor h), .relevar c libre)
  -- whether `conectar` succeeds; the relay itself opens and closes nothing
  | .relevar c v => some (.nada, .cerrarCliente c v si)
  | .cerrarCliente c v completo => some (.cierra c, .cerrarServidor c v completo)
  | .cerrarServidor c v completo =>
      some (.cierra v, if completo then .registrar c v else .borrarCliente c v)
  | .registrar c v => some (.nada, .borrarCliente c v)
  -- the destructors call `cerrar()` with the numbers that are still in the sockets
  | .borrarCliente c v => some (.cierra c, .borrarServidor v)
  | .borrarServidor v => some (.cierra v, .terminado)
  | .terminado => none

/-- A descriptor is opened. -/
def Proceso.abrir (s : Proceso) (dueno : Dueno) : Proceso :=
  { s with tabla := openAs dueno s.tabla, obtenidos := s.obtenidos ++ [dueno] }

/-- Thread `h` closes a number. -/
def Proceso.cerrar (s : Proceso) (h numero : ℕ) : Proceso :=
  { s with
    tabla := close numero s.tabla
    cierres := s.cierres ++ [⟨h, numero, owner s.tabla numero⟩] }

/-- The effect of a step of thread `h`. -/
def Proceso.aplicar (s : Proceso) (h : ℕ) : Efecto → Proceso
  | .nada => s
  | .abre dueno => s.abrir dueno
  | .cierra numero => s.cerrar h numero

inductive Accion
  /-- `new Socket` in `aceptar`. -/
  | crear
  /-- `accept` returns. -/
  | aceptar (exito : Bool)
  | hilo (h : ℕ) (si : Bool)
deriving DecidableEq, Repr

def paso (s : Proceso) : Accion → Option Proceso
  | .crear => if s.aceptando then none else some { s.abrir .aceptar with aceptando := true }
  | .aceptar exito =>
      if s.aceptando then
        if exito then
          some { s.abrir (.cliente s.hilos.length) with
                 aceptando := false
                 hilos := s.hilos ++ [.inicio (lowestFree s.tabla)] }
        -- a null pointer is returned, and the socket is not deleted
        else some { s with aceptando := false }
      else none
  | .hilo h si =>
      (s.hilos[h]?).bind fun p =>
        (siguientePunto h si (lowestFree s.tabla) p).map fun (efecto, p') =>
          { s.aplicar h efecto with hilos := s.hilos.set h p' }

/-- The process before the first connection. -/
def Proceso.inicio (tabla : Table Dueno) : Proceso := ⟨tabla, false, [], [], []⟩

/-! ## What a thread holds -/

namespace Punto

/-- The descriptors that the thread has opened and not closed yet. -/
def tiene (h : ℕ) : Punto → List (ℕ × Dueno)
  | .inicio c => [(c, .cliente h)]
  | .abrirPagina c => [(c, .cliente h)]
  | .cerrarPagina c archivo => [(c, .cliente h), (archivo, .pagina h)]
  | .despedir c => [(c, .cliente h)]
  | .crearServidor c => [(c, .cliente h)]
  | .relevar c v => [(c, .cliente h), (v, .servidor h)]
  | .cerrarCliente c v _ => [(c, .cliente h), (v, .servidor h)]
  | .cerrarServidor _ v _ => [(v, .servidor h)]
  | _ => []

/-- The numbers that were closed by `cerrar()` and that `delete` will close again. -/
def pendientes : Punto → List ℕ
  | .cerrarServidor c _ _ => [c]
  | .registrar c v => [c, v]
  | .borrarCliente c v => [c, v]
  | .borrarServidor v => [v]
  | _ => []

/-- What the thread may still open. -/
def porObtener (h : ℕ) : Punto → List Dueno
  | .inicio _ => [.pagina h, .servidor h]
  | .abrirPagina _ => [.pagina h]
  | .crearServidor _ => [.servidor h]
  | _ => []

/-- The step opens a descriptor. -/
def abre (si : Bool) : Punto → Bool
  | .abrirPagina _ => si
  | .crearServidor _ => true
  | _ => false

theorem hilo_of_mem_tiene {h n : ℕ} {o : Dueno} {p : Punto} (hmem : (n, o) ∈ p.tiene h) :
    o.hilo = some h := by
  have hall : ∀ x ∈ p.tiene h, x.2.hilo = some h := by
    cases p <;> simp [tiene, Dueno.hilo]
  exact hall (n, o) hmem

theorem hilo_of_mem_porObtener {h : ℕ} {o : Dueno} {p : Punto} (hmem : o ∈ p.porObtener h) :
    o.hilo = some h := by
  have hall : ∀ x ∈ p.porObtener h, x.hilo = some h := by
    cases p <;> simp [porObtener, Dueno.hilo]
  exact hall o hmem

end Punto

/-- **What a step of a thread can do**: nothing to the table; open a descriptor that it could
still obtain; close one that it holds; or close a number again. -/
inductive Avanza (h : ℕ) (si : Bool) (libre : ℕ) (p p' : Punto) : Efecto → Prop
  | nada (htiene : ∀ x, x ∈ p'.tiene h ↔ x ∈ p.tiene h) (hpend : p'.pendientes ⊆ p.pendientes) :
      Avanza h si libre p p' .nada
  | abre (o : Dueno) (ho : o ∈ p.porObtener h) (hno : o ∉ p'.porObtener h)
      (habre : p.abre si = true) (htiene : ∀ x, x ∈ p'.tiene h ↔ x = (libre, o) ∨ x ∈ p.tiene h)
      (hpend : p'.pendientes ⊆ p.pendientes) : Avanza h si libre p p' (.abre o)
  | cierra (n : ℕ) (o : Dueno) (ho : (n, o) ∈ p.tiene h)
      (htiene : ∀ x, x ∈ p'.tiene h ↔ x ∈ p.tiene h ∧ x ≠ (n, o))
      (hpend : p'.pendientes ⊆ n :: p.pendientes) : Avanza h si libre p p' (.cierra n)
  | repite (n : ℕ) (hn : n ∈ p.pendientes) (htiene : ∀ x, x ∈ p'.tiene h ↔ x ∈ p.tiene h)
      (hpend : p'.pendientes ⊆ p.pendientes) : Avanza h si libre p p' (.cierra n)

theorem siguientePunto_avanza {h libre : ℕ} {si : Bool} {p p' : Punto} {e : Efecto}
    (hs : siguientePunto h si libre p = some (e, p')) :
    Avanza h si libre p p' e ∧ p'.porObtener h ⊆ p.porObtener h := by
  cases p with
  | inicio c =>
      cases hs
      cases si
      · exact ⟨.nada (fun _ => Iff.rfl) (fun _ => id), by simp [Punto.porObtener]⟩
      · exact ⟨.nada (fun _ => Iff.rfl) (fun _ => id), by simp [Punto.porObtener]⟩
  | abrirPagina c =>
      cases si
      · cases hs
        exact ⟨.nada (fun _ => Iff.rfl) (fun _ => id), by simp [Punto.porObtener]⟩
      · cases hs
        refine ⟨.abre (.pagina h) (by simp [Punto.porObtener]) (by simp [Punto.porObtener]) rfl
          (fun x => ?_) (fun _ => id), by simp [Punto.porObtener]⟩
        simp [Punto.tiene, or_comm]
  | cerrarPagina c archivo =>
      cases hs
      refine ⟨.cierra archivo (.pagina h) (by simp [Punto.tiene]) (fun x => ?_)
        (by simp [Punto.pendientes]), fun _ => id⟩
      simp only [Punto.tiene, List.mem_cons, List.not_mem_nil, or_false]
      constructor
      · rintro rfl
        exact ⟨.inl rfl, by simp⟩
      · rintro ⟨h | h, hne⟩
        · exact h
        · exact absurd h hne
  | despedir c =>
      cases hs
      exact ⟨.cierra c (.cliente h) (by simp [Punto.tiene]) (by simp [Punto.tiene])
        (by simp [Punto.pendientes]), fun _ => id⟩
  | crearServidor c =>
      cases hs
      refine ⟨.abre (.servidor h) (by simp [Punto.porObtener]) (by simp [Punto.porObtener]) rfl
        (fun x => ?_) (fun _ => id), by simp [Punto.porObtener]⟩
      simp [Punto.tiene, or_comm]
  | relevar c v =>
      cases hs
      exact ⟨.nada (fun _ => Iff.rfl) (fun _ => id), fun _ => id⟩
  | cerrarCliente c v completo =>
      cases hs
      refine ⟨.cierra c (.cliente h) (by simp [Punto.tiene]) (fun x => ?_) (fun _ => id),
        fun _ => id⟩
      simp only [Punto.tiene, List.mem_cons, List.not_mem_nil, or_false]
      constructor
      · rintro rfl
        exact ⟨.inr rfl, by simp⟩
      · rintro ⟨h | h, hne⟩
        · exact absurd h hne
        · exact h
  | cerrarServidor c v completo =>
      cases hs
      cases completo
      · exact ⟨.cierra v (.servidor h) (by simp [Punto.tiene]) (by simp [Punto.tiene])
          (by simp [Punto.pendientes]), by simp [Punto.porObtener]⟩
      · exact ⟨.cierra v (.servidor h) (by simp [Punto.tiene]) (by simp [Punto.tiene])
          (by simp [Punto.pendientes]), by simp [Punto.porObtener]⟩
  | registrar c v =>
      cases hs
      exact ⟨.nada (fun _ => Iff.rfl) (fun _ => id), fun _ => id⟩
  | borrarCliente c v =>
      cases hs
      exact ⟨.repite c (by simp [Punto.pendientes]) (fun _ => Iff.rfl)
        (by simp [Punto.pendientes]), fun _ => id⟩
  | borrarServidor v =>
      cases hs
      exact ⟨.repite v (by simp [Punto.pendientes]) (fun _ => Iff.rfl)
        (by simp [Punto.pendientes]), fun _ => id⟩
  | terminado => cases hs

/-- **What a step of the process can do.** -/
inductive Pasa (s : Proceso) : Accion → Proceso → Prop
  | crear : Pasa s .crear { s.abrir .aceptar with aceptando := true }
  | aceptado :
      Pasa s (.aceptar true)
        { s.abrir (.cliente s.hilos.length) with
          aceptando := false
          hilos := s.hilos ++ [.inicio (lowestFree s.tabla)] }
  | noAceptado : Pasa s (.aceptar false) { s with aceptando := false }
  | hilo (h : ℕ) (si : Bool) (p p' : Punto) (e : Efecto) (hp : s.hilos[h]? = some p)
      (hav : Avanza h si (lowestFree s.tabla) p p' e) (hobt : p'.porObtener h ⊆ p.porObtener h) :
      Pasa s (.hilo h si) { s.aplicar h e with hilos := s.hilos.set h p' }

theorem paso_pasa {s s' : Proceso} {a : Accion} (h : paso s a = some s') : Pasa s a s' := by
  cases a with
  | crear =>
      simp only [paso] at h
      split at h
      · cases h
      · cases h
        exact .crear
  | aceptar exito =>
      simp only [paso] at h
      split at h
      · cases exito with
        | true =>
            cases h
            exact .aceptado
        | false =>
            cases h
            exact .noAceptado
      · cases h
  | hilo h si =>
      simp only [paso, Option.bind_eq_some_iff, Option.map_eq_some_iff] at h
      obtain ⟨p, hp, ⟨e, p'⟩, hs, h⟩ := h
      cases h
      obtain ⟨hav, hobt⟩ := siguientePunto_avanza hs
      exact .hilo h si p p' e hp hav hobt

/-- The threads after a step of one of them. -/
theorem getElem?_set_eq_some_iff {hilos : List Punto} {h k : ℕ} {p p' q : Punto}
    (hp : hilos[h]? = some p) :
    (hilos.set h p')[k]? = some q ↔ k = h ∧ q = p' ∨ k ≠ h ∧ hilos[k]? = some q := by
  have hlt := (List.getElem?_eq_some_iff.mp hp).1
  rw [List.getElem?_set]
  by_cases hk : h = k
  · subst hk
    rw [if_pos rfl, if_pos hlt, Option.some.injEq]
    simp [eq_comm]
  · rw [if_neg hk]
    simp [Ne.symm hk]

/-! ## The balance

Every descriptor that a thread obtained is open or was closed, as often as it was opened. -/

/-- The closings of a descriptor that is `o`. -/
def Proceso.cerrados (s : Proceso) (o : Dueno) : ℕ := s.cierres.countP (·.dueno = some o)

def Balance (s : Proceso) : Prop :=
  ∀ o, o.hilo.isSome → s.cerrados o + s.tabla.count (some o) = s.obtenidos.count o

theorem Balance.abrir {s : Proceso} (hb : Balance s) (dueno : Dueno) : Balance (s.abrir dueno) := by
  intro o ho
  have hbal := hb o ho
  show s.cerrados o + (openAs dueno s.tabla).count (some o) = (s.obtenidos ++ [dueno]).count o
  rw [List.count_append]
  by_cases heq : dueno = o
  · subst heq
    rw [count_openAs_self, List.count_singleton_self]
    omega
  · have hotro : [dueno].count o = 0 := List.count_eq_zero.mpr (by simpa using Ne.symm heq)
    rw [count_openAs_of_ne heq, hotro]
    exact hbal

theorem Balance.cerrar {s : Proceso} (hb : Balance s) (h numero : ℕ) :
    Balance (s.cerrar h numero) := by
  intro o ho
  have hbal := hb o ho
  show (s.cierres ++ [Cierre.mk h numero (owner s.tabla numero)]).countP (·.dueno = some o)
    + (close numero s.tabla).count (some o) = s.obtenidos.count o
  rw [Proceso.cerrados] at hbal
  rw [List.countP_append]
  by_cases hown : owner s.tabla numero = some o
  · have hcount := count_close_of_owner hown
    rw [List.countP_singleton, if_pos (by simpa using hown)]
    omega
  · rw [count_close_of_ne hown, List.countP_singleton, if_neg (by simpa using hown)]
    exact hbal

theorem Balance.paso {s s' : Proceso} {a : Accion} (hb : Balance s)
    (hpaso : paso s a = some s') : Balance s' := by
  cases paso_pasa hpaso with
  | crear => exact hb.abrir .aceptar
  | aceptado => exact hb.abrir (.cliente s.hilos.length)
  | noAceptado => exact hb
  | hilo h si p p' e hp hav hobt =>
      cases e with
      | nada => exact hb
      | abre dueno => exact hb.abrir dueno
      | cierra numero => exact hb.cerrar h numero

/-! ## No descriptor is obtained twice -/

structure Obtenido (s : Proceso) : Prop where
  nuevos : ∀ h (p : Punto), s.hilos[h]? = some p → ∀ o ∈ p.porObtener h, o ∉ s.obtenidos
  existen : ∀ o ∈ s.obtenidos, ∀ h, o.hilo = some h → h < s.hilos.length
  unaVez : ∀ o, o.hilo.isSome → s.obtenidos.count o ≤ 1

/-- Another descriptor that is obtained, by a thread that did not have it. -/
theorem count_concat_le {l : List Dueno} {o : Dueno} (hl : ∀ x, x.hilo.isSome → l.count x ≤ 1)
    (ho : o.hilo.isSome → o ∉ l) : ∀ x, x.hilo.isSome → (l ++ [o]).count x ≤ 1 := by
  intro x hx
  rw [List.count_append]
  by_cases heq : o = x
  · subst heq
    have hantes : l.count o = 0 := List.count_eq_zero.mpr (ho hx)
    have hahora : [o].count o = 1 := List.count_singleton_self
    omega
  · have hotro : [o].count x = 0 := List.count_eq_zero.mpr (by simpa using Ne.symm heq)
    rw [hotro]
    exact hl x hx

section Obtenido

variable {s : Proceso} {h : ℕ} {p p' : Punto} {o : Dueno}

/-- The socket that `aceptar` makes is no thread's. -/
theorem Obtenido.crear (ho : Obtenido s) :
    Obtenido { s.abrir .aceptar with aceptando := true } where
  nuevos := by
    intro h p hp o hob hmem
    rcases List.mem_append.mp hmem with hmem | hmem
    · exact ho.nuevos h p hp o hob hmem
    · have hhilo := Punto.hilo_of_mem_porObtener hob
      rw [List.mem_singleton.mp hmem] at hhilo
      cases hhilo
  existen := by
    intro o hmem h hh
    rcases List.mem_append.mp hmem with hmem | hmem
    · exact ho.existen o hmem h hh
    · rw [List.mem_singleton.mp hmem] at hh
      cases hh
  unaVez := count_concat_le ho.unaVez (by simp [Dueno.hilo])

/-- A new thread: its number is above all others. -/
theorem Obtenido.aceptado (ho : Obtenido s) (c : ℕ) :
    Obtenido
      { s.abrir (.cliente s.hilos.length) with
        aceptando := false
        hilos := s.hilos ++ [.inicio c] } where
  nuevos := by
    intro h p hp o hob hmem
    have hhilo := Punto.hilo_of_mem_porObtener hob
    rcases List.mem_append.mp hmem with hmem | hmem
    · change (s.hilos ++ [_])[h]? = some p at hp
      rw [List.getElem?_append] at hp
      split at hp
      · exact ho.nuevos h p hp o hob hmem
      · next hlt => exact hlt (ho.existen o hmem h hhilo)
    · rw [List.mem_singleton.mp hmem] at hob
      -- a client's descriptor is never one that is still to be obtained
      cases p <;> simp [Punto.porObtener] at hob
  existen := by
    intro o hmem h hh
    change h < (s.hilos ++ [_]).length
    rw [List.length_append, List.length_singleton]
    rcases List.mem_append.mp hmem with hmem | hmem
    · exact Nat.lt_succ_of_lt (ho.existen o hmem h hh)
    · rw [List.mem_singleton.mp hmem] at hh
      cases hh
      exact Nat.lt_succ_self _
  unaVez := by
    apply count_concat_le ho.unaVez
    intro _ hmem
    exact absurd (ho.existen _ hmem _ rfl) (Nat.lt_irrefl _)

/-- A step of a thread that opens nothing. -/
theorem Obtenido.sigue (ho : Obtenido s) (hp : s.hilos[h]? = some p)
    (hobt : p'.porObtener h ⊆ p.porObtener h) :
    Obtenido { s with hilos := s.hilos.set h p' } where
  nuevos := by
    intro k q hq o hob
    rcases (getElem?_set_eq_some_iff hp).mp hq with ⟨rfl, rfl⟩ | ⟨-, hq⟩
    · exact ho.nuevos _ _ hp o (hobt hob)
    · exact ho.nuevos _ _ hq o hob
  existen := by
    intro o hmem k hk
    change k < (s.hilos.set h p').length
    rw [List.length_set]
    exact ho.existen o hmem k hk
  unaVez := ho.unaVez

/-- A thread opens a descriptor that it will not open again. -/
theorem Obtenido.abre (ho : Obtenido s) (hp : s.hilos[h]? = some p)
    (hobt : p'.porObtener h ⊆ p.porObtener h) (hob : o ∈ p.porObtener h)
    (hno : o ∉ p'.porObtener h) :
    Obtenido { s.abrir o with hilos := s.hilos.set h p' } where
  nuevos := by
    intro k q hq x hx hmem
    rcases List.mem_append.mp hmem with hmem | hmem
    · exact (ho.sigue hp hobt).nuevos k q hq x hx hmem
    · rw [List.mem_singleton.mp hmem] at hx
      have hhilo := Punto.hilo_of_mem_porObtener hob
      rcases (getElem?_set_eq_some_iff hp).mp hq with ⟨rfl, rfl⟩ | ⟨hne, -⟩
      · exact hno hx
      · exact hne (Option.some.inj ((Punto.hilo_of_mem_porObtener hx).symm.trans hhilo))
  existen := by
    intro x hmem k hk
    rcases List.mem_append.mp hmem with hmem | hmem
    · exact (ho.sigue hp hobt).existen x hmem k hk
    · rw [List.mem_singleton.mp hmem, Punto.hilo_of_mem_porObtener hob, Option.some.injEq] at hk
      change k < (s.hilos.set h p').length
      rw [List.length_set, ← hk]
      exact (List.getElem?_eq_some_iff.mp hp).1
  unaVez := by
    apply count_concat_le ho.unaVez
    intro _
    exact ho.nuevos h p hp o hob

theorem Obtenido.paso {s' : Proceso} {a : Accion} (ho : Obtenido s)
    (hpaso : paso s a = some s') : Obtenido s' := by
  cases paso_pasa hpaso with
  | crear => exact ho.crear
  | aceptado => exact ho.aceptado _
  | noAceptado => exact ⟨ho.nuevos, ho.existen, ho.unaVez⟩
  | hilo h si p p' e hp hav hobt =>
      have hsigue := ho.sigue hp hobt
      cases hav with
      | nada htiene hpend => exact hsigue
      | cierra n o hmem htiene hpend => exact ⟨hsigue.nuevos, hsigue.existen, hsigue.unaVez⟩
      | repite n hn htiene hpend => exact ⟨hsigue.nuevos, hsigue.existen, hsigue.unaVez⟩
      | abre o hob hno habre htiene hpend => exact ho.abre hp hobt hob hno

end Obtenido

/-! ## Who holds what -/

/-- The step opens a descriptor. -/
def Proceso.abre (s : Proceso) : Accion → Bool
  | .crear => true
  | .aceptar exito => exito
  | .hilo h si => (s.hilos[h]?).any (·.abre si)

/-- A descriptor that is opened does not get a number that some thread will close again. -/
def NumeroNuevo (s : Proceso) (a : Accion) : Prop :=
  s.abre a = true → ∀ p ∈ s.hilos, lowestFree s.tabla ∉ p.pendientes

instance (s : Proceso) (a : Accion) : Decidable (NumeroNuevo s a) :=
  inferInstanceAs (Decidable (_ → _))

/-- Every descriptor of a thread is open and its own, and nothing that it will close again is. -/
structure Ordenado (s : Proceso) : Prop where
  duenos : ∀ h n (o : Dueno), o.hilo = some h →
    (owner s.tabla n = some o ↔ ∃ p, s.hilos[h]? = some p ∧ (n, o) ∈ p.tiene h)
  pendientes : ∀ p ∈ s.hilos, ∀ n ∈ p.pendientes, owner s.tabla n = none
  propios : ∀ c ∈ s.cierres, ∀ o, c.dueno = some o → o.hilo = some c.hilo

/-- A descriptor of another thread, or of none, changes nothing for a thread. -/
theorem owner_openAs_ajeno {t : Table Dueno} {n h : ℕ} {o x : Dueno} (ho : o.hilo ≠ some h)
    (hx : x.hilo = some h) : owner (openAs o t) n = some x ↔ owner t n = some x := by
  rw [owner_openAs_eq_some_iff, or_iff_right]
  rintro ⟨-, rfl⟩
  exact ho hx

/-- Neither does the closing of a descriptor of another thread. -/
theorem owner_close_ajeno {t : Table Dueno} {m n h : ℕ} {x : Dueno}
    (hm : ∀ o, owner t m = some o → o.hilo ≠ some h) (hx : x.hilo = some h) :
    owner (close m t) n = some x ↔ owner t n = some x := by
  rw [owner_close_eq_some_iff, and_iff_right_iff_imp]
  rintro hown rfl
  exact hm x hown hx

/-- The owners after a step of thread `h`: what it holds now, and for the others what they held. -/
theorem duenos_set {s : Proceso} {h : ℕ} {p p' : Punto} {tabla : Table Dueno} (ho : Ordenado s)
    (hp : s.hilos[h]? = some p)
    (hsuyo : ∀ n (o : Dueno), o.hilo = some h → (owner tabla n = some o ↔ (n, o) ∈ p'.tiene h))
    (hotros : ∀ k n (o : Dueno), k ≠ h → o.hilo = some k →
      (owner tabla n = some o ↔ owner s.tabla n = some o)) (k n : ℕ) (o : Dueno)
    (hok : o.hilo = some k) :
    owner tabla n = some o ↔ ∃ q, (s.hilos.set h p')[k]? = some q ∧ (n, o) ∈ q.tiene k := by
  by_cases hk : k = h
  · subst hk
    rw [hsuyo n o hok]
    constructor
    · exact fun hmem => ⟨p', (getElem?_set_eq_some_iff hp).mpr (.inl ⟨rfl, rfl⟩), hmem⟩
    · rintro ⟨q, hq, hmem⟩
      rcases (getElem?_set_eq_some_iff hp).mp hq with ⟨-, rfl⟩ | ⟨hne, -⟩
      · exact hmem
      · exact absurd rfl hne
  · rw [hotros k n o hk hok, ho.duenos k n o hok]
    refine exists_congr fun q => and_congr_left fun _ => ?_
    rw [getElem?_set_eq_some_iff hp]
    simp [hk]

section Ordenado

variable {s : Proceso} {h m : ℕ} {si : Bool} {p p' : Punto} {x : Dueno}

/-- What a thread holds is what it owns. -/
theorem Ordenado.tiene_iff (ho : Ordenado s) (hp : s.hilos[h]? = some p) {n : ℕ} {o : Dueno}
    (hoh : o.hilo = some h) : owner s.tabla n = some o ↔ (n, o) ∈ p.tiene h := by
  rw [ho.duenos h n o hoh, hp]
  simp

/-- A number that is opened stays out of the way of what is pending. -/
theorem Ordenado.pendientes_abrir (ho : Ordenado s)
    (hnuevo : ∀ p ∈ s.hilos, lowestFree s.tabla ∉ p.pendientes) (o : Dueno) :
    ∀ p ∈ s.hilos, ∀ n ∈ p.pendientes, owner (openAs o s.tabla) n = none := by
  intro p hp n hn
  rw [owner_openAs, if_neg, ho.pendientes p hp n hn]
  rintro rfl
  exact hnuevo p hp hn

/-- So does one that is closed. -/
theorem Ordenado.pendientes_cerrar (ho : Ordenado s) (m : ℕ) :
    ∀ p ∈ s.hilos, ∀ n ∈ p.pendientes, owner (close m s.tabla) n = none := by
  intro p hp n hn
  rw [owner_close, ho.pendientes p hp n hn, ite_self]

/-- What is pending after a step of thread `h`, if every number that was stays free. -/
theorem pendientes_set {tabla : Table Dueno} {hilos : List Punto}
    (hviejos : ∀ q ∈ hilos, ∀ n ∈ q.pendientes, owner tabla n = none)
    (hnuevos : ∀ n ∈ p'.pendientes, owner tabla n = none) :
    ∀ q ∈ hilos.set h p', ∀ n ∈ q.pendientes, owner tabla n = none := by
  intro q hq
  rcases List.mem_or_eq_of_mem_set hq with hq | rfl
  · exact hviejos q hq
  · exact hnuevos

/-- The socket that `aceptar` makes belongs to no thread. -/
theorem Ordenado.crear (ho : Ordenado s)
    (hnuevo : ∀ p ∈ s.hilos, lowestFree s.tabla ∉ p.pendientes) :
    Ordenado { s.abrir .aceptar with aceptando := true } where
  duenos := by
    intro h n o hoh
    have hajeno : Dueno.aceptar.hilo ≠ some h := by simp [Dueno.hilo]
    exact (owner_openAs_ajeno hajeno hoh).trans (ho.duenos h n o hoh)
  pendientes := ho.pendientes_abrir hnuevo .aceptar
  propios := ho.propios

/-- A new thread, with the descriptor of its client. -/
theorem Ordenado.aceptado (ho : Ordenado s)
    (hnuevo : ∀ p ∈ s.hilos, lowestFree s.tabla ∉ p.pendientes) :
    Ordenado
      { s.abrir (.cliente s.hilos.length) with
        aceptando := false
        hilos := s.hilos ++ [.inicio (lowestFree s.tabla)] } where
  duenos := by
    intro h n o hoh
    change owner (openAs (.cliente s.hilos.length) s.tabla) n = some o
      ↔ ∃ p, (s.hilos ++ [.inicio (lowestFree s.tabla)])[h]? = some p ∧ (n, o) ∈ p.tiene h
    by_cases hh : h = s.hilos.length
    · -- the new thread holds the new descriptor, and nothing held its number before
      subst hh
      have hantes : owner s.tabla n ≠ some o := by
        intro hown
        obtain ⟨p, hp, -⟩ := (ho.duenos _ n o hoh).mp hown
        rw [List.getElem?_eq_none (Nat.le_refl _)] at hp
        cases hp
      rw [owner_openAs_eq_some_iff, or_iff_left hantes, List.getElem?_concat_length]
      simp [Punto.tiene, eq_comm]
    · have hajeno : (Dueno.cliente s.hilos.length).hilo ≠ some h := by
        simpa [Dueno.hilo] using Ne.symm hh
      rw [owner_openAs_ajeno hajeno hoh, ho.duenos h n o hoh]
      refine exists_congr fun p => and_congr_left fun _ => ?_
      rw [List.getElem?_append]
      split
      · exact Iff.rfl
      · next hlt =>
          rw [List.getElem?_eq_none (Nat.not_lt.mp hlt), List.getElem?_eq_none]
          rw [List.length_singleton]
          omega
  pendientes := by
    intro p hp n hn
    rcases List.mem_append.mp hp with hp | hp
    · exact ho.pendientes_abrir hnuevo _ p hp n hn
    · rw [List.mem_singleton.mp hp] at hn
      cases hn
  propios := ho.propios

/-- A thread opens a descriptor that it did not have. -/
theorem Ordenado.abre (ho : Ordenado s) (hp : s.hilos[h]? = some p)
    (hnuevo : ∀ p ∈ s.hilos, lowestFree s.tabla ∉ p.pendientes) (hx : x ∈ p.porObtener h)
    (htiene : ∀ y, y ∈ p'.tiene h ↔ y = (lowestFree s.tabla, x) ∨ y ∈ p.tiene h)
    (hsub : p'.pendientes ⊆ p.pendientes) :
    Ordenado { s.abrir x with hilos := s.hilos.set h p' } where
  duenos := by
    have hxh := Punto.hilo_of_mem_porObtener hx
    apply duenos_set ho hp
    · intro n o hoh
      change owner (openAs x s.tabla) n = some o ↔ _
      rw [owner_openAs_eq_some_iff, ho.tiene_iff hp hoh, htiene, Prod.mk.injEq, eq_comm (a := x)]
    · intro k n o hk hok
      apply owner_openAs_ajeno _ hok
      intro hh
      exact hk (Option.some.inj (hh.symm.trans hxh))
  pendientes := by
    have hlibres := ho.pendientes_abrir hnuevo x
    apply pendientes_set hlibres
    intro n hn
    exact hlibres p (List.mem_of_getElem? hp) n (hsub hn)
  propios := ho.propios

/-- A closing keeps to its own thread's descriptors if the number is one of these, or free. -/
theorem Ordenado.propios_cerrar (ho : Ordenado s)
    (hm : ∀ o, owner s.tabla m = some o → o.hilo = some h) :
    ∀ c ∈ (s.cerrar h m).cierres, ∀ o, c.dueno = some o → o.hilo = some c.hilo := by
  intro c hc o hco
  rcases List.mem_append.mp hc with hc | hc
  · exact ho.propios c hc o hco
  · rw [List.mem_singleton.mp hc] at hco ⊢
    exact hm o hco

/-- A thread closes a descriptor that it holds. -/
theorem Ordenado.cierra (ho : Ordenado s) (hp : s.hilos[h]? = some p) (hx : (m, x) ∈ p.tiene h)
    (htiene : ∀ y, y ∈ p'.tiene h ↔ y ∈ p.tiene h ∧ y ≠ (m, x))
    (hsub : p'.pendientes ⊆ m :: p.pendientes) :
    Ordenado { s.cerrar h m with hilos := s.hilos.set h p' } := by
  have hxh := Punto.hilo_of_mem_tiene hx
  have hdueno : owner s.tabla m = some x := (ho.tiene_iff hp hxh).mpr hx
  have hsolo : ∀ o, owner s.tabla m = some o → o.hilo = some h := by
    intro o hown
    rw [hdueno] at hown
    cases hown
    exact hxh
  refine ⟨?_, ?_, ho.propios_cerrar hsolo⟩
  · apply duenos_set ho hp
    · intro n o hoh
      change owner (close m s.tabla) n = some o ↔ _
      rw [owner_close_eq_some_iff, ho.tiene_iff hp hoh, htiene, and_comm]
      apply and_congr_right
      intro hmem
      -- the number has one owner
      have hiff : n = m ↔ (n, o) = (m, x) := by
        rw [Prod.mk.injEq]
        refine ⟨fun hnm => ⟨hnm, ?_⟩, And.left⟩
        subst hnm
        have hdos := (ho.tiene_iff hp hoh).mpr hmem
        exact Option.some.inj (hdos.symm.trans hdueno)
      exact not_congr hiff
    · intro k n o hk hok
      apply owner_close_ajeno _ hok
      intro y hy heq
      exact hk (Option.some.inj (heq.symm.trans (hsolo y hy)))
  · apply pendientes_set (ho.pendientes_cerrar m)
    intro n hn
    rcases List.mem_cons.mp (hsub hn) with rfl | hn
    · rw [owner_close, if_pos rfl]
    · exact ho.pendientes_cerrar m p (List.mem_of_getElem? hp) n hn

/-- A thread closes a number again: it belongs to nobody. -/
theorem Ordenado.repite (ho : Ordenado s) (hp : s.hilos[h]? = some p) (hm : m ∈ p.pendientes)
    (htiene : ∀ y, y ∈ p'.tiene h ↔ y ∈ p.tiene h) (hsub : p'.pendientes ⊆ p.pendientes) :
    Ordenado { s.cerrar h m with hilos := s.hilos.set h p' } := by
  have hlibre : owner s.tabla m = none := ho.pendientes p (List.mem_of_getElem? hp) m hm
  have hsolo : ∀ k o, owner s.tabla m = some o → o.hilo = some k := by
    intro k o hown
    rw [hlibre] at hown
    cases hown
  have hnadie : ∀ (k n : ℕ) (o : Dueno), o.hilo = some k →
      (owner (close m s.tabla) n = some o ↔ owner s.tabla n = some o) := by
    intro k n o hok
    apply owner_close_ajeno _ hok
    intro y hy
    rw [hlibre] at hy
    cases hy
  refine ⟨?_, ?_, ho.propios_cerrar (hsolo h)⟩
  · apply duenos_set ho hp
    · intro n o hoh
      exact ((hnadie h n o hoh).trans (ho.tiene_iff hp hoh)).trans (htiene (n, o)).symm
    · intro k n o _ hok
      exact hnadie k n o hok
  · apply pendientes_set (ho.pendientes_cerrar m)
    intro n hn
    exact ho.pendientes_cerrar m p (List.mem_of_getElem? hp) n (hsub hn)

/-- A thread goes on and leaves the table alone. -/
theorem Ordenado.nada (ho : Ordenado s) (hp : s.hilos[h]? = some p)
    (htiene : ∀ y, y ∈ p'.tiene h ↔ y ∈ p.tiene h) (hsub : p'.pendientes ⊆ p.pendientes) :
    Ordenado { s with hilos := s.hilos.set h p' } where
  duenos := by
    apply duenos_set ho hp
    · intro n o hoh
      exact (ho.tiene_iff hp hoh).trans (htiene (n, o)).symm
    · intro _ _ _ _ _
      exact Iff.rfl
  pendientes := by
    apply pendientes_set ho.pendientes
    intro n hn
    exact ho.pendientes p (List.mem_of_getElem? hp) n (hsub hn)
  propios := ho.propios

/-- What one step keeps. -/
theorem Ordenado.paso {s' : Proceso} {a : Accion} (ho : Ordenado s) (hok : NumeroNuevo s a)
    (hpaso : paso s a = some s') : Ordenado s' := by
  cases paso_pasa hpaso with
  | crear => exact ho.crear (hok rfl)
  | aceptado => exact ho.aceptado (hok rfl)
  | noAceptado => exact ⟨ho.duenos, ho.pendientes, ho.propios⟩
  | hilo h si p p' e hp hav hobt =>
      cases hav with
      | nada htiene hsub => exact ho.nada hp htiene hsub
      | abre x hx hno habre htiene hsub =>
          have habre' : s.abre (.hilo h si) = true := by
            rw [Proceso.abre, hp]
            exact habre
          exact ho.abre hp (hok habre') hx htiene hsub
      | cierra m x hx htiene hsub => exact ho.cierra hp hx htiene hsub
      | repite m hm htiene hsub => exact ho.repite hp hm htiene hsub

end Ordenado

/-! ## The result -/

/-- The threads close their own descriptors and no others, each of them once: a thread holds what
it has not closed yet, and when it is done it has closed everything that it obtained. -/
structure CierresPropios (s : Proceso) : Prop where
  propios : ∀ c ∈ s.cierres, ∀ o, c.dueno = some o → o.hilo = some c.hilo
  abiertos : ∀ h (p : Punto) n o, s.hilos[h]? = some p → (n, o) ∈ p.tiene h →
    owner s.tabla n = some o
  unaVez : ∀ h (o : Dueno), s.hilos[h]? = some .terminado → o.hilo = some h → o ∈ s.obtenidos →
    s.cerrados o = 1

theorem CierresPropios.of_ordenado {s : Proceso} (hord : Ordenado s) (hobt : Obtenido s)
    (hbal : Balance s) : CierresPropios s := by
  refine ⟨hord.propios, fun h p n o hp hmem => ?_, fun h o hp hoh hmem => ?_⟩
  · exact (hord.duenos h n o (Punto.hilo_of_mem_tiene hmem)).mpr ⟨p, hp, hmem⟩
  · have hsome : o.hilo.isSome := Option.isSome_of_eq_some hoh
    -- a thread that is done holds nothing
    have hnada : s.tabla.count (some o) = 0 := count_eq_zero_iff.mpr fun n hn => by
      obtain ⟨q, hq, hqmem⟩ := (hord.duenos h n o hoh).mp hn
      rw [hp] at hq
      cases hq
      cases hqmem
    have hsuma := hbal o hsome
    have hle := hobt.unaVez o hsome
    have hpos := List.count_pos_iff.mpr hmem
    omega

/-- The process before the first connection, with nothing open that belongs to a thread. -/
theorem ordenado_inicio {tabla : Table Dueno} (h : ∀ o ∈ tabla, o = none ∨ o = some .proceso) :
    Ordenado (.inicio tabla) ∧ Obtenido (.inicio tabla) ∧ Balance (.inicio tabla) := by
  have hajeno (n : ℕ) (o : Dueno) (ho : o.hilo.isSome) : owner tabla n ≠ some o := by
    intro hown
    rcases h _ (mem_of_owner hown) with hnone | hproc
    · cases hnone
    · cases hproc
      cases ho
  refine ⟨⟨fun k n o hok => ?_, ?_, ?_⟩, ⟨?_, ?_, ?_⟩, fun o ho => ?_⟩
  · refine ⟨fun hown => absurd hown (hajeno n o (Option.isSome_of_eq_some hok)), ?_⟩
    rintro ⟨p, hp, -⟩
    cases hp
  · exact fun p hp => absurd hp List.not_mem_nil
  · exact fun c hc => absurd hc List.not_mem_nil
  · rintro k p hp
    cases hp
  · exact fun o ho => absurd ho List.not_mem_nil
  · exact fun o _ => Nat.zero_le 1
  · show 0 + tabla.count (some o) = 0
    rw [count_eq_zero_iff.mpr fun n => hajeno n o ho]

/-- **When the threads close only what is theirs.** In every run, from any table of descriptors and
with any number of connections, in which no descriptor is opened with a number that some thread
has closed and will close again. A number that was closed twice belongs, the second time, to whoever
it has been given to since. -/
theorem cierres_propios {tabla : Table Dueno} {s : Proceso}
    (h : ∀ o ∈ tabla, o = none ∨ o = some .proceso)
    (hs : Reach paso NumeroNuevo (.inicio tabla) s) : CierresPropios s := by
  obtain ⟨hord, hobt, hbal⟩ := ordenado_inicio h
  have hinv : Ordenado s ∧ Obtenido s ∧ Balance s := by
    refine hs.invariant (fun s => Ordenado s ∧ Obtenido s ∧ Balance s) ⟨hord, hobt, hbal⟩ ?_
    rintro s a s' ⟨hord, hobt, hbal⟩ hok hpaso
    exact ⟨hord.paso hok hpaso, hobt.paso hpaso, hbal.paso hpaso⟩
  exact .of_ordenado hinv.1 hinv.2.1 hinv.2.2

/-- Three descriptors, open before the first connection. -/
def tablaInicial : Table Dueno := List.replicate 3 (some .proceso)

/-- A connection that is relayed, and a second one that is accepted meanwhile. -/
def dosConexiones : List Accion :=
  [.crear, .aceptar true, .hilo 0 false, .hilo 0 true, .crear, .aceptar true, .hilo 0 true,
    .hilo 0 true, .hilo 0 true, .hilo 0 true, .hilo 0 true, .hilo 0 true]

theorem cierres_propios_dos_conexiones :
    (∀ o ∈ tablaInicial, o = none ∨ o = some .proceso)
      ∧ ∃ s, exec paso (.inicio tablaInicial) dosConexiones = some s
        ∧ Reach paso NumeroNuevo (.inicio tablaInicial) s ∧ CierresPropios s := by
  have hok : AllOk paso NumeroNuevo (.inicio tablaInicial) dosConexiones := by decide
  exact ⟨by decide, _, rfl, .of_exec hok rfl, cierres_propios (by decide) (.of_exec hok rfl)⟩

/-- A connection whose back-end refuses, and a second one that is accepted before the sockets of
the first are deleted. -/
def conexionEnMedio : List Accion :=
  [.crear, .aceptar true, .hilo 0 false, .hilo 0 true, .hilo 0 false, .hilo 0 true, .hilo 0 true,
    .crear, .aceptar true, .hilo 0 true, .hilo 0 true]

/-- **The first thread closes the second one's connection.** -/
theorem cierre_ajeno :
    ¬ ∀ (tabla : Table Dueno) (s : Proceso), (∀ o ∈ tabla, o = none ∨ o = some .proceso) →
      Reach paso always (.inicio tabla) s → CierresPropios s := by
  intro hall
  have hs : ∃ s, exec paso (.inicio tablaInicial) conexionEnMedio = some s
      ∧ ⟨0, 5, some (.cliente 1)⟩ ∈ s.cierres := ⟨_, rfl, by decide⟩
  obtain ⟨s, hexec, hcierre⟩ := hs
  have hpropio := (hall tablaInicial s (by decide)
    (.of_exec (allOk_always _ _) hexec)).propios _ hcierre (.cliente 1) rfl
  exact absurd hpropio (by decide)

end LoadBalancer.Descriptores
