/-
The report of the balancer.

`log` and `logRed` push onto the queue `log_mensajes`, and `manejarBitacora` empties it into the
report's file. Any number of threads does so at once, each under `mutex_mensajes`, and a step here
is one statement of one of them. The colour codes that `logRed` puts around its message are for the
terminal only: they are taken from the queue, but not written, and `filePosition` stays where it is.

What links the queue, the position and the file is [`Cuadra`]. It says what is still to be pushed by
the call under the lock, and what of the message at the front is already in the file or in the
position. Between the calls nothing is ([`bitacora_exacta`]).

What the terminal shows is not part of the model.
-/
import LoadBalancer.Lib.Monitor
import LoadBalancer.Descarga

set_option autoImplicit false

namespace LoadBalancer

open LoadBalancer.Transition LoadBalancer.Threads LoadBalancer.Token LoadBalancer.Monitor

/-! ## The code -/

/-- The members of the balancer that the report needs, and the contents of its file, which was
opened empty. `mutex_mensajes` says whether the mutex is free. -/
structure Bitacora where
  mutex_mensajes : Bool
  log_mensajes : List Texto
  filePosition : ℕ
  archivo : Texto

namespace Bitacora

/-- `RED`. -/
def RED : Texto := '\x1b' :: "[31m".toList

/-- `WHITE`. -/
def WHITE : Texto := '\x1b' :: "[0m".toList

/-- A call that pushes. -/
inductive Llamada
  | log (mensaje : Texto)
  | logRed (mensaje : Texto)
deriving DecidableEq, Repr

/-- What it pushes. -/
def Llamada.entradas : Llamada → List Texto
  | .log mensaje => [mensaje]
  | .logRed mensaje => [RED, mensaje, WHITE]

/-- The statement that a thread executes next. -/
inductive Punto
  /-- In none of the three functions. -/
  | fuera
  /-- The lock of `log` or `logRed`. -/
  | llama (l : Llamada)
  /-- The first of these pushes, or the end of the function. -/
  | encola (mensajes : List Texto)
  /-- The lock of `manejarBitacora`. -/
  | manejar
  /-- `while(!log_mensajes.empty())`, and `hilera = log_mensajes.front()`. -/
  | vuelta
  /-- The comparison of `hilera` with the codes, and `escribirArchivo`. -/
  | escribe (hilera : Texto)
  /-- `filePosition += hilera.size()`. -/
  | avanza (hilera : Texto)
  /-- `log_mensajes.pop()`. -/
  | saca (hilera : Texto)
deriving DecidableEq, Repr

/-- The message is for the file. -/
def Visible (hilera : Texto) : Prop := hilera ≠ RED ∧ hilera ≠ WHITE

instance instDecidableVisible (hilera : Texto) : Decidable (Visible hilera) :=
  inferInstanceAs (Decidable (_ ∧ _))

/-- The next statement of a thread: `none` when it has to wait for the mutex, and where the code has
no defined result. The length of a message and `filePosition` are `int`s. -/
def siguiente (b : Bitacora) : Punto → Option (Bitacora × Punto)
  | .fuera => none
  | .llama l =>
      if b.mutex_mensajes then some ({ b with mutex_mensajes := false }, .encola l.entradas)
      else none
  | .encola (mensaje :: mensajes) =>
      some ({ b with log_mensajes := b.log_mensajes ++ [mensaje] }, .encola mensajes)
  | .encola [] => some ({ b with mutex_mensajes := true }, .fuera)
  | .manejar =>
      if b.mutex_mensajes then some ({ b with mutex_mensajes := false }, .vuelta) else none
  | .vuelta =>
      match b.log_mensajes with
      | [] => some ({ b with mutex_mensajes := true }, .fuera)
      | hilera :: _ => some (b, .escribe hilera)
  | .escribe hilera =>
      if Visible hilera then
        if hilera.length ≤ INT32_MAX then
          some ({ b with archivo :=
                    FileSystem.escribirArchivo hilera b.filePosition hilera.length b.archivo },
            .avanza hilera)
        else none
      else some (b, .saca hilera)
  | .avanza hilera =>
      if (b.filePosition + hilera.length : ℕ) ≤ INT32_MAX then
        some ({ b with filePosition := b.filePosition + hilera.length }, .saca hilera)
      else none
  | .saca _ =>
      match b.log_mensajes with
      | [] => none
      | _ :: resto => some ({ b with log_mensajes := resto }, .vuelta)

/-- What a thread can do: call one of the functions, or execute its next statement. -/
inductive Accion
  | llama (l : Llamada)
  | manejarBitacora
  | sigue
deriving DecidableEq, Repr

variable {ι : Type}

/-- What a thread does to the shared members and to itself. -/
def act (_ : ι) : Accion → Bitacora × Punto → Option (Bitacora × Punto)
  | .llama l, (b, .fuera) => some (b, .llama l)
  | .manejarBitacora, (b, .fuera) => some (b, .manejar)
  | .sigue, (b, p) => b.siguiente p
  | _, _ => none

/-- The report and the threads that use it. -/
abbrev Sistema (ι : Type) := Config Bitacora ι Punto

/-- Nothing was logged yet, and no thread is in a call. -/
def Sistema.inicio : Sistema ι := ⟨⟨true, [], 0, []⟩, fun _ => .fuera⟩

/-- One step of one thread. -/
def paso [DecidableEq ι] (c : Sistema ι) (a : ι × Accion) : Option (Sistema ι) := step act c a

/-! ## What a run does -/

/-- A call that got the mutex, a message that was pushed, and one that was taken out. -/
inductive Evento
  | llamada (l : Llamada)
  | encolado (mensaje : Texto)
  | sacado (mensaje : Texto)
deriving DecidableEq, Repr

/-- What a statement shows. -/
def evento : Accion → Bitacora × Punto → Option Evento
  | .sigue, (_, .llama l) => some (.llamada l)
  | .sigue, (_, .encola (mensaje :: _)) => some (.encolado mensaje)
  | .sigue, (b, .saca _) => b.log_mensajes.head?.map .sacado
  | _, _ => none

/-- Everything that a run shows. -/
def historia [DecidableEq ι] (as : List (ι × Accion)) : List Evento :=
  observed paso (fun (c : Sistema ι) a _ => evento a.2 (c.shared, c.threads a.1)) .inicio as

/-- The calls of `log` and `logRed`, in the order in which they got the mutex. -/
def llamadas (tr : List Evento) : List Llamada :=
  tr.filterMap fun
    | .llamada l => some l
    | _ => none

/-- The messages pushed. -/
def encolados (tr : List Evento) : List Texto :=
  tr.filterMap fun
    | .encolado mensaje => some mensaje
    | _ => none

/-- The messages drained. -/
def sacados (tr : List Evento) : List Texto :=
  tr.filterMap fun
    | .sacado mensaje => some mensaje
    | _ => none

/-- What is written of these messages. -/
def reporte (mensajes : List Texto) : Texto := (mensajes.filter Visible).flatten

section Historia

variable (tr : List Evento)

@[simp] theorem llamadas_append (e : Evento) :
    llamadas (tr ++ [e]) = llamadas tr ++ llamadas [e] := List.filterMap_append

@[simp] theorem encolados_append (e : Evento) :
    encolados (tr ++ [e]) = encolados tr ++ encolados [e] := List.filterMap_append

@[simp] theorem sacados_append (e : Evento) :
    sacados (tr ++ [e]) = sacados tr ++ sacados [e] := List.filterMap_append

end Historia

theorem reporte_append (mensajes mas : List Texto) :
    reporte (mensajes ++ mas) = reporte mensajes ++ reporte mas := by
  rw [reporte, List.filter_append, List.flatten_append]
  rfl

theorem reporte_visible {hilera : Texto} (h : Visible hilera) : reporte [hilera] = hilera := by
  rw [reporte, List.filter_cons_of_pos (by simpa using h)]
  simp

theorem reporte_codigo {hilera : Texto} (h : ¬ Visible hilera) : reporte [hilera] = [] := by
  rw [reporte, List.filter_cons_of_neg (by simpa using h)]
  rfl

/-! ## The invariant -/

/-- The thread has the mutex. -/
def Dentro : Punto → Prop
  | .fuera => False
  | .llama _ => False
  | .manejar => False
  | _ => True

/-- The queue, the position and the file after `tr`. The call under the mutex has still to push
`faltan`. The messages `enMano` are written though they are still in the queue, and `pendiente`
bytes of them are not yet in the position. -/
structure Cuadra (tr : List Evento) (b : Bitacora) (faltan enMano : List Texto) (pendiente : ℕ) :
    Prop where
  cola : encolados tr = sacados tr ++ b.log_mensajes
  llamadas : encolados tr ++ faltan = (llamadas tr).flatMap Llamada.entradas
  archivo : b.archivo = reporte (sacados tr ++ enMano)
  posicion : b.filePosition + pendiente = b.archivo.length

/-- What holds under the mutex, and while it is free. -/
def monitor : Spec Bitacora Punto Evento where
  inside := Dentro
  free b := b.mutex_mensajes.toNat
  Idle tr b := Cuadra tr b [] [] 0
  Held tr b
    | .encola mensajes => Cuadra tr b mensajes [] 0
    | .escribe hilera => Cuadra tr b [] [] 0 ∧ b.log_mensajes.head? = some hilera
    | .avanza hilera =>
        Cuadra tr b [] [hilera] hilera.length ∧ b.log_mensajes.head? = some hilera
    | .saca hilera => Cuadra tr b [] [hilera] 0 ∧ b.log_mensajes.head? = some hilera
    | _ => Cuadra tr b [] [] 0

section Pasos

variable {tr : List Evento} {b : Bitacora} {faltan enMano : List Texto} {pendiente : ℕ}
  {hilera : Texto}

/-- The mutex is in none of it. -/
theorem Cuadra.mutex (h : Cuadra tr b faltan enMano pendiente) (libre : Bool) :
    Cuadra tr { b with mutex_mensajes := libre } faltan enMano pendiente :=
  ⟨h.cola, h.llamadas, h.archivo, h.posicion⟩

theorem Cuadra.llama (h : Cuadra tr b [] [] 0) (l : Llamada) :
    Cuadra (tr ++ [.llamada l]) b l.entradas [] 0 where
  cola := by simpa [encolados, sacados] using h.cola
  llamadas := by
    have hllamadas := h.llamadas
    rw [List.append_nil] at hllamadas
    rw [encolados_append, llamadas_append, List.flatMap_append, ← hllamadas]
    simp [encolados, Bitacora.llamadas]
  archivo := by simpa [sacados] using h.archivo
  posicion := h.posicion

theorem Cuadra.encola (h : Cuadra tr b (hilera :: faltan) [] 0) :
    Cuadra (tr ++ [.encolado hilera]) { b with log_mensajes := b.log_mensajes ++ [hilera] } faltan
      [] 0 where
  cola := by
    rw [encolados_append, sacados_append, h.cola]
    simp [encolados, sacados]
  llamadas := by
    rw [encolados_append, llamadas_append, List.append_assoc]
    simpa [encolados, Bitacora.llamadas] using h.llamadas
  archivo := by simpa [sacados] using h.archivo
  posicion := h.posicion

/-- A message is written behind the end of the file. -/
theorem Cuadra.escribe (h : Cuadra tr b [] [] 0) (hvis : Visible hilera) :
    Cuadra tr
      { b with archivo :=
          FileSystem.escribirArchivo hilera b.filePosition hilera.length b.archivo }
      [] [hilera] hilera.length := by
  have hfinal : FileSystem.escribirArchivo hilera b.filePosition hilera.length b.archivo
      = b.archivo ++ hilera := by
    have hpos := h.posicion
    rw [Nat.add_zero] at hpos
    rw [hpos, WebCliente.escribirArchivo_final, List.take_length]
  rw [hfinal]
  refine ⟨h.cola, h.llamadas, ?_, ?_⟩
  · have harchivo := h.archivo
    rw [List.append_nil] at harchivo
    rw [reporte_append, reporte_visible hvis, harchivo]
  · have hpos := h.posicion
    dsimp only
    rw [List.length_append]
    omega

/-- A colour code is not. -/
theorem Cuadra.salta (h : Cuadra tr b [] [] 0) (hvis : ¬ Visible hilera) :
    Cuadra tr b [] [hilera] 0 where
  cola := h.cola
  llamadas := h.llamadas
  archivo := by
    rw [reporte_append, reporte_codigo hvis, List.append_nil, h.archivo, List.append_nil]
  posicion := h.posicion

theorem Cuadra.avanza (h : Cuadra tr b [] [hilera] hilera.length) :
    Cuadra tr { b with filePosition := b.filePosition + hilera.length } [] [hilera] 0 :=
  ⟨h.cola, h.llamadas, h.archivo, h.posicion⟩

theorem Cuadra.saca {resto : List Texto} (h : Cuadra tr b [] [hilera] 0)
    (hcola : b.log_mensajes = hilera :: resto) :
    Cuadra (tr ++ [.sacado hilera]) { b with log_mensajes := resto } [] [] 0 where
  cola := by
    rw [encolados_append, sacados_append, h.cola, hcola]
    simp [encolados, sacados]
  llamadas := by simpa [encolados, Bitacora.llamadas] using h.llamadas
  archivo := by simpa [sacados] using h.archivo
  posicion := h.posicion

/-- **What a statement does with the monitor.** -/
theorem moves_siguiente {b b' : Bitacora} {p p' : Punto} (h : b.siguiente p = some (b', p')) :
    Moves monitor (evento .sigue (b, p)).toList b b' p p' := by
  cases p with
  | fuera => cases h
  | llama l =>
      unfold siguiente at h
      split_ifs at h with hlibre
      cases h
      exact .enter id trivial (by simp [monitor, hlibre]) (by simp [monitor, hlibre])
        fun tr hinv => (hinv.llama l).mutex false
  | encola mensajes =>
      cases mensajes with
      | nil =>
          cases h
          exact .leave_silent trivial id (fun _ => rfl) rfl fun tr hinv => hinv.mutex true
      | cons mensaje mensajes =>
          cases h
          exact .stay trivial trivial rfl fun tr hinv => Cuadra.encola hinv
  | manejar =>
      unfold siguiente at h
      split_ifs at h with hlibre
      cases h
      exact .enter_silent id trivial (by simp [monitor, hlibre]) (by simp [monitor, hlibre]) rfl
        fun tr hinv => hinv.mutex false
  | vuelta =>
      cases hcola : b.log_mensajes with
      | nil =>
          simp only [siguiente, hcola] at h
          cases h
          refine .leave_silent trivial id (fun _ => rfl) rfl fun tr hinv => ?_
          rw [← hcola]
          exact hinv.mutex true
      | cons hilera resto =>
          simp only [siguiente, hcola] at h
          cases h
          exact .stay_silent trivial trivial rfl rfl fun tr hinv => ⟨hinv, by rw [hcola]; rfl⟩
  | escribe hilera =>
      rw [siguiente] at h
      split_ifs at h with hvis hlargo
      · cases h
        exact .stay_silent trivial trivial rfl rfl fun tr hinv => ⟨hinv.1.escribe hvis, hinv.2⟩
      · cases h
        exact .stay_silent trivial trivial rfl rfl fun tr hinv => ⟨hinv.1.salta hvis, hinv.2⟩
  | avanza hilera =>
      rw [siguiente] at h
      split_ifs at h with hcabe
      cases h
      exact .stay_silent trivial trivial rfl rfl fun tr hinv => ⟨hinv.1.avanza, hinv.2⟩
  | saca hilera =>
      cases hcola : b.log_mensajes with
      | nil =>
          simp only [siguiente, hcola] at h
          cases h
      | cons frente resto =>
          simp only [siguiente, hcola] at h
          cases h
          refine .stay trivial trivial rfl fun tr hinv => ?_
          have hfrente := hinv.2
          rw [hcola] at hfrente
          obtain rfl := Option.some.inj hfrente
          rw [evento, hcola]
          exact hinv.1.saca hcola

theorem moves_act {t : ι} {a : Accion} {b b' : Bitacora} {p p' : Punto}
    (h : act t a (b, p) = some (b', p')) : Moves monitor (evento a (b, p)).toList b b' p p' := by
  cases a with
  | sigue => exact moves_siguiente h
  | llama l =>
      cases p with
      | fuera =>
          cases h
          exact .outside id id rfl rfl
      | _ => cases h
  | manejarBitacora =>
      cases p with
      | fuera =>
          cases h
          exact .outside id id rfl rfl
      | _ => cases h

theorem cuadra_of_held {p : Punto} (hp : Dentro p) (h : monitor.Held tr b p) :
    ∃ faltan enMano pendiente, Cuadra tr b faltan enMano pendiente := by
  cases p with
  | fuera => exact hp.elim
  | llama l => exact hp.elim
  | manejar => exact hp.elim
  | encola mensajes => exact ⟨_, _, _, h⟩
  | vuelta => exact ⟨_, _, _, h⟩
  | escribe hilera => exact ⟨_, _, _, h.1⟩
  | avanza hilera => exact ⟨_, _, _, h.1⟩
  | saca hilera => exact ⟨_, _, _, h.1⟩

/-- The message in hand is one of those pushed. -/
theorem Cuadra.length_le (h : Cuadra tr b faltan enMano pendiente)
    (hfrente : b.log_mensajes.head? = some hilera) :
    (reporte (sacados tr ++ [hilera])).length ≤ (reporte (encolados tr)).length := by
  obtain ⟨resto, hcola⟩ : ∃ resto, b.log_mensajes = hilera :: resto := List.head?_eq_some_iff.mp hfrente
  have hencolados : encolados tr = (sacados tr ++ [hilera]) ++ resto := by
    rw [h.cola, hcola, List.append_assoc]
    rfl
  rw [hencolados, reporte_append _ resto, List.length_append]
  exact Nat.le_add_right _ _

/-- **A statement under the mutex is always defined**, as long as the text pushed is not too
long. -/
theorem siguiente_isSome {p : Punto} (hp : Dentro p) (hinv : monitor.Held tr b p)
    (htotal : (reporte (encolados tr)).length < 2147483648) : (b.siguiente p).isSome := by
  have hmax : INT32_MAX = 2147483647 := rfl
  cases p with
  | fuera => exact hp.elim
  | llama l => exact hp.elim
  | manejar => exact hp.elim
  | encola mensajes =>
      cases mensajes with
      | nil => rfl
      | cons mensaje mensajes => rfl
  | vuelta =>
      cases hcola : b.log_mensajes with
      | nil =>
          simp only [siguiente, hcola]
          rfl
      | cons hilera resto =>
          simp only [siguiente, hcola]
          rfl
  | escribe hilera =>
      rw [siguiente]
      by_cases hvis : Visible hilera
      · have hle := hinv.1.length_le hinv.2
        rw [reporte_append, reporte_visible hvis, List.length_append] at hle
        rw [if_pos hvis, if_pos (by omega)]
        rfl
      · rw [if_neg hvis]
        rfl
  | avanza hilera =>
      have hle := hinv.1.length_le hinv.2
      rw [← hinv.1.archivo, ← hinv.1.posicion] at hle
      rw [siguiente, if_pos (by omega)]
      rfl
  | saca hilera =>
      obtain ⟨resto, hcola⟩ := List.head?_eq_some_iff.mp hinv.2
      simp only [siguiente, hcola]
      rfl

end Pasos

/-! ## The report -/

section Reporte

variable [DecidableEq ι] {as : List (ι × Accion)} {c : Sistema ι}

/-- **What links the queue, the position and the file holds after every run.** -/
theorem governed_historia (h : exec paso .inicio as = some c) :
    Governed monitor (historia as) c := by
  have hinicio : Governed monitor [] (Sistema.inicio : Sistema ι) :=
    ⟨exclusive_free fun _ => id, .inl rfl, fun _ => ⟨rfl, rfl, rfl, rfl⟩, fun _ ht => ht.elim⟩
  have hact : ∀ (t : ι) a b p b' p', act t a (b, p) = some (b', p') →
      Moves monitor (evento a (b, p)).toList b b' p p' := fun _ _ _ _ _ _ => moves_act
  exact exec_governed hinicio hact h

/-- The `manejarBitacora` of thread `t` returns with this step. -/
def Retorna (c : Sistema ι) (t : ι) (c' : Sistema ι) : Prop :=
  c.threads t = .vuelta ∧ paso c (t, .sigue) = some c' ∧ c'.threads t = .fuera

theorem retorna_shared {t : ι} {c' : Sistema ι} (h : Retorna c t c') :
    c.shared.log_mensajes = [] ∧ c'.shared = { c.shared with mutex_mensajes := true } := by
  obtain ⟨hvuelta, hpaso, hfuera⟩ := h
  obtain ⟨b, p, hact, rfl⟩ := step_eq_some hpaso
  rw [hvuelta] at hact
  change c.shared.siguiente .vuelta = some (b, p) at hact
  cases hcola : c.shared.log_mensajes with
  | nil =>
      simp only [siguiente, hcola] at hact
      cases hact
      exact ⟨rfl, by rw [← hcola]⟩
  | cons hilera resto =>
      simp only [siguiente, hcola] at hact
      cases hact
      dsimp only at hfuera
      rw [Function.update_self] at hfuera
      cases hfuera

/-- **The report is what was drained, in the order in which it was pushed.** In every run whose
messages fit in the position, no statement under the mutex fails, what was pushed is what the calls
push one after the other, and when `manejarBitacora` returns the file consists of the messages
drained, which are all that were pushed, without the colour codes. Every push and every drain is
under `mutex_mensajes`, and so there is one order for all of them. -/
theorem bitacora_exacta (h : exec paso .inicio as = some c)
    (htotal : (reporte (encolados (historia as))).length < 2147483648) :
    (∀ t, Dentro (c.threads t) → (paso c (t, .sigue)).isSome)
      ∧ encolados (historia as) <+: (llamadas (historia as)).flatMap Llamada.entradas
      ∧ ∀ t c', Retorna c t c' →
          c'.shared.archivo = reporte (sacados (historia as))
            ∧ sacados (historia as) = encolados (historia as)
            ∧ sacados (historia as) = (llamadas (historia as)).flatMap Llamada.entradas := by
  have hinv := governed_historia h
  refine ⟨?_, ?_, ?_⟩
  · intro t ht
    have hdef := siguiente_isSome ht (hinv.held t ht) htotal
    rw [paso, step, Option.isSome_map]
    exact hdef
  · rcases hinv.idle_or_held with hidle | ⟨t, ht, hheld⟩
    · rw [← hidle.llamadas, List.append_nil]
    · obtain ⟨faltan, enMano, pendiente, hcuadra⟩ := cuadra_of_held ht hheld
      exact ⟨faltan, hcuadra.llamadas⟩
  · intro t c' hret
    obtain ⟨hvacia, hfinal⟩ := retorna_shared hret
    have ht : Dentro (c.threads t) := by
      rw [hret.1]
      trivial
    have hcuadra := hinv.held t ht
    rw [hret.1] at hcuadra
    have htodos : sacados (historia as) = encolados (historia as) := by
      rw [Cuadra.cola hcuadra, hvacia, List.append_nil]
    refine ⟨?_, htodos, ?_⟩
    · rw [hfinal]
      have harchivo := Cuadra.archivo hcuadra
      rwa [List.append_nil] at harchivo
    · rw [htodos, ← Cuadra.llamadas hcuadra, List.append_nil]

end Reporte

/-- Two threads log, and the second one drains, up to the test that finds the queue empty. -/
def dosHilos : List (Bool × Accion) :=
  [(true, .llama (.logRed ['a'])), (false, .llama (.log ['b']))]
    ++ List.replicate 5 (true, .sigue) ++ List.replicate 3 (false, .sigue)
    ++ (false, .manejarBitacora) :: List.replicate 15 (false, .sigue)

/-- The colour codes are not in the file. -/
theorem bitacora_de_dos_hilos :
    ∃ c c', exec paso .inicio dosHilos = some c ∧ Retorna c false c'
      ∧ c'.shared.archivo = ['a', 'b'] := by
  have hrun : (exec paso .inicio dosHilos).isSome := by decide
  have hc : exec paso .inicio dosHilos = some ((exec paso .inicio dosHilos).get hrun) :=
    (Option.some_get hrun).symm
  have hret : Retorna ((exec paso .inicio dosHilos).get hrun) false
      ⟨⟨true, [], 2, ['a', 'b']⟩, Function.update _ false .fuera⟩ := ⟨rfl, rfl, rfl⟩
  refine ⟨_, _, hc, hret, ?_⟩
  rw [((bitacora_exacta hc (by decide)).2.2 _ _ hret).1]
  decide

end Bitacora

end LoadBalancer
