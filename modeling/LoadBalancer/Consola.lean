/-
The console of the balancer.

`hilo_Input` reads a line, cuts it at its first space, and changes `algoritmoBalanceo` when the
first word is `metodo` and `atoi` makes one of the four methods of the rest. A rest that is empty is
turned away. But `atoi` makes `0` of every text that begins with no number, and what follows the
digits does not matter to it, and so more lines change the method than those that name one
([`Pide`], [`Lee`]).

[`consola_obedece_iff`] says in which runs nothing comes of this: whatever else the balancer does
between the lines, it does not touch `algoritmoBalanceo`.
-/
import LoadBalancer.Hilos
import LoadBalancer.Utilidades

set_option autoImplicit false

namespace LoadBalancer

open LoadBalancer.Transition LoadBalancer.Search

/-! ## The code -/

/-- `split(string*, delimitador)`: what is in front of the cut, and what is left in the line. -/
def Utilidades.splitLine (line delimitador : Texto) : Texto × Texto :=
  match find delimitador line with
  | none => (line, [])
  | some posicion => (line.take posicion, line.drop (posicion + delimitador.length))

/-- The constants of `ALGORITMO`. -/
def Algoritmo.valor : Algoritmo → ℤ
  | .ROUND_ROBIN => 0
  | .ROUND_ROBIN_PESOS => 1
  | .DIRECCION_CLIENTE => 2
  | .CONEXIONES_ACTIVA => 3

/-- The method of a number from `ROUND_ROBIN` to `CONEXIONES_ACTIVA`. -/
def Algoritmo.deValor : ℤ → Option Algoritmo
  | 0 => some .ROUND_ROBIN
  | 1 => some .ROUND_ROBIN_PESOS
  | 2 => some .DIRECCION_CLIENTE
  | 3 => some .CONEXIONES_ACTIVA
  | _ => none

/-- What the `switch` of `setAlgoritmoBalanceo` logs. -/
def Algoritmo.nombre : Algoritmo → Texto
  | .ROUND_ROBIN => "Round Robin)\n".toList
  | .ROUND_ROBIN_PESOS => "Round Robin con pesos)\n".toList
  | .CONEXIONES_ACTIVA => "Conexiones Activas)\n".toList
  | .DIRECCION_CLIENTE => "Direccion Cliente)\n".toList

/-- `setAlgoritmoBalanceo`, with the messages it logs. -/
def setAlgoritmoBalanceo (algoritmo : ℤ) (b : Balanceador) : Balanceador × List Texto :=
  match Algoritmo.deValor algoritmo with
  | some m =>
      ({ b with algoritmoBalanceo := m }, [" * (METODO DE BALANCEO ACTUAL: ".toList, m.nombre])
  | none => (b, [])

/-- A turn of the loop of `hilo_Input`, with the messages it logs. -/
def vueltaInput (argumento : Texto) (b : Balanceador) : Balanceador × List Texto :=
  let (funcion, argumento) := Utilidades.splitLine argumento [' ']
  if funcion = "metodo".toList then
    let num := Utilidades.atoi (c_str argumento)
    if argumento ≠ [] ∧ 0 < argumento.length ∧ 0 ≤ num ∧ num ≤ 3 then
      setAlgoritmoBalanceo (Utilidades.atoi (c_str argumento)) b
    else (b, [" * Metodo de balanceo invalido.\n".toList])
  else (b, [" * Comando invalido.\n".toList])

/-- A line that is typed, or another step of the balancer. -/
inductive Entrada
  | linea (argumento : Texto)
  | otra (a : Accion)

/-- Once the balancer runs, only the console calls `setAlgoritmoBalanceo`. -/
def Accion.esMetodo : Accion → Bool
  | .metodo _ => true
  | _ => false

/-- One step of the balancer and its console. -/
def pasoConsola (s : Estado) : Entrada → Option Estado
  | .linea argumento => some { s with balanceador := (vueltaInput argumento s.balanceador).1 }
  | .otra a => if a.esMetodo then none else paso s a

/-! ## What a line means -/

/-- The line names the method: `metodo`, a space, and its number, with blanks around it. -/
def Pide (linea : Texto) (m : Algoritmo) : Prop :=
  ∃ antes entero despues, linea = "metodo".toList ++ ' ' :: (antes ++ entero ++ despues)
    ∧ Utilidades.Blancos antes ∧ Utilidades.Entero entero m.valor ∧ Utilidades.Blancos despues

/-- `atoi` reads the method's number behind `metodo` and a space, where there is something. -/
def Lee (linea : Texto) (m : Algoritmo) : Prop :=
  ∃ argumento, linea = "metodo".toList ++ ' ' :: argumento ∧ argumento ≠ []
    ∧ Utilidades.atoi (c_str argumento) = m.valor

namespace Algoritmo

theorem deValor_eq_some_iff {n : ℤ} {m : Algoritmo} : deValor n = some m ↔ n = m.valor := by
  constructor
  · intro h
    unfold deValor at h
    split at h <;> cases h <;> rfl
  · rintro rfl
    cases m <;> rfl

theorem valor_injective {m m' : Algoritmo} (h : m.valor = m'.valor) : m = m' :=
  Option.some.inj ((deValor_eq_some_iff.mpr rfl).symm.trans (deValor_eq_some_iff.mpr h))

theorem exists_valor {n : ℤ} (h0 : 0 ≤ n) (h3 : n ≤ 3) : ∃ m : Algoritmo, n = m.valor := by
  obtain rfl | rfl | rfl | rfl : n = 0 ∨ n = 1 ∨ n = 2 ∨ n = 3 := by omega
  · exact ⟨.ROUND_ROBIN, rfl⟩
  · exact ⟨.ROUND_ROBIN_PESOS, rfl⟩
  · exact ⟨.DIRECCION_CLIENTE, rfl⟩
  · exact ⟨.CONEXIONES_ACTIVA, rfl⟩

theorem valor_bounds (m : Algoritmo) : 0 ≤ m.valor ∧ m.valor ≤ 3 := by
  cases m <;> decide

end Algoritmo

/-! ## What a line does -/

section Linea

variable {linea : Texto} {m m' : Algoritmo} {b : Balanceador}

theorem Utilidades.splitLine_cut {funcion : Texto} (h : ' ' ∉ funcion) (argumento : Texto) :
    splitLine (funcion ++ ' ' :: argumento) [' '] = (funcion, argumento) := by
  rw [splitLine, find_singleton_append h]
  dsimp only
  rw [List.take_left, List.length_singleton, ← List.drop_drop, List.drop_left]
  rfl

/-- The line has no space, or it is what is in front of the cut, a space, and what is left. -/
theorem Utilidades.splitLine_cases (line : Texto) :
    splitLine line [' '] = (line, [])
      ∨ line = (splitLine line [' ']).1 ++ ' ' :: (splitLine line [' ']).2 := by
  unfold splitLine
  cases h : find [' '] line with
  | none => exact .inl rfl
  | some posicion =>
      refine .inr ?_
      have heq := eq_append_of_find h
      rwa [List.append_assoc] at heq

/-- **A line that `hilo_Input` takes for a method changes to it**, and says so. -/
theorem vueltaInput_of_lee (h : Lee linea m) (b : Balanceador) :
    vueltaInput linea b
      = ({ b with algoritmoBalanceo := m },
          [" * (METODO DE BALANCEO ACTUAL: ".toList, m.nombre]) := by
  obtain ⟨argumento, rfl, hne, hatoi⟩ := h
  have hbounds := m.valor_bounds
  rw [vueltaInput, Utilidades.splitLine_cut (by decide)]
  dsimp only
  rw [if_pos rfl, hatoi, if_pos ⟨hne, List.length_pos_iff.mpr hne, hbounds⟩, setAlgoritmoBalanceo,
    Algoritmo.deValor_eq_some_iff.mpr rfl]

/-- **No other line changes anything**, and each is answered with one message. -/
theorem vueltaInput_of_not_lee (h : ∀ m, ¬ Lee linea m) (b : Balanceador) :
    ∃ mensaje, vueltaInput linea b = (b, [mensaje]) := by
  unfold vueltaInput
  dsimp only
  split_ifs with hfuncion hrango
  · exfalso
    rcases Utilidades.splitLine_cases linea with hsin | hcorte
    · rw [hsin] at hrango
      exact hrango.1 rfl
    · obtain ⟨m, hm⟩ := Algoritmo.exists_valor hrango.2.2.1 hrango.2.2.2
      rw [hfuncion] at hcorte
      exact h m ⟨_, hcorte, hrango.1, hm⟩
  · exact ⟨_, rfl⟩
  · exact ⟨_, rfl⟩

/-- A line that names a method is taken for that one. -/
theorem Pide.lee (h : Pide linea m) : Lee linea m := by
  obtain ⟨antes, entero, despues, rfl, hantes, hentero, hdespues⟩ := h
  refine ⟨_, rfl, ?_, ?_⟩
  · rw [List.append_assoc]
    exact List.append_ne_nil_of_right_ne_nil _ (List.append_ne_nil_of_left_ne_nil hentero.ne_nil _)
  · have hbounds := m.valor_bounds
    rw [c_str_of_not_mem (Utilidades.nul_not_mem_entero hantes hdespues hentero),
      Utilidades.atoi_entero hantes hdespues hentero, max_eq_right (by omega),
      min_eq_right (by omega), aInt_of_lt (by omega) (by omega)]

/-- `atoi` makes `0` of a text that begins neither with a number nor with a blank or a sign. -/
theorem Utilidades.atoi_sin_numero {t : Texto}
    (h : ∀ c, t.head? = some c → isspace c = false ∧ c.isDigit = false ∧ c ≠ '-' ∧ c ≠ '+') :
    atoi t = 0 := by
  cases t with
  | nil => rfl
  | cons c cs =>
      obtain ⟨hblanco, hdigito, hmenos, hmas⟩ := h c rfl
      unfold atoi
      rw [List.dropWhile_cons_of_neg (by rw [hblanco]; exact Bool.false_ne_true)]
      dsimp only
      split
      · next heq => exact absurd (List.cons.inj heq).1 hmenos
      · next heq => exact absurd (List.cons.inj heq).1 hmas
      · rw [valorDigitos, if_neg (by rw [hdigito]; exact Bool.false_ne_true)]
        rfl

/-- **What is not a number at all is taken for `ROUND_ROBIN`.** -/
theorem lee_sin_numero {argumento : Texto} (hne : argumento ≠ [])
    (h : ∀ c, (c_str argumento).head? = some c →
      Utilidades.isspace c = false ∧ c.isDigit = false ∧ c ≠ '-' ∧ c ≠ '+') :
    Lee ("metodo".toList ++ ' ' :: argumento) .ROUND_ROBIN :=
  ⟨argumento, rfl, hne, Utilidades.atoi_sin_numero h⟩

/-- A line is taken for one method at most. -/
theorem Lee.unique (h : Lee linea m) (h' : Lee linea m') : m = m' := by
  obtain ⟨argumento, rfl, -, hm⟩ := h
  obtain ⟨argumento', heq, -, hm'⟩ := h'
  obtain rfl := (List.cons.inj (List.append_cancel_left heq)).2
  exact Algoritmo.valor_injective (hm.symm.trans hm')

end Linea

/-! ## Runs -/

theorem Transita.algoritmoBalanceo {b b' : Balanceador} {p : Peticion} {f f' : Fase}
    (h : Transita b p f b' f') : b'.algoritmoBalanceo = b.algoritmoBalanceo := by
  cases h <;> rfl

/-- Only `setAlgoritmoBalanceo` changes the method. -/
theorem paso_algoritmoBalanceo {s s' : Estado} {a : Accion} (ha : a.esMetodo = false)
    (h : paso s a = some s') :
    s'.balanceador.algoritmoBalanceo = s.balanceador.algoritmoBalanceo := by
  cases paso_avanza h with
  | metodo m => cases ha
  | hilo h' hh b f hlibre ht => exact ht.algoritmoBalanceo
  | _ => rfl

/-- With its console the balancer makes no other steps than those of [`paso`]. -/
theorem pasoConsola_paso {s s' : Estado} {e : Entrada} (h : pasoConsola s e = some s') :
    s' = s ∨ ∃ a, paso s a = some s' := by
  cases e with
  | otra a =>
      rw [pasoConsola] at h
      split_ifs at h
      exact .inr ⟨a, h⟩
  | linea argumento =>
      obtain rfl := Option.some.inj h
      by_cases hlee : ∃ m, Lee argumento m
      · obtain ⟨m, hm⟩ := hlee
        refine .inr ⟨.metodo m, ?_⟩
        rw [vueltaInput_of_lee hm]
        rfl
      · obtain ⟨mensaje, hb⟩ := vueltaInput_of_not_lee (fun m hm => hlee ⟨m, hm⟩) s.balanceador
        rw [hb]
        exact .inl rfl

/-- What is typed is a line that names the method. -/
def Entrada.Pide : Entrada → Algoritmo → Prop
  | .linea argumento, m => LoadBalancer.Pide argumento m
  | .otra _, _ => False

/-- The step changes to the method that is named, and otherwise leaves the method as it is. -/
def Obedece (s : Estado) (e : Entrada) : Prop :=
  ∀ s', pasoConsola s e = some s' →
    (∀ m, e.Pide m → s'.balanceador.algoritmoBalanceo = m)
      ∧ ((∀ m, ¬ e.Pide m) →
          s'.balanceador.algoritmoBalanceo = s.balanceador.algoritmoBalanceo)

/-- A line that is taken for a method names it, or the balancer already uses it. -/
def SinConfusion (s : Estado) : Entrada → Prop
  | .linea argumento =>
      ∀ m, Lee argumento m → Pide argumento m ∨ s.balanceador.algoritmoBalanceo = m
  | .otra _ => True

/-- **One step.** -/
theorem obedece_iff (s : Estado) (e : Entrada) : Obedece s e ↔ SinConfusion s e := by
  cases e with
  | otra a =>
      refine iff_of_true ?_ trivial
      intro s' hs'
      refine ⟨fun m hm => hm.elim, fun _ => ?_⟩
      rw [pasoConsola] at hs'
      split_ifs at hs' with ha
      exact paso_algoritmoBalanceo (by simpa using ha) hs'
  | linea argumento =>
      constructor
      · intro h m hlee
        obtain ⟨hpide, hnada⟩ := h _ rfl
        rw [vueltaInput_of_lee hlee] at hpide hnada
        by_cases hotro : ∃ m', Pide argumento m'
        · obtain ⟨m', hm'⟩ := hotro
          rw [hlee.unique hm'.lee]
          exact .inl hm'
        · exact .inr (hnada fun m' hm' => hotro ⟨m', hm'⟩).symm
      · rintro h s' hs'
        obtain rfl := Option.some.inj hs'
        refine ⟨fun m hm => ?_, fun hnada => ?_⟩
        · dsimp only
          rw [vueltaInput_of_lee hm.lee]
        · dsimp only
          by_cases hlee : ∃ m, Lee argumento m
          · obtain ⟨m, hm⟩ := hlee
            rw [vueltaInput_of_lee hm]
            exact ((h m hm).resolve_left (hnada m)).symm
          · obtain ⟨mensaje, hb⟩ := vueltaInput_of_not_lee (fun m hm => hlee ⟨m, hm⟩) s.balanceador
            rw [hb]

/-- **The lines typed change the method as they say** exactly in the runs in which no other text is
taken for a method that the balancer does not use already. `atoi` makes a method of texts that name
none, and nothing but the console changes `algoritmoBalanceo`. -/
theorem consola_obedece_iff (s : Estado) (es : List Entrada) :
    AllOk pasoConsola Obedece s es ↔ AllOk pasoConsola SinConfusion s es :=
  allOk_iff_allOk (fun _ => True) (fun s e _ _ => obedece_iff s e) (fun _ _ _ _ _ _ _ => trivial)
    trivial (allOk_always es s)

/-- After `metodo 3`, the line `metodo abc` changes the method to `ROUND_ROBIN`. -/
theorem metodo_sin_numero :
    ¬ AllOk pasoConsola Obedece .inicial
      [.linea "metodo 3".toList, .linea "metodo abc".toList] := by
  rintro ⟨-, hsegunda, -⟩
  have hnada : ∀ m, ¬ Pide "metodo abc".toList m := by
    rintro m ⟨antes, entero, despues, heq, hantes, hentero, hdespues⟩
    have hresto : "metodo".toList ++ " abc".toList
        = "metodo".toList ++ ' ' :: (antes ++ entero ++ despues) := heq
    have hcola : "abc".toList = antes ++ entero ++ despues :=
      (List.cons.inj (List.append_cancel_left hresto)).2
    have ha : 'a' ∈ antes ++ entero ++ despues := by
      rw [← hcola]
      decide
    exact absurd (Utilidades.mem_entero hantes hdespues hentero ha) (by decide)
  have hmismo := (hsegunda _ rfl).2 hnada
  exact absurd hmismo (by decide)

end LoadBalancer
