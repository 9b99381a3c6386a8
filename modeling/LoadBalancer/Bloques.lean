/-
How many bytes `leerArchivo` asks of `read`.

The caller's array has `len` bytes, and `leerArchivo` asks for `len` of them while its counter
`bytesFaltantes` stays above `0`. From then on it asks for what the file's size says is left behind
the caller's position. The counter loses `len` with every call, whatever was read: after short reads
it runs out too early, and the rest of the file can be more than the array has. And the counter and
the request are `int`s, so that a size from `2^31` on reaches both as something else, and enough
calls take the counter below `INT32_MIN`.

[`pedidos_dentro_iff`] says for which sizes and which results of `read` every request stays within
the array. While the counter lasts there is nothing to show ([`throughout_contador`]), and once a
request of the second kind was within the array, all later ones are
([`throughout_resto`]).
-/
import LoadBalancer.Lib.Transition
import LoadBalancer.Cuerpo
import Mathlib.Tactic.Ring
import Mathlib.Tactic.Positivity

set_option autoImplicit false

namespace LoadBalancer

open LoadBalancer.Transition

namespace FileSystem

/-! ## One request -/

/-- The first statements of `leerArchivo`: the counter afterwards and the number of bytes asked
for. The difference is an `int`. -/
def pedir (tamanoArchivo : ℤ) (len : ℕ) (posicion bytesFaltantes : ℤ) : Option (ℤ × ℤ) :=
  let bytesFaltantes := bytesFaltantes - len
  if bytesFaltantes < INT32_MIN then none
  else
    some (bytesFaltantes,
      if bytesFaltantes > 0 then (len : ℤ) else aInt (tamanoArchivo - posicion))

/-- `leerArchivo` asks for that many bytes. -/
theorem leerArchivo_eq_pedir (contenido : Texto → Texto) (posicion len : ℕ) (fs : FileSystem) :
    fs.leerArchivo contenido posicion len
      = (pedir fs.tamanoArchivo len posicion fs.bytesFaltantes).bind fun p =>
          match fs.fichero with
          | none => some ({ fs with bytesFaltantes := p.1 }, none)
          | some fichero =>
              let leidos := ((contenido fichero.ruta).drop posicion).take (aSizeT p.2)
              if leidos.length ≤ len then some ({ fs with bytesFaltantes := p.1 }, some leidos)
              else none := by
  unfold leerArchivo pedir
  dsimp only
  by_cases hmin : fs.bytesFaltantes - (len : ℤ) < INT32_MIN
  · rw [if_pos hmin, if_pos hmin, Option.bind_none]
  · cases fs.fichero with
    | none => rw [if_neg hmin, if_neg hmin, Option.bind_some]
    | some fichero => rw [if_neg hmin, if_neg hmin, Option.bind_some]

/-! ## The loop -/

/-- What changes from call to call: the counter, and the caller's `pos`. -/
structure Lector where
  bytesFaltantes : ℤ
  pos : ℤ

/-- A call whose `read` returns `leidos`, and `pos += leidos`, an `int`. -/
def vueltaLectura (tamanoArchivo : ℤ) (len : ℕ) (l : Lector) (leidos : ℕ) : Option Lector :=
  (pedir tamanoArchivo len l.pos l.bytesFaltantes).bind fun p =>
    if INT32_MAX < l.pos + leidos then none else some ⟨p.1, l.pos + leidos⟩

/-- A positive result of at most as many bytes as were asked for. -/
def LecturaPosible (tamanoArchivo : ℤ) (len : ℕ) (l : Lector) (leidos : ℕ) : Prop :=
  0 < leidos ∧ ∀ p, pedir tamanoArchivo len l.pos l.bytesFaltantes = some p → leidos ≤ aSizeT p.2

/-- The next call asks for at least `0` and at most `len` bytes. -/
def PideDentro (tamanoArchivo : ℤ) (len : ℕ) (l : Lector) : Prop :=
  ∃ p, pedir tamanoArchivo len l.pos l.bytesFaltantes = some p ∧ 0 ≤ p.2 ∧ p.2 ≤ len

/-- A request that stays within the array does not write past it. -/
theorem leerArchivo_isSome (contenido : Texto → Texto) {posicion len : ℕ} {fs : FileSystem}
    (h : PideDentro fs.tamanoArchivo len ⟨fs.bytesFaltantes, posicion⟩) :
    (fs.leerArchivo contenido posicion len).isSome := by
  obtain ⟨p, hp, hnonneg, hle⟩ := h
  have hpedidos : aSizeT p.2 ≤ len := by
    unfold aSizeT
    omega
  rw [leerArchivo_eq_pedir, hp, Option.bind_some]
  cases fs.fichero with
  | none => rfl
  | some fichero =>
      dsimp only
      rw [if_pos ((List.length_take_le _ _).trans hpedidos)]
      rfl

/-- Before the first call. -/
def Lector.inicio (tamanoArchivo : ℤ) : Lector := ⟨aInt tamanoArchivo, 0⟩

/-- How many calls leave the counter above `0`. -/
def llamadasContador (bytesFaltantes : ℤ) (len : ℕ) : ℕ := ((bytesFaltantes - 1) / (len : ℤ)).toNat

section Lectura

variable {tamano faltan pos : ℤ} {len : ℕ} {leidas : List ℕ}

/-- What is left of the file, in an `int`, as long as it is in range. -/
theorem aInt_sub (h0 : INT32_MIN ≤ aInt tamano - pos) (h : aInt tamano - pos ≤ INT32_MAX) :
    aInt (tamano - pos) = aInt tamano - pos := by
  have hmin : INT32_MIN = -2147483648 := rfl
  have hmax : INT32_MAX = 2147483647 := rfl
  unfold aInt at *
  rw [Int.bmod_def] at *
  rw [Int.bmod_def]
  split_ifs at * <;> omega

/-- While the counter lasts, a call asks for `len` bytes. -/
theorem pedir_contador (h : (len : ℤ) < faltan) :
    pedir tamano len pos faltan = some (faltan - len, (len : ℤ)) := by
  have hmin : INT32_MIN = -2147483648 := rfl
  unfold pedir
  dsimp only
  rw [if_neg (by omega), if_pos (by omega)]

/-- Afterwards, for the rest of the file. -/
theorem pedir_resto (hmin : INT32_MIN ≤ faltan - len) (h : faltan ≤ len)
    (hint : INT32_MIN ≤ aInt tamano - pos ∧ aInt tamano - pos ≤ INT32_MAX) :
    pedir tamano len pos faltan = some (faltan - len, aInt tamano - pos) := by
  unfold pedir
  dsimp only
  rw [if_neg (by omega), if_neg (by omega), aInt_sub hint.1 hint.2]

theorem pedir_eq_none (h : faltan - len < INT32_MIN) : pedir tamano len pos faltan = none := by
  unfold pedir
  dsimp only
  rw [if_pos h]

theorem llamadasContador_cero (hcero : 0 < len) (h : faltan ≤ len) :
    llamadasContador faltan len = 0 := by
  have hle : (faltan - 1) / (len : ℤ) ≤ 0 :=
    (Int.ediv_le_iff_le_mul (by omega)).mpr (by rw [zero_mul]; omega)
  exact Int.toNat_of_nonpos hle

theorem llamadasContador_succ (hcero : 0 < len) (hlt : (len : ℤ) < faltan) :
    llamadasContador faltan len = llamadasContador (faltan - len) len + 1 := by
  have hsuma : faltan - 1 = (faltan - len - 1) + 1 * len := by ring
  have hnonneg : 0 ≤ (faltan - len - 1) / (len : ℤ) := Int.ediv_nonneg (by omega) (by omega)
  unfold llamadasContador
  rw [hsuma, Int.add_mul_ediv_right _ _ (by omega)]
  omega

theorem aInt_bounds (n : ℤ) : INT32_MIN ≤ aInt n ∧ aInt n ≤ INT32_MAX := by
  have hmin : INT32_MIN = -2147483648 := rfl
  have hmax : INT32_MAX = 2147483647 := rfl
  unfold aInt
  rw [Int.bmod_def]
  split_ifs <;> omega

/-- A call whose request is in range, with a possible result. -/
theorem vueltaLectura_eq {p : ℤ × ℤ} {r : ℕ} (hpedir : pedir tamano len pos faltan = some p)
    (hnonneg : 0 ≤ p.2) (htope : pos + p.2 ≤ INT32_MAX)
    (hr : LecturaPosible tamano len ⟨faltan, pos⟩ r) :
    (r : ℤ) ≤ p.2 ∧ vueltaLectura tamano len ⟨faltan, pos⟩ r = some ⟨p.1, pos + r⟩ := by
  have hle : (r : ℤ) ≤ p.2 := by
    have hleidos := hr.2 p hpedir
    unfold aSizeT at hleidos
    omega
  refine ⟨hle, ?_⟩
  rw [vueltaLectura, hpedir, Option.bind_some, if_neg (by dsimp only; omega)]

/-- A request needs the counter to be lowered. -/
theorem PideDentro.contador (h : PideDentro tamano len ⟨faltan, pos⟩) :
    INT32_MIN ≤ faltan - len := by
  obtain ⟨p, hp, -⟩ := h
  by_contra hbajo
  rw [pedir_eq_none (not_le.mp hbajo)] at hp
  cases hp

theorem contador_cons (r : ℕ) (leidas : List ℕ) :
    faltan - ((r :: leidas).length + 1 : ℤ) * len = faltan - len - (leidas.length + 1) * len := by
  rw [List.length_cons]
  push_cast
  ring

/-- **Once the rest of the file fits in the array, all requests do**, as long as the counter can be
lowered. -/
theorem throughout_resto (hlen : (len : ℤ) < 2147483648) (hfaltan : faltan ≤ len) (hpos : 0 ≤ pos)
    (hresto : 0 ≤ aInt tamano - pos ∧ aInt tamano - pos ≤ len)
    (hok : AllOk (vueltaLectura tamano len) (LecturaPosible tamano len) ⟨faltan, pos⟩ leidas) :
    Throughout (vueltaLectura tamano len) (PideDentro tamano len) ⟨faltan, pos⟩ leidas
      ↔ INT32_MIN ≤ faltan - (leidas.length + 1) * len := by
  have hmax : INT32_MAX = 2147483647 := rfl
  have hmin : INT32_MIN = -2147483648 := rfl
  have hpedir : INT32_MIN ≤ faltan - len →
      pedir tamano len pos faltan = some (faltan - len, aInt tamano - pos) :=
    fun h => pedir_resto h hfaltan ⟨by omega, by omega⟩
  induction leidas generalizing faltan pos with
  | nil =>
      rw [Throughout, List.length_nil, Nat.cast_zero, zero_add, one_mul]
      exact ⟨fun h => h.contador, fun hbajo => ⟨_, hpedir hbajo, hresto⟩⟩
  | cons r leidas ih =>
      rw [contador_cons, Throughout]
      by_cases hbajo : INT32_MIN ≤ faltan - len
      · have hpedir := hpedir hbajo
        have htope := (aInt_bounds tamano).2
        obtain ⟨hposible, hrest⟩ := hok
        obtain ⟨hr, hvuelta⟩ := vueltaLectura_eq hpedir hresto.1 (by dsimp only; omega) hposible
        rw [hvuelta] at hrest ⊢
        dsimp only at hr hrest ⊢
        have hpedir' : INT32_MIN ≤ faltan - len - len → pedir tamano len (pos + r) (faltan - len)
            = some (faltan - len - len, aInt tamano - (pos + r)) :=
          fun h => pedir_resto h (by omega) ⟨by omega, by omega⟩
        have hih := ih (by omega) (by omega) ⟨by omega, by omega⟩ hrest hpedir'
        exact ⟨fun h => hih.mp h.2, fun h => ⟨⟨_, hpedir, hresto⟩, hih.mpr h⟩⟩
      · -- the counter cannot be lowered for this call, and so not for a later one
        have hnonneg : (0 : ℤ) ≤ (leidas.length + 1) * len := by positivity
        exact ⟨fun h => absurd h.1.contador hbajo, fun h => by omega⟩

/-- When the counter runs out with the next call, that call asks for the rest of the file. -/
theorem throughout_agotado (hlen : (len : ℤ) < 2147483648) (hfaltan : 0 < faltan)
    (hle : faltan ≤ len) (hpos : 0 ≤ pos) (hcont : faltan ≤ aInt tamano - pos)
    (hok : AllOk (vueltaLectura tamano len) (LecturaPosible tamano len) ⟨faltan, pos⟩ leidas) :
    Throughout (vueltaLectura tamano len) (PideDentro tamano len) ⟨faltan, pos⟩ leidas
      ↔ aInt tamano - pos ≤ len ∧ INT32_MIN ≤ faltan - (leidas.length + 1) * len := by
  have hmax : INT32_MAX = 2147483647 := rfl
  have hmin : INT32_MIN = -2147483648 := rfl
  have htope := (aInt_bounds tamano).2
  by_cases hresto : aInt tamano - pos ≤ len
  · rw [throughout_resto hlen hle hpos ⟨by omega, hresto⟩ hok]
    exact ⟨fun h => ⟨hresto, h⟩, fun h => h.2⟩
  · constructor
    · intro h
      obtain ⟨p, hp, -, hp_le⟩ := h.head
      dsimp only at hp
      rw [pedir_resto (by omega) hle ⟨by omega, by omega⟩] at hp
      obtain rfl := Option.some.inj hp
      exact absurd hp_le hresto
    · exact fun h => absurd h.1 hresto

/-- **While the counter lasts, every request is of `len` bytes**, and what decides is how much of
the file is left when it has run out. -/
theorem throughout_contador (hcero : 0 < len) (hlen : (len : ℤ) < 2147483648) (hfaltan : 0 < faltan)
    (hpos : 0 ≤ pos) (hcont : faltan ≤ aInt tamano - pos)
    (hok : AllOk (vueltaLectura tamano len) (LecturaPosible tamano len) ⟨faltan, pos⟩ leidas) :
    Throughout (vueltaLectura tamano len) (PideDentro tamano len) ⟨faltan, pos⟩ leidas
      ↔ (llamadasContador faltan len ≤ leidas.length →
            aInt tamano - pos ≤ (leidas.take (llamadasContador faltan len)).sum + len)
          ∧ INT32_MIN ≤ faltan - (leidas.length + 1) * len := by
  have hmax : INT32_MAX = 2147483647 := rfl
  have hmin : INT32_MIN = -2147483648 := rfl
  have htope := (aInt_bounds tamano).2
  induction leidas generalizing faltan pos with
  | nil =>
      by_cases hle : faltan ≤ len
      · rw [throughout_agotado hlen hfaltan hle hpos hcont hok, llamadasContador_cero hcero hle]
        simp
      · have hllamadas := llamadasContador_succ hcero (not_le.mp hle)
        have hdentro : PideDentro tamano len ⟨faltan, pos⟩ :=
          ⟨_, pedir_contador (not_le.mp hle), by simp, by simp⟩
        rw [Throughout, List.length_nil, Nat.cast_zero, zero_add, one_mul]
        exact ⟨fun _ => ⟨by omega, by omega⟩, fun _ => hdentro⟩
  | cons r leidas ih =>
      by_cases hle : faltan ≤ len
      · rw [throughout_agotado hlen hfaltan hle hpos hcont hok, llamadasContador_cero hcero hle]
        simp
      · have hpedir : pedir tamano len pos faltan = some (faltan - len, (len : ℤ)) :=
          pedir_contador (not_le.mp hle)
        have hdentro : PideDentro tamano len ⟨faltan, pos⟩ := ⟨_, hpedir, by simp, by simp⟩
        obtain ⟨hposible, hrest⟩ := hok
        obtain ⟨hr, hvuelta⟩ :=
          vueltaLectura_eq hpedir (by simp) (by dsimp only; omega) hposible
        rw [hvuelta] at hrest
        dsimp only at hr hrest
        rw [Throughout, hvuelta, contador_cons, llamadasContador_succ hcero (not_le.mp hle),
          List.length_cons, List.take_succ_cons, List.sum_cons]
        dsimp only
        have hih := ih (by omega) (by omega) (by omega) hrest
        refine (and_congr_right fun _ => hih).trans ?_
        push_cast
        constructor
        · rintro ⟨-, h, hbajo⟩
          exact ⟨fun hn => by have := h (by omega); omega, hbajo⟩
        · rintro ⟨h, hbajo⟩
          exact ⟨hdentro, fun hn => by have := h (by omega); omega, hbajo⟩

/-- The size as an `int` is not negative, what is left after the calls of the counter fits in the
array, and the counter stays in the range of `int`. -/
structure CabeElResto (tamano : ℤ) (len : ℕ) (leidas : List ℕ) : Prop where
  noNegativo : 0 ≤ aInt tamano
  resto : llamadasContador (aInt tamano) len ≤ leidas.length →
    aInt tamano ≤ (leidas.take (llamadasContador (aInt tamano) len)).sum + len
  contador : INT32_MIN ≤ aInt tamano - (leidas.length + 1) * len

/-- **Every request of the loop stays within the array** exactly for these sizes and results. Once
the counter has run out the requests are for all that is left of the file, which after short reads
can be more than the array has. -/
theorem pedidos_dentro_iff (hcero : 0 < len) (hlen : (len : ℤ) < 2147483648)
    (hok : AllOk (vueltaLectura tamano len) (LecturaPosible tamano len) (Lector.inicio tamano)
      leidas) :
    Throughout (vueltaLectura tamano len) (PideDentro tamano len) (Lector.inicio tamano) leidas
      ↔ CabeElResto tamano len leidas := by
  have hmax : INT32_MAX = 2147483647 := rfl
  have hmin : INT32_MIN = -2147483648 := rfl
  have htope := (aInt_bounds tamano).1
  rcases lt_trichotomy (aInt tamano) 0 with hneg | hvacio | hpos
  · -- the first request is already negative, or the counter cannot be lowered
    constructor
    · intro h
      have hprimera : PideDentro tamano len ⟨aInt tamano, 0⟩ := h.head
      have hbajo := hprimera.contador
      obtain ⟨p, hp, hp_nonneg, -⟩ := hprimera
      dsimp only at hp
      rw [pedir_resto hbajo (by omega) ⟨by omega, by omega⟩] at hp
      obtain rfl := Option.some.inj hp
      dsimp only at hp_nonneg
      omega
    · exact fun h => absurd h.noNegativo (not_le.mpr hneg)
  · have hllamadas : llamadasContador (aInt tamano) len = 0 := by
      rw [hvacio]
      exact llamadasContador_cero hcero (by omega)
    rw [Lector.inicio, throughout_resto hlen (by omega) le_rfl ⟨by omega, by omega⟩ hok]
    constructor
    · exact fun h => ⟨by omega, fun _ => by omega, h⟩
    · exact fun h => h.contador
  · rw [Lector.inicio, throughout_contador hcero hlen hpos le_rfl (by omega) hok, sub_zero]
    constructor
    · exact fun h => ⟨hpos.le, h.1, h.2⟩
    · exact fun h => ⟨h.resto, h.contador⟩

end Lectura

/-- A file of 10000 bytes in three reads of a block at a time. -/
theorem pedidos_de_un_fichero :
    Throughout (vueltaLectura 10000 BUFFER_SIZE) (PideDentro 10000 BUFFER_SIZE)
      (Lector.inicio 10000) [4096, 4096, 1808] := by
  refine (pedidos_dentro_iff (by decide) (by decide) ?_).mpr ⟨by decide, ?_, by decide⟩
  · refine ⟨⟨by decide, ?_⟩, ⟨by decide, ?_⟩, ⟨by decide, ?_⟩, trivial⟩
    all_goals
      rintro p ⟨⟩
      decide
  · decide

/-- The counter of a file of 10000 bytes is used up by two reads of one byte, and the third call
asks for the other 9998. -/
theorem lecturas_cortas_desbordan :
    AllOk (vueltaLectura 10000 BUFFER_SIZE) (LecturaPosible 10000 BUFFER_SIZE)
        (Lector.inicio 10000) [1, 1]
      ∧ ¬ Throughout (vueltaLectura 10000 BUFFER_SIZE) (PideDentro 10000 BUFFER_SIZE)
        (Lector.inicio 10000) [1, 1] := by
  constructor
  · refine ⟨⟨by decide, ?_⟩, ⟨by decide, ?_⟩, trivial⟩
    all_goals
      rintro p ⟨⟩
      decide
  · rintro ⟨-, -, p, hp, -, hle⟩
    cases hp
    exact absurd hle (by decide)

end FileSystem

end LoadBalancer
