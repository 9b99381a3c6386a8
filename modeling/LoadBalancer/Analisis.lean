/-
What `WebCliente` reads and writes while it takes an answer apart.

`main` takes for granted that the block it has received holds `CRLFCRLF`, that the headers have a
first line, and that this line has a second word. `Utilidades::split` on an array computes a cut
from whatever `strstr` returns and uses it for two copies and two stores; `headers_lines[0]` and
`status_code[1]` are not tested against the sizes of the vectors.

Every access is a check here (`Lib/Checked.lean`), with the cut in `int` and the length of the copy
in `size_t`. What is computed is what `Descarga.lean` says ([`Utilidades.splitEn_eq_ok_iff`]); for
which blocks all of it is inside is [`WebCliente.analisis_iff`]. The cuts of `std::string`s inside
`split` begin at `0` and cannot go wrong.
-/
import LoadBalancer.Lib.Checked
import LoadBalancer.Descarga

set_option autoImplicit false

namespace LoadBalancer

open LoadBalancer.Search LoadBalancer.Checked

/-! ## Accesses -/

/-- An access to an array or to a vector. -/
inductive AccesoBloque
  /-- A C string at the beginning of this memory. -/
  | cadena (memoria : List Char)
  /-- A position counted from a null pointer. -/
  | nulo
  /-- Some bytes of an array of this size. -/
  | bytes (capacidad : ℕ) (desde : ℤ) (largo : ℕ)
  /-- An entry of a vector of this size. -/
  | elemento (tamano i : ℕ)
deriving DecidableEq, Repr

namespace AccesoBloque

/-- The access is inside. -/
def Dentro : AccesoBloque → Prop
  | cadena memoria => NUL ∈ memoria
  | nulo => False
  | bytes capacidad desde largo => 0 ≤ desde ∧ desde + largo ≤ capacidad
  | elemento tamano i => i < tamano

instance decidableDentro : (a : AccesoBloque) → Decidable a.Dentro
  | cadena memoria => inferInstanceAs (Decidable (NUL ∈ memoria))
  | nulo => inferInstanceAs (Decidable False)
  | bytes _ _ _ => inferInstanceAs (Decidable (_ ∧ _))
  | elemento tamano i => inferInstanceAs (Decidable (i < tamano))

def accede (a : AccesoBloque) : Except AccesoBloque Unit := check a.Dentro a

end AccesoBloque

/-- `v[i]`. -/
def elementoEn (v : List Texto) (i : ℕ) : Except AccesoBloque Texto :=
  match v[i]? with
  | some t => pure t
  | none => throw (.elemento v.length i)

theorem elementoEn_eq_ok_iff {v : List Texto} {i : ℕ} {t : Texto} :
    elementoEn v i = .ok t ↔ v[i]? = some t := by
  unfold elementoEn
  cases v[i]? with
  | none =>
      constructor
      · intro h
        cases h
      · intro h
        cases h
  | some t' =>
      constructor
      · intro h
        cases h
        rfl
      · intro h
        cases h
        rfl

/-! ## The code -/

/-- `strstr`, as far as it reads: up to the first occurrence or the first zero byte, whichever it
comes to. Without an occurrence in front of the zero byte the result is a null pointer. -/
def strstrEn (memoria pat : Texto) : Except AccesoBloque (Option ℕ) :=
  match find pat memoria with
  | some p => pure (if NUL ∈ memoria.take (p + pat.length) then none else some p)
  | none => do
      AccesoBloque.accede (.cadena memoria)
      pure none

/-- The rest of `split(char*, const char*, int*)`, with `p` the position that `strstr` found: the
text, the array afterwards, and the cut. -/
def Utilidades.cortarEn (bufferTemporal line : List Char) (p : ℕ) :
    Except AccesoBloque (Texto × List Char × ℤ) := do
  let pos : ℤ := p + 4
  let diferencia : ℤ := BUFFER_SIZE - pos
  -- as the length of a copy, a negative number is an enormous one
  AccesoBloque.accede (.bytes bufferTemporal.length pos (aSizeT diferencia))
  AccesoBloque.accede (.bytes line.length 0 (aSizeT diferencia))
  let movida := (bufferTemporal.drop pos.toNat).take (aSizeT diferencia)
    ++ line.drop (aSizeT diferencia)
  AccesoBloque.accede (.bytes movida.length diferencia 1)
  AccesoBloque.accede (.bytes bufferTemporal.length pos 1)
  let terminada := bufferTemporal.set pos.toNat NUL
  AccesoBloque.accede (.cadena terminada)
  pure (c_str terminada, movida.set diferencia.toNat NUL, pos)

/-- `split(char*, const char*, int*)`. `siguiente` is what `bufferTemporal` holds behind the copy. -/
def Utilidades.splitEn (siguiente : Char) (line : Bufer) (delimitador : Texto) :
    Except AccesoBloque (Texto × List Char × ℤ) := do
  let bufferTemporal := line.bytes ++ [siguiente]
  match ← strstrEn bufferTemporal delimitador with
  | none => throw .nulo
  | some p => cortarEn bufferTemporal line.bytes p

/-- `main` from `splitRespuesta` to the first look at `status_code[1]`, which every run comes to but
those with `-headers` alone. -/
def WebCliente.analizar (siguiente : Char) (backbufferSocket : Bufer) :
    Except AccesoBloque (Texto × List Char × ℤ × Texto) := do
  let (headers, resto, pos) ← Utilidades.splitEn siguiente backbufferSocket DOUBLECRLF
  let headers_lines := Utilidades.split headers CRLF 2
  let linea ← elementoEn headers_lines 0
  let status_code := Utilidades.split linea [' '] 2
  let codigo ← elementoEn status_code 1
  pure (headers, resto, pos, codigo)

/-! ## The cut -/

theorem strstrEn_eq_ok_some_iff {memoria pat : Texto} {p : ℕ} :
    strstrEn memoria pat = .ok (some p) ↔ strstr memoria pat = some p := by
  unfold strstrEn strstr
  cases find pat memoria with
  | none =>
      dsimp only
      rw [AccesoBloque.accede, check_bind_eq_ok_iff]
      constructor
      · rintro ⟨-, h⟩
        cases h
      · intro h
        cases h
  | some q => exact ⟨fun h => Except.ok.inj h, fun h => congrArg _ h⟩

/-- What a store of a zero byte behind the first bytes leaves of the C string. -/
theorem c_str_set {memoria : List Char} {i : ℕ} (h : i < memoria.length) :
    c_str (memoria.set i NUL) = c_str (memoria.take i) := by
  rw [List.set_eq_take_append_cons_drop, if_pos h]
  by_cases hnul : NUL ∈ memoria.take i
  · exact c_str_append_of_mem hnul
  · rw [c_str_append_of_not_mem hnul, c_str_cons, if_pos rfl, List.append_nil, c_str_of_not_mem hnul]

/-- The copy and the stores are inside exactly when the cut is not behind the block. -/
theorem Utilidades.cortarEn_eq_ok_iff {siguiente : Char} {line : Bufer} {p : ℕ}
    {r : Texto × List Char × ℤ} :
    cortarEn (line.bytes ++ [siguiente]) line.bytes p = .ok r
      ↔ p + 4 ≤ BUFFER_SIZE
        ∧ r = (c_str (line.bytes.take (p + 4)),
            line.bytes.drop (p + 4) ++ NUL :: line.bytes.drop (BUFFER_SIZE - (p + 4) + 1),
            ((p + 4 : ℕ) : ℤ)) := by
  have hlargo : line.bytes.length = 4096 := line.largo
  have hbuf : BUFFER_SIZE = 4096 := rfl
  have htemp : (line.bytes ++ [siguiente]).length = 4097 := by
    rw [List.length_append, hlargo, List.length_singleton]
  have hpos : ((p : ℤ) + 4).toNat = p + 4 := by omega
  unfold cortarEn
  simp only [AccesoBloque.accede, check_bind_eq_ok_iff, AccesoBloque.Dentro, List.length_append,
    List.length_singleton, List.length_take, List.length_drop, hlargo, hbuf, hpos]
  by_cases hcabe : p + 4 ≤ 4096
  · have hdif : aSizeT ((4096 : ℕ) - ((p : ℤ) + 4)) = 4096 - (p + 4) := by
      unfold aSizeT
      omega
    have hstore : (((4096 : ℕ) : ℤ) - ((p : ℤ) + 4)).toNat = 4096 - (p + 4) := by omega
    have hterm : c_str ((line.bytes ++ [siguiente]).set (p + 4) NUL)
        = c_str (line.bytes.take (p + 4)) := by
      rw [c_str_set (by omega), List.take_append_of_le_length (by omega)]
    have hnul : NUL ∈ (line.bytes ++ [siguiente]).set (p + 4) NUL := List.mem_set (by omega) NUL
    -- the copy, and the zero byte behind it
    have hmovida : (((line.bytes ++ [siguiente]).drop (p + 4)).take (4096 - (p + 4))
          ++ line.bytes.drop (4096 - (p + 4))).set (4096 - (p + 4)) NUL
        = line.bytes.drop (p + 4) ++ NUL :: line.bytes.drop (4096 - (p + 4) + 1) := by
      have hdrop : ((line.bytes ++ [siguiente]).drop (p + 4)).take (4096 - (p + 4))
          = line.bytes.drop (p + 4) := by
        rw [List.drop_append_of_le_length (by omega)]
        exact List.take_left' (by rw [List.length_drop, hlargo])
      have hlen : (line.bytes.drop (p + 4)).length = 4096 - (p + 4) := by
        rw [List.length_drop, hlargo]
      have hresto : 4096 - (p + 4) < line.bytes.length := by omega
      rw [hdrop, List.set_append_right _ _ hlen.le, hlen, Nat.sub_self,
        List.drop_eq_getElem_cons hresto, List.set_cons_zero]
    rw [hdif, hstore, hterm, hmovida]
    constructor
    · rintro ⟨-, -, -, -, -, h⟩
      cases h
      exact ⟨hcabe, by push_cast; rfl⟩
    · rintro ⟨-, rfl⟩
      refine ⟨by omega, by omega, by omega, by omega, hnul, ?_⟩
      push_cast
      rfl
  · constructor
    · -- only `p + 4 = 4097` has room for its first byte, and there the length is `-1`
      rintro ⟨⟨-, h⟩, -⟩
      unfold aSizeT at h
      omega
    · exact fun h => absurd h.1 hcabe

/-- **Where the cut is inside, it is the one of `splitMemoria`**; and where that has a result, the
cut is inside. -/
theorem Utilidades.splitEn_eq_ok_iff {siguiente : Char} {line : Bufer} {delimitador headers : Texto}
    {resto : List Char} {pos : ℤ} :
    splitEn siguiente line delimitador = .ok (headers, resto, pos)
      ↔ ∃ (b : Bufer) (n : ℕ), splitMemoria siguiente line delimitador = some (headers, b, n)
          ∧ resto = b.bytes ∧ pos = n := by
  unfold splitEn splitMemoria
  rw [bind_eq_ok_iff]
  constructor
  · rintro ⟨ptr, hptr, h⟩
    cases ptr with
    | none => cases h
    | some p =>
        obtain ⟨hcabe, h⟩ := cortarEn_eq_ok_iff.mp h
        rw [strstrEn_eq_ok_some_iff.mp hptr]
        dsimp only
        rw [dif_pos hcabe]
        cases h
        exact ⟨_, _, rfl, rfl, rfl⟩
  · rintro ⟨b, n, h, rfl, rfl⟩
    split at h
    · cases h
    · next p hp =>
        refine ⟨some p, strstrEn_eq_ok_some_iff.mpr hp, cortarEn_eq_ok_iff.mpr ?_⟩
        dsimp only at h
        split_ifs at h with hcabe
        cases h
        exact ⟨hcabe, rfl⟩

namespace WebCliente

/-! ## The block -/

/-- The block has `CRLFCRLF`, and no zero byte in front of it. -/
def TieneFin (b : Bufer) : Prop :=
  ∃ antes despues, b.bytes = antes ++ DOUBLECRLF ++ despues ∧ NUL ∉ antes

/-- Of the first occurrence the same can be said. -/
theorem tieneFin_iff {b : Bufer} :
    TieneFin b ↔ ∃ p, find DOUBLECRLF b.bytes = some p ∧ NUL ∉ b.bytes.take (p + 4) := by
  constructor
  · rintro ⟨antes, despues, hb, hnul⟩
    have hdrop : DOUBLECRLF <+: b.bytes.drop antes.length := by
      rw [hb, List.append_assoc, List.drop_left]
      exact List.prefix_append _ _
    have hin : DOUBLECRLF <:+: b.bytes := ⟨antes, despues, hb.symm⟩
    obtain ⟨p, hp⟩ := Option.isSome_iff_exists.mp ((find_isSome_iff _ _).mpr hin)
    refine ⟨p, hp, fun hmem => ?_⟩
    -- up to the first occurrence is not more than up to the given one
    have hle : p + 4 ≤ (antes ++ DOUBLECRLF).length := by
      have := find_le_of_isPrefix hp hdrop
      rw [List.length_append]
      exact Nat.add_le_add_right this 4
    rw [hb, List.take_append_of_le_length hle] at hmem
    rcases List.mem_append.mp (List.mem_of_mem_take hmem) with h | h
    · exact hnul h
    · exact absurd h (by decide)
  · rintro ⟨p, hp, hnul⟩
    refine ⟨b.bytes.take p, b.bytes.drop (p + 4), eq_append_of_find hp, fun hmem => hnul ?_⟩
    exact List.take_subset_take_left _ (Nat.le_add_right p 4) hmem

/-- **The cut is inside exactly when the block has its `CRLFCRLF`**, whatever is behind the copy of
it. -/
theorem splitEn_bloque_iff {siguiente : Char} {b : Bufer} {r : Texto × List Char × ℤ} :
    Utilidades.splitEn siguiente b DOUBLECRLF = .ok r
      ↔ ∃ p, find DOUBLECRLF b.bytes = some p ∧ NUL ∉ b.bytes.take (p + 4)
        ∧ r = (b.bytes.take (p + 4),
            b.bytes.drop (p + 4) ++ NUL :: b.bytes.drop (BUFFER_SIZE - (p + 4) + 1),
            ((p + 4 : ℕ) : ℤ)) := by
  have hlargo := b.largo
  have hcuatro : DOUBLECRLF.length = 4 := rfl
  have htake {p : ℕ} (hp : p + 4 ≤ BUFFER_SIZE) :
      (b.bytes ++ [siguiente]).take (p + DOUBLECRLF.length) = b.bytes.take (p + 4) :=
    List.take_append_of_le_length (by omega)
  unfold Utilidades.splitEn
  rw [bind_eq_ok_iff]
  constructor
  · rintro ⟨ptr, hptr, h⟩
    cases ptr with
    | none => cases h
    | some p =>
        obtain ⟨hcabe, rfl⟩ := Utilidades.cortarEn_eq_ok_iff.mp h
        have hstr := strstrEn_eq_ok_some_iff.mp hptr
        unfold strstr at hstr
        split at hstr
        · cases hstr
        · next q hq =>
            split_ifs at hstr with hnul
            cases hstr
            rw [htake hcabe] at hnul
            refine ⟨p, find_eq_some_of_append hq (by omega), hnul, ?_⟩
            rw [c_str_of_not_mem hnul]
  · rintro ⟨p, hp, hnul, rfl⟩
    have hcabe : p + 4 ≤ BUFFER_SIZE := by
      obtain ⟨hle, hpre, -⟩ := (find_eq_some_iff _ _ _).mp hp
      have := hpre.length_le
      rw [List.length_drop] at this
      omega
    refine ⟨some p, strstrEn_eq_ok_some_iff.mpr ?_, Utilidades.cortarEn_eq_ok_iff.mpr ⟨hcabe, ?_⟩⟩
    · rw [strstr, find_append_of_eq_some hp]
      dsimp only
      rw [htake hcabe, if_neg hnul]
    · rw [c_str_of_not_mem hnul]

/-! ## The status line -/

/-- The vector of a line's words has a second entry exactly when the line has a space with something
behind it. -/
theorem split_dos_iff {linea : Texto} :
    (∃ codigo, (Utilidades.split linea [' '] 2)[1]? = some codigo)
      ↔ ∃ version c cola, linea = version ++ ' ' :: c :: cola := by
  by_cases hespacio : ' ' ∈ linea
  · -- cut at the first space: there is a second piece if something is left
    obtain ⟨version, resto, rfl, hversion⟩ := List.eq_append_cons_of_mem hespacio
    have hpos : 0 < (version ++ ' ' :: resto).length := by
      rw [List.length_append, List.length_cons]
      omega
    rw [Utilidades.split, if_pos hpos, Utilidades.split.bucle_singleton hversion,
      List.getElem?_cons_succ]
    cases resto with
    | nil =>
        constructor
        · rintro ⟨codigo, h⟩
          cases h
        · rintro ⟨version', c, cola, heq⟩
          -- another space would be in front of the first one
          exfalso
          have hinicio := congrArg List.dropLast heq
          rw [List.dropLast_concat, List.dropLast_append_cons, List.dropLast_cons_cons] at hinicio
          rw [hinicio] at hversion
          simp at hversion
    | cons c cola =>
        have hne := @Utilidades.split.bucle_ne_nil [' '] _ (List.cons_ne_nil c cola) 2
        obtain ⟨codigo, mas, heq⟩ := List.exists_cons_of_ne_nil hne
        rw [heq]
        exact ⟨fun _ => ⟨version, c, cola, rfl⟩, fun _ => ⟨codigo, rfl⟩⟩
  · constructor
    · rintro ⟨codigo, h⟩
      rw [Utilidades.split] at h
      split_ifs at h with hpos
      · rw [Utilidades.split.bucle_break (find_singleton_none hespacio)] at h
        split_ifs at h with hne
        · cases h
        · cases h
      · cases h
    · rintro ⟨version, c, cola, rfl⟩
      simp at hespacio

/-- The first line of the block has a space with something behind it. -/
def TienePalabras (b : Bufer) : Prop :=
  ∃ version c cola resto, b.bytes = version ++ ' ' :: c :: cola ++ CRLF ++ resto
    ∧ ¬ CRLF <:+: version ++ ' ' :: c :: cola

/-- The first line is what is in front of the first `CRLF`. -/
theorem tienePalabras_iff {b : Bufer} {q : ℕ} (h : find CRLF b.bytes = some q) :
    TienePalabras b ↔ ∃ version c cola, b.bytes.take q = version ++ ' ' :: c :: cola := by
  constructor
  · rintro ⟨version, c, cola, resto, hb, hcrlf⟩
    have hfind : find CRLF b.bytes = some (version ++ ' ' :: c :: cola).length := by
      rw [hb, List.append_assoc]
      exact find_pair_append (by decide) hcrlf
    obtain rfl : q = (version ++ ' ' :: c :: cola).length := Option.some.inj (h.symm.trans hfind)
    refine ⟨version, c, cola, ?_⟩
    rw [hb, List.append_assoc, List.take_left]
  · rintro ⟨version, c, cola, hlinea⟩
    refine ⟨version, c, cola, b.bytes.drop (q + CRLF.length), ?_, ?_⟩
    · rw [← hlinea]
      exact eq_append_of_find h
    · rw [← hlinea]
      exact not_infix_take_of_find (by decide) h

/-- The header block begins with the first line of the block. -/
theorem split_headers {b : Bufer} {p q : ℕ} (hp : find DOUBLECRLF b.bytes = some p)
    (hq : find CRLF b.bytes = some q) :
    ∃ mas, Utilidades.split (b.bytes.take (p + 4)) CRLF 2 = b.bytes.take q :: mas := by
  obtain ⟨hle, hpre, -⟩ := (find_eq_some_iff _ _ _).mp hp
  have hlen := hpre.length_le
  have hcuatro : DOUBLECRLF.length = 4 := rfl
  have hdos : CRLF.length = 2 := rfl
  rw [List.length_drop, hcuatro] at hlen
  have hqp : q ≤ p := find_le_of_isPrefix hq ((show CRLF <+: DOUBLECRLF by decide).trans hpre)
  have hcabecera : find CRLF (b.bytes.take (p + 4)) = some q := by
    apply @find_eq_some_of_append _ _ _ _ (b.bytes.drop (p + 4))
    · rwa [List.take_append_drop]
    · rw [List.length_take]
      omega
  have hpos : 0 < (b.bytes.take (p + 4)).length := by
    rw [List.length_take]
    omega
  rw [Utilidades.split, if_pos hpos, Utilidades.split.bucle_cut hcabecera, List.take_take,
    Nat.min_eq_left (by omega)]
  exact ⟨_, rfl⟩

/-! ## All of it -/

/-- Everything that is read and written is inside, whatever is behind the copy of the block. -/
def Dentro (b : Bufer) : Prop := ∀ siguiente, Safe (analizar siguiente b)

/-- A block with its `CRLFCRLF` is given back in two pieces: the text that is returned, and what is
left at the front of the array. -/
def Recompone (b : Bufer) : Prop :=
  TieneFin b → ∀ siguiente, ∃ headers resto pos,
    Utilidades.splitEn siguiente b DOUBLECRLF = .ok (headers, resto, pos)
      ∧ headers ++ resto.take (BUFFER_SIZE - pos).toNat = b.bytes

/-- **The pieces are the block**, for every block. -/
theorem recompone (b : Bufer) : Recompone b := by
  intro hfin siguiente
  obtain ⟨p, hp, hnul⟩ := tieneFin_iff.mp hfin
  refine ⟨_, _, _, splitEn_bloque_iff.mpr ⟨p, hp, hnul, rfl⟩, ?_⟩
  have hlargo := b.largo
  have hresto : (b.bytes.drop (p + 4)).length = (BUFFER_SIZE - ((p + 4 : ℕ) : ℤ)).toNat := by
    rw [List.length_drop]
    omega
  rw [List.take_left' hresto, List.take_append_drop]

/-- The parsing of a block with its `CRLFCRLF`: the two vectors decide. -/
theorem safe_analizar_iff {b : Bufer} (siguiente : Char) (hfin : TieneFin b) :
    Safe (analizar siguiente b) ↔ TienePalabras b := by
  obtain ⟨p, hp, hnul⟩ := tieneFin_iff.mp hfin
  -- a `CRLFCRLF` begins with a `CRLF`
  have hcrlf : CRLF <:+: b.bytes :=
    (show CRLF <:+: DOUBLECRLF by decide).trans
      ((find_isSome_iff _ _).mp (Option.isSome_iff_exists.mpr ⟨p, hp⟩))
  obtain ⟨q, hq⟩ := Option.isSome_iff_exists.mp ((find_isSome_iff _ _).mpr hcrlf)
  obtain ⟨mas, hlineas⟩ := split_headers hp hq
  have hsplit := (@splitEn_bloque_iff siguiente b _).mpr ⟨p, hp, hnul, rfl⟩
  rw [tienePalabras_iff hq, ← split_dos_iff]
  unfold analizar
  rw [safe_bind_iff]
  constructor
  · rintro ⟨r, hr, hsafe⟩
    cases hsplit.symm.trans hr
    dsimp only at hsafe
    rw [hlineas, safe_bind_iff] at hsafe
    obtain ⟨linea, hlinea, hsafe⟩ := hsafe
    cases elementoEn_eq_ok_iff.mp hlinea
    obtain ⟨codigo, hcodigo, -⟩ := safe_bind_iff.mp hsafe
    exact ⟨codigo, elementoEn_eq_ok_iff.mp hcodigo⟩
  · rintro ⟨codigo, hcodigo⟩
    refine ⟨_, hsplit, ?_⟩
    dsimp only
    rw [hlineas]
    refine safe_bind_iff.mpr ⟨b.bytes.take q, elementoEn_eq_ok_iff.mpr rfl, ?_⟩
    exact safe_bind_iff.mpr ⟨codigo, elementoEn_eq_ok_iff.mpr hcodigo, _, rfl⟩

/-- Where the parsing is inside, the block has its `CRLFCRLF`. -/
theorem Dentro.tieneFin {b : Bufer} (h : Dentro b) : TieneFin b := by
  obtain ⟨r, hr, -⟩ := safe_bind_iff.mp (h NUL)
  obtain ⟨p, hp, hnul, -⟩ := splitEn_bloque_iff.mp hr
  exact tieneFin_iff.mpr ⟨p, hp, hnul⟩

/-- **Which answers the client can take apart**: those whose block has its `CRLFCRLF` in front of any
zero byte, and a space with something behind it in its first line. The code tests neither what
`strstr` returns nor how many parts it has got. -/
theorem analisis_iff (b : Bufer) : (Dentro b ∧ Recompone b) ↔ TieneFin b ∧ TienePalabras b := by
  constructor
  · rintro ⟨hdentro, -⟩
    have hfin := hdentro.tieneFin
    exact ⟨hfin, (safe_analizar_iff NUL hfin).mp (hdentro NUL)⟩
  · rintro ⟨hfin, hpalabras⟩
    exact ⟨fun siguiente => (safe_analizar_iff siguiente hfin).mpr hpalabras, recompone b⟩

/-- **Nothing received**: in an array of zero bytes there is no `CRLFCRLF`, and `strstr` returns a
null pointer. -/
theorem analisis_de_nada : ¬ ∀ b : Bufer, Dentro b ∧ Recompone b := by
  intro hall
  obtain ⟨antes, despues, hb, -⟩ := (hall .ceros).1.tieneFin
  have hmem : '\r' ∈ Bufer.ceros.bytes := by
    rw [hb]
    simp [DOUBLECRLF]
  exact absurd (List.eq_of_mem_replicate hmem) (by decide)

end WebCliente

end LoadBalancer
