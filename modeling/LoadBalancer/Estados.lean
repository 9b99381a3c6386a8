/-
The status code of a request with a `Host` header, against the table it is meant to follow.

[`estadoEsperado`] is the table: the parts between the spaces of the line, the version, the method,
the file that the path names, and what follows the last dot of its name. It is written without the
functions of the code, which goes through the same tests in the same order, with other means:

* `split` makes four cuts, and the parts behind the third one are not looked at, so that a fourth
  part is no mistake;
* `htmlv.compare(string("HTTP/3.0"))` is not compared with `0`, so it is true of every text but
  `HTTP/3.0`: an unknown version is answered with 505 instead of 400, and `HTTP/3.0` with 400
  instead of 505;
* a name without a dot is a directory to `setRuta`, so that a file like `README` is not found;
* the extension is taken after the first dot of the name, not after the last one.

[`estado_esperado_iff`] says that there is no other difference, apart from paths that name no file
and are found all the same.
-/
import LoadBalancer.Cabeceras
import LoadBalancer.Rutas

set_option autoImplicit false

namespace LoadBalancer

open LoadBalancer.Search

namespace InterpreteHTTP

/-! ## Requests whose second line is a `Host` header -/

/-- `Host: `, the key and the blank. -/
def HOST : Texto := 'H' :: OST

/-- A request text by its lines: any line, a `Host` header with a value, and whatever follows. -/
structure PeticionConHost where
  linea : Texto
  valor : Texto
  resto : Option Texto
  linea_sin_crlf : ¬ CRLF <:+: linea
  valor_sin_crlf : ¬ CRLF <:+: valor
  valor_no_vacio : valor ≠ []
  valor_sin_cierre : ';' ∉ valor

/-- The text: its lines, with a `CRLF` after the second one if anything follows. -/
def PeticionConHost.texto (p : PeticionConHost) : Texto :=
  p.linea ++ CRLF ++ (HOST ++ p.valor ++ match p.resto with
    | none => []
    | some resto => CRLF ++ resto)

/-- **The text is cut into its lines.** -/
theorem PeticionConHost.split_texto (p : PeticionConHost) :
    ∃ resto, Utilidades.split p.texto CRLF 1 = p.linea :: (HOST ++ p.valor) :: resto := by
  have hsegunda : ¬ CRLF <:+: HOST ++ p.valor :=
    not_infix_append_of_not_mem (by decide) p.valor_sin_crlf
  rw [PeticionConHost.texto, Utilidades.split_crlf p.linea_sin_crlf]
  cases p.resto with
  | none =>
      -- nothing after the header line: no `CRLF` left
      dsimp only
      rw [List.append_nil, Utilidades.split.bucle_break ((find_eq_none_iff _ _).mpr hsegunda),
        if_pos (by simp [HOST])]
      exact ⟨[], rfl⟩
  | some resto =>
      dsimp only
      rw [← List.append_assoc, Utilidades.split.bucle_crlf hsegunda]
      exact ⟨_, rfl⟩

/-- **The `Host` test passes**: with neither `CRLF` nor `;` behind it, the value is all that
follows the key, and that is not empty. -/
theorem pasaHost_host {valor : Texto} (hcrlf : ¬ CRLF <:+: valor) (hcierre : ';' ∉ valor)
    (hne : valor ≠ []) : PasaHost (HOST ++ valor) := by
  have hfind : find OST (HOST ++ valor) = some 1 := by
    have hno : ¬ OST <+: 'H' :: (OST ++ valor) := by
      intro hpre
      have := (List.cons_prefix_cons.mp hpre).1
      exact absurd this (by decide)
    have hyes : OST <+: OST ++ valor := List.prefix_append OST valor
    -- the key is found behind the `H`
    rw [HOST, List.cons_append, find_cons, if_neg hno]
    cases hcase : OST ++ valor with
    | nil => simp [OST] at hcase
    | cons c t =>
        rw [hcase] at hyes
        rw [find_cons, if_pos hyes]
        rfl
  have hdrop : (HOST ++ valor).drop 6 = valor := rfl
  -- neither closing position is found
  have hcierre1 : findDesde CRLF (HOST ++ valor) 6 = npos := by
    rw [findDesde, hdrop, (find_eq_none_iff _ _).mpr hcrlf]
  have hcierre2 : findDesde [';'] (HOST ++ valor) 6 = npos := by
    rw [findDesde, hdrop, find_singleton_none hcierre]
  have hvalor : Utilidades.extraerValorHeader (HOST ++ valor) OST
      = valor.take (aSizeT (aInt ↑(min (aSizeT (aInt npos - 6)) (aSizeT (aInt npos - 6))))) := by
    rw [Utilidades.extraerValorHeader, hfind]
    dsimp only
    rw [show 1 + OST.length = 6 from rfl, hcierre1, hcierre2, hdrop]
    rfl
  -- the size wraps around to more than any text is long
  have hsize : aSizeT (aInt ↑(min (aSizeT (aInt npos - 6)) (aSizeT (aInt npos - 6))))
      = 18446744073709551609 := by decide
  rw [PasaHost, hvalor, hsize]
  intro hnil
  rcases List.take_eq_nil_iff.mp hnil with h | h
  · cases h
  · exact hne h

/-! ## The table -/

/-- What follows the last dot of a name, in lower case. -/
def extensionFinal (nombre : Texto) : Texto :=
  (nombre.reverse.takeWhile (· ≠ '.')).reverse.map Char.toLower

/-- Where a path leads behind the folder's name: a directory, and a name in it. `/` is the home
page, and one `/` behind the name makes no difference. -/
def lugar (ruta : Texto) : Texto × Texto :=
  let hasta := "public_html".toList ++
    if ruta = ['/'] then "/index.html".toList
    else if ruta.getLast? = some '/' then ruta.dropLast
    else ruta
  let nombre := (hasta.splitOn '/').getLastD []
  (hasta.take (hasta.length - nombre.length), nombre)

/-- The file that a path names. A path that does not begin with `/`, that has nothing between its
last two, or that holds a zero byte, names none. -/
def archivoNombrado (ruta : Texto) : Option (Texto × Texto) :=
  if ruta.head? ≠ some '/' ∨ NUL ∈ ruta ∨ (lugar ruta).2 = [] then none else some (lugar ruta)

/-- The directory can be listed, and the name is in its list. -/
def estaEn (sis : Sistema) (carpeta nombre : Texto) : Bool :=
  (sis.opendir carpeta).any (·.contains nombre)

/-- The rows of the table that are about the file. -/
def estadoArchivoEsperado (sis : Sistema) (ruta : Texto) : ℤ :=
  match archivoNombrado ruta with
  | none => 404
  | some (carpeta, nombre) =>
      if ¬ estaEn sis carpeta nombre then 404
      else if ¬ ('.' ∈ nombre ∧ tipoConocido (extensionFinal nombre)) then 501
      else 200

/-- **The table.** The parts are what stands between the spaces of the line. -/
def estadoEsperado (sis : Sistema) (linea : Texto) : ℤ :=
  match linea.splitOn ' ' with
  | [metodo, ruta, version] =>
      if metodo = [] ∨ ruta = [] ∨ version = [] then 400
      else if version = "HTTP/2.0".toList ∨ version = "HTTP/3.0".toList then 505
      else if ¬ (version = "HTTP/1.0".toList ∨ version = "HTTP/1.1".toList) then 400
      else if ¬ (metodo = "GET".toList ∨ metodo = "HEAD".toList) then 400
      else estadoArchivoEsperado sis ruta
  | _ => 400

/-- The paths on which the lookup follows the table. A file that is in its directory has a dot in
its name, and its two extensions agree in being known. For a path that names no file, none is where
it leads as a C string. -/
def RutaConforme (sis : Sistema) (ruta : Texto) : Prop :=
  match archivoNombrado ruta with
  | none => '.' ∈ (lugar ruta).2 →
      estaEn sis (c_str (lugar ruta).1) (c_str (lugar ruta).2) = false
  | some (carpeta, nombre) => estaEn sis carpeta nombre →
      '.' ∈ nombre ∧ tipoConocido (extensionDe nombre) = tipoConocido (extensionFinal nombre)

/-- The lines on which the code follows the table. With three parts: one of them empty, version
`HTTP/2.0`, or version `HTTP/1.0` or `HTTP/1.1` and a path of [`RutaConforme`] if the method is
supported. With more, the table says 400, and the code comes to that only by way of an empty part,
of version `HTTP/3.0`, or of a method that is not supported. An empty part counts up to the fourth
cut, and only with another one behind it, because `split` drops a rest with nothing in it. -/
def LineaConforme (sis : Sistema) (linea : Texto) : Prop :=
  match linea.splitOn ' ' with
  | [metodo, ruta, version] =>
      metodo = [] ∨ ruta = [] ∨ version = [] ∨ version = HTTP20
        ∨ (version = HTTP10 ∨ version = HTTP11)
          ∧ (metodo = GET ∨ metodo = HEAD → RutaConforme sis ruta)
  | metodo :: ruta :: version :: cuarta :: mas =>
      (metodo = [] ∨ ruta = [] ∨ version = [] ∨ cuarta = [] ∧ mas ≠ [])
        ∨ version = HTTP30
        ∨ (version = HTTP10 ∨ version = HTTP11) ∧ ¬ (metodo = GET ∨ metodo = HEAD)
  | _ => True

/-! ## The named file -/

/-- The path that is looked up leads to that place. Without a dot in the name it is taken for a
directory. -/
theorem pedido_eq_lugar {ruta : Texto} (hne : ruta ≠ []) :
    nombrePedido ruta = (if '.' ∈ (lugar ruta).2 then (lugar ruta).2 else [])
      ∧ ('.' ∈ (lugar ruta).2 → directorioPedido ruta = (lugar ruta).1) := by
  have hhasta : lugar ruta = ((rutaPedida ruta).take ((rutaPedida ruta).length
        - (FileSystem.ultimoComponente (rutaPedida ruta)).length),
      FileSystem.ultimoComponente (rutaPedida ruta)) := by
    have hultimo (t : Texto) : (t.splitOn '/').getLastD [] = FileSystem.ultimoComponente t := by
      rw [List.getLastD_eq_getLast?, List.getLast?_eq_some_getLast (List.splitOn_ne_nil '/' t)]
      rfl
    rw [rutaPedida_eq_carpeta hne, ← hultimo]
    rfl
  rw [hhasta]
  exact ⟨rfl, fun hpunto => if_pos hpunto⟩

/-- **What the lookup makes of a path**: a file is found when the name has a dot and is where the
path leads. -/
theorem existe_iff (sis : Sistema) {ruta : Texto} (hne : ruta ≠ []) :
    existe sis ruta = true
      ↔ '.' ∈ (lugar ruta).2 ∧ estaEn sis (c_str (lugar ruta).1) (c_str (lugar ruta).2) = true := by
  obtain ⟨hnombre, hdir⟩ := pedido_eq_lugar hne
  unfold existe estaEn
  rw [hnombre]
  by_cases hpunto : '.' ∈ (lugar ruta).2
  · rw [if_pos hpunto, hdir hpunto, decide_eq_true (List.ne_nil_of_mem hpunto), Bool.true_and,
      and_iff_right hpunto]
  · rw [if_neg hpunto]
    exact iff_of_false (fun h => by cases h) fun h => hpunto h.1

/-- There is no zero byte in the directory and the name of a named file. -/
theorem c_str_archivoNombrado {ruta : Texto} {archivo : Texto × Texto}
    (h : archivoNombrado ruta = some archivo) :
    lugar ruta = archivo ∧ c_str archivo.1 = archivo.1 ∧ c_str archivo.2 = archivo.2 := by
  unfold archivoNombrado at h
  split_ifs at h with hmal
  obtain rfl := Option.some.inj h
  rw [not_or, not_or] at hmal
  have hnul : NUL ∉ ruta := hmal.2.1
  refine ⟨rfl, ?_⟩
  unfold lugar
  dsimp only
  have hhasta : NUL ∉ "public_html".toList ++
      if ruta = ['/'] then "/index.html".toList
      else if ruta.getLast? = some '/' then ruta.dropLast
      else ruta := by
    rw [List.mem_append, not_or]
    refine ⟨by decide, ?_⟩
    split_ifs
    · decide
    · exact fun hmem => hnul (List.mem_of_mem_dropLast hmem)
    · exact hnul
  generalize ("public_html".toList ++ _ : Texto) = hasta at hhasta
  refine ⟨c_str_of_not_mem fun hmem => hhasta (List.mem_of_mem_take hmem), c_str_of_not_mem ?_⟩
  have hjunta := FileSystem.flatMap_dropLast_append_getLast (List.splitOn_ne_nil '/' hasta)
  rw [List.intercalate_splitOn] at hjunta
  rw [List.getLastD_eq_getLast?, List.getLast?_eq_some_getLast (List.splitOn_ne_nil '/' hasta),
    Option.getD_some]
  exact fun hmem => hhasta (hjunta ▸ List.mem_append_right _ hmem)

/-! ## The parts of a line -/

/-- A text without the separator is one piece, or none if there is nothing in it. -/
theorem bucle_of_splitOn_singleton {c : Char} {line p : Texto} (h : line.splitOn c = [p])
    (cortes : ℕ) : Utilidades.split.bucle [c] cortes line = if p ≠ [] then [p] else [] := by
  have hline : line = p := by
    have hjunta : [c].intercalate (line.splitOn c) = line := List.intercalate_splitOn ..
    rw [← hjunta, h, List.intercalate_singleton]
  have hmem : c ∉ line := by
    rw [hline]
    exact not_mem_of_mem_splitOn (h ▸ List.mem_cons_self)
  rw [Utilidades.split.bucle_break (find_singleton_none hmem), hline]

/-- The first cut is at the first separator. -/
theorem bucle_of_splitOn_cons {c : Char} {line p q : Texto} {ps : List Texto}
    (h : line.splitOn c = p :: q :: ps) (cortes : ℕ) :
    ∃ resto, resto.splitOn c = q :: ps
      ∧ Utilidades.split.bucle [c] (cortes + 1) line
        = p :: Utilidades.split.bucle [c] cortes resto := by
  have hsin : ∀ pieza ∈ p :: q :: ps, c ∉ pieza := fun pieza hp =>
    not_mem_of_mem_splitOn (h ▸ hp)
  have hline : line = p ++ c :: [c].intercalate (q :: ps) := by
    have hjunta : [c].intercalate (line.splitOn c) = line := List.intercalate_splitOn ..
    rw [← hjunta, h, List.intercalate_cons_cons]
    simp
  refine ⟨[c].intercalate (q :: ps), List.splitOn_intercalate c
    (fun pieza hp => hsin pieza (List.mem_cons_of_mem _ hp)) (List.cons_ne_nil _ _), ?_⟩
  rw [hline]
  exact Utilidades.split.bucle_singleton (hsin p List.mem_cons_self) cortes

section Partes

variable {linea metodo ruta version : Texto}

theorem linea_ne_nil {p q : Texto} {ps : List Texto} (h : linea.splitOn ' ' = p :: q :: ps) :
    0 < linea.length := by
  rw [List.length_pos_iff]
  rintro rfl
  rw [List.splitOn_nil] at h
  cases h

/-- Fewer than three parts are fewer than three pieces. -/
theorem estadoLinea_of_pocas (sis : Sistema) {p : Texto} {ps : List Texto} (headers : Texto)
    (h : linea.splitOn ' ' = p :: ps) (hpocas : ps.length ≤ 1) :
    estadoLinea sis linea headers = STATUS_BAD_REQ_400 := by
  unfold estadoLinea Utilidades.split
  rcases ps with _ | ⟨q, _ | ⟨r, ps⟩⟩
  · rw [bucle_of_splitOn_singleton h]
    split_ifs
    · rfl
    · rfl
    · rfl
  · obtain ⟨resto, hresto, hbucle⟩ := bucle_of_splitOn_cons h 3
    rw [if_pos (linea_ne_nil h), hbucle, bucle_of_splitOn_singleton hresto]
    split_ifs
    · rfl
    · rfl
  · rw [List.length_cons, List.length_cons] at hpocas
    omega

/-- Three parts are three pieces, unless nothing is in the last one. -/
theorem split_de_tres (h : linea.splitOn ' ' = [metodo, ruta, version]) :
    Utilidades.split linea [' '] 3
      = metodo :: ruta :: if version ≠ [] then [version] else [] := by
  obtain ⟨resto, hresto, hbucle⟩ := bucle_of_splitOn_cons h 3
  obtain ⟨fin, hfin, hbucle'⟩ := bucle_of_splitOn_cons hresto 2
  rw [Utilidades.split, if_pos (linea_ne_nil h), hbucle, hbucle', bucle_of_splitOn_singleton hfin]

/-- The parts behind the third one do not change the first three, and an empty one of them is seen
only if the fourth cut is behind it. -/
theorem split_de_mas {cuarta : Texto} {mas : List Texto}
    (h : linea.splitOn ' ' = metodo :: ruta :: version :: cuarta :: mas) :
    ∃ cola, Utilidades.split linea [' '] 3 = metodo :: ruta :: version :: cola
      ∧ ([] ∈ cola ↔ cuarta = [] ∧ mas ≠ []) := by
  obtain ⟨resto, hresto, hbucle⟩ := bucle_of_splitOn_cons h 3
  obtain ⟨resto', hresto', hbucle'⟩ := bucle_of_splitOn_cons hresto 2
  obtain ⟨fin, hfin, hbucle''⟩ := bucle_of_splitOn_cons hresto' 1
  refine ⟨_, by rw [Utilidades.split, if_pos (linea_ne_nil h), hbucle, hbucle', hbucle''], ?_⟩
  cases mas with
  | nil =>
      rw [bucle_of_splitOn_singleton hfin, iff_false_right (fun h => h.2 rfl)]
      split_ifs with hcuarta
      · exact fun hmem => hcuarta (List.mem_singleton.mp hmem).symm
      · exact List.not_mem_nil
  | cons quinta mas =>
      obtain ⟨cola, -, hcola⟩ := bucle_of_splitOn_cons hfin 0
      rw [hcola, List.mem_cons, and_iff_left (List.cons_ne_nil _ _), Utilidades.split.bucle,
        eq_comm]
      refine or_iff_left ?_
      split_ifs with hnada
      · exact fun hmem => hnada (List.mem_singleton.mp hmem).symm
      · exact List.not_mem_nil

end Partes

/-! ## The comparison -/

/-- The code's answer for a path is the table's exactly on the paths of [`RutaConforme`]. -/
theorem estadoArchivo_eq_iff (sis : Sistema) {ruta : Texto} (hne : ruta ≠ []) :
    estadoArchivo sis ruta = estadoArchivoEsperado sis ruta ↔ RutaConforme sis ruta := by
  have hexiste := existe_iff sis hne
  have hpedido := (pedido_eq_lugar hne).1
  unfold estadoArchivoEsperado RutaConforme
  cases hnombrado : archivoNombrado ruta with
  | none =>
      -- 404 in the table
      unfold estadoArchivo
      dsimp only
      rw [← Bool.not_eq_true, ← not_and, ← hexiste]
      by_cases hesta : existe sis ruta = true
      · rw [if_pos hesta]
        refine iff_of_false ?_ (not_not_intro hesta)
        split_ifs
        · decide
        · decide
      · rw [if_neg hesta]
        exact iff_of_true rfl hesta
  | some archivo =>
      obtain ⟨hlugar, hcarpeta, hnombre⟩ := c_str_archivoNombrado hnombrado
      obtain ⟨carpeta, nombre⟩ := archivo
      rw [hlugar] at hexiste hpedido
      dsimp only at hexiste hpedido hcarpeta hnombre
      rw [hcarpeta, hnombre] at hexiste
      unfold estadoArchivo
      dsimp only
      by_cases hesta : estaEn sis carpeta nombre = true
      · rw [if_neg (not_not_intro hesta), forall_prop_of_true hesta]
        by_cases hpunto : '.' ∈ nombre
        · rw [if_pos (hexiste.mpr ⟨hpunto, hesta⟩), hpedido, if_pos hpunto]
          simp only [hpunto, true_and]
          cases tipoConocido (extensionDe nombre) <;>
            cases tipoConocido (extensionFinal nombre) <;> decide
        · -- the path of a directory, to the lookup
          rw [if_neg fun h => hpunto (hexiste.mp h).1, if_pos fun h => hpunto h.1]
          exact iff_of_false (by decide) fun h => hpunto h.1
      · rw [if_neg fun h => hesta (hexiste.mp h).2, if_pos hesta]
        exact iff_of_true rfl fun h => absurd h hesta

/-- The cascade of `procesarRequest` behind the `Host` test, against the rows of the table. -/
theorem estado_eq_iff (sis : Sistema) (metodo : Texto) {ruta : Texto} (hne : ruta ≠ [])
    (version : Texto) {headers : Texto} (hhost : PasaHost headers) :
    estado sis metodo ruta version headers
        = (if version = HTTP20 ∨ version = HTTP30 then 505
          else if ¬ (version = HTTP10 ∨ version = HTTP11) then 400
          else if ¬ (metodo = GET ∨ metodo = HEAD) then 400
          else estadoArchivoEsperado sis ruta)
      ↔ version = HTTP20
        ∨ (version = HTTP10 ∨ version = HTTP11)
          ∧ (metodo = GET ∨ metodo = HEAD → RutaConforme sis ruta) := by
  rw [estado, if_neg hhost]
  by_cases hver : version = HTTP10 ∨ version = HTTP11
  · -- a supported version: the method and the file decide
    have h20 : ¬ version = HTTP20 := by
      rintro rfl
      exact absurd hver (by decide)
    have h2030 : ¬ (version = HTTP20 ∨ version = HTTP30) := by
      rintro (h | rfl)
      · exact h20 h
      · exact absurd hver (by decide)
    rw [if_pos hver, if_neg h2030, if_neg (not_not_intro hver), or_iff_right h20,
      and_iff_right hver]
    by_cases hm : metodo = GET ∨ metodo = HEAD
    · rw [if_pos hm, if_neg (not_not_intro hm), estadoArchivo_eq_iff sis hne,
        forall_prop_of_true hm]
    · rw [if_neg hm, if_pos hm]
      exact iff_of_true rfl fun h => absurd h hm
  have hno20 : (version = HTTP20 ∨ (version = HTTP10 ∨ version = HTTP11)
      ∧ (metodo = GET ∨ metodo = HEAD → RutaConforme sis ruta)) ↔ version = HTTP20 :=
    or_iff_left fun h => hver h.1
  rw [if_neg hver, hno20]
  by_cases h20 : version = HTTP20
  · rw [if_pos (.inl h20), if_pos (.inl h20)]
    exact iff_of_true rfl h20
  -- any other version: one of 400 and 505 where the other is expected
  by_cases h30 : version = HTTP30
  -- the missing `== 0`: 400 for `HTTP/3.0`, and below 505 for every unknown version
  · rw [if_neg (not_or.mpr ⟨h20, not_not_intro h30⟩), if_pos (.inr h30)]
    exact iff_of_false (by decide) h20
  · rw [if_pos (.inr h30), if_neg (not_or.mpr ⟨h20, h30⟩), if_pos hver]
    exact iff_of_false (by decide) h20

/-- Where the cascade comes to 400 behind the `Host` test. -/
theorem estado_eq_bad_req_iff (sis : Sistema) (metodo ruta version : Texto) {headers : Texto}
    (hhost : PasaHost headers) :
    estado sis metodo ruta version headers = STATUS_BAD_REQ_400
      ↔ version = HTTP30
        ∨ (version = HTTP10 ∨ version = HTTP11) ∧ ¬ (metodo = GET ∨ metodo = HEAD) := by
  rw [estado, if_neg hhost]
  by_cases hver : version = HTTP10 ∨ version = HTTP11
  · have h30 : ¬ version = HTTP30 := by
      rintro rfl
      exact absurd hver (by decide)
    rw [if_pos hver, or_iff_right h30, and_iff_right hver]
    by_cases hm : metodo = GET ∨ metodo = HEAD
    · rw [if_pos hm]
      refine iff_of_false ?_ (not_not_intro hm)
      unfold estadoArchivo
      split_ifs
      · decide
      · decide
      · decide
    · rw [if_neg hm]
      exact iff_of_true rfl hm
  · have hno30 : (version = HTTP30 ∨ (version = HTTP10 ∨ version = HTTP11)
        ∧ ¬ (metodo = GET ∨ metodo = HEAD)) ↔ version = HTTP30 := or_iff_left fun h => hver h.1
    rw [if_neg hver, hno30]
    by_cases h30 : version = HTTP30
    · have h20 : ¬ version = HTTP20 := by
        rintro rfl
        exact absurd h30 (by decide)
      rw [if_neg (not_or.mpr ⟨h20, not_not_intro h30⟩)]
      exact iff_of_true rfl h30
    · rw [if_pos (.inr h30)]
      exact iff_of_false (by decide) h30

/-- The code of a line with a `Host` header behind it agrees with the table exactly on the lines
of [`LineaConforme`]. -/
theorem estadoLinea_eq_estadoEsperado_iff (sis : Sistema) (linea : Texto) {headers : Texto}
    (hhost : PasaHost headers) :
    estadoLinea sis linea headers = estadoEsperado sis linea ↔ LineaConforme sis linea := by
  unfold estadoEsperado LineaConforme
  rcases hpartes : linea.splitOn ' ' with
    _ | ⟨metodo, _ | ⟨ruta, _ | ⟨version, _ | ⟨cuarta, mas⟩⟩⟩⟩
  · exact absurd hpartes (List.splitOn_ne_nil _ _)
  · exact iff_of_true (estadoLinea_of_pocas sis headers hpartes (Nat.zero_le _)) trivial
  · exact iff_of_true (estadoLinea_of_pocas sis headers hpartes (Nat.le_refl _)) trivial
  · -- three parts
    unfold estadoLinea
    rw [split_de_tres hpartes]
    by_cases hversion : version = []
    · rw [if_neg (not_not_intro hversion)]
      dsimp only
      rw [if_pos (.inr (.inr hversion))]
      exact iff_of_true rfl (.inr (.inr (.inl hversion)))
    rw [if_pos hversion]
    dsimp only
    have hmem : [] ∈ [metodo, ruta, version] ↔ metodo = [] ∨ ruta = [] ∨ version = [] := by
      simp only [List.mem_cons, List.not_mem_nil, or_false, eq_comm]
    by_cases hvacia : metodo = [] ∨ ruta = [] ∨ version = []
    · rw [if_pos (hmem.mpr hvacia), if_pos hvacia]
      refine iff_of_true rfl ?_
      rcases hvacia with h | h | h
      · exact .inl h
      · exact .inr (.inl h)
      · exact .inr (.inr (.inl h))
    · rw [if_neg (mt hmem.mp hvacia), if_neg hvacia]
      simp only [not_or] at hvacia
      rw [or_iff_right hvacia.1, or_iff_right hvacia.2.1, or_iff_right hvacia.2.2]
      exact estado_eq_iff sis metodo hvacia.2.1 version hhost
  · -- four or more: 400 in the table
    obtain ⟨cola, hcola, hvacias⟩ := split_de_mas hpartes
    unfold estadoLinea
    rw [hcola]
    dsimp only
    have hmem : [] ∈ metodo :: ruta :: version :: cola
        ↔ metodo = [] ∨ ruta = [] ∨ version = [] ∨ cuarta = [] ∧ mas ≠ [] := by
      simp only [List.mem_cons, hvacias, eq_comm]
    by_cases hvacia : metodo = [] ∨ ruta = [] ∨ version = [] ∨ cuarta = [] ∧ mas ≠ []
    · rw [if_pos (hmem.mpr hvacia)]
      exact iff_of_true rfl (.inl hvacia)
    · rw [if_neg (mt hmem.mp hvacia), or_iff_right hvacia]
      exact estado_eq_bad_req_iff sis metodo ruta version hhost

/-- **When `construirRespuesta` returns what the table says.** For every request whose second line
is a `Host` header with a value, every directory tree, and any state of the interpreter: with the
`Host` test passed, the code is a function of the line and the tree, so that the two can be compared
row by row. -/
theorem estado_esperado_iff (sis : Sistema) (i : InterpreteHTTP) (p : PeticionConHost) :
    (∃ i', i.construirRespuesta sis p.texto = some (i', estadoEsperado sis p.linea))
      ↔ LineaConforme sis p.linea := by
  obtain ⟨resto, hsplit⟩ := p.split_texto
  have hhost := pasaHost_host p.valor_sin_crlf p.valor_sin_cierre p.valor_no_vacio
  obtain ⟨i', hi'⟩ := construirRespuesta_estado sis i hsplit
  rw [← estadoLinea_eq_estadoEsperado_iff sis p.linea hhost]
  constructor
  · rintro ⟨j, hj⟩
    rw [hi'] at hj
    exact (Prod.mk.inj (Option.some.inj hj)).2
  · intro heq
    exact ⟨i', heq ▸ hi'⟩

/-- A request of version `HTTP/3.0`. -/
def peticionHTTP30 : PeticionConHost where
  linea := "GET / HTTP/3.0".toList
  valor := "a".toList
  resto := some CRLF
  linea_sin_crlf := by decide
  valor_sin_crlf := by decide
  valor_no_vacio := by decide
  valor_sin_cierre := by decide

/-- **`HTTP/3.0` is answered with 400**, where the table says 505. -/
theorem estado_no_esperado :
    ¬ ∀ (sis : Sistema) (i : InterpreteHTTP) (p : PeticionConHost),
      ∃ i', i.construirRespuesta sis p.texto = some (i', estadoEsperado sis p.linea) := by
  intro hall
  obtain ⟨i', hi'⟩ := hall .sinArchivos .nuevo peticionHTTP30
  have hcodigo : (construirRespuesta .sinArchivos peticionHTTP30.texto .nuevo).map Prod.snd
      = some STATUS_BAD_REQ_400 := rfl
  have htabla : estadoEsperado .sinArchivos peticionHTTP30.linea
      = STATUS_HTTP_VRSN_NOT_SPPRTD_505 := by decide
  rw [hi', htabla] at hcodigo
  have hmal : STATUS_HTTP_VRSN_NOT_SPPRTD_505 = STATUS_BAD_REQ_400 := Option.some.inj hcodigo
  exact absurd hmal (by decide)

end InterpreteHTTP

end LoadBalancer
