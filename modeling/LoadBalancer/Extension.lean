/-
`Content-Type`: the type that a file's name asks for, and the one it is answered with.

`extensionArchivo` erases everything up to the first dot, so that a name with two dots keeps one in
its extension, and no key of `MIMETYPES` has a dot ([`clave_limpia`]). A file like `a.b.html` is
there, of a known type, and answered with 501. The other ways to miss a file that is there are the
`Host` header further down, a directory that can be entered and not listed, and a zero byte in the
name; [`tipo_servido_iff`] says that these are all.
-/
import LoadBalancer.Arbol
import LoadBalancer.Estados

set_option autoImplicit false

namespace LoadBalancer

open LoadBalancer.Search

/-! ## The type of an answer -/

namespace InterpreteHTTP

theorem responderArchivo_MIME (sis : Sistema) {i : InterpreteHTTP}
    (h : (i.responderArchivo sis).respuesta_estadoCodigo = STATUS_OK_200) :
    MIMETYPES.lookup (extensionDe i.fs.nombreArchivo) = some (i.responderArchivo sis).respuesta_MIME := by
  have hext : i.fs.extensionArchivo.extension = extensionDe i.fs.nombreArchivo := rfl
  unfold responderArchivo at h ⊢
  dsimp only at h ⊢
  rw [← hext]
  cases hlook : MIMETYPES.lookup i.fs.extensionArchivo.extension with
  | some tipo => rfl
  | none =>
      rw [hlook] at h
      exact absurd (show STATUS_NOT_IMPLMTD_501 = STATUS_OK_200 from h) (by decide)

theorem procesarMetodo_MIME {sis : Sistema} {metodo ruta : Texto} {i i' : InterpreteHTTP}
    (h : i.procesarMetodo sis metodo ruta = some i') :
    i'.respuesta_estadoCodigo = STATUS_OK_200 →
      MIMETYPES.lookup (extensionDe (nombrePedido ruta)) = some i'.respuesta_MIME := by
  unfold procesarMetodo at h
  by_cases hm : metodo = GET ∨ metodo = HEAD
  · rw [if_pos hm] at h
    dsimp only at h
    generalize (if metodo = HEAD then { i with enviarSoloHeaders := false } else i) = j at h
    rw [setRutaRecurso_eq, Option.map_some, Option.some.injEq] at h
    subst h
    split
    · intro h200
      have hmime := responderArchivo_MIME sis h200
      rw [FileSystem.abrir_nombreArchivo] at hmime
      exact hmime
    · exact fun h200 =>
        absurd (show STATUS_NOT_FOUND_404 = STATUS_OK_200 from h200) (by decide)
  · rw [if_neg hm, Option.some.injEq] at h
    subst h
    exact fun h200 => absurd (show STATUS_BAD_REQ_400 = STATUS_OK_200 from h200) (by decide)

/-- **The type of a 200 answer** is the one of the extension. -/
theorem construirRespuesta_MIME {sis : Sistema} {httpRequest ruta : Texto} {i i' : InterpreteHTTP}
    (h : i.construirRespuesta sis httpRequest = some (i', STATUS_OK_200))
    (hd : Despachada httpRequest ruta) :
    MIMETYPES.lookup (extensionDe (nombrePedido ruta)) = some i'.respuesta_MIME := by
  obtain ⟨j, hj200, rfl, ⟨rfl, hno, -⟩ | ⟨linea, headers, resto, metodo, ruta', htmlv, mas, hsplit,
    hpartes, hvacia, hj⟩⟩ := construirRespuesta_casos h
  · exact absurd hd (hno ruta)
  obtain ⟨rfl, hhost, hver, -⟩ := (despachada_iff hsplit hpartes hvacia ruta).mp hd
  rw [procesarRequest, if_neg hhost, if_pos hver] at hj
  have hmime := procesarMetodo_MIME hj hj200.symm
  exact hmime

end InterpreteHTTP

/-! ## Names with one dot -/

/-- **A key of `MIMETYPES` has neither a dot nor a zero byte.** -/
theorem clave_limpia {extension tipo : Texto} (h : MIMETYPES.lookup extension = some tipo) :
    '.' ∉ extension ∧ NUL ∉ extension := by
  obtain ⟨l₁, l₂, heq, -⟩ := List.lookup_eq_some_iff.mp h
  have hmem : extension ∈ MIMETYPES.map Prod.fst := by
    rw [heq]
    simp
  have hall : ∀ clave ∈ MIMETYPES.map Prod.fst, '.' ∉ clave ∧ NUL ∉ clave := by decide
  exact hall extension hmem

/-- What a text holds that has no capital is in its lower case too. -/
theorem mem_map_toLower {c : Char} (hc : c.toLower = c) {texto : Texto} (h : c ∈ texto) :
    c ∈ texto.map Char.toLower :=
  List.mem_map.mpr ⟨c, h, hc⟩

theorem count_punto_eq_one_iff {nombre : Texto} :
    nombre.count '.' = 1 ↔ ∃ raiz extension, nombre = raiz ++ '.' :: extension
      ∧ '.' ∉ raiz ∧ '.' ∉ extension := by
  constructor
  · intro h
    have hmem : '.' ∈ nombre := List.count_pos_iff.mp (by omega)
    obtain ⟨raiz, extension, rfl, hraiz⟩ := List.eq_append_cons_of_mem hmem
    rw [List.count_append, List.count_cons_self, List.count_eq_zero.mpr hraiz] at h
    exact ⟨raiz, extension, rfl, hraiz, List.count_eq_zero.mp (by omega)⟩
  · rintro ⟨raiz, extension, rfl, hraiz, hextension⟩
    rw [List.count_append, List.count_cons_self, List.count_eq_zero.mpr hraiz,
      List.count_eq_zero.mpr hextension]

namespace InterpreteHTTP

/-- What follows the first dot. -/
theorem extensionDe_append {raiz : Texto} (h : '.' ∉ raiz) (resto : Texto) :
    extensionDe (raiz ++ '.' :: resto) = resto.map Char.toLower := by
  unfold extensionDe
  rw [find_singleton_append h]
  dsimp only
  rw [← List.drop_drop, List.drop_left, List.drop_one, List.tail_cons]

/-- What follows the last one. -/
theorem extensionFinal_append (raiz : Texto) {extension : Texto} (h : '.' ∉ extension) :
    extensionFinal (raiz ++ '.' :: extension) = extension.map Char.toLower := by
  have htake : (extension.reverse ++ '.' :: raiz.reverse).takeWhile (· ≠ '.')
      = extension.reverse := by
    rw [List.takeWhile_append_of_pos]
    · simp
    · intro c hc
      have : c ≠ '.' := by
        rintro rfl
        exact h (List.mem_reverse.mp hc)
      simpa using this
  unfold extensionFinal
  rw [List.reverse_append, List.reverse_cons, List.append_assoc, List.singleton_append, htake,
    List.reverse_reverse]

/-- **The extension of a name that has one is known only if the name has one dot**, and no zero byte
behind it. -/
theorem un_punto_of_lookup {nombre tipo : Texto} (hpunto : '.' ∈ nombre)
    (h : MIMETYPES.lookup (extensionDe nombre) = some tipo) :
    ∃ raiz extension, nombre = raiz ++ '.' :: extension ∧ '.' ∉ raiz ∧ '.' ∉ extension
      ∧ NUL ∉ extension := by
  obtain ⟨raiz, extension, rfl, hraiz⟩ := List.eq_append_cons_of_mem hpunto
  rw [extensionDe_append hraiz] at h
  obtain ⟨hdot, hnul⟩ := clave_limpia h
  exact ⟨raiz, extension, rfl, hraiz, fun hmem => hdot (mem_map_toLower (by decide) hmem),
    fun hmem => hnul (mem_map_toLower (by decide) hmem)⟩

end InterpreteHTTP

/-! ## The directory of a file -/

namespace FileSystem

theorem barra_not_mem_ultimoComponente (p : Texto) : '/' ∉ ultimoComponente p :=
  not_mem_of_mem_splitOn (List.getLast_mem (List.splitOn_ne_nil '/' p))

/-- A directory that is not the empty text ends with a `/`. -/
theorem directorioDe_eq_append {p : Texto} (hne : directorioDe p ≠ []) :
    ∃ base, directorioDe p = base ++ ['/'] := by
  unfold directorioDe at hne ⊢
  split_ifs at hne ⊢ with hpunto
  · rw [← flatMap_dropLast_splitOn] at hne ⊢
    generalize (p.splitOn '/').dropLast = piezas at hne ⊢
    induction piezas using List.reverseRecOn with
    | nil => exact absurd rfl hne
    | append_singleton primeras ultima =>
        rw [List.flatMap_append, List.flatMap_singleton, ← List.append_assoc]
        exact ⟨_, rfl⟩
  · exact ⟨p, rfl⟩

end FileSystem

namespace Arbol

open FileSystem

/-- **A file that is there is listed**, in a directory that can be listed. -/
theorem mem_listado {a : Arbol} {p : Texto} {lista : List Texto} {st : Stat} {lee escribe : Bool}
    (hpunto : '.' ∈ ultimoComponente p) (hdir : a.sistema.opendir (directorioDe p) = some lista)
    (hreg : a.nodoEn p = some (.regular st lee escribe)) : ultimoComponente p ∈ lista := by
  obtain ⟨st', busca, entradas, hnodo, rfl⟩ := a.opendir_eq_some_iff.mp hdir
  have hne : directorioDe p ≠ [] := by
    intro hnil
    rw [hnil, nodoEn, if_pos rfl] at hnodo
    cases hnodo
  obtain ⟨base, hbase⟩ := directorioDe_eq_append hne
  have hp : p = base ++ '/' :: ultimoComponente p := by
    have := directorioDe_append_nombreDe hpunto
    rw [hbase, nombreDe, if_pos hpunto, List.append_assoc, List.singleton_append] at this
    exact this.symm
  have hinicio : a.inicio p = a.inicio (base ++ ['/']) := by
    unfold inicio
    rw [hp]
    cases base <;> rfl
  have hpne : p ≠ [] := by
    rw [hp]
    exact List.append_ne_nil_of_right_ne_nil _ (List.cons_ne_nil _ _)
  -- both paths are the way to the directory, and one component more
  rw [hbase, nodoEn, if_neg (by simp), List.splitOn_append_cons_self, List.splitOn_nil,
    camina_append, ← hinicio] at hnodo
  rw [nodoEn, if_neg hpne] at hreg
  have hsplit : p.splitOn '/' = base.splitOn '/' ++ [ultimoComponente p] := by
    conv_lhs => rw [hp]
    rw [List.splitOn_append_cons_self,
      List.splitOn_eq_singleton (barra_not_mem_ultimoComponente p)]
  rw [hsplit, camina_append] at hreg
  cases hcamino : camina (base.splitOn '/') (a.inicio p) with
  | none =>
      rw [hcamino] at hreg
      cases hreg
  | some camino =>
      rw [hcamino, Option.bind_some, camina_singleton] at hnodo hreg
      exact entra_regular hnodo hreg

end Arbol

/-! ## The result -/

namespace InterpreteHTTP

open FileSystem

/-- The file that a request path names, as the system reads its path. -/
def archivoPedido (ruta : Texto) : Texto := c_str (rutaPedida ruta)

/-- A `GET` request with a `Host` header and a supported version for a regular file that is there,
whose name has something of the table behind its last dot. -/
structure GetDeArchivo (a : Arbol) where
  peticion : PeticionConCabeceras
  ruta : Texto
  htmlv : Texto
  st : Stat
  lee : Bool
  escribe : Bool
  tipo : Texto
  linea : peticion.linea = GET ++ ' ' :: (ruta ++ ' ' :: htmlv)
  ruta_no_vacia : ruta ≠ []
  ruta_sin_blanco : ' ' ∉ ruta
  version : htmlv = HTTP10 ∨ htmlv = HTTP11
  host : ∃ c ∈ peticion.cabeceras, EsHost c
  archivo : a.nodoEn (archivoPedido ruta) = some (.regular st lee escribe)
  punto : '.' ∈ ultimoComponente (archivoPedido ruta)
  tipo_conocido : MIMETYPES.lookup (extensionFinal (ultimoComponente (archivoPedido ruta)))
    = some tipo

/-- The request is answered with 200 and the type of its file's name. -/
def GetDeArchivo.Servido {a : Arbol} (g : GetDeArchivo a) (i : InterpreteHTTP) : Prop :=
  ∃ i', i.construirRespuesta a.sistema g.peticion.texto = some (i', STATUS_OK_200)
    ∧ i'.respuesta_MIME = g.tipo

/-- The condition of [`tipo_servido_iff`]: the first header line passes the `Host` test, the file's
directory can be listed, and its name has one dot and no zero byte. -/
structure GetDeArchivo.SeEncuentra {a : Arbol} (g : GetDeArchivo a) : Prop where
  host : PasaHost g.peticion.primera
  listado : (a.sistema.opendir (c_str (directorioPedido g.ruta))).isSome
  un_punto : (nombrePedido g.ruta).count '.' = 1
  sin_nul : NUL ∉ nombrePedido g.ruta

section Get

variable {a : Arbol} (g : GetDeArchivo a)

/-- The request gets as far as its file when the first header line passes the `Host` test. -/
theorem GetDeArchivo.despachada_iff (ruta : Texto) :
    Despachada g.peticion.texto ruta ↔ ruta = g.ruta ∧ PasaHost g.peticion.primera := by
  obtain ⟨resto, hsplit⟩ := g.peticion.split_texto
  have hv : ' ' ∉ g.htmlv ∧ g.htmlv ≠ [] := by
    rcases g.version with h | h <;> rw [h] <;> decide
  have hpartes : Utilidades.split g.peticion.linea [' '] 3 = [GET, g.ruta, g.htmlv] := by
    rw [g.linea]
    exact split_of_bienFormada (by decide) g.ruta_sin_blanco hv.1 hv.2
  have hvacia : [] ∉ [GET, g.ruta, g.htmlv] := by
    simp only [List.mem_cons, List.not_mem_nil, or_false, not_or]
    exact ⟨by decide, g.ruta_no_vacia.symm, hv.2.symm⟩
  rw [InterpreteHTTP.despachada_iff hsplit hpartes hvacia ruta]
  exact and_congr_right fun _ => ⟨fun h => h.1, fun h => ⟨h, g.version, .inl rfl⟩⟩

/-- With a dot in the last component, the path is its directory and its name. -/
theorem rutaPedida_eq {ruta : Texto} (h : nombrePedido ruta ≠ []) :
    '.' ∈ ultimoComponente (rutaPedida ruta)
      ∧ nombrePedido ruta = ultimoComponente (rutaPedida ruta)
      ∧ directorioPedido ruta ++ nombrePedido ruta = rutaPedida ruta := by
  unfold nombrePedido nombreDe at h
  split_ifs at h with hpunto
  · exact ⟨hpunto, if_pos hpunto, directorioDe_append_nombreDe hpunto⟩
  · exact absurd rfl h

/-- What can be listed is not the file, so no zero byte is in front of the name. -/
theorem GetDeArchivo.nul_not_mem_directorio (hnombre : nombrePedido g.ruta ≠ [])
    (hdir : (a.sistema.opendir (c_str (directorioPedido g.ruta))).isSome) :
    NUL ∉ directorioPedido g.ruta := by
  intro hnul
  obtain ⟨lista, hlista⟩ := Option.isSome_iff_exists.mp hdir
  obtain ⟨st, busca, entradas, hnodo, -⟩ := a.opendir_eq_some_iff.mp hlista
  have harchivo := g.archivo
  rw [archivoPedido, ← (rutaPedida_eq hnombre).2.2, c_str_append_of_mem hnul, hnodo] at harchivo
  cases harchivo

/-- The name of the file, up to a zero byte. -/
theorem GetDeArchivo.ultimoComponente_archivo (hnombre : nombrePedido g.ruta ≠ [])
    (hdir : (a.sistema.opendir (c_str (directorioPedido g.ruta))).isSome) :
    ultimoComponente (archivoPedido g.ruta) = c_str (nombrePedido g.ruta) := by
  have hnul := g.nul_not_mem_directorio hnombre hdir
  obtain ⟨hpunto, hultimo, hruta⟩ := rutaPedida_eq hnombre
  obtain ⟨lista, hlista⟩ := Option.isSome_iff_exists.mp hdir
  obtain ⟨st, busca, entradas, hnodo, -⟩ := a.opendir_eq_some_iff.mp hlista
  have hne : directorioPedido g.ruta ≠ [] := by
    intro hnil
    rw [hnil] at hnodo
    cases hnodo
  obtain ⟨base, hbase⟩ := directorioDe_eq_append hne
  have hbarra : '/' ∉ c_str (nombrePedido g.ruta) := by
    intro h
    apply barra_not_mem_ultimoComponente (rutaPedida g.ruta)
    rw [← hultimo]
    exact (c_str_isPrefix _).subset h
  have hcorte : archivoPedido g.ruta = base ++ '/' :: c_str (nombrePedido g.ruta) := by
    rw [archivoPedido, ← hruta, c_str_append_of_not_mem hnul, directorioPedido, hbase,
      List.append_assoc, List.singleton_append]
  unfold ultimoComponente
  simp only [hcorte, List.splitOn_append_cons_self, List.splitOn_eq_singleton hbarra,
    List.getLast_append_singleton]

variable {g} {i : InterpreteHTTP}

/-- A zero byte in front of the only dot would leave the file a name without one. -/
theorem GetDeArchivo.nul_not_mem_nombre (hnombre : nombrePedido g.ruta ≠ [])
    (hdir : (a.sistema.opendir (c_str (directorioPedido g.ruta))).isSome) {raiz extension : Texto}
    (heq : nombrePedido g.ruta = raiz ++ '.' :: extension) (hraiz : '.' ∉ raiz)
    (hextension : NUL ∉ extension) : NUL ∉ nombrePedido g.ruta := by
  intro hmem
  have harchivo := g.punto
  rw [g.ultimoComponente_archivo hnombre hdir] at harchivo
  have hmem' : NUL ∈ raiz := by
    rw [heq, List.mem_append, List.mem_cons] at hmem
    rcases hmem with h | h | h
    · exact h
    · exact absurd h (by decide)
    · exact absurd h hextension
  rw [heq, c_str_append_of_mem hmem'] at harchivo
  exact hraiz ((c_str_isPrefix raiz).subset harchivo)

/-- What is served was listed, under a name whose text behind the first dot is of the table. -/
theorem GetDeArchivo.Servido.seEncuentra (h : g.Servido i) : g.SeEncuentra := by
  obtain ⟨i', hi', -⟩ := h
  obtain ⟨-, -, -, hcodigo⟩ := construirRespuesta_campos hi'
  obtain ⟨ruta, hd, hexiste, htipo⟩ := hcodigo.mp rfl
  obtain ⟨rfl, hhost⟩ := (g.despachada_iff ruta).mp hd
  simp only [existe, Bool.and_eq_true, decide_eq_true_eq, Option.any_eq_true] at hexiste
  obtain ⟨hnombre, lista, hlista, -⟩ := hexiste
  have hdir : (a.sistema.opendir (c_str (directorioPedido g.ruta))).isSome := by rw [hlista]; rfl
  obtain ⟨hpunto, hultimo, -⟩ := rutaPedida_eq hnombre
  obtain ⟨tipo, hlook⟩ := Option.isSome_iff_exists.mp htipo
  obtain ⟨raiz, extension, heq, hraiz, hextension, hnul⟩ :=
    un_punto_of_lookup (hultimo ▸ hpunto) hlook
  exact
    { host := hhost
      listado := hdir
      un_punto := count_punto_eq_one_iff.mpr ⟨raiz, extension, heq, hraiz, hextension⟩
      sin_nul := g.nul_not_mem_nombre hnombre hdir heq hraiz hnul }

theorem GetDeArchivo.SeEncuentra.nombre_ne_nil (h : g.SeEncuentra) : nombrePedido g.ruta ≠ [] := by
  obtain ⟨raiz, extension, heq, -, -⟩ := count_punto_eq_one_iff.mp h.un_punto
  rw [heq]
  exact List.append_ne_nil_of_right_ne_nil _ (List.cons_ne_nil _ _)

/-- With one dot, what follows the first one is what follows the last one. -/
theorem GetDeArchivo.SeEncuentra.lookup (h : g.SeEncuentra) :
    MIMETYPES.lookup (extensionDe (nombrePedido g.ruta)) = some g.tipo := by
  obtain ⟨raiz, extension, heq, hraiz, hextension⟩ := count_punto_eq_one_iff.mp h.un_punto
  rw [heq, extensionDe_append hraiz, ← extensionFinal_append raiz hextension, ← heq,
    ← c_str_of_not_mem h.sin_nul, ← g.ultimoComponente_archivo h.nombre_ne_nil h.listado]
  exact g.tipo_conocido

/-- The file is in the listing of its directory. -/
theorem GetDeArchivo.SeEncuentra.existe (h : g.SeEncuentra) :
    InterpreteHTTP.existe a.sistema g.ruta = true := by
  obtain ⟨hpunto, hultimo, hruta⟩ := rutaPedida_eq h.nombre_ne_nil
  have hnul := g.nul_not_mem_directorio h.nombre_ne_nil h.listado
  have hlimpio : c_str (nombrePedido g.ruta) = nombrePedido g.ruta := c_str_of_not_mem h.sin_nul
  obtain ⟨lista, hlista⟩ := Option.isSome_iff_exists.mp h.listado
  have harchivo := g.archivo
  rw [archivoPedido, ← hruta, c_str_append_of_not_mem hnul, hlimpio, hruta] at harchivo
  have hmem := Arbol.mem_listado hpunto (c_str_of_not_mem hnul ▸ hlista) harchivo
  rw [← hultimo] at hmem
  rw [InterpreteHTTP.existe, hlista, hlimpio, Option.any_some]
  simp [h.nombre_ne_nil, hmem]

theorem GetDeArchivo.SeEncuentra.servido (h : g.SeEncuentra) : g.Servido i := by
  have hd := (g.despachada_iff g.ruta).mpr ⟨rfl, h.host⟩
  obtain ⟨i', codigo, hi'⟩ := exists_construirRespuesta a.sistema i hd.ne_nil
  obtain ⟨-, -, -, hcodigo⟩ := construirRespuesta_campos hi'
  obtain rfl : codigo = STATUS_OK_200 :=
    hcodigo.mpr ⟨g.ruta, hd, h.existe, Option.isSome_of_eq_some h.lookup⟩
  refine ⟨i', hi', ?_⟩
  have hmime := construirRespuesta_MIME hi' hd
  rw [h.lookup] at hmime
  exact (Option.some.inj hmime).symm

variable (g)

/-- **When a `GET` for a file that is there is answered with 200 and its type.** For every tree,
every such request, and any state of the interpreter. What can go wrong is a name with two dots,
whose extension is cut behind the first of them, and the ways on which the file is not found. -/
theorem tipo_servido_iff (i : InterpreteHTTP) : g.Servido i ↔ g.SeEncuentra :=
  ⟨fun h => h.seEncuentra, fun h => h.servido⟩

end Get

/-- A request for `a.b.html`, which is there. -/
def getDosPuntos : GetDeArchivo (carpetaCon "a.b.html".toList (.regular ⟨0, 2⟩ true true)) where
  peticion :=
    { linea := "GET /a.b.html HTTP/1.1".toList
      cabeceras := ["Host: a".toList]
      cuerpo := []
      linea_sin_crlf := by decide
      cabeceras_sin_crlf := by decide
      cabeceras_no_vacias := by decide }
  ruta := "/a.b.html".toList
  htmlv := HTTP11
  st := ⟨0, 2⟩
  lee := true
  escribe := true
  tipo := "text/html".toList
  linea := rfl
  ruta_no_vacia := by decide
  ruta_sin_blanco := by decide
  version := .inr rfl
  host := ⟨_, List.mem_cons_self, .inl (by decide)⟩
  archivo := rfl
  punto := by decide
  tipo_conocido := by decide

/-- **A file with two dots in its name is not served**: its extension is `b.html`. -/
theorem tipo_no_servido :
    ¬ ∀ (a : Arbol) (g : GetDeArchivo a) (i : InterpreteHTTP), g.Servido i := by
  intro hall
  obtain ⟨-, -, huno, -⟩ := (hall _ getDosPuntos .nuevo).seEncuentra
  exact absurd huno (by decide)

end InterpreteHTTP

end LoadBalancer
