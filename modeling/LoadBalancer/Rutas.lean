/-
Which paths a request opens, and where they lead.

The paths are relative, and begin with `public_html` only as text: a request path that does
not begin with `/` changes the name of the folder, and nothing is done about `..`. Where a
path leads is therefore a matter of its net effect, the levels it climbs and the names it
goes down: a request path stays inside when it begins with `/` and climbs no level, and what it
climbs it has to come down again, over the names of the working directory ([`Interior`]). A path
that begins with `/` and has no `..` always does ([`interior_of_not_mem`]).

`setRuta` cuts the path with positions in `int`s here. Of a path with a component of `2 ^ 31` bytes
it may open less than the path, and what counts is what it leaves ([`QuedaDentro`]).
[`InterpreteHTTP.aperturas_dentro_iff`] says that nothing else decides.
-/
import LoadBalancer.Lib.Path
import LoadBalancer.InterpreteHTTP
import LoadBalancer.Componentes

set_option autoImplicit false

namespace LoadBalancer

open LoadBalancer.Search LoadBalancer.Path

/-! ## Paths as texts -/

/-- The folder that is meant to be served. -/
def CARPETA : Texto := "public_html".toList

/-- A component of a path, as the system reads it. -/
def parte (componente : Texto) : Move Texto :=
  if componente = [] ∨ componente = ['.'] then .stay
  else if componente = ['.', '.'] then .up
  else .name componente

/-- The components of a path. -/
def partes (ruta : Texto) : List (Move Texto) := (ruta.splitOn '/').map parte

/-- Where a path leads, from the working directory `cwd` or, with a `/` at the front, from the
root. -/
def resuelve (cwd : List Texto) (ruta : Texto) : List Texto :=
  if ruta.head? = some '/' then resolve [] (partes ruta) else resolve cwd (partes ruta)

/-- The path leads to the folder `public_html` of the working directory, or into it. -/
def Dentro (cwd : List Texto) (ruta : Texto) : Prop := cwd ++ [CARPETA] <+: resuelve cwd ruta

instance (cwd : List Texto) (ruta : Texto) : Decidable (Dentro cwd ruta) :=
  inferInstanceAs (Decidable (_ <+: _))

/-- What the path's own components say: with `climb` levels up, the names begin with the last
`climb` components of the working directory, and `public_html`. -/
def Permanece (cwd : List Texto) (ruta : Texto) : Prop :=
  cwd.drop (cwd.length - (net (partes ruta)).climb) ++ [CARPETA] <+: (net (partes ruta)).names

instance (cwd : List Texto) (ruta : Texto) : Decidable (Permanece cwd ruta) :=
  inferInstanceAs (Decidable (_ <+: _))

/-- A relative path is inside exactly when its components say so. -/
theorem dentro_iff_permanece {cwd : List Texto} {ruta : Texto} (h : ruta.head? ≠ some '/') :
    Dentro cwd ruta ↔ Permanece cwd ruta := by
  unfold Dentro Permanece resuelve
  rw [if_neg h]
  exact prefix_resolve_iff cwd [CARPETA] (partes ruta)

/-- Only `..` is read as going up. -/
theorem parte_ne_up {componente : Texto} (h : componente ≠ ['.', '.']) :
    parte componente ≠ .up := by
  unfold parte
  rw [if_neg h]
  split_ifs <;> simp

/-- Only the name of the folder leads into it from above. -/
theorem parte_ne_carpeta {componente : Texto} (h : '.' ∈ componente) :
    parte componente ≠ .name CARPETA := by
  unfold parte
  split_ifs
  · exact fun heq => by cases heq
  · exact fun heq => by cases heq
  · intro heq
    rw [Move.name.inj heq] at h
    exact absurd h (by decide)

/-- A `/` at the end changes nothing. -/
theorem permanece_barra (cwd : List Texto) (ruta : Texto) :
    Permanece cwd (ruta ++ ['/']) ↔ Permanece cwd ruta := by
  have hnet : net (partes (ruta ++ ['/'])) = net (partes ruta) := by
    unfold partes
    rw [List.splitOn_append_cons_self, List.map_append]
    exact net_concat_stay _
  unfold Permanece
  rw [hnet]

/-! ## The request path -/

/-- **The request path stays inside** the folder that it is written behind. It begins with `/` and
climbs no level; or it climbs, its first step up takes the folder itself back, and the names that it
then goes down begin with those of the working directory that it has climbed besides, and the
folder. -/
def Interior (cwd : List Texto) (ruta : Texto) : Prop :=
  ((ruta.splitOn '/').head? = some []
      ∧ (net ((ruta.splitOn '/').tail.map parte)).climb = 0)
    ∨ 0 < (net ((ruta.splitOn '/').tail.map parte)).climb
      ∧ cwd.drop (cwd.length + 1 - (net ((ruta.splitOn '/').tail.map parte)).climb) ++ [CARPETA]
        <+: (net ((ruta.splitOn '/').tail.map parte)).names

instance (cwd : List Texto) (ruta : Texto) : Decidable (Interior cwd ruta) :=
  inferInstanceAs (Decidable (_ ∨ _))

/-- What has no `/` goes in front of the first component. -/
theorem splitOn_append_of_not_mem {a t primera : Texto} {resto : List Texto} (h : '/' ∉ a)
    (ht : t.splitOn '/' = primera :: resto) : (a ++ t).splitOn '/' = (a ++ primera) :: resto := by
  induction a with
  | nil => exact ht
  | cons c a ih =>
      rw [List.mem_cons, not_or] at h
      rw [List.cons_append, List.splitOn_cons_eq_if_modifyHead, if_neg (by simpa using Ne.symm h.1),
        ih h.2]
      rfl

/-- **Behind the folder's name, the components of the request path decide.** -/
theorem permanece_carpeta_iff (cwd : List Texto) (ruta : Texto) :
    Permanece cwd (CARPETA ++ ruta) ↔ Interior cwd ruta := by
  obtain ⟨primera, resto, hruta⟩ := List.exists_cons_of_ne_nil (List.splitOn_ne_nil '/' ruta)
  have hname : parte (CARPETA ++ primera) = .name (CARPETA ++ primera) := by
    have hlargo : 11 ≤ (CARPETA ++ primera).length := by
      rw [List.length_append]
      exact Nat.le_add_right 11 _
    unfold parte
    rw [if_neg, if_neg]
    · intro heq
      rw [heq] at hlargo
      exact absurd hlargo (by decide)
    · rintro (heq | heq)
      · rw [heq] at hlargo
        exact absurd hlargo (by decide)
      · rw [heq] at hlargo
        exact absurd hlargo (by decide)
  have hvacia : CARPETA = CARPETA ++ primera ↔ some primera = some [] := by
    rw [List.self_eq_append_right, Option.some.injEq]
  unfold Permanece Interior partes
  rw [splitOn_append_of_not_mem (by decide) hruta, hruta, List.map_cons, hname, net_cons_name,
    List.tail_cons, List.head?_cons]
  generalize net (resto.map parte) = vuelta
  by_cases hclimb : vuelta.climb = 0
  · -- no level up: the first component is a name below the working directory
    rw [if_pos hclimb, hclimb, Nat.sub_zero, List.drop_length, List.nil_append,
      List.cons_prefix_cons, and_iff_left (List.nil_prefix), hvacia, and_iff_left rfl,
      iff_self_or]
    exact fun h => absurd h.1 (Nat.lt_irrefl 0)
  · have hmenos : cwd.length - (vuelta.climb - 1) = cwd.length + 1 - vuelta.climb := by omega
    rw [if_neg hclimb]
    dsimp only
    rw [hmenos, or_iff_right fun h => hclimb h.2, and_iff_right (Nat.pos_of_ne_zero hclimb)]

/-- **A path that begins with `/` and has no `..` stays inside.** -/
theorem interior_of_not_mem (cwd : List Texto) {resto : Texto}
    (h : ['.', '.'] ∉ resto.splitOn '/') : Interior cwd ('/' :: resto) := by
  have hcut : ('/' :: resto).splitOn '/' = [] :: resto.splitOn '/' :=
    List.splitOn_append_cons_self_of_not_mem List.not_mem_nil resto
  have hup : ∀ p ∈ (resto.splitOn '/').map parte, p ≠ .up := by
    intro p hp
    obtain ⟨componente, hmem, rfl⟩ := List.mem_map.mp hp
    exact parte_ne_up fun heq => h (heq ▸ hmem)
  refine .inl ⟨?_, ?_⟩
  · rw [hcut]
    rfl
  · rw [hcut, List.tail_cons, net_of_forall_ne_up hup]

/-! ## The paths that are opened -/

namespace InterpreteHTTP

/-- The request path as it stands behind the folder's name: `/` is the home page, and one `/` at the
end is dropped. -/
def camino (ruta : Texto) : Texto :=
  if ruta = ['/'] then '/' :: HOME_HTML
  else if ruta.getLast? = some '/' then ruta.dropLast
  else ruta

/-- A text that begins with the folder's name is relative. -/
theorem head_carpeta (t : Texto) : (CARPETA ++ t).head? = some 'p' := rfl

/-- **The path that is cut** is the request path behind the folder's name. -/
theorem rutaPedida_eq_carpeta {ruta : Texto} (hne : ruta ≠ []) :
    rutaPedida ruta = CARPETA ++ camino ruta := by
  have hsin (t : Texto) (ht : t ≠ []) : FileSystem.sinBarras (CARPETA ++ t)
      = if t.getLast? = some '/' then CARPETA ++ t.dropLast else CARPETA ++ t := by
    have hlast : (CARPETA ++ t).getLast? = t.getLast? := by
      rw [List.getLast?_append_of_ne_nil _ ht]
    have hhead : ¬ (CARPETA ++ t).head? = some '/' := by
      rw [head_carpeta]
      decide
    unfold FileSystem.sinBarras
    dsimp only
    rw [if_neg hhead, hlast, List.dropLast_append_of_ne_nil ht]
  unfold rutaPedida rutaFisica camino
  dsimp only
  by_cases hraiz : ruta = ['/']
  · subst hraiz
    rfl
  rw [if_neg hraiz]
  by_cases hbarra : ruta.getLast? = some '/'
  · rw [if_neg (not_not_intro hbarra), if_neg hraiz, if_pos hbarra]
    exact (hsin ruta hne).trans (if_pos hbarra)
  · have hmas : ruta ++ ['/'] ≠ ['/'] := by
      intro heq
      exact hne (List.append_left_eq_self.mp heq)
    rw [if_pos hbarra, if_neg hmas, if_neg hbarra]
    have hfin := hsin (ruta ++ ['/']) (List.concat_ne_nil _ _)
    rw [if_pos List.getLast?_concat, List.dropLast_concat] at hfin
    exact hfin

/-- What is dropped or put at the end makes no difference. -/
theorem interior_camino (cwd : List Texto) (ruta : Texto) :
    Interior cwd (camino ruta) ↔ Interior cwd ruta := by
  unfold camino
  split_ifs with hraiz hbarra
  · -- the folder, and a file in it
    rw [hraiz]
    exact iff_of_true (.inl (by decide)) (.inl (by decide))
  · have hruta : ruta.dropLast ++ ['/'] = ruta := List.dropLast_append_getLast? _ hbarra
    rw [← permanece_carpeta_iff, ← permanece_carpeta_iff, ← permanece_barra, List.append_assoc,
      hruta]
  · exact Iff.rfl

/-- **What `setRuta` leaves of the request path stays inside.** Where its `int`s have lost a
component is of no account when there is no dot in the last one that they leave: then the path is
taken as it is, for a directory. Otherwise it is what they leave that is opened, the last component
as a file and the others as its directory. -/
def QuedaDentro (cwd : List Texto) (ruta : Texto) : Prop :=
  ∃ antes ultimo,
    FileSystem.ConInt.quedan ((CARPETA ++ camino ruta).splitOn '/') = some (antes ++ [ultimo])
      ∧ antes.length < INT32_MAX
      ∧ if '.' ∈ ultimo then
          Permanece cwd (c_str (antes.flatMap (· ++ ['/'])))
            ∧ Permanece cwd (c_str (antes.flatMap (· ++ ['/']) ++ ultimo))
        else Permanece cwd (c_str (CARPETA ++ camino ruta))

/-- There is one last component only. -/
theorem quedaDentro_of_quedan (cwd : List Texto) {ruta ultimo : Texto} {antes : List Texto}
    (h : FileSystem.ConInt.quedan ((CARPETA ++ camino ruta).splitOn '/')
      = some (antes ++ [ultimo])) :
    QuedaDentro cwd ruta ↔ antes.length < INT32_MAX
      ∧ if '.' ∈ ultimo then
          Permanece cwd (c_str (antes.flatMap (· ++ ['/'])))
            ∧ Permanece cwd (c_str (antes.flatMap (· ++ ['/']) ++ ultimo))
        else Permanece cwd (c_str (CARPETA ++ camino ruta)) := by
  unfold QuedaDentro
  rw [h]
  constructor
  · rintro ⟨antes', ultimo', heq, hdentro⟩
    obtain ⟨rfl, hultimo⟩ := List.append_inj' (Option.some.inj heq) rfl
    obtain rfl := List.singleton_inj.mp hultimo
    exact hdentro
  · exact fun hdentro => ⟨antes, ultimo, rfl, hdentro⟩

/-- A request path without a zero byte and without a component that an `int` cannot measure. -/
def Ordinaria (ruta : Texto) : Prop :=
  NUL ∉ ruta ∧ FileSystem.ConInt.TodasCortas (CARPETA ++ ruta)

instance decidableOrdinaria (ruta : Texto) : Decidable (Ordinaria ruta) :=
  inferInstanceAs (Decidable (_ ∧ _ ∧ ∀ _ ∈ _, _))

/-- Nor has it one as it stands behind the folder's name. -/
theorem Ordinaria.camino {ruta : Texto} (h : Ordinaria ruta) : Ordinaria (camino ruta) := by
  obtain ⟨hnul, htodas, hcortas⟩ := h
  unfold InterpreteHTTP.camino
  split_ifs with hraiz hbarra
  · decide
  · have hruta : ruta.dropLast ++ ['/'] = ruta := List.dropLast_append_getLast? _ hbarra
    have hcut : (CARPETA ++ ruta).splitOn '/' = (CARPETA ++ ruta.dropLast).splitOn '/' ++ [[]] := by
      rw [← hruta, ← List.append_assoc, List.splitOn_append_cons_self, List.splitOn_nil, hruta]
    rw [hcut] at htodas hcortas
    refine ⟨fun hmem => hnul (List.mem_of_mem_dropLast hmem), ?_, fun c hc =>
      hcortas c (List.mem_append_left _ hc)⟩
    rw [List.length_append] at htodas
    omega
  · exact ⟨hnul, htodas, hcortas⟩

/-- A path whose last component has a dot stays inside in its directory as well: what its names
begin with is before that component, which is not the name of the folder. -/
theorem permanece_directorio {cwd : List Texto} {p ultimo : Texto} {antes : List Texto}
    (hcut : p.splitOn '/' = antes ++ [ultimo]) (hpunto : '.' ∈ ultimo) (h : Permanece cwd p) :
    Permanece cwd (antes.flatMap (· ++ ['/'])) := by
  have hpartes : partes p = antes.map parte ++ [parte ultimo] := by
    unfold partes
    rw [hcut, List.map_append]
    rfl
  have hcarpeta : partes (antes.flatMap (· ++ ['/'])) = antes.map parte ++ [.stay] := by
    have hsin : ∀ c ∈ antes ++ [[]], '/' ∉ c := by
      intro c hc
      rcases List.mem_append.mp hc with hc | hc
      · exact not_mem_of_mem_splitOn (hcut ▸ List.mem_append_left _ hc)
      · rw [List.mem_singleton.mp hc]
        exact List.not_mem_nil
    have hjunta := List.splitOn_intercalate '/' hsin (List.concat_ne_nil _ _)
    rw [intercalate_concat, List.append_nil] at hjunta
    rw [partes, hjunta, List.map_append]
    rfl
  unfold Permanece at h ⊢
  rw [hpartes] at h
  obtain ⟨hclimb, hnames⟩ := prefix_names_of_concat (parte_ne_carpeta hpunto) h
  rw [hcarpeta, net_concat_stay, ← hclimb]
  exact hnames

/-- **Of an ordinary path everything is left**, and its directory is inside when it is: the last
component, which has a dot, is not the name of the folder. -/
theorem quedaDentro_iff (cwd : List Texto) {ruta : Texto} (h : Ordinaria ruta) :
    QuedaDentro cwd ruta ↔ Interior cwd ruta := by
  obtain ⟨hnul, htodas, hcortas⟩ := h.camino
  have hcadena : NUL ∉ CARPETA ++ camino ruta := by
    rw [List.mem_append, not_or]
    exact ⟨by decide, hnul⟩
  have hquedan := FileSystem.ConInt.quedan_de_cortas hcortas
  obtain ⟨antes, ultimo, hcut⟩ :
      ∃ antes ultimo, (CARPETA ++ camino ruta).splitOn '/' = antes ++ [ultimo] :=
    ⟨_, _, (List.dropLast_append_getLast (List.splitOn_ne_nil '/' _)).symm⟩
  have htexto : antes.flatMap (· ++ ['/']) ++ ultimo = CARPETA ++ camino ruta := by
    rw [← intercalate_concat, ← hcut, List.intercalate_splitOn]
  have hantes : NUL ∉ antes.flatMap (· ++ ['/']) := fun hmem =>
    hcadena (htexto ▸ List.mem_append_left _ hmem)
  rw [hcut, List.length_append, List.length_singleton] at htodas
  rw [← interior_camino, ← permanece_carpeta_iff]
  have hmenos : (antes.length : ℤ) < INT32_MAX := by omega
  rw [quedaDentro_of_quedan cwd (hquedan.trans (congrArg some hcut)), and_iff_right hmenos, htexto,
    c_str_of_not_mem hcadena, c_str_of_not_mem hantes]
  split_ifs with hpunto
  · exact and_iff_right_of_imp (permanece_directorio hcut hpunto)
  · exact Iff.rfl

/-! ## What is opened -/

/-- What `abrir` opens is inside, on every system of files, when the directory and the file are. -/
theorem dentro_abrir_iff (cwd : List Texto) {fs : FileSystem} (hfichero : fs.fichero = none) :
    (∀ sis, ∀ p ∈ (FileSystem.abrir sis fs).abiertas, Dentro cwd p)
      ↔ Dentro cwd (c_str fs.rutaDirectorios)
        ∧ Dentro cwd (c_str (fs.rutaDirectorios ++ fs.nombreArchivo)) := by
  constructor
  · intro hall
    have habierto := hall .todoAbierto
    rw [FileSystem.abiertas_abrir _ hfichero] at habierto
    exact ⟨habierto _ List.mem_cons_self, habierto _ (List.mem_cons_of_mem _ List.mem_cons_self)⟩
  · rintro ⟨hdir, hruta⟩ sis p hp
    rw [FileSystem.abiertas_abrir _ hfichero] at hp
    split_ifs at hp
    · rcases List.mem_cons.mp hp with rfl | hp
      · exact hdir
      · rw [List.mem_singleton.mp hp]
        exact hruta
    · rw [List.mem_singleton.mp hp]
      exact hdir
    · cases hp

/-- A text and its C string begin with the same character, if with any. -/
theorem head_c_str_ne {t : Texto} (h : t.head? ≠ some '/') : (c_str t).head? ≠ some '/' := by
  cases t with
  | nil => exact h
  | cons c t =>
      rw [c_str_cons]
      split_ifs
      · simp
      · exact h

/-- What is left of a path that begins with the folder's name is relative, with and without its last
component. -/
theorem head_quedan_ne {camino ultimo : Texto} {antes : List Texto}
    (h : FileSystem.ConInt.quedan ((CARPETA ++ camino).splitOn '/') = some (antes ++ [ultimo]))
    (hne : ultimo ≠ []) :
    (antes.flatMap (· ++ ['/'])).head? ≠ some '/'
      ∧ (antes.flatMap (· ++ ['/']) ++ ultimo).head? ≠ some '/' := by
  obtain ⟨primera, resto, hcamino⟩ := List.exists_cons_of_ne_nil (List.splitOn_ne_nil '/' camino)
  rw [splitOn_append_of_not_mem (by decide) hcamino] at h
  cases antes with
  | nil =>
      -- the beginning of the first component is all that there is
      refine ⟨by simp, ?_⟩
      obtain ⟨c, t, rfl⟩ := List.exists_cons_of_ne_nil hne
      obtain ⟨cola, hcola⟩ := (FileSystem.ConInt.prefix_of_quedan_cons h).1
      have hhead := congrArg List.head? hcola
      rw [List.cons_append, head_carpeta] at hhead
      intro heq
      rw [List.flatMap_nil, List.nil_append] at heq
      rw [List.head?_cons] at hhead heq
      exact absurd (hhead.symm.trans heq) (by decide)
  | cons c antes =>
      obtain rfl := (FileSystem.ConInt.prefix_of_quedan_cons h).2 (List.concat_ne_nil _ _)
      refine ⟨fun heq => ?_, fun heq => ?_⟩
      · cases heq
      · cases heq

/-- There is something to cut. -/
theorem rutaFisica_ne (ruta : Texto) : rutaFisica ruta ≠ [] ∧ rutaFisica ruta ≠ ['/'] := by
  have hhead := rutaFisica_head ruta
  constructor
  · intro heq
    rw [heq] at hhead
    cases hhead
  · intro heq
    rw [heq] at hhead
    cases hhead

/-- Where something is left, what is opened is made of it when its last component has a dot, and of
the whole path otherwise. -/
theorem nombrar_dentro_iff (cwd : List Texto) {camino ultimo : Texto} {antes : List Texto}
    (hquedan : FileSystem.ConInt.quedan ((CARPETA ++ camino).splitOn '/')
      = some (antes ++ [ultimo]))
    (hmenos : antes.length < INT32_MAX) :
    (∀ sis, ∃ fs, FileSystem.ConInt.nombrar sis (CARPETA ++ camino) (antes ++ [ultimo]) .nuevo
          = some fs
        ∧ ∀ p ∈ fs.abiertas, Dentro cwd p)
      ↔ if '.' ∈ ultimo then
          Permanece cwd (c_str (antes.flatMap (· ++ ['/'])))
            ∧ Permanece cwd (c_str (antes.flatMap (· ++ ['/']) ++ ultimo))
        else Permanece cwd (c_str (CARPETA ++ camino)) := by
  have hlen : ((antes ++ [ultimo]).length : ℤ) ≤ INT32_MAX := by
    rw [List.length_append, List.length_singleton]
    push_cast
    omega
  have hcorta := FileSystem.ConInt.corta_of_mem_quedan hquedan (List.mem_append_right _
    List.mem_cons_self)
  have hnombrar (sis : Sistema) := FileSystem.ConInt.nombrar_de_corta sis (CARPETA ++ camino)
    .nuevo List.getLast?_concat hcorta hlen
  simp only [hnombrar, Option.some.injEq, exists_eq_left']
  by_cases hpunto : '.' ∈ ultimo
  · simp only [if_pos hpunto]
    rw [dentro_abrir_iff cwd rfl, List.dropLast_concat]
    obtain ⟨hdir, hfile⟩ := head_quedan_ne hquedan (List.ne_nil_of_mem hpunto)
    exact and_congr (dentro_iff_permanece (head_c_str_ne hdir))
      (dentro_iff_permanece (head_c_str_ne hfile))
  · simp only [if_neg hpunto]
    rw [dentro_abrir_iff cwd rfl, List.append_nil, and_self]
    have hrel : (c_str (CARPETA ++ camino ++ ['/'])).head? ≠ some '/' :=
      head_c_str_ne (by rw [List.append_assoc, head_carpeta]; decide)
    refine (dentro_iff_permanece hrel).trans ?_
    -- the `/` at the end is behind the zero byte, if there is one
    by_cases hnul : NUL ∈ CARPETA ++ camino
    · rw [c_str_append_of_mem hnul]
    · rw [c_str_append_of_not_mem hnul, c_str_of_not_mem hnul]
      exact permanece_barra cwd _

/-- **What the `int` loop makes of a request path is inside exactly when what it leaves is.** -/
theorem setRuta_dentro_iff (cwd : List Texto) {ruta : Texto} (hne : ruta ≠ [])
    (hcabe : (CARPETA ++ camino ruta).length < max_size) :
    (∀ sis, ∃ fs, FileSystem.ConInt.setRuta sis (rutaFisica ruta) .nuevo = some fs
        ∧ ∀ p ∈ fs.abiertas, Dentro cwd p)
      ↔ QuedaDentro cwd ruta := by
  have hruta : FileSystem.sinBarras (rutaFisica ruta) = CARPETA ++ camino ruta :=
    rutaPedida_eq_carpeta hne
  have hset (sis : Sistema) := FileSystem.ConInt.setRuta_eq_quedan sis .nuevo (rutaFisica_ne ruta).1
    (rutaFisica_ne ruta).2 (hruta ▸ hcabe)
  simp only [hset, hruta]
  -- without a result there is nothing to be inside
  have hnada {P : Prop} (hno : ¬ P) :
      (Sistema → ∃ fs, (none : Option FileSystem) = some fs ∧ ∀ p ∈ fs.abiertas, Dentro cwd p)
        ↔ P := by
    refine iff_of_false (fun hall => ?_) hno
    obtain ⟨fs, heq, -⟩ := hall .todoAbierto
    cases heq
  cases hquedan : FileSystem.ConInt.quedan ((CARPETA ++ camino ruta).splitOn '/') with
  | none =>
      simp only [Option.bind_none]
      refine hnada ?_
      rintro ⟨antes, ultimo, heq, -⟩
      rw [hquedan] at heq
      cases heq
  | some v =>
  simp only [Option.bind_some]
  rcases List.eq_nil_or_concat v with rfl | ⟨antes, ultimo, rfl⟩
  · -- no component is left
    simp only [FileSystem.ConInt.nombrar_de_nada _ _ _ List.getLast?_nil, ite_self]
    refine hnada ?_
    rintro ⟨antes, ultimo, heq, -⟩
    exact List.concat_ne_nil _ _ (Option.some.inj (hquedan.symm.trans heq)).symm
  rw [List.concat_eq_append] at hquedan ⊢
  have hlen : ((antes ++ [ultimo]).length : ℤ) = antes.length + 1 := by
    rw [List.length_append, List.length_singleton]
    rfl
  rw [quedaDentro_of_quedan cwd hquedan]
  simp only [hlen]
  by_cases hmas : INT32_MAX < (antes.length : ℤ) + 1
  · simp only [if_pos hmas]
    exact hnada fun hP => absurd hP.1 (by omega)
  have hmenos : (antes.length : ℤ) < INT32_MAX := by omega
  simp only [if_neg hmas]
  rw [and_iff_right hmenos]
  exact nombrar_dentro_iff cwd hquedan hmenos

/-! ## The result -/

/-- A path that a request is dispatched with has room behind the folder's name in a `std::string`,
because the request has a method, a version and a header besides. -/
theorem length_camino_lt {httpRequest ruta : Texto} (h : Despachada httpRequest ruta)
    (hcabe : httpRequest.length ≤ max_size) : (CARPETA ++ camino ruta).length < max_size := by
  obtain ⟨linea, headers, resto, metodo, htmlv, mas, hsplit, hpartes, -, hhost, hver, hm⟩ := h
  have hlineas := Utilidades.length_flatten_split_le httpRequest CRLF 1
  have hlinea := Utilidades.length_flatten_split_le linea [' '] 3
  rw [hsplit, List.flatten_cons, List.flatten_cons, List.length_append, List.length_append]
    at hlineas
  rw [hpartes, List.flatten_cons, List.flatten_cons, List.flatten_cons, List.length_append,
    List.length_append, List.length_append] at hlinea
  have hheaders : headers.length ≠ 0 := by
    intro hzero
    rw [List.length_eq_zero_iff.mp hzero] at hhost
    exact hhost rfl
  have hmetodo : 3 ≤ metodo.length := by
    rcases hm with rfl | rfl
    · decide
    · decide
  have hversion : htmlv.length = 8 := by
    rcases hver with rfl | rfl
    · rfl
    · rfl
  have hmax : max_size = 9223372036854775807 := rfl
  have hcarpeta : CARPETA.length = 11 := rfl
  have hcamino : (camino ruta).length ≤ max 11 ruta.length := by
    unfold camino
    split_ifs
    · exact Nat.le_max_left _ _
    · rw [List.length_dropLast]
      omega
    · exact Nat.le_max_right _ _
  rw [List.length_append]
  omega

theorem Despachada.ruta_ne_nil {httpRequest ruta : Texto} (h : Despachada httpRequest ruta) :
    ruta ≠ [] := by
  obtain ⟨linea, headers, resto, metodo, htmlv, mas, -, -, hvacia, -⟩ := h
  rintro rfl
  exact hvacia (List.mem_cons_of_mem _ List.mem_cons_self)

/-- **What a request opens is inside `public_html`, on every system of files, exactly when its path
stays inside.** For every request text and every working directory. The folder's name is put in
front of the path as text and nobody looks for `..` in it, so that where it leads is decided by its
components alone. -/
theorem aperturas_dentro_iff (cwd : List Texto) {httpRequest : Texto} (hne : httpRequest ≠ [])
    (hcabe : httpRequest.length ≤ max_size) :
    (∀ sis, ∃ i' codigo,
        construirRespuesta sis httpRequest .nuevo FileSystem.ConInt.setRuta = some (i', codigo)
          ∧ ∀ p ∈ i'.fs.abiertas, Dentro cwd p)
      ↔ ∀ ruta, Despachada httpRequest ruta →
        if Ordinaria ruta then Interior cwd ruta else QuedaDentro cwd ruta := by
  by_cases hd : ∃ ruta, Despachada httpRequest ruta
  · obtain ⟨ruta, hd⟩ := hd
    have hcondicion : (∀ ruta, Despachada httpRequest ruta →
        if Ordinaria ruta then Interior cwd ruta else QuedaDentro cwd ruta)
        ↔ QuedaDentro cwd ruta := by
      have hruta : (if Ordinaria ruta then Interior cwd ruta else QuedaDentro cwd ruta)
          ↔ QuedaDentro cwd ruta := by
        split_ifs with hordinaria
        · exact (quedaDentro_iff cwd hordinaria).symm
        · exact Iff.rfl
      rw [← hruta]
      constructor
      · exact fun hall => hall ruta hd
      · intro hqueda ruta' hd'
        -- the request names one path only
        obtain rfl := hd.unique hd'
        exact hqueda
    rw [hcondicion, ← setRuta_dentro_iff cwd hd.ruta_ne_nil (length_camino_lt hd hcabe)]
    refine forall_congr' fun sis => ?_
    obtain ⟨f, habiertas, hrun⟩ := construirRespuesta_despachada sis .nuevo hd
    rw [hrun]
    constructor
    · rintro ⟨i', codigo, heq, hdentro⟩
      obtain ⟨fs, hfs, hf⟩ := Option.map_eq_some_iff.mp heq
      refine ⟨fs, hfs, fun p hp => hdentro p ?_⟩
      have := habiertas fs
      rw [hf] at this
      rw [this]
      exact hp
    · rintro ⟨fs, hfs, hdentro⟩
      refine ⟨(f fs).1, (f fs).2, Option.map_eq_some_iff.mpr ⟨fs, hfs, rfl⟩, fun p hp => ?_⟩
      rw [habiertas] at hp
      exact hdentro p hp
  · refine iff_of_true (fun sis => ?_) fun ruta hr => absurd ⟨ruta, hr⟩ hd
    -- nothing is opened
    obtain ⟨r, hrun, hfs⟩ :=
      construirRespuesta_no_despachada sis .nuevo hne fun ruta hr => hd ⟨ruta, hr⟩
    refine ⟨r.1, r.2, hrun _, fun p hp => ?_⟩
    rw [hfs] at hp
    cases hp

/-- **For ordinary paths the `int`s make no difference**, in this function and in those that call
it. -/
theorem construirRespuesta_conInt (sis : Sistema) {httpRequest : Texto} (i : InterpreteHTTP)
    (h : ∀ ruta, Despachada httpRequest ruta → Ordinaria ruta) :
    construirRespuesta sis httpRequest i FileSystem.ConInt.setRuta
      = construirRespuesta sis httpRequest i := by
  refine construirRespuesta_congr sis httpRequest i fun ruta hd => ?_
  obtain ⟨-, htodas, hcortas⟩ := (h ruta hd).camino
  rw [← rutaPedida_eq_carpeta hd.ruta_ne_nil] at htodas hcortas
  exact FileSystem.ConInt.setRuta_eq sis i.fs (rutaFisica_ne ruta).1 (rutaFisica_ne ruta).2 hcortas
    htodas

/-- A `GET` request for a path. -/
def peticionDe (ruta : Texto) : Texto :=
  "GET ".toList ++ ruta ++ " HTTP/1.1\r\nHost: a\r\n\r\n".toList

/-- A path that leaves the folder and comes back to it. -/
theorem aperturas_dentro_de_la_carpeta :
    ∃ i' codigo, construirRespuesta .todoAbierto (peticionDe "/../public_html/b.html".toList) .nuevo
        FileSystem.ConInt.setRuta = some (i', codigo)
      ∧ i'.fs.abiertas = ["public_html/../public_html/".toList,
        "public_html/../public_html/b.html".toList]
      ∧ ∀ p ∈ i'.fs.abiertas, Dentro ["srv".toList] p := by
  have hd' : Despachada (peticionDe "/../public_html/b.html".toList)
      "/../public_html/b.html".toList :=
    ⟨_, _, _, _, _, _, rfl, rfl, by decide, by decide, .inr rfl, .inl rfl⟩
  have hordinaria : Ordinaria "/../public_html/b.html".toList := by decide
  obtain ⟨i', codigo, h, hdentro⟩ :=
    (@aperturas_dentro_iff ["srv".toList] (peticionDe "/../public_html/b.html".toList) (by decide)
      (by decide)).mpr (fun ruta hd => by
      obtain rfl := hd.unique hd'
      rw [if_pos hordinaria]
      decide) .todoAbierto
  have hrun := construirRespuesta_conInt .todoAbierto .nuevo fun ruta hd =>
    (hd.unique hd' ▸ hordinaria : Ordinaria ruta)
  have habiertas : (construirRespuesta .todoAbierto
        (peticionDe "/../public_html/b.html".toList) .nuevo).map (·.1.fs.abiertas)
      = some ["public_html/../public_html/".toList, "public_html/../public_html/b.html".toList] :=
    rfl
  rw [← hrun, h] at habiertas
  exact ⟨i', codigo, h, Option.some.inj habiertas, hdentro⟩

/-- **A request that leaves the folder**: `..` as the first component. -/
theorem aperturas_fuera_de_la_carpeta :
    ¬ ∀ (sis : Sistema) (cwd : List Texto) (httpRequest : Texto) (i' : InterpreteHTTP)
      (codigo : ℤ), httpRequest.length ≤ max_size →
      construirRespuesta sis httpRequest .nuevo FileSystem.ConInt.setRuta = some (i', codigo) →
      ∀ p ∈ i'.fs.abiertas, Dentro cwd p := by
  intro hall
  have hd' : Despachada (peticionDe "/../x.html".toList) "/../x.html".toList :=
    ⟨_, _, _, _, _, _, rfl, rfl, by decide, by decide, .inr rfl, .inl rfl⟩
  have hrun := construirRespuesta_conInt .todoAbierto .nuevo fun ruta hd =>
    (hd.unique hd' ▸ (by decide : Ordinaria "/../x.html".toList) : Ordinaria ruta)
  obtain ⟨i', codigo, h, p, hp, hfuera⟩ : ∃ i' codigo,
      construirRespuesta .todoAbierto (peticionDe "/../x.html".toList) .nuevo = some (i', codigo)
      ∧ ∃ p ∈ i'.fs.abiertas, ¬ Dentro ["srv".toList] p :=
    ⟨_, _, rfl, by decide⟩
  exact hfuera (hall _ _ _ _ _ (by decide) (hrun.trans h) p hp)

end InterpreteHTTP

end LoadBalancer
