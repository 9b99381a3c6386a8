/-
`List` of `list.h`, and any number of them in one heap.

A list is two pointers into a heap of `ListElement`s, and its calls take cells from the heap and
give them back. What a program sees of its lists is what it would see of rows of items with their
keys: `Append` puts one behind a row, `SortedInsert` in front of the first one with a larger key,
and the removals take the first ([`lists_refined`]). No call follows a null pointer or one to a
cell that was given back, and the cells in use are those on some list.

The loops get a number of turns; as many as there have been calls are enough.
-/
import LoadBalancer.Lib.Agenda
import LoadBalancer.Lib.Chain
import LoadBalancer.Lib.Transition

set_option autoImplicit false

namespace LoadBalancer.NachOS

open LoadBalancer.Transition LoadBalancer.Chain
open Function (update update_self update_of_ne update_idem)

abbrev Address := ℕ

/-- `ListElement`. -/
structure ListElement (α : Type) where
  next : Option Address
  key : ℤ
  item : α
deriving DecidableEq, Repr

/-- The elements that are in use. -/
abbrev ElementHeap (α : Type) := Address → Option (ListElement α)

/-- `List`, whose pointers are `NULL` to begin with. -/
structure LinkedList where
  first : Option Address
  last : Option Address
deriving DecidableEq, Repr

variable {α : Type}

/-- `ptr->next = next`. -/
def setNext (ptr next : Option Address) (heap : ElementHeap α) : Option (ElementHeap α) :=
  ptr.bind fun a => (heap a).map fun e => update heap a (some { e with next := next })

namespace LinkedList

/-- `List::List`. -/
def new : LinkedList := ⟨none, none⟩

/-- `IsEmpty`. -/
def IsEmpty (l : LinkedList) : Bool := l.first.isNone

/-- `Append`; `element` is what `new` returns. -/
def Append (element : Address) (item : α) (l : LinkedList) (heap : ElementHeap α) :
    Option (LinkedList × ElementHeap α) :=
  let heap := update heap element (some ⟨none, 0, item⟩)
  if l.IsEmpty then some (⟨some element, some element⟩, heap)
  else (setNext l.last (some element) heap).map fun heap => (⟨l.first, some element⟩, heap)

/-- `Prepend`. -/
def Prepend (element : Address) (item : α) (l : LinkedList) (heap : ElementHeap α) :
    Option (LinkedList × ElementHeap α) :=
  let heap := update heap element (some ⟨none, 0, item⟩)
  if l.IsEmpty then some (⟨some element, some element⟩, heap)
  else (setNext (some element) l.first heap).map fun heap => (⟨some element, l.last⟩, heap)

/-- The loop of `SortedInsert`, from `ptr` on, and what is behind it. -/
def SortedInsert.loop (element : Address) (sortKey : ℤ) (l : LinkedList) :
    ℕ → Option Address → ElementHeap α → Option (LinkedList × ElementHeap α)
  | 0, _, _ => none
  | turns + 1, ptr, heap =>
      match ptr.bind heap with
      | none => none
      | some e =>
          match e.next with
          | none =>
              (setNext l.last (some element) heap).map fun heap => (⟨l.first, some element⟩, heap)
          | some next =>
              match heap next with
              | none => none
              | some e' =>
                  if sortKey < e'.key then
                    (setNext (some element) e.next heap).bind fun heap =>
                      (setNext ptr (some element) heap).map fun heap => (l, heap)
                  else loop element sortKey l turns e.next heap

/-- `SortedInsert`. -/
def SortedInsert (turns : ℕ) (element : Address) (item : α) (sortKey : ℤ) (l : LinkedList)
    (heap : ElementHeap α) : Option (LinkedList × ElementHeap α) :=
  let heap := update heap element (some ⟨none, sortKey, item⟩)
  if l.IsEmpty then some (⟨some element, some element⟩, heap)
  else
    match l.first.bind heap with
    | none => none
    | some e =>
        if sortKey < e.key then
          (setNext (some element) l.first heap).map fun heap => (⟨some element, l.last⟩, heap)
        else SortedInsert.loop element sortKey l turns l.first heap

/-- `SortedRemove`: the item, and what `*keyPtr` is afterwards. -/
def SortedRemove [Inhabited α] (keyPtr : Option ℤ) (l : LinkedList) (heap : ElementHeap α) :
    Option ((α × Option ℤ) × LinkedList × ElementHeap α) :=
  match l.first with
  | none => some ((default, keyPtr), l, heap)
  | some element =>
      (heap element).map fun e =>
        let l := if l.first = l.last then ⟨none, none⟩ else ⟨e.next, l.last⟩
        ((e.item, keyPtr.map fun _ => e.key), l, update heap element none)

/-- `Remove`. -/
def Remove [Inhabited α] (l : LinkedList) (heap : ElementHeap α) :
    Option ((α × Option ℤ) × LinkedList × ElementHeap α) :=
  l.SortedRemove none heap

/-- `Apply`: the items that the function is called for, in this order. -/
def Apply : ℕ → Option Address → ElementHeap α → Option (List α)
  | _, none, _ => some []
  | 0, some _, _ => none
  | turns + 1, some ptr, heap =>
      (heap ptr).bind fun e => (Apply turns e.next heap).map (e.item :: ·)

/-- `List::~List`. -/
def destroy [Inhabited α] : ℕ → LinkedList → ElementHeap α → Option (LinkedList × ElementHeap α)
  | 0, l, heap => if l.IsEmpty then some (l, heap) else none
  | turns + 1, l, heap =>
      if l.IsEmpty then some (l, heap)
      else (l.Remove heap).bind fun r => destroy turns r.2.1 r.2.2

end LinkedList

/-! ## One list -/

/-- The addresses of cells. -/
abbrev addresses (cells : List (Address × ListElement α)) : List Address := cells.map Prod.fst

/-- The keys and the items. -/
abbrev contents (cells : List (Address × ListElement α)) : List (ℤ × α) :=
  cells.map fun cell => (cell.2.key, cell.2.item)

/-- `SortedInsert` on a row. -/
abbrev sortedInsert (sortKey : ℤ) (item : α) (row : List (ℤ × α)) : List (ℤ × α) :=
  Agenda.insert sortKey item row

/-- The list is a chain, and `last` is its last cell. -/
structure IsRow (heap : ElementHeap α) (l : LinkedList) (cells : List (Address × ListElement α)) :
    Prop where
  chain : Segment ListElement.next heap l.first cells none
  last : l.last = cells.getLast?.map Prod.fst

/-- What a call does to the heap: it gives back the cells that are no longer in the row, takes the
new ones from what is not in use, and changes no others. -/
structure Rewritten (heap heap' : ElementHeap α) (cells cells' : List (Address × ListElement α)) :
    Prop where
  here : ∀ a ∈ addresses cells', a ∈ addresses cells ∨ heap a = none
  gone : ∀ a ∈ addresses cells, a ∉ addresses cells' → heap' a = none
  elsewhere : ∀ a, a ∉ addresses cells → a ∉ addresses cells' → heap' a = heap a

section

variable {heap heap' : ElementHeap α} {l : LinkedList} {element : Address} {item : α} {sortKey : ℤ}
  {cells before behind : List (Address × ListElement α)}

theorem Rewritten.refl (heap : ElementHeap α) (cells : List (Address × ListElement α)) :
    Rewritten heap heap cells cells :=
  ⟨fun _ h => .inl h, fun _ h h' => absurd h h', fun _ _ _ => rfl⟩

theorem Rewritten.trans {heap'' : ElementHeap α} {cells' cells'' : List (Address × ListElement α)}
    (h : Rewritten heap heap' cells cells') (h' : Rewritten heap' heap'' cells' cells'')
    (hsub : addresses cells' ⊆ addresses cells) : Rewritten heap heap'' cells cells'' := by
  constructor
  · intro a ha
    rcases h'.here a ha with hmem | hfree
    · exact .inl (hsub hmem)
    · by_cases hin : a ∈ addresses cells
      · exact .inl hin
      · have hsame := h.elsewhere a hin fun hmem => hin (hsub hmem)
        exact .inr (hsame.symm.trans hfree)
  · intro a ha hno
    by_cases hin : a ∈ addresses cells'
    · exact h'.gone a hin hno
    · rw [h'.elsewhere a hin hno]
      exact h.gone a ha hin
  · intro a ha hno
    have hin : a ∉ addresses cells' := fun hmem => ha (hsub hmem)
    rw [h'.elsewhere a hin hno]
    exact h.elsewhere a ha hin

theorem IsRow.isEmpty_iff (h : IsRow heap l cells) : l.IsEmpty = true ↔ cells = [] := by
  rw [LinkedList.IsEmpty, h.chain.head?, Option.isNone_iff_eq_none, Option.map_eq_none_iff,
    List.head?_eq_none_iff]

/-- `setNext` on a cell that is in use. -/
theorem setNext_eq {a : Address} {e : ListElement α} (ha : heap a = some e)
    (next : Option Address) :
    setNext (some a) next heap = some (update heap a (some { e with next := next })) := by
  rw [setNext, Option.bind_some, ha, Option.map_some]

/-- A row that was empty. -/
theorem IsRow.single (sortKey : ℤ) (item : α) (hfree : heap element = none) :
    IsRow (update heap element (some ⟨none, sortKey, item⟩)) ⟨some element, some element⟩
        [(element, ⟨none, sortKey, item⟩)]
      ∧ Rewritten heap (update heap element (some ⟨none, sortKey, item⟩)) []
        [(element, ⟨none, sortKey, item⟩)] := by
  refine ⟨⟨⟨rfl, update_self .., rfl⟩, rfl⟩, ⟨?_, ?_, ?_⟩⟩
  · intro a ha
    obtain rfl := List.mem_singleton.mp ha
    exact .inr hfree
  · exact fun a ha => absurd ha List.not_mem_nil
  · intro a _ ha
    exact update_of_ne (fun heq => ha (List.mem_singleton.mpr heq)) ..

/-- A new cell in front. -/
theorem IsRow.cons (sortKey : ℤ) (item : α) (h : IsRow heap l cells) (hne : cells ≠ [])
    (hfree : heap element = none) :
    IsRow (update heap element (some ⟨l.first, sortKey, item⟩)) ⟨some element, l.last⟩
        ((element, ⟨l.first, sortKey, item⟩) :: cells)
      ∧ Rewritten heap (update heap element (some ⟨l.first, sortKey, item⟩)) cells
        ((element, ⟨l.first, sortKey, item⟩) :: cells) := by
  have hoff : element ∉ addresses cells := by
    intro hmem
    obtain ⟨cell, hcell, rfl⟩ := List.mem_map.mp hmem
    rw [h.chain.get hcell] at hfree
    cases hfree
  refine ⟨⟨⟨rfl, update_self .., h.chain.update hoff _⟩, ?_⟩, ⟨?_, ?_, ?_⟩⟩
  · show l.last = _
    rw [h.last, List.getLast?_cons, List.getLast?_eq_some_getLast hne, Option.getD_some]
  · intro a ha
    rcases List.mem_cons.mp ha with rfl | hmem
    · exact .inr hfree
    · exact .inl hmem
  · exact fun a ha hno => absurd (List.mem_cons_of_mem _ ha) hno
  · intro a _ hno
    refine update_of_ne (fun heq => hno ?_) ..
    rw [heq]
    exact List.mem_cons_self

/-- A new cell behind one of the row. -/
theorem IsRow.insert {a : Address} {e : ListElement α} (sortKey : ℤ) (item : α)
    (h : IsRow heap l (before ++ (a, e) :: behind)) (hfree : heap element = none) (l' : LinkedList)
    (hfirst : l'.first = l.first)
    (hlast : l'.last = if behind = [] then some element else l.last) :
    IsRow (update (update heap element (some ⟨e.next, sortKey, item⟩)) a
          (some { e with next := some element })) l'
        (before ++ (a, { e with next := some element })
          :: (element, ⟨e.next, sortKey, item⟩) :: behind)
      ∧ Rewritten heap (update (update heap element (some ⟨e.next, sortKey, item⟩)) a
          (some { e with next := some element })) (before ++ (a, e) :: behind)
        (before ++ (a, { e with next := some element })
          :: (element, ⟨e.next, sortKey, item⟩) :: behind) := by
  refine ⟨⟨?_, ?_⟩, ⟨?_, ?_, ?_⟩⟩
  · rw [hfirst]
    exact h.chain.insert hfree rfl rfl
  · rw [hlast, h.last, List.getLast?_append, List.getLast?_append, List.getLast?_cons,
      List.getLast?_cons, List.getLast?_cons]
    cases behind with
    | nil => rfl
    | cons cell behind => rw [if_neg (List.cons_ne_nil _ _), List.getLast?_cons]; rfl
  · intro b hb
    simp only [addresses, List.map_append, List.map_cons, List.mem_append, List.mem_cons] at hb ⊢
    rcases hb with hb | rfl | rfl | hb
    · exact .inl (.inl hb)
    · exact .inl (.inr (.inl rfl))
    · exact .inr hfree
    · exact .inl (.inr (.inr hb))
  · intro b hb hno
    simp only [addresses, List.map_append, List.map_cons, List.mem_append, List.mem_cons] at hb hno
    tauto
  · intro b _ hno
    simp only [addresses, List.map_append, List.map_cons, List.mem_append, List.mem_cons,
      not_or] at hno
    rw [update_of_ne hno.2.1, update_of_ne hno.2.2.1]

/-! ## The calls -/

/-- The call returns, and the row is `row` afterwards. -/
def Yields (r : Option (LinkedList × ElementHeap α)) (heap : ElementHeap α)
    (cells : List (Address × ListElement α)) (row : List (ℤ × α)) : Prop :=
  ∃ l' heap' cells', r = some (l', heap') ∧ IsRow heap' l' cells'
    ∧ Rewritten heap heap' cells cells' ∧ contents cells' = row

/-- Putting a cell behind the last one. -/
theorem IsRow.link {a : Address} {e : ListElement α} (sortKey : ℤ) (item : α)
    (h : IsRow heap l (before ++ [(a, e)])) (hfree : heap element = none) :
    Yields ((setNext l.last (some element) (update heap element (some ⟨none, sortKey, item⟩))).map
        fun heap => (⟨l.first, some element⟩, heap)) heap (before ++ [(a, e)])
      (contents (before ++ [(a, e)]) ++ [(sortKey, item)]) := by
  obtain ⟨-, ha, hnext⟩ := segment_concat.mp h.chain
  have hne : a ≠ element := by
    rintro rfl
    rw [ha] at hfree
    cases hfree
  have hlast : l.last = some a := by
    rw [h.last, List.getLast?_concat]
    rfl
  obtain ⟨hrow, hrewritten⟩ := h.insert sortKey item hfree
    ⟨l.first, some element⟩ rfl (if_pos rfl).symm
  rw [hnext] at hrow hrewritten
  refine ⟨_, _, _, ?_, hrow, hrewritten, ?_⟩
  · rw [hlast, setNext_eq ((update_of_ne hne ..).trans ha), Option.map_some]
  · simp only [contents, List.map_append, List.map_cons, List.map_nil, List.append_assoc,
      List.singleton_append]

/-- `Append`. -/
theorem append_yields (h : IsRow heap l cells) (hfree : heap element = none) :
    Yields (l.Append element item heap) heap cells (contents cells ++ [(0, item)]) := by
  unfold LinkedList.Append
  rcases List.eq_nil_or_concat cells with rfl | ⟨before, ⟨a, e⟩, rfl⟩
  · rw [if_pos (h.isEmpty_iff.mpr rfl)]
    obtain ⟨hrow, hrewritten⟩ := IsRow.single 0 item hfree
    exact ⟨_, _, _, rfl, hrow, hrewritten, rfl⟩
  · rw [List.concat_eq_append] at h ⊢
    have hne : before ++ [(a, e)] ≠ [] :=
      List.append_ne_nil_of_right_ne_nil _ (List.cons_ne_nil _ _)
    rw [if_neg fun hempty => hne (h.isEmpty_iff.mp hempty)]
    exact h.link 0 item hfree

/-- A new cell in front of the first. -/
theorem IsRow.push (sortKey : ℤ) (item : α) (h : IsRow heap l cells) (hne : cells ≠ [])
    (hfree : heap element = none) :
    Yields ((setNext (some element) l.first
        (update heap element (some ⟨none, sortKey, item⟩))).map
        fun heap => (⟨some element, l.last⟩, heap)) heap cells
      ((sortKey, item) :: contents cells) := by
  obtain ⟨hrow, hrewritten⟩ := h.cons sortKey item hne hfree
  refine ⟨_, _, _, ?_, hrow, hrewritten, rfl⟩
  rw [setNext_eq (update_self ..), Option.map_some, update_idem]

/-- `Prepend`. -/
theorem prepend_yields (h : IsRow heap l cells) (hfree : heap element = none) :
    Yields (l.Prepend element item heap) heap cells ((0, item) :: contents cells) := by
  unfold LinkedList.Prepend
  by_cases hnil : cells = []
  · rw [if_pos (h.isEmpty_iff.mpr hnil), hnil]
    obtain ⟨hrow, hrewritten⟩ := IsRow.single 0 item hfree
    exact ⟨_, _, _, rfl, hrow, hrewritten, rfl⟩
  · rw [if_neg fun hempty => hnil (h.isEmpty_iff.mp hempty)]
    exact h.push 0 item hnil hfree

/-- **The loop of `SortedInsert`**, at a cell that does not have a larger key. -/
theorem sortedInsert_loop_yields {a : Address} {e : ListElement α} {turns : ℕ} (sortKey : ℤ)
    (item : α) (before : List (Address × ListElement α))
    (h : IsRow heap l (before ++ (a, e) :: behind)) (hfree : heap element = none)
    (hturns : behind.length < turns) :
    Yields (LinkedList.SortedInsert.loop element sortKey l turns (some a)
        (update heap element (some ⟨none, sortKey, item⟩))) heap (before ++ (a, e) :: behind)
      (contents before ++ (e.key, e.item) :: sortedInsert sortKey item (contents behind)) := by
  induction behind generalizing before a e turns with
  | nil =>
      obtain ⟨turns, rfl⟩ := Nat.exists_eq_succ_of_ne_zero (Nat.ne_of_gt hturns)
      obtain ⟨-, ha, hnext⟩ := segment_concat.mp h.chain
      have hne : a ≠ element := by
        rintro rfl
        rw [ha] at hfree
        cases hfree
      have hlink := h.link sortKey item hfree
      rw [LinkedList.SortedInsert.loop, Option.bind_some, update_of_ne hne, ha]
      dsimp only
      rw [hnext]
      simpa only [contents, List.map_append, List.map_cons, List.map_nil, List.append_assoc,
        List.singleton_append, sortedInsert, Agenda.insert, List.orderedInsert_nil] using hlink
  | cons cell behind ih =>
      obtain ⟨b, e'⟩ := cell
      obtain ⟨turns, rfl⟩ := Nat.exists_eq_succ_of_ne_zero (Nat.ne_of_gt (Nat.zero_lt_of_lt hturns))
      have ha : heap a = some e := h.chain.get (List.mem_append_right _ List.mem_cons_self)
      have hb : heap b = some e' :=
        h.chain.get (List.mem_append_right _ (List.mem_cons_of_mem _ List.mem_cons_self))
      have hnext : e.next = some b := by
        obtain ⟨_, -, -, -, hrest⟩ := segment_append.mp h.chain
        exact hrest.1
      have hne {c : Address} {x : ListElement α} (hc : heap c = some x) : c ≠ element := by
        rintro rfl
        rw [hc] at hfree
        cases hfree
      rw [LinkedList.SortedInsert.loop, Option.bind_some, update_of_ne (hne ha), ha]
      dsimp only
      rw [hnext]
      dsimp only
      rw [update_of_ne (hne hb), hb]
      dsimp only
      by_cases hkey : sortKey < e'.key
      · rw [if_pos hkey]
        obtain ⟨hrow, hrewritten⟩ := h.insert sortKey item hfree l rfl
          (if_neg (List.cons_ne_nil _ _)).symm
        refine ⟨_, _, _, ?_, hrow, hrewritten, ?_⟩
        · rw [setNext_eq (update_self ..), Option.bind_some, update_idem,
            setNext_eq ((update_of_ne (hne ha) ..).trans ha), Option.map_some, hnext]
        · simp only [contents, List.map_append, List.map_cons, sortedInsert, Agenda.insert,
            List.orderedInsert_cons, hkey, if_true]
      · rw [if_neg hkey]
        have hshift : before ++ (a, e) :: (b, e') :: behind
            = (before ++ [(a, e)]) ++ (b, e') :: behind := by
          rw [List.append_assoc, List.singleton_append]
        rw [hshift] at h ⊢
        have hrest := ih _ h (Nat.lt_of_succ_lt_succ hturns)
        simpa only [contents, List.map_append, List.map_cons, List.map_nil, List.append_assoc,
          List.singleton_append, sortedInsert, Agenda.insert, List.orderedInsert_cons, hkey,
          if_false] using hrest

/-- `SortedInsert`. -/
theorem sortedInsert_yields {turns : ℕ} (h : IsRow heap l cells) (hfree : heap element = none)
    (hturns : cells.length ≤ turns) :
    Yields (l.SortedInsert turns element item sortKey heap) heap cells
      (sortedInsert sortKey item (contents cells)) := by
  unfold LinkedList.SortedInsert
  dsimp only
  cases cells with
  | nil =>
      rw [if_pos (h.isEmpty_iff.mpr rfl)]
      obtain ⟨hrow, hrewritten⟩ := IsRow.single sortKey item hfree
      exact ⟨_, _, _, rfl, hrow, hrewritten, rfl⟩
  | cons cell behind =>
      obtain ⟨a, e⟩ := cell
      obtain ⟨hfirst, ha, -⟩ := h.chain
      have hne : a ≠ element := by
        rintro rfl
        rw [ha] at hfree
        cases hfree
      rw [if_neg fun hempty => List.cons_ne_nil _ _ (h.isEmpty_iff.mp hempty), hfirst,
        Option.bind_some, update_of_ne hne, ha]
      dsimp only
      by_cases hkey : sortKey < e.key
      · rw [if_pos hkey, ← hfirst]
        have hpush := h.push sortKey item (List.cons_ne_nil _ _) hfree
        simpa only [contents, List.map_cons, sortedInsert, Agenda.insert, List.orderedInsert_cons,
          hkey, if_true] using hpush
      · rw [if_neg hkey]
        have hloop := sortedInsert_loop_yields sortKey item [] h hfree hturns
        simpa only [contents, List.map_cons, List.map_nil, List.nil_append, sortedInsert,
          Agenda.insert, List.orderedInsert_cons, hkey, if_false] using hloop

variable [Inhabited α]

/-- `SortedRemove` from an empty list. -/
theorem sortedRemove_nil (h : IsRow heap l []) (keyPtr : Option ℤ) :
    l.SortedRemove keyPtr heap = some ((default, keyPtr), l, heap) := by
  have hfirst : l.first = none := h.chain
  rw [LinkedList.SortedRemove, hfirst]

/-- `SortedRemove` takes the first cell out of the row, and gives it back. -/
theorem sortedRemove_cons {a : Address} {e : ListElement α} (h : IsRow heap l ((a, e) :: cells))
    (keyPtr : Option ℤ) :
    ∃ l', l.SortedRemove keyPtr heap
        = some ((e.item, keyPtr.map fun _ => e.key), l', update heap a none)
      ∧ IsRow (update heap a none) l' cells
      ∧ Rewritten heap (update heap a none) ((a, e) :: cells) cells := by
  obtain ⟨hfirst, ha, hrest⟩ := h.chain
  have hnodup := h.chain.nodup
  rw [List.map_cons, List.nodup_cons] at hnodup
  have hlast : l.last = (((a, e) :: cells).getLast?).map Prod.fst := h.last
  refine ⟨if l.first = l.last then ⟨none, none⟩ else ⟨e.next, l.last⟩, ?_, ?_, ⟨?_, ?_, ?_⟩⟩
  · rw [LinkedList.SortedRemove, hfirst]
    dsimp only
    rw [ha, Option.map_some]
  · cases cells with
    | nil =>
        have hsame : l.first = l.last := hfirst.trans hlast.symm
        rw [if_pos hsame]
        exact ⟨rfl, rfl⟩
    | cons cell cells =>
        -- the last cell is another one than the first
        obtain ⟨c, hc⟩ := Option.isSome_iff_exists.mp
          (List.getLast?_isSome.mpr (List.cons_ne_nil cell cells))
        have hlast' : l.last = some c.1 := by
          rw [hlast, List.getLast?_cons, hc, Option.getD_some, Option.map_some]
        have hother : ¬ l.first = l.last := by
          rw [hfirst, hlast', Option.some.injEq]
          intro heq
          rw [heq] at hnodup
          exact hnodup.1 (List.mem_map.mpr ⟨c, List.mem_of_getLast? hc, rfl⟩)
        rw [if_neg hother]
        exact ⟨hrest.update hnodup.1 _, by rw [hlast', hc, Option.map_some]⟩
  · exact fun b hb => .inl (List.mem_cons_of_mem _ hb)
  · intro b hb hno
    rcases List.mem_cons.mp hb with rfl | hmem
    · exact update_self ..
    · exact absurd hmem hno
  · intro b hb _
    refine update_of_ne (fun heq => hb ?_) ..
    rw [heq]
    exact List.mem_cons_self

omit [Inhabited α] in
/-- `Apply` goes through the whole row. -/
theorem apply_eq {p : Option Address} {turns : ℕ} (h : Segment ListElement.next heap p cells none)
    (hturns : cells.length ≤ turns) :
    LinkedList.Apply turns p heap = some ((contents cells).map Prod.snd) := by
  induction cells generalizing p turns with
  | nil =>
      rw [segment_nil.mp h]
      cases turns <;> rfl
  | cons cell cells ih =>
      obtain ⟨a, e⟩ := cell
      obtain ⟨rfl, ha, hrest⟩ := h
      obtain ⟨turns, rfl⟩ := Nat.exists_eq_succ_of_ne_zero (Nat.ne_of_gt (Nat.zero_lt_of_lt hturns))
      rw [LinkedList.Apply, ha, Option.bind_some, ih hrest (Nat.le_of_succ_le_succ hturns)]
      rfl

/-- `~List` gives everything back. -/
theorem destroy_yields {turns : ℕ} (h : IsRow heap l cells) (hturns : cells.length ≤ turns) :
    Yields (l.destroy turns heap) heap cells [] := by
  induction cells generalizing l heap turns with
  | nil =>
      refine ⟨l, heap, [], ?_, h, .refl heap [], rfl⟩
      have hempty := h.isEmpty_iff.mpr rfl
      cases turns with
      | zero => exact if_pos hempty
      | succ turns => exact if_pos hempty
  | cons cell cells ih =>
      obtain ⟨a, e⟩ := cell
      obtain ⟨turns, rfl⟩ := Nat.exists_eq_succ_of_ne_zero (Nat.ne_of_gt (Nat.zero_lt_of_lt hturns))
      obtain ⟨l', hremove, hrow, hrewritten⟩ := sortedRemove_cons h none
      obtain ⟨l'', heap'', cells'', hdestroy, hrow', hrewritten', hnil⟩ :=
        ih hrow (Nat.le_of_succ_le_succ hturns)
      have hcells : cells'' = [] := List.map_eq_nil_iff.mp hnil
      subst hcells
      refine ⟨l'', heap'', [], ?_, hrow', hrewritten.trans hrewritten' (List.subset_cons_self _ _),
        rfl⟩
      rw [LinkedList.destroy, if_neg fun hempty => List.cons_ne_nil _ _ (h.isEmpty_iff.mp hempty),
        LinkedList.Remove, hremove, Option.bind_some]
      exact hdestroy

end

/-! ## Many lists -/

/-- What a call returns. -/
inductive Reply (α : Type)
  | done
  | isEmpty (answer : Bool)
  | removed (item : α) (key : Option ℤ)
  | applied (items : List α)
deriving DecidableEq, Repr

/-- The calls, with the list that they are for; `element` is what `new` returns in them. -/
inductive Call (ι α : Type)
  | Append (i : ι) (item : α) (element : Address)
  | Prepend (i : ι) (item : α) (element : Address)
  | SortedInsert (i : ι) (item : α) (sortKey : ℤ) (element : Address)
  | Remove (i : ι)
  | SortedRemove (i : ι) (key : ℤ)
  | IsEmpty (i : ι)
  | Apply (i : ι)
  | destroy (i : ι)

/-- The lists, the heap that they share, and what the calls so far have returned. -/
structure Lists (ι α : Type) where
  heap : ElementHeap α
  list : ι → LinkedList
  replies : List (Reply α)

namespace Lists

variable {ι : Type} [DecidableEq ι]

/-- The list `i` after a call. -/
def put (s : Lists ι α) (i : ι) (reply : Reply α) (r : LinkedList × ElementHeap α) : Lists ι α :=
  ⟨r.2, update s.list i r.1, s.replies ++ [reply]⟩

/-- A call. `new` never returns what is in use. -/
def call [Inhabited α] (turns : ℕ) (s : Lists ι α) : Call ι α → Option (Lists ι α)
  | .Append i item element => ((s.list i).Append element item s.heap).map (s.put i .done)
  | .Prepend i item element => ((s.list i).Prepend element item s.heap).map (s.put i .done)
  | .SortedInsert i item sortKey element =>
      ((s.list i).SortedInsert turns element item sortKey s.heap).map (s.put i .done)
  | .Remove i => ((s.list i).Remove s.heap).map fun r => s.put i (.removed r.1.1 r.1.2) r.2
  | .SortedRemove i key =>
      ((s.list i).SortedRemove (some key) s.heap).map fun r => s.put i (.removed r.1.1 r.1.2) r.2
  | .IsEmpty i => some { s with replies := s.replies ++ [.isEmpty (s.list i).IsEmpty] }
  | .Apply i => (LinkedList.Apply turns (s.list i).first s.heap).map fun items =>
      { s with replies := s.replies ++ [.applied items] }
  | .destroy i => ((s.list i).destroy turns s.heap).map (s.put i .done)

/-- No lists have been filled. -/
def initial : Lists ι α := ⟨fun _ => none, fun _ => .new, []⟩

/-- What `new` promises. -/
def NewIsFree (s : Lists ι α) : Call ι α → Prop
  | .Append _ _ element | .Prepend _ _ element | .SortedInsert _ _ _ element =>
      s.heap element = none
  | .Remove _ | .SortedRemove _ _ | .IsEmpty _ | .Apply _ | .destroy _ => True

end Lists

/-! ## Many rows -/

/-- Rows of items with their keys, and what the calls so far have returned. -/
structure Rows (ι α : Type) where
  row : ι → List (ℤ × α)
  replies : List (Reply α)

namespace Rows

variable {ι : Type} [DecidableEq ι]

/-- The row `i` after a call. -/
def put (q : Rows ι α) (i : ι) (reply : Reply α) (row : List (ℤ × α)) : Rows ι α :=
  ⟨update q.row i row, q.replies ++ [reply]⟩

/-- The first item and its key are asked for; on an empty row there is a default. -/
def removed [Inhabited α] (keyPtr : Option ℤ) : List (ℤ × α) → Reply α
  | [] => .removed default keyPtr
  | (key, item) :: _ => .removed item (keyPtr.map fun _ => key)

/-- A call, on rows. -/
def call [Inhabited α] (q : Rows ι α) : Call ι α → Rows ι α
  | .Append i item _ => q.put i .done (q.row i ++ [(0, item)])
  | .Prepend i item _ => q.put i .done ((0, item) :: q.row i)
  | .SortedInsert i item sortKey _ => q.put i .done (sortedInsert sortKey item (q.row i))
  | .Remove i => q.put i (removed none (q.row i)) (q.row i).tail
  | .SortedRemove i key => q.put i (removed (some key) (q.row i)) (q.row i).tail
  | .IsEmpty i => { q with replies := q.replies ++ [.isEmpty (q.row i).isEmpty] }
  | .Apply i => { q with replies := q.replies ++ [.applied ((q.row i).map Prod.snd)] }
  | .destroy i => q.put i .done []

/-- No row has anything. -/
def initial : Rows ι α := ⟨fun _ => [], []⟩

end Rows

/-! ## The refinement -/

section

variable {ι : Type} [DecidableEq ι]

/-- The cells of every list are its row; no cell is on two lists, and those in use are on one. -/
structure Stored (s : Lists ι α) (q : Rows ι α) (cells : ι → List (Address × ListElement α)) :
    Prop where
  rows : ∀ i, IsRow s.heap (s.list i) (cells i)
  contents : ∀ i, contents (cells i) = q.row i
  apart : ∀ i j a, a ∈ addresses (cells i) → a ∈ addresses (cells j) → i = j
  used : ∀ a, s.heap a ≠ none → ∃ i, a ∈ addresses (cells i)
  replies : s.replies = q.replies

variable {s : Lists ι α} {q : Rows ι α} {cells : ι → List (Address × ListElement α)}

omit [DecidableEq ι] in
/-- What is on a list is in use. -/
theorem Stored.get (h : Stored s q cells) {i : ι} {a : Address} (ha : a ∈ addresses (cells i)) :
    s.heap a ≠ none := by
  obtain ⟨cell, hcell, rfl⟩ := List.mem_map.mp ha
  rw [(h.rows i).chain.get hcell]
  exact Option.some_ne_none _

/-- **The frame rule for lists.** A call for one of the lists leaves the others alone. -/
theorem Stored.put (h : Stored s q cells) {i : ι} {l' : LinkedList} {heap' : ElementHeap α}
    {cells' : List (Address × ListElement α)} (hrow : IsRow heap' l' cells')
    (hrewritten : Rewritten s.heap heap' (cells i) cells') (reply : Reply α) {row : List (ℤ × α)}
    (hcontents : NachOS.contents cells' = row) :
    Stored (s.put i reply (l', heap')) (q.put i reply row) (update cells i cells') := by
  -- a cell of another list is on neither side of the call
  have hother {j : ι} (hj : j ≠ i) {a : Address} (ha : a ∈ addresses (cells j)) :
      a ∉ addresses (cells i) ∧ a ∉ addresses cells' := by
    have hno : a ∉ addresses (cells i) := fun hmem => hj (h.apart j i a ha hmem)
    refine ⟨hno, fun hmem => ?_⟩
    rcases hrewritten.here a hmem with hin | hfree
    · exact hno hin
    · exact h.get ha hfree
  constructor
  · intro j
    show IsRow heap' (update s.list i l' j) (update cells i cells' j)
    by_cases hj : j = i
    · rw [hj, update_self, update_self]
      exact hrow
    · rw [update_of_ne hj, update_of_ne hj]
      refine ⟨(h.rows j).chain.frame fun cell hcell => ?_, (h.rows j).last⟩
      obtain ⟨hno, hno'⟩ := hother hj (List.mem_map_of_mem hcell)
      exact hrewritten.elsewhere _ hno hno'
  · intro j
    show NachOS.contents (update cells i cells' j) = update q.row i row j
    by_cases hj : j = i
    · rw [hj, update_self, update_self]
      exact hcontents
    · rw [update_of_ne hj, update_of_ne hj]
      exact h.contents j
  · intro j k a hja hka
    by_cases hj : j = i
    · by_cases hk : k = i
      · rw [hj, hk]
      · rw [hj, update_self] at hja
        rw [update_of_ne hk] at hka
        exact absurd hja (hother hk hka).2
    · rw [update_of_ne hj] at hja
      by_cases hk : k = i
      · rw [hk, update_self] at hka
        exact absurd hka (hother hj hja).2
      · rw [update_of_ne hk] at hka
        exact h.apart j k a hja hka
  · intro a ha
    by_cases hin : a ∈ addresses cells'
    · exact ⟨i, by rw [update_self]; exact hin⟩
    · by_cases hwas : a ∈ addresses (cells i)
      · exact absurd (hrewritten.gone a hwas hin) ha
      · obtain ⟨j, hj⟩ := h.used a ((hrewritten.elsewhere a hwas hin) ▸ ha)
        have hne : j ≠ i := by
          rintro rfl
          exact hwas hj
        exact ⟨j, by rw [update_of_ne hne]; exact hj⟩
  · show s.replies ++ [reply] = q.replies ++ [reply]
    rw [h.replies]

/-- A call that yields a row. -/
theorem Stored.yields (h : Stored s q cells) {i : ι} {r : Option (LinkedList × ElementHeap α)}
    {row : List (ℤ × α)} (hr : Yields r s.heap (cells i) row) (reply : Reply α) :
    ∃ s' cells', r.map (s.put i reply) = some s' ∧ Stored s' (q.put i reply row) cells' := by
  obtain ⟨l', heap', cells', rfl, hrow, hrewritten, hcontents⟩ := hr
  exact ⟨_, _, rfl, h.put hrow hrewritten reply hcontents⟩

omit [DecidableEq ι] in
/-- A call that changes nothing. -/
theorem Stored.reply (h : Stored s q cells) (reply : Reply α) :
    Stored { s with replies := s.replies ++ [reply] } { q with replies := q.replies ++ [reply] }
      cells :=
  ⟨h.rows, h.contents, h.apart, h.used, by rw [h.replies]⟩

variable [Inhabited α]

/-- A removal. -/
theorem Stored.remove (h : Stored s q cells) (i : ι) (keyPtr : Option ℤ) :
    ∃ s' cells', ((s.list i).SortedRemove keyPtr s.heap).map
          (fun r => s.put i (.removed r.1.1 r.1.2) r.2) = some s'
      ∧ Stored s' (q.put i (Rows.removed keyPtr (q.row i)) (q.row i).tail) cells' := by
  have hrow := h.rows i
  have hcontents := h.contents i
  cases hcells : cells i with
  | nil =>
      rw [hcells] at hrow hcontents
      rw [sortedRemove_nil hrow, ← hcontents]
      have hsame : Rewritten s.heap s.heap (cells i) [] := by
        rw [hcells]
        exact .refl _ _
      exact ⟨_, _, rfl, h.put hrow hsame _ rfl⟩
  | cons cell rest =>
      obtain ⟨a, e⟩ := cell
      rw [hcells] at hrow hcontents
      obtain ⟨l', hremove, hrow', hrewritten⟩ := sortedRemove_cons hrow keyPtr
      rw [hremove, ← hcontents]
      refine ⟨_, _, rfl, h.put hrow' ?_ _ rfl⟩
      rw [hcells]
      exact hrewritten

/-- **One call.** -/
theorem call_refines {turns : ℕ} (h : Stored s q cells) (c : Call ι α) (hfree : s.NewIsFree c)
    (hturns : ∀ i, (q.row i).length ≤ turns) :
    ∃ s' cells', s.call turns c = some s' ∧ Stored s' (q.call c) cells' := by
  have hlength (i : ι) : (cells i).length ≤ turns := by
    have hi := hturns i
    rwa [← h.contents i, List.length_map] at hi
  cases c with
  | Append i item element =>
      rw [Lists.call, Rows.call, ← h.contents i]
      exact h.yields (append_yields (h.rows i) hfree) _
  | Prepend i item element =>
      rw [Lists.call, Rows.call, ← h.contents i]
      exact h.yields (prepend_yields (h.rows i) hfree) _
  | SortedInsert i item sortKey element =>
      rw [Lists.call, Rows.call, ← h.contents i]
      exact h.yields (sortedInsert_yields (h.rows i) hfree (hlength i)) _
  | Remove i => exact h.remove i none
  | SortedRemove i key => exact h.remove i (some key)
  | IsEmpty i =>
      have hempty : (s.list i).IsEmpty = (q.row i).isEmpty := by
        rw [Bool.eq_iff_iff, (h.rows i).isEmpty_iff, List.isEmpty_iff, ← h.contents i,
          List.map_eq_nil_iff]
      rw [Lists.call, Rows.call, hempty]
      exact ⟨_, cells, rfl, h.reply _⟩
  | Apply i =>
      rw [Lists.call, Rows.call, apply_eq (h.rows i).chain (hlength i), h.contents i]
      exact ⟨_, cells, rfl, h.reply _⟩
  | destroy i =>
      rw [Lists.call, Rows.call]
      exact h.yields (destroy_yields (h.rows i) (hlength i)) _

/-- A call makes a row longer by one item at most. -/
theorem length_row_call (q : Rows ι α) (c : Call ι α) (i : ι) :
    ((q.call c).row i).length ≤ (q.row i).length + 1 := by
  have hput {j : ι} {reply : Reply α} {row : List (ℤ × α)}
      (hrow : row.length ≤ (q.row j).length + 1) :
      ((q.put j reply row).row i).length ≤ (q.row i).length + 1 := by
    show (update q.row j row i).length ≤ _
    by_cases hij : i = j
    · rw [hij, update_self]
      exact hrow
    · rw [update_of_ne hij]
      exact Nat.le_succ _
  cases c with
  | Append j item element => exact hput (by rw [List.length_append]; exact Nat.le_refl _)
  | Prepend j item element => exact hput (Nat.le_refl _)
  | SortedInsert j item sortKey element =>
      exact hput (by rw [sortedInsert, Agenda.insert, List.orderedInsert_length])
  | Remove j | SortedRemove j key =>
      exact hput (by rw [List.length_tail]; omega)
  | IsEmpty j | Apply j => exact Nat.le_succ _
  | destroy j => exact hput (Nat.zero_le _)

/-- **The lists are rows**, in every run of calls for any number of lists: if what `new` returns
is free, every call returns what it would return on the rows, nothing that is not in use is read or
written, and at the end exactly the cells of the lists are in use. Cells that were given back may
be used again. A removal takes the cell off its list before it gives it back, so that no list runs
through a free cell. -/
theorem lists_refined (calls : List (Call ι α)) {turns : ℕ} (hturns : calls.length ≤ turns)
    (hnew : AllOk (Lists.call turns) Lists.NewIsFree Lists.initial calls) :
    ∃ (s : Lists ι α) (cells : ι → List (Address × ListElement α)),
      exec (Lists.call turns) Lists.initial calls = some s
      ∧ s.replies = (calls.foldl Rows.call Rows.initial).replies
      ∧ (∀ i, IsRow s.heap (s.list i) (cells i)
        ∧ contents (cells i) = (calls.foldl Rows.call Rows.initial).row i)
      ∧ (∀ a, s.heap a ≠ none ↔ ∃ i, a ∈ addresses (cells i)) := by
  suffices hrun : ∀ (calls : List (Call ι α)) (s : Lists ι α) (q : Rows ι α)
      (cells : ι → List (Address × ListElement α)),
      Stored s q cells → (∀ i, (q.row i).length + calls.length ≤ turns) →
      AllOk (Lists.call turns) Lists.NewIsFree s calls →
      ∃ s' cells', exec (Lists.call turns) s calls = some s'
        ∧ Stored s' (calls.foldl Rows.call q) cells' by
    have hinitial : Stored (Lists.initial : Lists ι α) Rows.initial fun _ => [] :=
      ⟨fun _ => ⟨rfl, rfl⟩, fun _ => rfl, fun _ _ _ h => absurd h List.not_mem_nil,
        fun _ h => absurd rfl h, rfl⟩
    obtain ⟨s, cells, hexec, hstored⟩ := hrun calls _ _ _ hinitial
      (fun i => by rw [Rows.initial, List.length_nil, Nat.zero_add]; exact hturns) hnew
    exact ⟨s, cells, hexec, hstored.replies, fun i => ⟨hstored.rows i, hstored.contents i⟩,
      fun a => ⟨hstored.used a, fun ⟨_, ha⟩ => hstored.get ha⟩⟩
  intro calls
  induction calls with
  | nil => exact fun s q cells h _ _ => ⟨s, cells, rfl, h⟩
  | cons c calls ih =>
      rintro s q cells h hlength ⟨hfree, hrest⟩
      obtain ⟨s', cells', hcall, hstored⟩ := call_refines h c hfree fun i =>
        Nat.le_of_add_right_le (hlength i)
      rw [hcall] at hrest
      rw [exec, hcall]
      refine ih s' (q.call c) cells' hstored (fun i => ?_) hrest
      have hi := hlength i
      have hgrows := length_row_call q c i
      rw [List.length_cons] at hi
      omega

end

instance Lists.NewIsFree.decidable {ι : Type} [DecidableEq α] (s : Lists ι α) (c : Call ι α) :
    Decidable (s.NewIsFree c) :=
  match c with
  | .Append _ _ element | .Prepend _ _ element | .SortedInsert _ _ _ element =>
      inferInstanceAs (Decidable (s.heap element = none))
  | .Remove _ | .SortedRemove _ _ | .IsEmpty _ | .Apply _ | .destroy _ => isTrue trivial

/-- Two lists; the cell that the first one gives back is used for the second. -/
def twoLists : List (Call Bool ℕ) :=
  [.Append false 7 100, .SortedInsert true 5 3 101, .Remove false, .SortedInsert true 6 3 100,
    .SortedInsert true 4 1 102, .SortedRemove true 0, .Apply true]

/-- Items with the same key stay in their order. -/
theorem lists_refined_twoLists :
    ∃ (s : Lists Bool ℕ) (cells : Bool → List (Address × ListElement ℕ)),
      exec (Lists.call 7) Lists.initial twoLists = some s
      ∧ s.replies = [.done, .done, .removed 7 none, .done, .done, .removed 4 (some 1),
        .applied [5, 6]]
      ∧ (∀ i, IsRow s.heap (s.list i) (cells i)
        ∧ contents (cells i) = (twoLists.foldl Rows.call Rows.initial).row i)
      ∧ (∀ a, s.heap a ≠ none ↔ ∃ i, a ∈ addresses (cells i)) :=
  lists_refined twoLists (Nat.le_refl 7) (by decide +kernel)

end LoadBalancer.NachOS
