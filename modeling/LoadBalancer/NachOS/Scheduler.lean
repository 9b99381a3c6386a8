/-
`scheduler.cc`, `thread.cc` and the semaphores of `synch.cc`: who has the processor.

Whatever is done with the interrupts off is one action, up to the next place where the processor can
change hands. A thread that is dispatched goes on behind the `SWITCH` it was left at, and there
deletes the thread that has finished; a thread that was never dispatched before begins in
`ThreadRoot`, and deletes nothing.

Every thread is in one place, and no thread that is deleted is used again ([`threads_placed`]).

Left out are `CheckOverflow`, whose `ASSERT` is about the memory below a thread's stack, and the
overflow of a semaphore's `value`. No result here speaks of them.
-/
import LoadBalancer.Lib.Events
import LoadBalancer.NachOS.Semaphore
import Mathlib.Data.List.Nodup

set_option autoImplicit false

namespace LoadBalancer.NachOS

open LoadBalancer.Transition LoadBalancer.Events

/-! ## The code -/

/-- `ThreadStatus`, of a thread that was forked. -/
inductive ThreadStatus
  | RUNNING
  | READY
  | BLOCKED
deriving DecidableEq, Repr

/-- Where a thread is. The semaphores are known by `κ`. -/
inductive Scheduling.Place (κ : Type)
  /-- At the beginning of `ThreadRoot`. -/
  | ThreadRoot
  /-- In its own code. -/
  | code
  /-- In `Yield`, behind the `SWITCH`. -/
  | Yield
  /-- In `P`, at the `while`. -/
  | P (s : κ)
  /-- In `Finish`, behind the `Sleep`. -/
  | Finish
deriving DecidableEq, Repr

/-- `Thread`. -/
structure Scheduling.Thread (κ : Type) where
  status : ThreadStatus
  place : Scheduling.Place κ
deriving DecidableEq, Repr

open ThreadStatus

/-- The threads that are allocated, known by their addresses, the globals of `system.cc` and the
semaphores. -/
structure Scheduling (ι κ : Type) where
  threads : ι → Option (Scheduling.Thread κ)
  readyList : List ι
  currentThread : ι
  threadToBeDestroyed : Option ι
  semaphores : κ → Semaphore ι
  /-- An `ASSERT` has failed, other than that of `CheckOverflow`, or a thread was used that is not
  allocated. -/
  aborted : Bool

/-- What the current thread does, and what the interrupt handlers do to the semaphores. -/
inductive Scheduling.Action (ι κ : Type)
  /-- `new Thread` and `Fork`. -/
  | Fork (t : ι)
  /-- Also that of `OneTick`. -/
  | Yield
  | P (s : κ)
  /-- One turn of the `while` of `P`. -/
  | turn
  | V (s : κ)
  | Destroy (s : κ)
  | Finish
  /-- The turn of the `while` of `Sleep` that ends it. -/
  | dispatch
deriving DecidableEq, Repr

/-- What is seen of an action. -/
inductive Scheduling.Event (ι κ : Type)
  /-- `ReadyToRun`. -/
  | ready (t : ι)
  /-- `Run`, of a thread that never ran before. -/
  | start (t : ι)
  /-- `Run`, of another one. -/
  | resume (t : ι)
  | V (s : κ)
  /-- A `P` gets behind its `while`. -/
  | passed (s : κ)
  | finish (t : ι)
deriving DecidableEq, Repr

namespace Scheduling

variable {ι κ : Type}

/-- After `Initialize`: the thread `main` runs. -/
def initial (main : ι) (initialValue : κ → ℕ) [DecidableEq ι] : Scheduling ι κ where
  threads := Function.update (fun _ => none) main (some ⟨RUNNING, .code⟩)
  readyList := []
  currentThread := main
  threadToBeDestroyed := none
  semaphores s := .initial (initialValue s)
  aborted := false

/-- The current thread has the processor, and is not in the loop of `Sleep`. -/
def place? (k : Scheduling ι κ) : Option (Place κ) :=
  match k.threads k.currentThread with
  | some ⟨RUNNING, place⟩ => some place
  | _ => none

section Code

variable [DecidableEq ι]

/-- A thread is left in another state. -/
def put (t : ι) (x : Thread κ) (k : Scheduling ι κ) : Scheduling ι κ :=
  if (k.threads t).isSome then { k with threads := Function.update k.threads t (some x) }
  else { k with aborted := true }

/-- `setStatus`. -/
def setStatus (t : ι) (status : ThreadStatus) (k : Scheduling ι κ) : Scheduling ι κ :=
  match k.threads t with
  | some x => k.put t { x with status := status }
  | none => { k with aborted := true }

/-- `ReadyToRun`. -/
def ReadyToRun (t : ι) (k : Scheduling ι κ) : Scheduling ι κ :=
  { k.setStatus t READY with readyList := k.readyList ++ [t] }

/-- `if (threadToBeDestroyed != NULL) delete threadToBeDestroyed`, with the `ASSERT` of
`~Thread`. -/
def destroy (k : Scheduling ι κ) : Scheduling ι κ :=
  match k.threadToBeDestroyed with
  | none => k
  | some t =>
      if t = k.currentThread ∨ k.threads t = none then { k with aborted := true }
      else { k with threads := Function.update k.threads t none, threadToBeDestroyed := none }

/-- `Run`, up to where the next thread goes on in code that can be interrupted. -/
def Run (next : ι) (k : Scheduling ι κ) : Scheduling ι κ :=
  match k.threads next with
  | some ⟨_, .ThreadRoot⟩ => ({ k with currentThread := next }.put next ⟨RUNNING, .code⟩)
  | some ⟨_, .Yield⟩ => ({ k with currentThread := next }.put next ⟨RUNNING, .code⟩).destroy
  | some ⟨_, .P s⟩ => ({ k with currentThread := next }.put next ⟨RUNNING, .P s⟩).destroy
  -- a thread that was left anywhere else, or is not allocated
  | _ => { k with aborted := true }

/-- The `while` of `Sleep`, when `Idle` returns: a thread that is ready gets the processor. -/
def dispatch (k : Scheduling ι κ) : Scheduling ι κ :=
  match k.readyList with
  | [] => k
  | next :: rest => { k with readyList := rest }.Run next

/-- `Sleep`, at a place. -/
def Sleep (place : Place κ) (k : Scheduling ι κ) : Scheduling ι κ :=
  (k.put k.currentThread ⟨BLOCKED, place⟩).dispatch

/-- `Yield`. -/
def Yield (k : Scheduling ι κ) : Scheduling ι κ :=
  match k.readyList with
  | [] => k
  | next :: rest =>
      let k := { k with readyList := rest }.put k.currentThread ⟨RUNNING, .Yield⟩
      (k.ReadyToRun k.currentThread).Run next

variable [DecidableEq κ]

/-- A semaphore is changed. -/
def setSemaphore (s : κ) (semaphore : Semaphore ι) (k : Scheduling ι κ) : Scheduling ι κ :=
  { k with semaphores := Function.update k.semaphores s semaphore }

/-- One turn of the `while` of `P`. -/
def turn (s : κ) (k : Scheduling ι κ) : Option (Scheduling ι κ) :=
  ((k.semaphores s).P k.currentThread).map fun (semaphore, taken) =>
    if taken then (k.setSemaphore s semaphore).put k.currentThread ⟨RUNNING, .code⟩
    else (k.setSemaphore s semaphore).Sleep (.P s)

/-- `V`. -/
def V (s : κ) (k : Scheduling ι κ) : Scheduling ι κ :=
  let thread := (k.semaphores s).queue.head?
  let k := k.setSemaphore s (k.semaphores s).V
  match thread with
  | none => k
  | some t => k.ReadyToRun t

/-- `Destroy`. -/
def Destroy (s : κ) (k : Scheduling ι κ) : Scheduling ι κ :=
  (k.semaphores s).queue.foldl (fun k t => k.ReadyToRun t)
    (k.setSemaphore s { k.semaphores s with queue := [] })

/-- `Finish`. -/
def Finish (k : Scheduling ι κ) : Scheduling ι κ :=
  { k with threadToBeDestroyed := some k.currentThread }.Sleep .Finish

/-- What can be done. A thread in its own code can call everything; in the loop of `Sleep` there are
only the interrupt handlers, and a thread in the `while` of `P` cannot be interrupted. -/
def step (k : Scheduling ι κ) (a : Action ι κ) : Option (Scheduling ι κ) :=
  match a, k.place? with
  | .Fork t, some .code =>
      if k.threads t = none then
        let k := { k with threads := Function.update k.threads t (some ⟨READY, .ThreadRoot⟩) }
        some (k.ReadyToRun t)
      else none
  | .Yield, some .code => some k.Yield
  | .P s, some .code => some (k.put k.currentThread ⟨RUNNING, .P s⟩)
  | .turn, some (.P s) => k.turn s
  | .V s, some .code => some (k.V s)
  | .V s, none => some (k.V s)
  | .Destroy s, some .code => some (k.Destroy s)
  | .Finish, some .code => some k.Finish
  | .dispatch, none => some k.dispatch
  | _, _ => none

/-- What is seen when the first of the ready list is dispatched. -/
def dispatched (k : Scheduling ι κ) : List (Event ι κ) :=
  match k.readyList with
  | [] => []
  | t :: _ => [if (k.threads t).map Thread.place = some .ThreadRoot then .start t else .resume t]

/-- What is seen of an action. -/
def events (k : Scheduling ι κ) : Action ι κ → List (Event ι κ)
  | .Fork t => [.ready t]
  | .Yield => if k.readyList = [] then [] else .ready k.currentThread :: k.dispatched
  | .P _ => []
  | .turn =>
      match k.place? with
      | some (.P s) => if (k.semaphores s).value = 0 then k.dispatched else [.passed s]
      | _ => []
  | .V s => .V s :: (k.semaphores s).queue.head?.toList.map .ready
  | .Destroy s => (k.semaphores s).queue.map .ready
  | .Finish => .finish k.currentThread :: k.dispatched
  | .dispatch => k.dispatched

end Code

/-! ## What a step can be -/

/-- The statuses that a thread can have at a place. -/
def Thread.Fits (x : Thread κ) : Prop :=
  match x.status, x.place with
  | RUNNING, .code => True
  | RUNNING, .P _ => True
  | READY, .ThreadRoot => True
  | READY, .Yield => True
  | READY, .P _ => True
  | BLOCKED, .P _ => True
  | BLOCKED, .Finish => True
  | _, _ => False

/-- Every thread is in one place: the ready list holds those that are ready, and the queues hold
those that sleep in `P`. -/
structure Placed (k : Scheduling ι κ) : Prop where
  sound : k.aborted = false
  current : (k.threads k.currentThread).isSome
  fits : ∀ t x, k.threads t = some x → Thread.Fits x
  ready : ∀ t, t ∈ k.readyList ↔ ∃ place, k.threads t = some ⟨READY, place⟩
  readyNodup : k.readyList.Nodup
  queued : ∀ s t, t ∈ (k.semaphores s).queue ↔ k.threads t = some ⟨BLOCKED, .P s⟩
  queueNodup : ∀ s, (k.semaphores s).queue.Nodup
  running : ∀ t place, k.threads t = some ⟨RUNNING, place⟩ → t = k.currentThread
  doomed : ∀ t, k.threadToBeDestroyed = some t → k.threads t = some ⟨BLOCKED, .Finish⟩

variable [DecidableEq ι]

/-- The thread that has finished is deleted. -/
def deleted (k : Scheduling ι κ) : Scheduling ι κ :=
  { k with
    threads := fun t => if k.threadToBeDestroyed = some t then none else k.threads t
    threadToBeDestroyed := none }

/-- Where a thread goes on that is dispatched again. -/
def resumed : Place κ → Place κ
  | .Yield => .code
  | place => place

variable [DecidableEq κ]

/-- The moves that an action is made of, and what is seen of them. -/
inductive Move (k : Scheduling ι κ) : List (Event ι κ) → Scheduling ι κ → Prop
  | fork (t : ι) (hnew : k.threads t = none) :
      Move k [.ready t] { k with
        threads := Function.update k.threads t (some ⟨READY, .ThreadRoot⟩)
        readyList := k.readyList ++ [t] }
  | yield (hcode : k.threads k.currentThread = some ⟨RUNNING, .code⟩) :
      Move k [.ready k.currentThread] { k with
        threads := Function.update k.threads k.currentThread (some ⟨READY, .Yield⟩)
        readyList := k.readyList ++ [k.currentThread] }
  | enter (s : κ) (hcode : k.threads k.currentThread = some ⟨RUNNING, .code⟩) :
      Move k [] { k with
        threads := Function.update k.threads k.currentThread (some ⟨RUNNING, .P s⟩) }
  | pass (s : κ) (hloop : k.threads k.currentThread = some ⟨RUNNING, .P s⟩)
      (hvalue : 0 < (k.semaphores s).value) :
      Move k [.passed s] { k with
        threads := Function.update k.threads k.currentThread (some ⟨RUNNING, .code⟩)
        semaphores := Function.update k.semaphores s
          { k.semaphores s with value := (k.semaphores s).value - 1 } }
  | block (s : κ) (hloop : k.threads k.currentThread = some ⟨RUNNING, .P s⟩)
      (hvalue : (k.semaphores s).value = 0) :
      Move k [] { k with
        threads := Function.update k.threads k.currentThread (some ⟨BLOCKED, .P s⟩)
        semaphores := Function.update k.semaphores s
          { k.semaphores s with queue := (k.semaphores s).queue ++ [k.currentThread] } }
  | raise (s : κ) (hqueue : (k.semaphores s).queue = []) :
      Move k [.V s] { k with semaphores := Function.update k.semaphores s (k.semaphores s).V }
  /-- In `V`, or in `Destroy`. -/
  | wake (s : κ) (t : ι) (rest : List ι) (signal : Bool)
      (hqueue : (k.semaphores s).queue = t :: rest) :
      Move k ((if signal then [.V s] else []) ++ [.ready t]) { k with
        threads := Function.update k.threads t (some ⟨READY, .P s⟩)
        readyList := k.readyList ++ [t]
        semaphores := Function.update k.semaphores s
          ⟨(k.semaphores s).value + signal.toNat, rest⟩ }
  | finish (hcode : k.threads k.currentThread = some ⟨RUNNING, .code⟩) :
      Move k [.finish k.currentThread] { k with
        threads := Function.update k.threads k.currentThread (some ⟨BLOCKED, .Finish⟩)
        threadToBeDestroyed := some k.currentThread }
  | start (t : ι) (rest : List ι) (hparked : k.place? = none) (hready : k.readyList = t :: rest)
      (hroot : k.threads t = some ⟨READY, .ThreadRoot⟩) :
      Move k [.start t] { k with
        threads := Function.update k.threads t (some ⟨RUNNING, .code⟩)
        readyList := rest
        currentThread := t }
  | resume (t : ι) (rest : List ι) (place : Place κ) (hparked : k.place? = none)
      (hready : k.readyList = t :: rest) (hplace : k.threads t = some ⟨READY, place⟩)
      (hroot : place ≠ .ThreadRoot) :
      Move k [.resume t] (deleted { k with
        threads := Function.update k.threads t (some ⟨RUNNING, resumed place⟩)
        readyList := rest
        currentThread := t })

variable {k k' k'' : Scheduling ι κ} {tr : List (Event ι κ)}

section Places

omit [DecidableEq ι] [DecidableEq κ]

theorem place?_eq_some {place : Place κ} :
    k.place? = some place ↔ k.threads k.currentThread = some ⟨RUNNING, place⟩ := by
  unfold place?
  split
  · next p hp => rw [hp, Option.some.injEq, Option.some.injEq, Thread.mk.injEq, and_iff_right rfl]
  · next hno => exact iff_of_false (fun heq => by cases heq) fun heq => hno _ heq

theorem place?_eq_none :
    k.place? = none ↔ ∀ place, k.threads k.currentThread ≠ some ⟨RUNNING, place⟩ := by
  rw [Option.eq_none_iff_forall_ne_some]
  exact forall_congr' fun place => not_congr place?_eq_some

variable {t u : ι} {place : Place κ}

/-- A thread that runs is on no list. -/
theorem Placed.not_queued (h : Placed k) (ht : k.threads t = some ⟨RUNNING, place⟩) (s : κ) :
    t ∉ (k.semaphores s).queue := by
  rw [h.queued s t, ht]
  intro heq
  cases heq

theorem Placed.not_ready (h : Placed k) (ht : k.threads t = some ⟨RUNNING, place⟩) :
    t ∉ k.readyList := by
  rw [h.ready t, ht]
  rintro ⟨p, heq⟩
  cases heq

/-- Only a thread that has finished is deleted. -/
theorem Placed.not_doomed (h : Placed k) (ht : k.threads t ≠ some ⟨BLOCKED, .Finish⟩)
    (hu : k.threadToBeDestroyed = some u) : u ≠ t := by
  rintro rfl
  exact ht (h.doomed _ hu)

theorem mem_concat (hu : u ≠ t) {l : List ι} : u ∈ l ++ [t] ↔ u ∈ l := by
  rw [List.mem_append, List.mem_singleton, or_iff_left hu]

theorem mem_concat_self {l : List ι} : t ∈ l ++ [t] :=
  List.mem_append_right _ (List.mem_singleton_self t)

theorem nodup_concat {l : List ι} (hl : l.Nodup) (ht : t ∉ l) : (l ++ [t]).Nodup := by
  rw [← List.concat_eq_append]
  exact hl.concat ht

end Places

omit [DecidableEq κ] in
/-- A move of one thread keeps every thread in its place. -/
theorem Placed.move (h : Placed k) (t : ι) (x : Thread κ)
    (hthreads : k'.threads = Function.update k.threads t (some x))
    (haborted : k'.aborted = k.aborted) (hfits : Thread.Fits x)
    (hcurrent : k'.currentThread = k.currentThread ∨ k'.currentThread = t)
    (hrunning : x.status = RUNNING → t = k'.currentThread)
    (hothers : ∀ u place, u ≠ t → k.threads u = some ⟨RUNNING, place⟩ → u = k'.currentThread)
    (hready : ∀ u, u ≠ t → (u ∈ k'.readyList ↔ u ∈ k.readyList))
    (hreadyMoved : t ∈ k'.readyList ↔ x.status = READY) (hreadyNodup : k'.readyList.Nodup)
    (hqueued : ∀ s u, u ≠ t → (u ∈ (k'.semaphores s).queue ↔ u ∈ (k.semaphores s).queue))
    (hqueuedMoved : ∀ s, t ∈ (k'.semaphores s).queue ↔ x = ⟨BLOCKED, .P s⟩)
    (hqueueNodup : ∀ s, (k'.semaphores s).queue.Nodup)
    (hdoomed : ∀ u, k'.threadToBeDestroyed = some u →
      u ≠ t ∧ k.threadToBeDestroyed = some u ∨ u = t ∧ x = ⟨BLOCKED, .Finish⟩) : Placed k' := by
  have hself : k'.threads t = some x := by rw [hthreads, Function.update_self]
  have helse {u : ι} (hu : u ≠ t) : k'.threads u = k.threads u := by
    rw [hthreads, Function.update_of_ne hu]
  constructor
  · rw [haborted, h.sound]
  · by_cases heq : k'.currentThread = t
    · rw [heq, hself]
      rfl
    · rw [helse heq, hcurrent.resolve_right heq]
      exact h.current
  · intro u y hy
    by_cases hu : u = t
    · subst hu
      rw [hself] at hy
      cases hy
      exact hfits
    · exact h.fits u y (by rw [← helse hu, hy])
  · intro u
    by_cases hu : u = t
    · subst hu
      rw [hreadyMoved, hself]
      constructor
      · intro hstatus
        exact ⟨x.place, by rw [← hstatus]⟩
      · rintro ⟨place, hx⟩
        cases hx
        rfl
    · rw [hready u hu, h.ready u, helse hu]
  · exact hreadyNodup
  · intro s u
    by_cases hu : u = t
    · subst hu
      rw [hqueuedMoved, hself, Option.some.injEq]
    · rw [hqueued s u hu, h.queued s u, helse hu]
  · exact hqueueNodup
  · intro u place hu
    by_cases hut : u = t
    · subst hut
      rw [hself] at hu
      cases hu
      exact hrunning rfl
    · exact hothers u place hut (by rw [← helse hut, hu])
  · intro u hu
    rcases hdoomed u hu with ⟨hne, hold⟩ | ⟨rfl, hx⟩
    · rw [helse hne]
      exact h.doomed u hold
    · rw [hself, hx]

omit [DecidableEq ι] in
/-- The queues, when one semaphore is changed. -/
theorem queue_update (P : κ → List ι → Prop) {semaphores : κ → Semaphore ι} {s : κ}
    (semaphore : Semaphore ι) (hs : P s semaphore.queue)
    (hother : ∀ s', s' ≠ s → P s' (semaphores s').queue) (s' : κ) :
    P s' (Function.update semaphores s semaphore s').queue := by
  by_cases heq : s' = s
  · rw [heq, Function.update_self]
    exact hs
  · rw [Function.update_of_ne heq]
    exact hother s' heq

omit [DecidableEq κ] in
/-- The thread that has finished is on no list. -/
theorem Placed.deleted (h : Placed k)
    (hne : ∀ t, k.threadToBeDestroyed = some t → t ≠ k.currentThread) : Placed (deleted k) := by
  have helse {t : ι} {x : Thread κ} (hx : x ≠ ⟨BLOCKED, .Finish⟩) :
      k.deleted.threads t = some x ↔ k.threads t = some x := by
    unfold Scheduling.deleted
    dsimp only
    split_ifs with hdoomed
    · refine iff_of_false (fun heq => by cases heq) fun heq => hx ?_
      rw [h.doomed t hdoomed, Option.some.injEq] at heq
      exact heq.symm
    · exact Iff.rfl
  constructor
  · exact h.sound
  · show (if k.threadToBeDestroyed = some k.currentThread then none
      else k.threads k.currentThread).isSome
    rw [if_neg fun hdoomed => hne _ hdoomed rfl]
    exact h.current
  · intro t x hx
    unfold Scheduling.deleted at hx
    dsimp only at hx
    split_ifs at hx
    exact h.fits t x hx
  · intro t
    rw [show k.deleted.readyList = k.readyList from rfl, h.ready t]
    exact exists_congr fun place => (helse fun heq => by cases heq).symm
  · exact h.readyNodup
  · intro s t
    rw [helse fun heq => by cases heq]
    exact h.queued s t
  · exact h.queueNodup
  · intro t place ht
    exact h.running t place ((helse fun heq => by cases heq).mp ht)
  · intro t ht
    cases ht

/-- **A move keeps every thread in its place.** -/
theorem Move.placed (h : Placed k) (hm : Move k tr k') : Placed k' := by
  have running {place : Place κ} (hp : k.threads k.currentThread = some ⟨RUNNING, place⟩) :
      k.threads k.currentThread ≠ some ⟨BLOCKED, .Finish⟩ := by
    rw [hp]
    intro heq
    cases heq
  -- a thread that is dispatched
  have dispatch {t : ι} {rest : List ι} {place place' : Place κ} (hparked : k.place? = none)
      (hready : k.readyList = t :: rest) (hplace : k.threads t = some ⟨READY, place⟩)
      (hfits : Thread.Fits (⟨RUNNING, place'⟩ : Thread κ)) :
      Placed { k with
        threads := Function.update k.threads t (some ⟨RUNNING, place'⟩)
        readyList := rest
        currentThread := t } := by
    obtain ⟨hfirst, hrest⟩ := List.nodup_cons.mp (hready ▸ h.readyNodup)
    refine h.move t ⟨RUNNING, place'⟩ rfl rfl hfits (.inr rfl) (fun _ => rfl)
      (fun u p _ hu => ?_) (fun u hu => ?_) (iff_of_false hfirst fun heq => by cases heq) hrest
      (fun s u _ => Iff.rfl) (fun s => ?_) h.queueNodup
      (fun u hu => .inl ⟨h.not_doomed ?_ hu, hu⟩)
    · obtain rfl := h.running u p hu
      exact absurd hu (place?_eq_none.mp hparked p)
    · rw [hready, List.mem_cons, or_iff_right hu]
    · refine iff_of_false ?_ fun heq => by cases heq
      rw [h.queued s t, hplace]
      intro heq
      cases heq
    · rw [hplace]
      intro heq
      cases heq
  cases hm with
  | fork t hnew =>
      have hfree : t ∉ k.readyList := by
        rw [h.ready t, hnew]
        rintro ⟨p, heq⟩
        cases heq
      refine h.move t ⟨READY, .ThreadRoot⟩ rfl rfl trivial (.inl rfl) (fun heq => by cases heq)
        (fun u p _ hu => h.running u p hu) (fun u hu => mem_concat hu)
        (iff_of_true mem_concat_self rfl) (nodup_concat h.readyNodup hfree)
        (fun s u _ => Iff.rfl) (fun s => ?_) h.queueNodup
        (fun u hu => .inl ⟨h.not_doomed ?_ hu, hu⟩)
      · refine iff_of_false ?_ (fun heq => by cases heq)
        rw [h.queued s t, hnew]
        intro heq
        cases heq
      · rw [hnew]
        intro heq
        cases heq
  | yield hcode =>
      exact h.move k.currentThread ⟨READY, .Yield⟩ rfl rfl trivial (.inl rfl)
        (fun heq => by cases heq) (fun u p _ hu => h.running u p hu) (fun u hu => mem_concat hu)
        (iff_of_true mem_concat_self rfl) (nodup_concat h.readyNodup (h.not_ready hcode))
        (fun s u _ => Iff.rfl)
        (fun s => iff_of_false (h.not_queued hcode s) fun heq => by cases heq) h.queueNodup
        (fun u hu => .inl ⟨h.not_doomed (running hcode) hu, hu⟩)
  | enter s hcode =>
      exact h.move k.currentThread ⟨RUNNING, .P s⟩ rfl rfl trivial (.inl rfl) (fun _ => rfl)
        (fun u p _ hu => h.running u p hu) (fun u _ => Iff.rfl)
        (iff_of_false (h.not_ready hcode) fun heq => by cases heq) h.readyNodup
        (fun s u _ => Iff.rfl)
        (fun s => iff_of_false (h.not_queued hcode s) fun heq => by cases heq) h.queueNodup
        (fun u hu => .inl ⟨h.not_doomed (running hcode) hu, hu⟩)
  | pass s hloop hvalue =>
      have hqueue := queue_update (fun s' queue => queue = (k.semaphores s').queue)
        { k.semaphores s with value := (k.semaphores s).value - 1 } rfl fun _ _ => rfl
      refine h.move k.currentThread ⟨RUNNING, .code⟩ rfl rfl trivial (.inl rfl) (fun _ => rfl)
        (fun u p _ hu => h.running u p hu) (fun u _ => Iff.rfl)
        (iff_of_false (h.not_ready hloop) fun heq => by cases heq) h.readyNodup
        (fun s' u _ => ?_) (fun s' => ?_) (fun s' => ?_)
        (fun u hu => .inl ⟨h.not_doomed (running hloop) hu, hu⟩)
      · dsimp only
        rw [hqueue s']
      · dsimp only
        rw [hqueue s']
        exact iff_of_false (h.not_queued hloop s') fun heq => by cases heq
      · dsimp only
        rw [hqueue s']
        exact h.queueNodup s'
  | block s hloop hvalue =>
      refine h.move k.currentThread ⟨BLOCKED, .P s⟩ rfl rfl trivial (.inl rfl)
        (fun heq => by cases heq) (fun u p _ hu => h.running u p hu) (fun u _ => Iff.rfl)
        (iff_of_false (h.not_ready hloop) fun heq => by cases heq) h.readyNodup
        (fun s' u hu => ?_) ?_ ?_ (fun u hu => .inl ⟨h.not_doomed (running hloop) hu, hu⟩)
      · exact queue_update (fun s' queue => u ∈ queue ↔ u ∈ (k.semaphores s').queue) _
          (mem_concat hu) (fun _ _ => Iff.rfl) s'
      · refine queue_update (fun s' queue =>
          k.currentThread ∈ queue ↔ (⟨BLOCKED, .P s⟩ : Thread κ) = ⟨BLOCKED, .P s'⟩) _
          (iff_of_true mem_concat_self rfl) fun s' hs' => ?_
        refine iff_of_false (h.not_queued hloop s') fun heq => hs' ?_
        cases heq
        rfl
      · exact queue_update (fun _ queue => queue.Nodup) _
          (nodup_concat (h.queueNodup s) (h.not_queued hloop s)) fun s' _ => h.queueNodup s'
  | raise s hqueue =>
      have hqueue := queue_update (fun s' queue => queue = (k.semaphores s').queue)
        (k.semaphores s).V (by rw [Semaphore.V, hqueue]; rfl) fun _ _ => rfl
      refine ⟨h.sound, h.current, h.fits, h.ready, h.readyNodup, fun s' u => ?_, fun s' => ?_,
        h.running, h.doomed⟩
      · dsimp only
        rw [hqueue s']
        exact h.queued s' u
      · dsimp only
        rw [hqueue s']
        exact h.queueNodup s'
  | wake s t rest signal hqueue =>
      obtain ⟨hfirst, hrest⟩ := List.nodup_cons.mp (hqueue ▸ h.queueNodup s)
      have ht : k.threads t = some ⟨BLOCKED, .P s⟩ :=
        (h.queued s t).mp (hqueue ▸ List.mem_cons_self)
      have hnot : t ∉ k.readyList := by
        rw [h.ready t, ht]
        rintro ⟨p, heq⟩
        cases heq
      refine h.move t ⟨READY, .P s⟩ rfl rfl trivial (.inl rfl) (fun heq => by cases heq)
        (fun u p _ hu => h.running u p hu) (fun u hu => mem_concat hu)
        (iff_of_true mem_concat_self rfl) (nodup_concat h.readyNodup hnot)
        (fun s' u hu => ?_) (fun s' => ?_) ?_ (fun u hu => .inl ⟨h.not_doomed ?_ hu, hu⟩)
      · refine queue_update (fun s' queue => u ∈ queue ↔ u ∈ (k.semaphores s').queue) _ ?_
          (fun _ _ => Iff.rfl) s'
        rw [hqueue, List.mem_cons, or_iff_right hu]
      · refine iff_of_false ?_ fun heq => by cases heq
        refine queue_update (fun _ queue => t ∉ queue) _ hfirst (fun s' hs' => ?_) s'
        rw [h.queued s' t, ht]
        intro heq
        cases heq
        exact hs' rfl
      · exact queue_update (fun _ queue => queue.Nodup) _ hrest fun s' _ => h.queueNodup s'
      · rw [ht]
        intro heq
        cases heq
  | finish hcode =>
      exact h.move k.currentThread ⟨BLOCKED, .Finish⟩ rfl rfl trivial (.inl rfl)
        (fun heq => by cases heq) (fun u p _ hu => h.running u p hu) (fun u _ => Iff.rfl)
        (iff_of_false (h.not_ready hcode) fun heq => by cases heq) h.readyNodup
        (fun s u _ => Iff.rfl)
        (fun s => iff_of_false (h.not_queued hcode s) fun heq => by cases heq) h.queueNodup
        (fun u hu => .inr ⟨(Option.some.inj hu).symm, rfl⟩)
  | start t rest hparked hready hroot => exact dispatch hparked hready hroot trivial
  | resume t rest place hparked hready hplace hroot =>
      refine (dispatch hparked hready hplace ?_).deleted fun u hu => h.not_doomed ?_ hu
      · have hfits := h.fits t _ hplace
        cases place with
        | ThreadRoot => exact absurd rfl hroot
        | code => trivial
        | Yield => trivial
        | P s => trivial
        | Finish => exact hfits
      · show k.threads t ≠ _
        rw [hplace]
        intro heq
        cases heq

/-- Moves in a row. -/
inductive Moves : Scheduling ι κ → List (Event ι κ) → Scheduling ι κ → Prop
  | refl (k : Scheduling ι κ) : Moves k [] k
  | head {k k' k'' : Scheduling ι κ} {tr tr' : List (Event ι κ)} (hm : Move k tr k')
      (hms : Moves k' tr' k'') : Moves k (tr ++ tr') k''

theorem Moves.single (hm : Move k tr k') : Moves k tr k' := by
  rw [← List.append_nil tr]
  exact .head hm (.refl k')

theorem Moves.congr {tr' : List (Event ι κ)} (h : Moves k tr k') (htr : tr = tr') (hk : k' = k'') :
    Moves k tr' k'' := by
  rwa [← htr, ← hk]

/-- What a move keeps. -/
theorem Moves.placed (h : Placed k) (hms : Moves k tr k') : Placed k' := by
  induction hms with
  | refl => exact h
  | head hm _ ih => exact ih (hm.placed h)

section Places

omit [DecidableEq κ]

theorem put_eq {t : ι} (ht : (k.threads t).isSome) (x : Thread κ) :
    k.put t x = { k with threads := Function.update k.threads t (some x) } := if_pos ht

theorem readyToRun_eq {t : ι} {x : Thread κ} (ht : k.threads t = some x) :
    k.ReadyToRun t = { k with
      threads := Function.update k.threads t (some ⟨READY, x.place⟩)
      readyList := k.readyList ++ [t] } := by
  unfold ReadyToRun setStatus
  rw [ht]
  dsimp only
  rw [put_eq (by rw [ht]; rfl)]

/-- No thread is deleted twice, and none while it runs. -/
theorem destroy_eq (h : ∀ t, k.threadToBeDestroyed = some t →
    t ≠ k.currentThread ∧ k.threads t ≠ none) : k.destroy = k.deleted := by
  unfold destroy Scheduling.deleted
  split
  · next hnone =>
      rw [hnone]
      simp only [reduceCtorEq, if_false]
      rw [← hnone]
  · next t ht =>
      obtain ⟨hne, halloc⟩ := h t ht
      rw [if_neg fun hor => hor.elim hne halloc, ht]
      congr 1
      funext u
      by_cases hu : u = t
      · rw [hu, Function.update_self, if_pos rfl]
      · rw [Function.update_of_ne hu, if_neg fun heq => hu (Option.some.inj heq).symm]

end Places

/-- **The first of the ready list is dispatched.** -/
theorem dispatch_moves (h : Placed k) (hparked : k.place? = none) :
    Moves k k.dispatched k.dispatch := by
  unfold dispatched dispatch
  cases hready : k.readyList with
  | nil => exact .refl k
  | cons t rest =>
      obtain ⟨place, ht⟩ := (h.ready t).mp (hready ▸ List.mem_cons_self)
      have hput (p : Place κ) :
          ({ k with readyList := rest, currentThread := t }.put t ⟨RUNNING, p⟩) = { k with
            threads := Function.update k.threads t (some ⟨RUNNING, p⟩)
            readyList := rest
            currentThread := t } := put_eq (by show (k.threads t).isSome; rw [ht]; rfl) _
      have hfits := h.fits t _ ht
      -- the thread that has finished is another one, and is still there
      have hspared (p : Place κ) : ({ k with
            threads := Function.update k.threads t (some ⟨RUNNING, p⟩)
            readyList := rest
            currentThread := t } : Scheduling ι κ).destroy = deleted { k with
            threads := Function.update k.threads t (some ⟨RUNNING, p⟩)
            readyList := rest
            currentThread := t } := by
        refine destroy_eq fun u hu => ?_
        have hne : u ≠ t := by
          refine h.not_doomed ?_ hu
          rw [ht]
          intro heq
          cases heq
        refine ⟨hne, ?_⟩
        show Function.update k.threads t _ u ≠ none
        rw [Function.update_of_ne hne, h.doomed u hu]
        intro heq
        cases heq
      dsimp only
      unfold Run
      dsimp only
      rw [ht, Option.map_some]
      cases place with
      | ThreadRoot =>
          dsimp only
          rw [hput, if_pos rfl]
          exact .single (.start t rest hparked hready ht)
      | Yield =>
          dsimp only
          rw [hput, hspared, if_neg fun heq => by cases heq]
          exact .single (.resume t rest .Yield hparked hready ht fun heq => by cases heq)
      | P s =>
          dsimp only
          rw [hput, hspared, if_neg fun heq => by cases heq]
          exact .single (.resume t rest (.P s) hparked hready ht fun heq => by cases heq)
      | code => exact hfits.elim
      | Finish => exact hfits.elim

omit [DecidableEq ι] in
theorem dispatched_congr (hfirst : k'.readyList.head? = k.readyList.head?)
    (hthreads : ∀ t ∈ k.readyList, k'.threads t = k.threads t) : k'.dispatched = k.dispatched := by
  unfold dispatched
  cases hready : k.readyList with
  | nil =>
      rw [hready, List.head?_nil, List.head?_eq_none_iff] at hfirst
      rw [hfirst]
  | cons t rest =>
      rw [hready, List.head?_cons] at hfirst
      obtain ⟨rest', hready'⟩ := List.head?_eq_some_iff.mp hfirst
      rw [hready']
      dsimp only
      rw [hthreads t (hready ▸ List.mem_cons_self)]

/-- The current thread gives the processor away, and the next one gets it. -/
theorem Move.dispatch {x : Thread κ} (h : Placed k) (hm : Move k tr k') {place : Place κ}
    (hrunning : k.threads k.currentThread = some ⟨RUNNING, place⟩) (hx : x.status ≠ RUNNING)
    (hthreads : k'.threads = Function.update k.threads k.currentThread (some x))
    (hcurrent : k'.currentThread = k.currentThread)
    (hfirst : k'.readyList.head? = k.readyList.head?) :
    Moves k (tr ++ k.dispatched) k'.dispatch := by
  have hparked : k'.place? = none := by
    rw [place?_eq_none]
    intro p heq
    rw [hcurrent, hthreads, Function.update_self, Option.some.injEq] at heq
    exact hx (by rw [heq])
  have hsame : k'.dispatched = k.dispatched := by
    refine dispatched_congr hfirst fun t ht => ?_
    rw [hthreads, Function.update_of_ne]
    rintro rfl
    exact h.not_ready hrunning ht
  rw [← hsame]
  exact .head hm (dispatch_moves (hm.placed h) hparked)

/-- `Destroy` wakes the threads of the queue, one by one. -/
theorem destroy_moves {s : κ} {queue : List ι} (h : Placed k)
    (hqueue : (k.semaphores s).queue = queue) : Moves k (queue.map .ready) (k.Destroy s) := by
  induction queue generalizing k with
  | nil =>
      have hsame : k.Destroy s = k := by
        unfold Destroy setSemaphore
        rw [hqueue, List.foldl_nil, ← hqueue, Function.update_eq_self]
      rw [hsame]
      exact .refl k
  | cons t rest ih =>
      have hm := Move.wake (k := k) s t rest false hqueue
      have ht : k.threads t = some ⟨BLOCKED, .P s⟩ :=
        (h.queued s t).mp (hqueue ▸ List.mem_cons_self)
      have hrest := ih (hm.placed h) (by dsimp only; rw [Function.update_self])
      refine (Moves.head hm hrest).congr rfl ?_
      unfold Destroy
      rw [hqueue, List.foldl_cons, readyToRun_eq (show (k.setSemaphore s
        { k.semaphores s with queue := [] }).threads t = some ⟨BLOCKED, .P s⟩ from ht)]
      unfold setSemaphore
      dsimp only
      rw [Function.update_self, Function.update_idem]
      rfl

/-- `V`. -/
theorem v_moves (h : Placed k) (s : κ) : Moves k (events k (.V s)) (k.V s) := by
  have hevents : events k (.V s) = .V s :: (k.semaphores s).queue.head?.toList.map .ready := rfl
  rw [hevents]
  unfold V
  cases hqueue : (k.semaphores s).queue with
  | nil => exact .single (.raise s hqueue)
  | cons t rest =>
      have ht : (k.setSemaphore s (k.semaphores s).V).threads t = some ⟨BLOCKED, .P s⟩ :=
        (h.queued s t).mp (hqueue ▸ List.mem_cons_self)
      have hV : (k.semaphores s).V = ⟨(k.semaphores s).value + true.toNat, rest⟩ := by
        rw [Semaphore.V, hqueue]
        rfl
      dsimp only [List.head?_cons]
      rw [readyToRun_eq ht, hV]
      exact .single (.wake s t rest true hqueue)

/-- One turn of the `while` of `P`. -/
theorem turn_moves (h : Placed k) {s : κ} (hloop : k.threads k.currentThread = some ⟨RUNNING, .P s⟩)
    (hs : k.turn s = some k') : Moves k (events k .turn) k' := by
  have hput (semaphore : Semaphore ι) (x : Thread κ) :
      (k.setSemaphore s semaphore).put k.currentThread x = { k with
        threads := Function.update k.threads k.currentThread (some x)
        semaphores := Function.update k.semaphores s semaphore } :=
    put_eq (by show (k.threads k.currentThread).isSome; rw [hloop]; rfl) x
  unfold turn at hs
  obtain ⟨⟨semaphore, taken⟩, hP, hk'⟩ := Option.map_eq_some_iff.mp hs
  unfold events
  rw [place?_eq_some.mpr hloop]
  dsimp only at hk' ⊢
  rcases Semaphore.P_eq_some hP with ⟨rfl, hvalue, rfl⟩ | ⟨rfl, hvalue, rfl⟩
  · rw [if_neg (by decide)] at hk'
    rw [if_pos hvalue, ← hk']
    unfold Sleep
    rw [show (k.setSemaphore s _).currentThread = k.currentThread from rfl, hput]
    exact (Move.block s hloop hvalue).dispatch h hloop (fun heq => by cases heq) rfl rfl rfl
  · rw [if_pos rfl, hput] at hk'
    rw [if_neg (Nat.ne_of_gt hvalue), ← hk']
    exact .single (.pass s hloop hvalue)

/-- `Yield`. -/
theorem yield_moves (h : Placed k) (hcode : k.threads k.currentThread = some ⟨RUNNING, .code⟩) :
    Moves k (events k .Yield) k.Yield := by
  unfold events Yield
  cases hready : k.readyList with
  | nil =>
      rw [if_pos rfl]
      exact .refl k
  | cons next rest =>
      have hyield := (Move.yield hcode).dispatch h hcode (fun heq => by cases heq) rfl rfl
        (by rw [hready]; rfl)
      rw [if_neg (List.cons_ne_nil _ _)]
      refine hyield.congr rfl ?_
      dsimp only
      rw [put_eq (by show (k.threads k.currentThread).isSome; rw [hcode]; rfl),
        readyToRun_eq (Function.update_self ..), Function.update_idem]
      unfold dispatch
      rw [hready]
      rfl

/-- **What an action is made of.** -/
theorem step_moves (h : Placed k) {a : Action ι κ} (hs : step k a = some k') :
    Moves k (events k a) k' := by
  unfold step at hs
  split at hs
  · next t hplace =>
      split_ifs at hs with hnew
      cases hs
      rw [readyToRun_eq (Function.update_self ..), Function.update_idem]
      exact .single (.fork t hnew)
  · next hplace =>
      cases hs
      exact yield_moves h (place?_eq_some.mp hplace)
  · next s hplace =>
      cases hs
      have hcode := place?_eq_some.mp hplace
      rw [put_eq (by rw [hcode]; rfl)]
      exact .single (.enter s hcode)
  · next s hplace => exact turn_moves h (place?_eq_some.mp hplace) hs
  · next s hplace =>
      cases hs
      exact v_moves h s
  · next s hplace =>
      cases hs
      exact v_moves h s
  · next s hplace =>
      cases hs
      exact destroy_moves h rfl
  · next hplace =>
      cases hs
      have hcode := place?_eq_some.mp hplace
      have hfinish := (Move.finish hcode).dispatch h hcode (fun heq => by cases heq) rfl rfl rfl
      unfold Finish Sleep
      rw [put_eq (by show (k.threads k.currentThread).isSome; rw [hcode]; rfl)]
      exact hfinish
  · next hplace =>
      cases hs
      exact dispatch_moves h hplace
  · cases hs

/-! ## Every run -/

variable {main : ι} {initialValue : κ → ℕ}

section Initial

omit [DecidableEq κ]

theorem initial_threads (t : ι) : (initial main initialValue : Scheduling ι κ).threads t
    = if t = main then some ⟨RUNNING, .code⟩ else none :=
  Function.update_apply (fun _ => none) main _ t

/-- Nothing but `main` runs, and nothing else is there. -/
theorem initial_running (t : ι) {x : Thread κ} (hx : x.status ≠ RUNNING) :
    (initial main initialValue : Scheduling ι κ).threads t ≠ some x := by
  intro heq
  rw [initial_threads] at heq
  split_ifs at heq
  cases heq
  exact hx rfl

theorem Placed.initial (main : ι) (initialValue : κ → ℕ) :
    Placed (initial main initialValue : Scheduling ι κ) := by
  refine ⟨rfl, ?_, fun t x hx => ?_, fun t => ?_, List.nodup_nil, fun s t => ?_,
    fun s => List.nodup_nil, fun t p ht => ?_, fun t ht => by cases ht⟩
  · rw [show (Scheduling.initial main initialValue : Scheduling ι κ).currentThread = main from rfl,
      initial_threads, if_pos rfl]
    rfl
  · rw [initial_threads] at hx
    split_ifs at hx
    cases hx
    trivial
  · exact iff_of_false List.not_mem_nil fun hready => hready.elim fun p =>
      initial_running t fun heq => by cases heq
  · exact iff_of_false List.not_mem_nil (initial_running t fun heq => by cases heq)
  · rw [initial_threads] at ht
    split_ifs at ht with heq
    exact heq

end Initial

/-- **The rule for moves.** What every move keeps, with what is seen of it, is kept by every run. -/
theorem Placed.run (Inv : List (Event ι κ) → Scheduling ι κ → Prop) (h : Placed k) (h0 : Inv [] k)
    (hmove : ∀ {tr es k k'}, Placed k → Inv tr k → Move k es k' → Inv (tr ++ es) k')
    {as : List (Action ι κ)} (hrun : exec step k as = some k') :
    Placed k' ∧ Inv (trace step events k as) k' := by
  refine exec_trace (fun tr k => Placed k ∧ Inv tr k) ⟨h, h0⟩ (fun tr k a k' hk hs => ?_) hrun
  obtain ⟨hplaced, hinv⟩ := hk
  have hms := step_moves hplaced hs
  refine ⟨hms.placed hplaced, ?_⟩
  clear hs
  generalize events k a = es at hms ⊢
  induction hms generalizing tr with
  | refl =>
      rw [List.append_nil]
      exact hinv
  | head hm hms ih =>
      rw [← List.append_assoc]
      exact ih _ (hm.placed hplaced) (hmove hplaced hinv hm)

/-- **Every thread is in one place.** After every run no `ASSERT` has failed, and no thread was used
that is not allocated. The ready list holds the threads that are ready, once each; the queue of a
semaphore those that sleep in its `P`, once each; at most the current thread runs; and the thread
that is to be destroyed has finished, and has not been deleted yet. Whoever leaves one place is put
into another before the processor changes hands. -/
theorem threads_placed {as : List (Action ι κ)}
    (h : exec step (initial main initialValue) as = some k) :
    k.aborted = false ∧ k.readyList.Nodup ∧ (∀ s, (k.semaphores s).queue.Nodup)
      ∧ (k.threads k.currentThread).isSome
      ∧ (∀ t, t ∈ k.readyList ↔ (k.threads t).map Thread.status = some READY)
      ∧ (∀ s t, t ∈ (k.semaphores s).queue ↔ k.threads t = some ⟨BLOCKED, .P s⟩)
      ∧ (∀ t, k.threadToBeDestroyed = some t → k.threads t = some ⟨BLOCKED, .Finish⟩)
      ∧ ∀ t x, k.threads t = some x →
        Thread.Fits x ∧ (x.status = RUNNING → t = k.currentThread) := by
  obtain ⟨hplaced, -⟩ := (Placed.initial main initialValue).run (fun _ _ => True) trivial
    (fun _ _ _ => trivial) h
  refine ⟨hplaced.sound, hplaced.readyNodup, hplaced.queueNodup, hplaced.current, fun t => ?_,
    hplaced.queued, hplaced.doomed, fun t x hx => ⟨hplaced.fits t x hx, fun hstatus => ?_⟩⟩
  · rw [hplaced.ready t, Option.map_eq_some_iff]
    constructor
    · rintro ⟨p, ht⟩
      exact ⟨_, ht, rfl⟩
    · rintro ⟨x, ht, hx⟩
      exact ⟨x.place, by rw [ht, ← hx]⟩
  · refine hplaced.running t x.place ?_
    rw [hx, ← hstatus]

/-- `main` waits for the thread that it forks, which finishes. -/
def waitForOne : List (Action ℕ Unit) := [.Fork 1, .P (), .turn, .V (), .Finish, .turn]

/-- The forked thread is deleted, and `main` runs. -/
theorem threads_placed_waitForOne :
    ∃ k : Scheduling ℕ Unit, exec step (initial 0 fun _ => 0) waitForOne = some k
      ∧ k.aborted = false ∧ k.currentThread = 0 ∧ k.threads 1 = none := by
  obtain ⟨k, hrun, hcurrent, hnone⟩ : ∃ k : Scheduling ℕ Unit,
      exec step (initial 0 fun _ => 0) waitForOne = some k ∧ k.currentThread = 0
        ∧ k.threads 1 = none := ⟨_, rfl, rfl, rfl⟩
  exact ⟨k, hrun, (threads_placed hrun).1, hcurrent, hnone⟩

end Scheduling

end LoadBalancer.NachOS
