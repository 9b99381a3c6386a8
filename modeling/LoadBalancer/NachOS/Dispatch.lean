/-
What the scheduler owes the threads.

A `P` waits in a `while`, so a thread that is woken may find the value gone; but nothing is lost:
while threads sleep at a semaphore, each unit of its value has a woken thread that is still to test
it ([`wakeups_kept`]). The ready list is served in order ([`dispatched_in_order`]). What is not kept
is the promise of `Finish` that `Run` will delete the thread ([`carcasses_deleted_iff`]).
-/
import LoadBalancer.NachOS.Scheduler

set_option autoImplicit false

namespace LoadBalancer.NachOS.Scheduling

open LoadBalancer.Transition LoadBalancer.Events ThreadStatus

variable {ι κ : Type} [DecidableEq ι] [DecidableEq κ]

/-! ## Wake-ups -/

/-- How many threads are ready that were woken in the `P` of a semaphore. -/
def woken (k : Scheduling ι κ) (s : κ) : ℕ :=
  k.readyList.countP fun t => k.threads t = some ⟨READY, .P s⟩

/-- Whether the current thread is about to test the value. -/
def testing (k : Scheduling ι κ) (s : κ) : ℕ :=
  if k.threads k.currentThread = some ⟨RUNNING, .P s⟩ then 1 else 0

/-- While threads sleep at a semaphore, its value is no more than the threads that will test it. -/
def Owed (k : Scheduling ι κ) : Prop :=
  ∀ s, (k.semaphores s).queue ≠ [] → (k.semaphores s).value ≤ woken k s + testing k s

variable {k k' : Scheduling ι κ} {tr es : List (Event ι κ)}

section Counts

omit [DecidableEq ι]

variable {s : κ}

/-- The threads that are ready are not changed. -/
theorem woken_le (hready : k'.readyList = k.readyList)
    (h : ∀ t ∈ k.readyList, k'.threads t = k.threads t) : woken k s ≤ woken k' s := by
  unfold woken
  rw [hready]
  exact (List.countP_congr fun t ht => by rw [h t ht]).le

/-- One more thread is ready. -/
theorem woken_concat {t : ι} {x : Thread κ} (hready : k'.readyList = k.readyList ++ [t])
    (h : ∀ u ∈ k.readyList, k'.threads u = k.threads u) (ht : k'.threads t = some x) :
    woken k' s = woken k s + if x = ⟨READY, .P s⟩ then 1 else 0 := by
  have hold : woken k s = k.readyList.countP fun u => k'.threads u = some ⟨READY, .P s⟩ :=
    List.countP_congr fun u hu => by rw [h u hu]
  rw [hold]
  unfold woken
  rw [hready, List.countP_append, List.countP_singleton, ht]
  simp only [Option.some.injEq, decide_eq_true_eq]

/-- The first of the ready list is taken. -/
theorem woken_cons {t : ι} {rest : List ι} {place : Place κ} (hready : k.readyList = t :: rest)
    (ht : k.threads t = some ⟨READY, place⟩) (hready' : k'.readyList = rest)
    (h : ∀ u ∈ rest, k'.threads u = k.threads u) :
    woken k s = woken k' s + if place = .P s then 1 else 0 := by
  have hnew : woken k' s = rest.countP fun u => k.threads u = some ⟨READY, .P s⟩ := by
    unfold woken
    rw [hready']
    exact List.countP_congr fun u hu => by rw [h u hu]
  rw [hnew]
  unfold woken
  rw [hready, List.countP_cons, ht]
  simp only [Option.some.injEq, Thread.mk.injEq, true_and, decide_eq_true_eq]

theorem testing_of_eq (h : k.threads k.currentThread = some ⟨RUNNING, .P s⟩) : testing k s = 1 :=
  if_pos h

theorem testing_of_ne (h : k.threads k.currentThread ≠ some ⟨RUNNING, .P s⟩) : testing k s = 0 :=
  if_neg h

/-- The current thread still tests the value, if it did. -/
theorem testing_le (h : k.threads k.currentThread = some ⟨RUNNING, .P s⟩ →
    k'.threads k'.currentThread = some ⟨RUNNING, .P s⟩) : testing k s ≤ testing k' s := by
  by_cases htest : k.threads k.currentThread = some ⟨RUNNING, .P s⟩
  · rw [testing_of_eq htest, testing_of_eq (h htest)]
  · rw [testing_of_ne htest]
    exact Nat.zero_le _

/-- A semaphore that is not changed, and no fewer threads that will test its value. -/
theorem Owed.keep (h : Owed k) (hsame : k'.semaphores s = k.semaphores s)
    (hle : woken k s + testing k s ≤ woken k' s + testing k' s) :
    (k'.semaphores s).queue ≠ [] → (k'.semaphores s).value ≤ woken k' s + testing k' s := by
  rw [hsame]
  exact fun hne => (h s hne).trans hle

end Counts

/-- **A move leaves no thread asleep beside a value.** -/
theorem Owed.move (hp : Placed k) (h : Owed k) (hm : Move k es k') : Owed k' := by
  -- a thread that is changed and was not ready
  have others {t : ι} (ht : t ∉ k.readyList) (x : Thread κ) :
      ∀ u ∈ k.readyList, Function.update k.threads t (some x) u = k.threads u := by
    intro u hu
    refine Function.update_of_ne ?_ ..
    rintro rfl
    exact ht hu
  -- what the current thread does instead of testing the value
  have elsewhere {place : Place κ} {s : κ}
      (hrun : k.threads k.currentThread = some ⟨RUNNING, place⟩) (hne : place ≠ .P s) :
      k.threads k.currentThread ≠ some ⟨RUNNING, .P s⟩ := by
    rw [hrun]
    intro heq
    cases heq
    exact hne rfl
  intro s'
  cases hm with
  | fork t hnew =>
      have hfree : t ∉ k.readyList := by
        rw [hp.ready t, hnew]
        rintro ⟨p, heq⟩
        cases heq
      have hcurrent : k.currentThread ≠ t := by
        intro heq
        have halloc := hp.current
        rw [heq, hnew] at halloc
        cases halloc
      refine h.keep rfl (Nat.add_le_add ?_ (testing_le fun htest => ?_))
      · exact (Nat.le_add_right _ _).trans
          (woken_concat rfl (others hfree _) (Function.update_self ..)).ge
      · exact (Function.update_of_ne hcurrent ..).trans htest
  | yield hcode =>
      refine h.keep rfl (Nat.add_le_add ?_ (testing_le fun htest => ?_))
      · exact (Nat.le_add_right _ _).trans
          (woken_concat rfl (others (hp.not_ready hcode) _) (Function.update_self ..)).ge
      · exact absurd htest (elsewhere hcode fun heq => by cases heq)
  | enter s hcode =>
      refine h.keep rfl (Nat.add_le_add ?_ (testing_le fun htest => ?_))
      · exact woken_le rfl (others (hp.not_ready hcode) _)
      · exact absurd htest (elsewhere hcode fun heq => by cases heq)
  | pass s hloop hvalue =>
      have hready := hp.not_ready hloop
      by_cases hs : s' = s
      · subst hs
        intro hqueue
        dsimp only at hqueue ⊢
        rw [Function.update_self] at hqueue ⊢
        have hle := h s' hqueue
        rw [testing_of_eq hloop] at hle
        exact le_trans (show (k.semaphores s').value - 1 ≤ woken k s' by omega)
          (Nat.le_add_right_of_le (woken_le rfl (others hready _)))
      · refine h.keep (Function.update_of_ne hs ..) (Nat.add_le_add ?_ (testing_le fun htest => ?_))
        · exact woken_le rfl (others hready _)
        · exact absurd htest (elsewhere hloop fun heq => hs (by cases heq; rfl))
  | block s hloop hvalue =>
      have hready := hp.not_ready hloop
      by_cases hs : s' = s
      · subst hs
        intro _
        dsimp only
        rw [Function.update_self, hvalue]
        exact Nat.zero_le _
      · refine h.keep (Function.update_of_ne hs ..) (Nat.add_le_add ?_ (testing_le fun htest => ?_))
        · exact woken_le rfl (others hready _)
        · exact absurd htest (elsewhere hloop fun heq => hs (by cases heq; rfl))
  | raise s hqueue =>
      by_cases hs : s' = s
      · subst hs
        intro hno
        dsimp only at hno
        rw [Function.update_self, Semaphore.V, hqueue] at hno
        exact absurd rfl hno
      · exact h.keep (Function.update_of_ne hs ..) le_rfl
  | wake s t rest signal hqueue =>
      have ht : k.threads t = some ⟨BLOCKED, .P s⟩ :=
        (hp.queued s t).mp (hqueue ▸ List.mem_cons_self)
      have hready : t ∉ k.readyList := by
        rw [hp.ready t, ht]
        rintro ⟨p, heq⟩
        cases heq
      have hcurrent (htest : k.threads k.currentThread = some ⟨RUNNING, .P s'⟩) :
          Function.update k.threads t (some ⟨READY, .P s⟩) k.currentThread
            = some ⟨RUNNING, .P s'⟩ := by
        rw [Function.update_of_ne ?_, htest]
        intro heq
        rw [heq, ht] at htest
        cases htest
      by_cases hs : s' = s
      · subst hs
        intro _
        have hle := h s' (by rw [hqueue]; exact List.cons_ne_nil _ _)
        have hsignal : signal.toNat ≤ 1 := Bool.toNat_le signal
        refine le_trans ?_ (Nat.add_le_add
          (woken_concat rfl (others hready _) (Function.update_self ..)).ge (testing_le hcurrent))
        dsimp only
        rw [Function.update_self, if_pos rfl]
        dsimp only
        omega
      · refine h.keep (Function.update_of_ne hs ..) (Nat.add_le_add ?_ (testing_le hcurrent))
        exact (Nat.le_add_right _ _).trans
          (woken_concat rfl (others hready _) (Function.update_self ..)).ge
  | finish hcode =>
      refine h.keep rfl (Nat.add_le_add ?_ (testing_le fun htest => ?_))
      · exact woken_le rfl (others (hp.not_ready hcode) _)
      · exact absurd htest (elsewhere hcode fun heq => by cases heq)
  | start t rest hparked hready hroot =>
      obtain ⟨hfirst, -⟩ := List.nodup_cons.mp (hready ▸ hp.readyNodup)
      refine h.keep rfl (Nat.add_le_add ?_ (testing_le fun htest => ?_))
      · refine (woken_cons hready hroot rfl fun u hu => ?_).le
        refine Function.update_of_ne ?_ ..
        rintro rfl
        exact hfirst hu
      · exact absurd htest (place?_eq_none.mp hparked _)
  | resume t rest place hparked hready hplace hroot =>
      obtain ⟨hfirst, -⟩ := List.nodup_cons.mp (hready ▸ hp.readyNodup)
      have spared {u : ι} (hu : u ∈ k.readyList) : k.threadToBeDestroyed ≠ some u := by
        intro hdoomed
        obtain ⟨p, hp'⟩ := (hp.ready u).mp hu
        rw [hp.doomed u hdoomed] at hp'
        cases hp'
      refine h.keep rfl ?_
      rw [testing_of_ne (place?_eq_none.mp hparked _), Nat.add_zero]
      refine (woken_cons hready hplace rfl fun u hu => ?_).le.trans (Nat.add_le_add_left ?_ _)
      · have hmem : u ∈ k.readyList := hready ▸ List.mem_cons_of_mem _ hu
        refine (if_neg (spared hmem)).trans (Function.update_of_ne ?_ ..)
        rintro rfl
        exact hfirst hu
      · by_cases hP : place = .P s'
        · subst hP
          have hmem : t ∈ k.readyList := hready ▸ List.mem_cons_self
          have htest : Function.update k.threads t (some ⟨RUNNING, resumed (.P s')⟩) t
              = some ⟨RUNNING, .P s'⟩ := Function.update_self ..
          rw [if_pos rfl, testing_of_eq ((if_neg (spared hmem)).trans htest)]
        · rw [if_neg hP]
          exact Nat.zero_le _

/-- What is seen of the semaphores. -/
theorem Move.counts (hm : Move k es k') (s : κ) :
    (k.semaphores s).value + es.count (.V s) = (k'.semaphores s).value + es.count (.passed s) := by
  cases hm with
  | pass s' hloop hvalue =>
      by_cases hs : s = s'
      · subst hs
        simp only [Function.update_self, List.count_singleton, beq_iff_eq, reduceCtorEq, if_false,
          if_true]
        omega
      · simp [Function.update_of_ne hs, Ne.symm hs]
  | block s' hloop hvalue =>
      by_cases hs : s = s'
      · subst hs
        simp
      · simp [Function.update_of_ne hs]
  | raise s' hqueue =>
      by_cases hs : s = s'
      · subst hs
        simp [Semaphore.V]
      · simp [Function.update_of_ne hs, Ne.symm hs]
  | wake s' t rest signal hqueue =>
      by_cases hs : s = s'
      · subst hs
        cases signal <;> simp
      · cases signal <;> simp [Function.update_of_ne hs, Ne.symm hs]
  | resume t rest place hparked hready hplace hroot => simp [deleted]
  | _ => simp

/-- **No wake-up is lost.** After every run, the value of a semaphore is its initial one and the
calls of `V`, less the calls of `P` that have returned. While threads sleep in its `P`, there are as
many that were woken and will test the value again; so when no thread can go on before an interrupt
comes, every thread has finished or sleeps at a semaphore whose value is zero. The value is tested
again by whoever is woken, so that a unit that was taken by another thread is not counted twice. -/
theorem wakeups_kept {main : ι} {initialValue : κ → ℕ} {as : List (Action ι κ)}
    (h : exec step (initial main initialValue) as = some k) :
    (∀ s, initialValue s + (trace step events (initial main initialValue) as).count (.V s)
        = (k.semaphores s).value
          + (trace step events (initial main initialValue) as).count (.passed s))
      ∧ (∀ s, (k.semaphores s).queue ≠ [] → (k.semaphores s).value ≤ woken k s + testing k s)
      ∧ (k.place? = none → k.readyList = [] → ∀ t x, k.threads t = some x →
        x.place = .Finish ∨ ∃ s, x.place = .P s ∧ (k.semaphores s).value = 0) := by
  obtain ⟨hplaced, hcounts, howed⟩ := (Placed.initial main initialValue).run
    (fun tr k => (∀ s, initialValue s + tr.count (.V s)
      = (k.semaphores s).value + tr.count (.passed s)) ∧ Owed k)
    ⟨fun s => rfl, fun s hne => absurd rfl hne⟩
    (fun hp hinv hm => ⟨fun s => by
      have hold := hinv.1 s
      have hnew := hm.counts s
      rw [List.count_append, List.count_append]
      omega, hinv.2.move hp hm⟩) h
  refine ⟨hcounts, howed, fun hparked hready t x ht => ?_⟩
  obtain ⟨status, place⟩ := x
  have hfits := hplaced.fits t _ ht
  cases status with
  | RUNNING =>
      obtain rfl := hplaced.running t place ht
      exact absurd ht (place?_eq_none.mp hparked place)
  | READY =>
      have hmem := (hplaced.ready t).mpr ⟨place, ht⟩
      rw [hready] at hmem
      exact absurd hmem List.not_mem_nil
  | BLOCKED =>
      cases place with
      | Finish => exact .inl rfl
      | P s =>
          refine .inr ⟨s, rfl, Nat.eq_zero_of_le_zero ?_⟩
          have hmem := (hplaced.queued s t).mpr ht
          have hle := howed s (List.ne_nil_of_mem hmem)
          rw [testing_of_ne (place?_eq_none.mp hparked _), woken, hready] at hle
          exact hle
      | ThreadRoot => exact hfits.elim
      | code => exact hfits.elim
      | Yield => exact hfits.elim

/-- `main` sleeps, and the thread that it forked takes the value that `main` was woken for. -/
def overtaken : List (Action ℕ Unit) :=
  [.Fork 1, .P (), .turn, .V (), .P (), .turn, .P (), .turn, .turn]

/-- Both sleep then, and the value is zero. -/
theorem wakeups_kept_overtaken :
    ∃ k : Scheduling ℕ Unit, exec step (initial 0 fun _ => 0) overtaken = some k
      ∧ k.threads 0 = some ⟨BLOCKED, .P ()⟩ ∧ k.threads 1 = some ⟨BLOCKED, .P ()⟩
      ∧ (k.semaphores ()).value = 0 := by
  obtain ⟨k, hrun, hmain, hforked, hparked, hready⟩ : ∃ k : Scheduling ℕ Unit,
      exec step (initial 0 fun _ => 0) overtaken = some k
        ∧ k.threads 0 = some ⟨BLOCKED, .P ()⟩ ∧ k.threads 1 = some ⟨BLOCKED, .P ()⟩
        ∧ k.place? = none ∧ k.readyList = [] := ⟨_, rfl, rfl, rfl, rfl, rfl⟩
  obtain hfinish | ⟨s, -, hvalue⟩ := (wakeups_kept hrun).2.2 hparked hready 0 _ hmain
  · cases hfinish
  · exact ⟨k, hrun, hmain, hforked, hvalue⟩

/-! ## The order -/

/-- The thread that becomes ready. -/
def readied : Event ι κ → Option ι
  | .ready t => some t
  | _ => none

/-- The thread that is dispatched. -/
def ran : Event ι κ → Option ι
  | .start t => some t
  | .resume t => some t
  | _ => none

/-- The ready list is a queue. -/
theorem Move.queue (hm : Move k es k') :
    k.readyList ++ es.filterMap readied = es.filterMap ran ++ k'.readyList := by
  cases hm with
  | wake s t rest signal hqueue =>
      cases signal with
      | false => rfl
      | true => rfl
  | start t rest hparked hready hroot =>
      rw [hready]
      exact List.append_nil _
  | resume t rest place hparked hready hplace hroot =>
      rw [hready]
      exact List.append_nil _
  | fork t hnew => rfl
  | yield hcode => rfl
  | enter s hcode => exact List.append_nil _
  | pass s hloop hvalue => exact List.append_nil _
  | block s hloop hvalue => exact List.append_nil _
  | raise s hqueue => exact List.append_nil _
  | finish hcode => exact List.append_nil _

/-- **The threads are dispatched in the order in which they became ready.** In every run that goes
on from a state that was reached, those that were ready at its beginning are the first to be
dispatched, in the order of the ready list; so none waits for more of them than stand before it. The
ready list is only appended to at its end and only served at its front. -/
theorem dispatched_in_order {main : ι} {initialValue : κ → ℕ} {as bs : List (Action ι κ)}
    (h : exec step (initial main initialValue) as = some k) (hrun : exec step k bs = some k') :
    k.readyList ++ (trace step events k bs).filterMap readied
        = (trace step events k bs).filterMap ran ++ k'.readyList
      ∧ ∀ i < k.readyList.length, i < ((trace step events k bs).filterMap ran).length →
        ((trace step events k bs).filterMap ran)[i]? = k.readyList[i]? := by
  obtain ⟨hplaced, -⟩ := (Placed.initial main initialValue).run (fun _ _ => True) trivial
    (fun _ _ _ => trivial) h
  obtain ⟨-, hqueue⟩ := hplaced.run
    (fun tr k' => k.readyList ++ tr.filterMap readied = tr.filterMap ran ++ k'.readyList)
    (List.append_nil _) (fun _ hinv hm => by
      rw [List.filterMap_append, List.filterMap_append, ← List.append_assoc, hinv,
        List.append_assoc, hm.queue, List.append_assoc]) hrun
  refine ⟨hqueue, fun i hi hran => ?_⟩
  have hleft := congrArg (·[i]?) hqueue
  rw [List.getElem?_append_left hi, List.getElem?_append_left hran] at hleft
  exact hleft.symm

/-- Two threads that `main` forks, and two that yield. -/
theorem dispatched_in_order_twoThreads :
    ∃ k k' : Scheduling ℕ Unit,
      exec step (initial 0 fun _ => 0) [.Fork 1, .Fork 2] = some k
        ∧ exec step k [.Yield, .Yield] = some k' ∧ k.readyList = [1, 2]
        ∧ ((trace step events k [.Yield, .Yield]).filterMap ran)[1]? = some 2 := by
  obtain ⟨k, k', hfork, hyield, hready, hlength⟩ : ∃ k k' : Scheduling ℕ Unit,
      exec step (initial 0 fun _ => 0) [.Fork 1, .Fork 2] = some k
        ∧ exec step k [.Yield, .Yield] = some k' ∧ k.readyList = [1, 2]
        ∧ ((trace step events k [.Yield, .Yield]).filterMap ran).length = 2 :=
    ⟨_, _, rfl, rfl, rfl, rfl⟩
  refine ⟨k, k', hfork, hyield, hready, ?_⟩
  rw [(dispatched_in_order hfork hyield).2 1 (by rw [hready]; decide) (by rw [hlength]; decide),
    hready]
  rfl

/-! ## The threads that have finished -/

def finishes : Event ι κ → Prop
  | .finish _ => True
  | _ => False

def resumes : Event ι κ → Prop
  | .resume _ => True
  | _ => False

/-- Every thread that has finished is deleted, or will be by the next `Run` of an older thread. -/
def Cleared (k : Scheduling ι κ) : Prop :=
  ∀ t, k.threads t = some ⟨BLOCKED, .Finish⟩ → k.threadToBeDestroyed = some t

/-- What a move has to do with the threads that have finished. -/
def Tracked (tr : List (Event ι κ)) (k : Scheduling ι κ) : Prop :=
  (k.threadToBeDestroyed ≠ none ↔ Pending finishes resumes tr)
    ∧ (Cleared k ↔ Separated finishes resumes tr)

omit [DecidableEq κ] in
/-- A move of a thread that has not finished, to a place where it has not. -/
theorem Tracked.keep (h : Tracked tr k) {t : ι} {x : Thread κ}
    (hevents : ∀ e ∈ es, ¬ finishes e ∧ ¬ resumes e)
    (hold : k.threads t ≠ some ⟨BLOCKED, .Finish⟩) (hnew : x ≠ ⟨BLOCKED, .Finish⟩)
    (hthreads : k'.threads = Function.update k.threads t (some x))
    (hdoomed : k'.threadToBeDestroyed = k.threadToBeDestroyed) : Tracked (tr ++ es) k' := by
  have hsame (u : ι) : k'.threads u = some ⟨BLOCKED, .Finish⟩
      ↔ k.threads u = some ⟨BLOCKED, .Finish⟩ := by
    rw [hthreads]
    by_cases hu : u = t
    · rw [hu, Function.update_self]
      exact iff_of_false (fun heq => hnew (Option.some.inj heq)) hold
    · rw [Function.update_of_ne hu]
  constructor
  · rw [hdoomed, pending_append hevents]
    exact h.1
  · rw [separated_append fun e he => (hevents e he).1, ← h.2]
    unfold Cleared
    rw [hdoomed]
    exact forall_congr' fun u => imp_congr_left (hsame u)

/-- **A move.** -/
theorem Tracked.move (hp : Placed k) (h : Tracked tr k) (hm : Move k es k') :
    Tracked (tr ++ es) k' := by
  have ne {t : ι} {x y : Thread κ} (ht : k.threads t = some x) (hxy : x ≠ y) :
      k.threads t ≠ some y := by
    rw [ht]
    exact fun heq => hxy (Option.some.inj heq)
  have quiet {e : Event ι κ} (hA : ¬ finishes e) (hB : ¬ resumes e) :
      ∀ e' ∈ [e], ¬ finishes e' ∧ ¬ resumes e' := by
    intro e' he
    rw [List.mem_singleton.mp he]
    exact ⟨hA, hB⟩
  have none_seen : ∀ e ∈ ([] : List (Event ι κ)), ¬ finishes e ∧ ¬ resumes e :=
    fun e he => absurd he List.not_mem_nil
  cases hm with
  | fork t hnew =>
      refine h.keep (quiet id id) ?_
        (fun heq => by cases heq) rfl rfl
      rw [hnew]
      exact fun heq => by cases heq
  | yield hcode =>
      exact h.keep (quiet id id)
        (ne hcode fun heq => by cases heq) (fun heq => by cases heq) rfl rfl
  | enter s hcode =>
      exact h.keep none_seen (ne hcode fun heq => by cases heq) (fun heq => by cases heq) rfl rfl
  | pass s hloop hvalue =>
      exact h.keep (quiet id id)
        (ne hloop fun heq => by cases heq) (fun heq => by cases heq) rfl rfl
  | block s hloop hvalue =>
      exact h.keep none_seen (ne hloop fun heq => by cases heq) (fun heq => by cases heq) rfl rfl
  | raise s hqueue =>
      have hquiet := quiet (e := (.V s : Event ι κ)) id id
      exact ⟨h.1.trans (pending_append hquiet).symm,
        h.2.trans (separated_append fun e he => (hquiet e he).1).symm⟩
  | wake s t rest signal hqueue =>
      have ht : k.threads t = some ⟨BLOCKED, .P s⟩ :=
        (hp.queued s t).mp (hqueue ▸ List.mem_cons_self)
      refine h.keep (fun e he => ?_) (ne ht fun heq => by cases heq) (fun heq => by cases heq)
        rfl rfl
      cases signal with
      | false =>
          rw [List.mem_singleton.mp he]
          exact ⟨id, id⟩
      | true =>
          rcases List.mem_cons.mp he with rfl | hlast
          · exact ⟨id, id⟩
          · rw [List.mem_singleton.mp hlast]
            exact ⟨id, id⟩
  | finish hcode =>
      have hfinishes : finishes (.finish k.currentThread : Event ι κ) := trivial
      have hcurrent : k.threads k.currentThread ≠ some ⟨BLOCKED, .Finish⟩ :=
        ne hcode fun heq => by cases heq
      refine ⟨iff_of_true (fun heq => by cases heq) (pending_concat.mpr (.inl hfinishes)), ?_⟩
      rw [separated_concat, ← h.2, ← h.1, imp_iff_right hfinishes, not_not]
      -- nothing may have finished before
      constructor
      · intro hcleared
        have hno (t : ι) : k.threads t ≠ some ⟨BLOCKED, .Finish⟩ := by
          intro ht
          have hne : t ≠ k.currentThread := by
            rintro rfl
            exact hcurrent ht
          have hlast := hcleared t ((Function.update_of_ne hne ..).trans ht)
          exact hne (Option.some.inj hlast).symm
        exact ⟨fun t ht => absurd ht (hno t), Option.eq_none_iff_forall_ne_some.mpr fun t ht =>
          hno t (hp.doomed t ht)⟩
      · rintro ⟨hcleared, hnone⟩ t ht
        by_cases heq : t = k.currentThread
        · rw [heq]
        · have hold := hcleared t ((Function.update_of_ne heq ..).symm.trans ht)
          rw [hnone] at hold
          cases hold
  | start t rest hparked hready hroot =>
      exact h.keep (quiet id id)
        (ne hroot fun heq => by cases heq) (fun heq => by cases heq) rfl rfl
  | resume t rest place hparked hready hplace hroot =>
      have hresumes : resumes (.resume t : Event ι κ) := trivial
      have hnot : ¬ finishes (.resume t : Event ι κ) := id
      refine ⟨iff_of_false (fun hne => hne rfl) ?_, ?_⟩
      · rw [pending_concat, or_iff_right hnot]
        exact fun hand => hand.2 hresumes
      · rw [separated_concat, ← h.2, and_iff_left fun hfinish => absurd hfinish hnot]
        -- what is deleted is the thread that was to be destroyed
        have hthreads (u : ι) : (Function.update k.threads t (some ⟨RUNNING, resumed place⟩) u
            = some ⟨BLOCKED, .Finish⟩) ↔ k.threads u = some ⟨BLOCKED, .Finish⟩ := by
          by_cases hu : u = t
          · rw [hu, Function.update_self]
            exact iff_of_false (fun heq => by cases heq) (ne hplace fun heq => by cases heq)
          · rw [Function.update_of_ne hu]
        constructor
        · intro hcleared u hu
          by_contra hdoomed
          have hlast := hcleared u ((if_neg hdoomed).trans ((hthreads u).mpr hu))
          cases hlast
        · intro hcleared u hu
          unfold deleted at hu
          dsimp only at hu
          split_ifs at hu with hdoomed
          exact absurd (hcleared u ((hthreads u).mp hu)) hdoomed

/-- **When every thread that has finished is deleted.** After a run, every thread that has finished
is deleted, or is the one that the next `Run` of an older thread deletes, exactly when between any
two calls of `Finish` a thread was dispatched that had run before. Otherwise `threadToBeDestroyed`
was overwritten, and a thread and its stack stay allocated. -/
theorem carcasses_deleted_iff {main : ι} {initialValue : κ → ℕ} {as : List (Action ι κ)}
    (h : exec step (initial main initialValue) as = some k) :
    (∀ t, k.threads t = some ⟨BLOCKED, .Finish⟩ → k.threadToBeDestroyed = some t)
      ↔ Separated finishes resumes (trace step events (initial main initialValue) as) := by
  have hinitial := Placed.initial main initialValue
  obtain ⟨-, -, hcleared⟩ := hinitial.run Tracked
    ⟨iff_of_false (fun hne => hne rfl) not_pending_nil,
      iff_of_true (fun t ht => absurd ht (initial_running _ fun heq => by cases heq)) separated_nil⟩
    (fun hp hinv hm => hinv.move hp hm) h
  exact hcleared

/-- `main` finishes behind two threads that never ran, and so does the first of them. -/
theorem carcasses_deleted_iff_newThreads :
    ∃ k : Scheduling ℕ Unit,
      exec step (initial 0 fun _ => 0) [.Fork 1, .Fork 2, .Finish, .Finish] = some k
        ∧ ¬ Separated finishes resumes (trace step events
          (initial 0 fun _ => 0 : Scheduling ℕ Unit) [.Fork 1, .Fork 2, .Finish, .Finish]) := by
  obtain ⟨k, hrun, hmain, hdoomed⟩ : ∃ k : Scheduling ℕ Unit,
      exec step (initial 0 fun _ => 0) [.Fork 1, .Fork 2, .Finish, .Finish] = some k
        ∧ k.threads 0 = some ⟨BLOCKED, .Finish⟩ ∧ k.threadToBeDestroyed = some 1 :=
    ⟨_, rfl, rfl, rfl⟩
  refine ⟨k, hrun, fun hseparated => ?_⟩
  have hmain' := (carcasses_deleted_iff hrun).mpr hseparated 0 hmain
  rw [hdoomed] at hmain'
  cases hmain'

end LoadBalancer.NachOS.Scheduling
