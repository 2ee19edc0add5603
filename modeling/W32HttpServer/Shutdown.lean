/-
What `thread_pool_shutdown` leaves behind.

A worker leaves its loop at the first test of the flag behind a shutdown, whatever is
queued, and a producer that is past its own test goes on to queue its item. Nothing takes
up what is then in the queue: the clean-up closes the semaphore, the mutex and the event,
and no item is run or freed.

Whether a client is lost is settled at the moment the flag is set. A worker that is in its
wait by then still takes an item, since the wait reports the semaphore before the event; a
worker anywhere else ends its loop at the next test. So no client is lost where no call of
`thread_pool_queue_work` is under way and there is a waiting worker for every count of the
semaphore (`TakenUp`): each queued item is then one that a waiting worker or a worker in
front of the mutex takes up. At any other moment the scheduler can lose one
(`shutdown_loses_none_iff`).
-/
import Mathlib.Algebra.BigOperators.Group.Finset.Basic
import Mathlib.Algebra.Order.BigOperators.Group.Finset
import Mathlib.Data.Fintype.Basic
import W32HttpServer.Common
import W32HttpServer.Lib.Transition
import W32HttpServer.ThreadPool
import W32HttpServer.PoolSystem

set_option autoImplicit false

namespace W32HttpServer.Shutdown

open W32HttpServer.Common W32HttpServer.ThreadPool W32HttpServer.PoolSystem
open W32HttpServer.Lib.Transition

variable {n : ℕ}

/-! ## The moment of the shutdown -/

/-- All workers have left their loop. -/
def AllOut (s : state_t n) : Prop := ∀ w, s.workers w = .exited

instance (s : state_t n) : Decidable (AllOut s) := by
  unfold AllOut
  infer_instance

/-- Once the pool is shut down and the workers are gone, every item accepted has been called. -/
def LosesNone (s : state_t n) : Prop :=
  s.is_shutdown = true → AllOut s →
    (s.accepted : Multiset work_t) = ((s.calls.map Prod.snd : List work_t) : Multiset work_t)

/-- A worker in `WaitForMultipleObjects`. -/
def waiting : worker_t → ℕ
  | .wait => 1
  | _ => 0

/-- A worker between the semaphore and the mutex. -/
def locking : worker_t → ℕ
  | .lock => 1
  | _ => 0

/-- Nobody is inside `thread_pool_queue_work`, and the semaphore counts no more items than
there are workers waiting for it. -/
structure TakenUp (s : state_t n) : Prop where
  entering : s.entering = []
  releasing : s.releasing = 0
  awaited : s.work_semaphore ≤ ∑ w, waiting (s.workers w)

instance (s : state_t n) : Decidable (TakenUp s) :=
  decidable_of_iff (s.entering = [] ∧ s.releasing = 0
      ∧ s.work_semaphore ≤ ∑ w, waiting (s.workers w))
    ⟨fun h => ⟨h.1, h.2.1, h.2.2⟩, fun h => ⟨h.entering, h.releasing, h.awaited⟩⟩

/-- An enqueue takes a slot that was read, and the pool is shut down at a moment when all that
is queued is taken up. -/
def Attended (s : state_t n) : action_t n → Prop
  | .enqueue k => SlotRead s (.enqueue k)
  | .shutdown => TakenUp s
  | _ => True

instance (s : state_t n) : ∀ a, Decidable (Attended s a)
  | .enqueue k => inferInstanceAs (Decidable (SlotRead s (.enqueue k)))
  | .shutdown => inferInstanceAs (Decidable (TakenUp s))
  | .queue_work _ | .release | .test _ | .acquire _ | .event _ | .dequeue _ | .call _ | .finish _
  | .set_event => isTrue trivial

theorem Attended.slotRead {s : state_t n} {a : action_t n} (h : Attended s a) : SlotRead s a := by
  cases a with
  | enqueue k => exact h
  | _ => trivial

/-! ## The count of the queue -/

/-- Every queued item is counted once: by the semaphore, by the producer that is about to
release it, or by the worker that has acquired it. -/
def Counted (s : state_t n) : Prop :=
  s.queue.length = s.work_semaphore + s.releasing + ∑ w, locking (s.workers w)

theorem counted_init : Counted (init n) := by
  simp [Counted, init, locking]

/-- A worker that moves between two places away from the mutex. -/
theorem counted_goto {s : state_t n} (h : Counted s) {w : Fin n} {pc : worker_t}
    (hold : locking (s.workers w) = 0) (hnew : locking pc = 0) : Counted (goto s w pc) := by
  have hsum := sum_goto locking s w pc
  rw [hold, hnew, add_zero, add_zero] at hsum
  rw [Counted, hsum]
  exact h

/-- **One step** keeps the count. -/
theorem step_counted {s s' : state_t n} {a : action_t n} (h : Inv s) (hcount : Counted s)
    (hstep : step s a = some s') : Counted s' := by
  have hcount' := hcount
  unfold Counted at hcount'
  cases step_stepped h.pool hstep with
  | turned_away => exact hcount
  | entered => exact hcount
  | refused => exact hcount
  | enqueued =>
      rw [Counted, List.length_append, List.length_singleton]
      dsimp only
      omega
  | released hsome =>
      -- the semaphore is not at its maximum: that many items are not queued
      have hlen := h.pool.count
      rw [List.length_map] at hlen
      have hroom : s.work_semaphore < MAX_PENDING_WORK := by omega
      rw [Counted]
      dsimp only
      rw [if_pos hroom]
      omega
  | tested hw => exact counted_goto hcount (by rw [hw]; rfl) rfl
  | left hw => exact counted_goto hcount (by rw [hw]; rfl) rfl
  | @acquired w hw hsem =>
      have hsum := sum_goto locking { s with work_semaphore := s.work_semaphore - 1 } w .lock
      have hold : locking (s.workers w) = 0 := by rw [hw]; rfl
      have hnew : locking .lock = 1 := rfl
      dsimp only at hsum
      rw [hold, hnew] at hsum
      rw [Counted]
      simp only [goto] at hsum ⊢
      omega
  | woken hw => exact counted_goto hcount (by rw [hw]; rfl) rfl
  | @found_empty w hw hnil =>
      -- the worker itself counts an item
      have hone : locking (s.workers w) ≤ ∑ v, locking (s.workers v) :=
        Finset.single_le_sum (f := fun v => locking (s.workers v)) (fun v _ => Nat.zero_le _)
          (Finset.mem_univ w)
      rw [hw] at hone
      rw [hnil, List.length_nil] at hcount'
      have hlock : locking .lock = 1 := rfl
      omega
  | @dequeued w slot work rest pool hw hqueue =>
      have hsum := sum_goto locking { s with pool := pool, queue := rest } w (.call slot work)
      have hold : locking (s.workers w) = 1 := by rw [hw]; rfl
      have hnew : locking (.call slot work) = 0 := rfl
      dsimp only at hsum
      rw [hold, hnew] at hsum
      rw [hqueue, List.length_cons] at hcount'
      rw [Counted]
      simp only [goto] at hsum ⊢
      omega
  | called hw => exact counted_goto hcount (by rw [hw]; rfl) rfl
  | finished hw => exact counted_goto hcount (by rw [hw]; rfl) rfl
  | shut_down => exact hcount
  | event_set => exact hcount

/-! ## A stopped pool -/

/-- A worker that moves from anywhere but the wait. -/
theorem takenUp_goto {s : state_t n} (h : TakenUp s) {w : Fin n} {pc : worker_t}
    (hold : waiting (s.workers w) = 0) : TakenUp (goto s w pc) := by
  have hsum := sum_goto waiting s w pc
  have hawaited := h.awaited
  refine ⟨h.entering, h.releasing, ?_⟩
  rw [hold] at hsum
  show s.work_semaphore ≤ _
  omega

/-- The flag is never taken back. -/
theorem step_is_shutdown {s s' : state_t n} {a : action_t n}
    (hpool : PoolInv s.pool (s.queue.map Prod.fst)) (hstop : s.is_shutdown = true)
    (hstep : step s a = some s') : s'.is_shutdown = true := by
  cases step_stepped hpool hstep with
  | shut_down => rfl
  | _ => exact hstop

/-- Behind the flag a waiting worker takes an item or there is none to take, and nothing is
queued any more. -/
theorem step_takenUp {s s' : state_t n} {a : action_t n}
    (hpool : PoolInv s.pool (s.queue.map Prod.fst)) (hstop : s.is_shutdown = true)
    (h : TakenUp s) (hstep : step s a = some s') : TakenUp s' := by
  have hentering := h.entering
  have hreleasing := h.releasing
  have hawaited := h.awaited
  cases step_stepped hpool hstep with
  | turned_away => exact h
  | entered hopen => exact absurd (Or.inr hstop) hopen
  | refused hk => exact absurd hk (by rw [hentering]; simp)
  | enqueued hk => exact absurd hk (by rw [hentering]; simp)
  | released hsome => exact absurd hreleasing hsome
  | tested hw hopen => exact absurd (hstop.symm.trans hopen) (by decide)
  | left hw => exact takenUp_goto h (by rw [hw]; rfl)
  | @acquired w hw hsem =>
      -- one count less, and one waiting worker less
      have hsum := sum_goto waiting { s with work_semaphore := s.work_semaphore - 1 } w .lock
      have hold : waiting (s.workers w) = 1 := by rw [hw]; rfl
      have hnew : waiting .lock = 0 := rfl
      dsimp only at hsum
      rw [hold, hnew] at hsum
      refine ⟨hentering, hreleasing, ?_⟩
      simp only [goto] at hsum ⊢
      omega
  | woken hw hsem =>
      refine ⟨hentering, hreleasing, ?_⟩
      -- the event is seen only when the semaphore is at zero
      show s.work_semaphore ≤ _
      omega
  | found_empty hw => exact takenUp_goto h (by rw [hw]; rfl)
  | @dequeued w slot work rest pool hw =>
      have hframe : TakenUp { s with pool := pool, queue := rest } :=
        ⟨hentering, hreleasing, hawaited⟩
      exact takenUp_goto hframe (by rw [hw]; rfl)
  | @called w slot work hw =>
      have hframe : TakenUp { s with calls := s.calls ++ [(work, (s.pool.work_items slot).work)] } :=
        ⟨hentering, hreleasing, hawaited⟩
      exact takenUp_goto hframe (by rw [hw]; rfl)
  | finished hw => exact takenUp_goto h (by rw [hw]; rfl)
  | shut_down => exact ⟨hentering, hreleasing, hawaited⟩
  | event_set => exact ⟨hentering, hreleasing, hawaited⟩

/-- With all workers out, what was taken up has left the queue. -/
theorem queue_empty {s : state_t n} (hcount : Counted s) (h : TakenUp s) (hout : AllOut s) :
    s.queue = [] := by
  have hwaiting : ∑ w, waiting (s.workers w) = 0 :=
    Finset.sum_eq_zero fun w _ => by rw [hout w]; rfl
  have hlocking : ∑ w, locking (s.workers w) = 0 :=
    Finset.sum_eq_zero fun w _ => by rw [hout w]; rfl
  have hawaited := h.awaited
  have hreleasing := h.releasing
  unfold Counted at hcount
  exact List.length_eq_zero_iff.mp (by omega)

/-- With all workers out, the account has nothing but calls and what is queued. -/
theorem losesNone_iff_queue_empty {s : state_t n} (h : Inv s) (hstop : s.is_shutdown = true)
    (hout : AllOut s) : LosesNone s ↔ s.queue = [] := by
  have hheld : ∑ w, held (s.workers w) = 0 :=
    Finset.sum_eq_zero fun w _ => by rw [hout w]; rfl
  have haccount := h.runs.account
  rw [hheld, add_zero] at haccount
  constructor
  · intro hnone
    rw [hnone hstop hout, left_eq_add] at haccount
    simpa using haccount
  · intro hempty _ _
    rw [hempty] at haccount
    simpa using haccount

/-! ## Runs -/

/-- What every run of attended steps keeps. -/
structure StopInv (s : state_t n) : Prop extends Inv s where
  counted : Counted s
  stopped : s.is_shutdown = true → TakenUp s

theorem stopInv_init : StopInv (init n) :=
  ⟨inv_init, counted_init, fun h => absurd h (by simp [init])⟩

/-- The flag is set by `thread_pool_shutdown` alone. -/
theorem shutdown_of_set {s s' : state_t n} {a : action_t n}
    (hpool : PoolInv s.pool (s.queue.map Prod.fst)) (hopen : s.is_shutdown = false)
    (hstep : step s a = some s') (hstop : s'.is_shutdown = true) :
    a = .shutdown ∧ s' = { s with is_shutdown := true } := by
  cases step_stepped hpool hstep with
  | shut_down => exact ⟨rfl, rfl⟩
  | _ => exact absurd (hopen.symm.trans hstop) (by decide)

theorem step_stopInv (s : state_t n) (a : action_t n) (s' : state_t n) (h : StopInv s)
    (hok : Attended s a) (hstep : step s a = some s') : StopInv s' := by
  refine ⟨step_inv s a s' h.toInv hok.slotRead hstep, step_counted h.toInv h.counted hstep, ?_⟩
  intro hstop
  by_cases hbefore : s.is_shutdown = true
  · exact step_takenUp h.pool hbefore (h.stopped hbefore) hstep
  · rw [Bool.not_eq_true] at hbefore
    obtain ⟨rfl, rfl⟩ := shutdown_of_set h.pool hbefore hstep hstop
    exact ⟨hok.entering, hok.releasing, hok.awaited⟩

/-- **Stopping loses no client** in a run whose steps are all attended: no enqueue takes a slot that
is still to be read, and at the moment of the shutdown no client is on its way into the queue and
each one in it has its worker waiting. `StopInv` carries that to the end: behind the flag the
workers to come are as many as the items, each takes one, and so the queue is empty when they are
all out. -/
theorem stopping_loses_none (n : ℕ) (actions : List (action_t n)) (s : state_t n)
    (hok : Meets step Attended (init n) actions) (hrun : exec step (init n) actions = some s) :
    LosesNone s := by
  have h := exec_invariant step_stopInv actions (init n) s stopInv_init hok hrun
  intro hstop hout
  have hempty := queue_empty h.counted (h.stopped hstop) hout
  exact (losesNone_iff_queue_empty h.toInv hstop hout).mpr hempty hstop hout

/-- The first client is with its worker and the second queued for the other, which waits, when
the pool is shut down. -/
def stopped_while_busy (w v : Fin 2) : List (action_t 2) :=
  [.queue_work ⟨1, 10⟩, .enqueue 0, .release, .test w, .acquire w, .dequeue w, .call w, .test v,
    .queue_work ⟨1, 20⟩, .enqueue 0, .release, .shutdown, .set_event, .finish w, .acquire v,
    .test w, .dequeue v, .call v, .finish v, .test v]

theorem stopping_loses_none_while_busy :
    LosesNone ((exec step (init 2) (stopped_while_busy 0 1)).get (by decide)) :=
  stopping_loses_none 2 (stopped_while_busy 0 1) _ (by decide) (Option.some_get _).symm

/-- The pool is shut down with a client queued, and the worker's next test of the flag
ends it. -/
def stopped_with_client : List (action_t 1) :=
  [.queue_work ⟨1, 10⟩, .enqueue 0, .release, .shutdown, .set_event, .test (Fin.last 0)]

theorem queued_client_lost :
    ∃ s, exec step (init 1) stopped_with_client = some s ∧ s.is_shutdown = true ∧ AllOut s
      ∧ s.accepted = [⟨1, 10⟩] ∧ s.calls = [] ∧ ¬ LosesNone s := by
  have hrun : (exec step (init 1) stopped_with_client).map
      (fun s => (s.is_shutdown, decide (AllOut s), s.accepted, s.calls))
        = some (true, true, [⟨1, 10⟩], []) := by decide
  obtain ⟨s, hs, heq⟩ := Option.map_eq_some_iff.mp hrun
  rw [Prod.mk.injEq, Prod.mk.injEq, Prod.mk.injEq, decide_eq_true_eq] at heq
  obtain ⟨hstop, hout, hacc, hcalls⟩ := heq
  refine ⟨s, hs, hstop, hout, hacc, hcalls, fun h => ?_⟩
  have hlost := h hstop hout
  rw [hacc, hcalls] at hlost
  exact absurd hlost (by simp)

/-! ## At any other moment -/

/-- How many steps a worker of a stopped pool takes at most until it is out. -/
def steps_left : worker_t → ℕ
  | .exited => 0
  | .test => 1
  | .busy => 2
  | .call _ _ => 3
  | .lock => 4
  | .wait => 5

/-- What a stopped pool keeps while only its workers move. A wait that ends by the semaphore
takes one count and one waiting worker away, one that ends by the event finds no count. -/
structure WindsDown (s s' : state_t n) : Prop where
  is_shutdown : s'.is_shutdown = s.is_shutdown
  shutdown_event : s'.shutdown_event = s.shutdown_event
  entering : s'.entering = s.entering
  releasing : s'.releasing = s.releasing
  surplus : ∑ w, waiting (s.workers w) < s.work_semaphore →
    ∑ w, waiting (s'.workers w) < s'.work_semaphore

theorem WindsDown.refl (s : state_t n) : WindsDown s s :=
  ⟨rfl, rfl, rfl, rfl, id⟩

theorem WindsDown.trans {s s' t : state_t n} (h : WindsDown s s') (h' : WindsDown s' t) :
    WindsDown s t where
  is_shutdown := h'.is_shutdown.trans h.is_shutdown
  shutdown_event := h'.shutdown_event.trans h.shutdown_event
  entering := h'.entering.trans h.entering
  releasing := h'.releasing.trans h.releasing
  surplus := h'.surplus ∘ h.surplus

/-- A worker that moves between two places away from the wait. -/
theorem windsDown_goto (s : state_t n) {w : Fin n} {pc : worker_t}
    (hold : waiting (s.workers w) = 0) (hnew : waiting pc = 0) : WindsDown s (goto s w pc) := by
  have hsum := sum_goto waiting s w pc
  rw [hold, hnew, add_zero, add_zero] at hsum
  refine ⟨rfl, rfl, rfl, rfl, fun h => ?_⟩
  rw [hsum]
  exact h

theorem steps_left_goto (s : state_t n) {w : Fin n} {pc : worker_t}
    (h : steps_left pc < steps_left (s.workers w)) :
    ∑ v, steps_left ((goto s w pc).workers v) < ∑ v, steps_left (s.workers v) := by
  have hsum := sum_goto steps_left s w pc
  omega

/-- Behind the flag and the event, a worker that is not out can take a step towards it. -/
theorem worker_moves {s : state_t n} {w : Fin n} (hstop : s.is_shutdown = true)
    (hevent : s.shutdown_event = true) (hin : s.workers w ≠ .exited) :
    ∃ a s', step s a = some s' ∧ SlotRead s a ∧ WindsDown s s'
      ∧ ∑ v, steps_left (s'.workers v) < ∑ v, steps_left (s.workers v) := by
  rcases hw : s.workers w with _ | _ | _ | ⟨slot, work⟩ | _ | _
  case test =>
    refine ⟨.test w, goto s w .exited, ?_, trivial, windsDown_goto s (by rw [hw]; rfl) rfl,
      steps_left_goto s (by rw [hw]; decide)⟩
    rw [step, if_pos hw, if_pos hstop]
  case wait =>
    by_cases hsem : s.work_semaphore = 0
    · -- nothing to take: the event ends it
      refine ⟨.event w, goto s w .exited, ?_, trivial, ⟨rfl, rfl, rfl, rfl, fun h => ?_⟩,
        steps_left_goto s (by rw [hw]; decide)⟩
      · rw [step, if_pos ⟨hw, hsem, hevent⟩]
      · omega
    · -- the wait reports the semaphore first
      refine ⟨.acquire w, goto { s with work_semaphore := s.work_semaphore - 1 } w .lock, ?_,
        trivial, ⟨rfl, rfl, rfl, rfl, fun h => ?_⟩, ?_⟩
      · rw [step, if_pos ⟨hw, Nat.pos_of_ne_zero hsem⟩]
      · have hsum := sum_goto waiting { s with work_semaphore := s.work_semaphore - 1 } w .lock
        have hold : waiting (s.workers w) = 1 := by rw [hw]; rfl
        have hnew : waiting .lock = 0 := rfl
        dsimp only at hsum
        rw [hold, hnew] at hsum
        simp only [goto] at hsum ⊢
        omega
      · exact steps_left_goto { s with work_semaphore := s.work_semaphore - 1 }
          (by dsimp only; rw [hw]; decide)
  case lock =>
    -- ⟨slot, pool⟩|an item, or none left
    rcases hdeq : dequeue s.pool with _ | ⟨slot, pool⟩
    · refine ⟨.dequeue w, goto s w .test, ?_, trivial, windsDown_goto s (by rw [hw]; rfl) rfl,
        steps_left_goto s (by rw [hw]; decide)⟩
      rw [step, dequeue_step, if_pos hw, hdeq]
    · let taken : state_t n := { s with pool := pool, queue := s.queue.tail }
      have hframe : WindsDown s taken := ⟨rfl, rfl, rfl, rfl, id⟩
      refine ⟨.dequeue w, goto taken w (.call slot (s.queue.headD (slot, ⟨0, 0⟩)).2), ?_, trivial,
        hframe.trans (windsDown_goto taken (by dsimp only [taken]; rw [hw]; rfl) rfl),
        steps_left_goto taken (by dsimp only [taken]; rw [hw]; simp [steps_left])⟩
      rw [step, dequeue_step, if_pos hw, hdeq]
  case call =>
    let called : state_t n := { s with calls := s.calls ++ [(work, (s.pool.work_items slot).work)] }
    have hframe : WindsDown s called := ⟨rfl, rfl, rfl, rfl, id⟩
    refine ⟨.call w, goto called w .busy, ?_, trivial,
      hframe.trans (windsDown_goto called (by dsimp only [called]; rw [hw]; rfl) rfl),
      steps_left_goto called (by dsimp only [called]; rw [hw]; simp [steps_left])⟩
    rw [step, call_step, hw]
  case busy =>
    refine ⟨.finish w, goto s w .test, ?_, trivial, windsDown_goto s (by rw [hw]; rfl) rfl,
      steps_left_goto s (by rw [hw]; decide)⟩
    rw [step, if_pos hw]
  case exited => exact absurd hw hin

/-- **The workers of a stopped pool can all leave** while the producers stand still. -/
theorem all_leave (k : ℕ) : ∀ s : state_t n, ∑ w, steps_left (s.workers w) = k →
    s.is_shutdown = true → s.shutdown_event = true →
    ∃ actions s', exec step s actions = some s' ∧ Meets step SlotRead s actions
      ∧ WindsDown s s' ∧ AllOut s' := by
  induction k using Nat.strong_induction_on with
  | _ k ih =>
      intro s hk hstop hevent
      by_cases hout : AllOut s
      · exact ⟨[], s, rfl, trivial, .refl s, hout⟩
      · obtain ⟨w, hw⟩ := not_forall.mp hout
        obtain ⟨a, s1, hstep, hread, hwinds, hless⟩ := worker_moves hstop hevent hw
        obtain ⟨actions, s2, hrun, hmeets, hrest, hout2⟩ := ih _ (hk ▸ hless) s1 rfl
          (hwinds.is_shutdown.trans hstop) (hwinds.shutdown_event.trans hevent)
        refine ⟨a :: actions, s2, ?_, .cons hread hstep hmeets, hwinds.trans hrest, hout2⟩
        rw [exec, hstep, Option.bind_some, hrun]

/-- A producer that is left at the mutex still queues its item, for nobody. -/
theorem enqueue_behind {s : state_t n} (h : Inv s) (hempty : s.queue = []) (hout : AllOut s)
    (hentering : s.entering ≠ []) :
    ∃ s', step s (.enqueue 0) = some s' ∧ SlotRead s (.enqueue 0) ∧ AllOut s' ∧ s'.queue ≠ []
      ∧ s'.is_shutdown = s.is_shutdown := by
  obtain ⟨work, rest, hcons⟩ := List.exists_cons_of_ne_nil hentering
  have hread : SlotRead s (.enqueue 0) := fun w => by rw [hout w]; simp [unread_slot]
  have hsome : ∃ s', step s (.enqueue 0) = some s' := by
    rw [step, enqueue_step, hcons, List.getElem?_cons_zero]
    dsimp only
    rcases henq : enqueue s.pool work with _ | pool
    · exact ⟨_, rfl⟩
    · exact ⟨_, rfl⟩
  obtain ⟨s', hstep⟩ := hsome
  cases step_stepped h.pool hstep with
  | refused hk hfull =>
      rw [hempty] at hfull
      exact absurd hfull (by decide)
  | enqueued hk henq => exact ⟨_, hstep, hread, hout, by simp, rfl⟩

/-- A run keeps the invariant of the pool and the count. -/
theorem run_counted {actions : List (action_t n)} {s s' : state_t n} (h : Inv s)
    (hcount : Counted s) (hok : Meets step SlotRead s actions)
    (hrun : exec step s actions = some s') : Inv s' ∧ Counted s' :=
  exec_invariant (fun t a t' (ht : Inv t ∧ Counted t) ha hstep =>
    ⟨step_inv t a t' ht.1 ha hstep, step_counted ht.1 ht.2 hstep⟩) actions s s' ⟨h, hcount⟩ hok hrun

/-- A shutdown at any other moment can lose a client. -/
theorem client_lost {s : state_t n} (h : Inv s) (hcount : Counted s) (hnot : ¬ TakenUp s) :
    ∃ later s', Meets step SlotRead s (.shutdown :: later)
      ∧ exec step s (.shutdown :: later) = some s' ∧ ¬ LosesNone s' := by
  let stopped : state_t n := { s with is_shutdown := true, shutdown_event := true }
  have hinv : Inv stopped := inv_frame h rfl rfl rfl rfl rfl
  obtain ⟨actions, s1, hrun, hmeets, hwinds, hout⟩ := all_leave _ stopped rfl rfl rfl
  obtain ⟨hinv1, hcount1⟩ := run_counted hinv hcount hmeets hrun
  have hstop1 : s1.is_shutdown = true := hwinds.is_shutdown
  have hrun1 : exec step s (.shutdown :: .set_event :: actions) = some s1 := hrun
  have hmeets1 : Meets step SlotRead s (.shutdown :: .set_event :: actions) :=
    .cons trivial rfl (.cons trivial rfl hmeets)
  by_cases hempty : s1.queue = []
  · -- nothing was released in excess, so somebody is still at the mutex
    have hentering : s1.entering ≠ [] := by
      intro hnil
      unfold Counted at hcount1
      rw [hempty, List.length_nil] at hcount1
      refine hnot ⟨hwinds.entering.symm.trans hnil, ?_, ?_⟩
      · have hreleasing : s1.releasing = s.releasing := hwinds.releasing
        omega
      · by_contra hexcess
        have hsurplus := hwinds.surplus (not_le.mp hexcess)
        omega
    -- that producer goes on now, and nobody is left to take its item
    obtain ⟨s2, hstep, hread, hout2, hqueued, hflag⟩ := enqueue_behind hinv1 hempty hout hentering
    have hstop2 := hflag.trans hstop1
    have hinv2 := step_inv s1 _ s2 hinv1 hread hstep
    have hlast : exec step s1 [.enqueue 0] = some s2 := by rw [exec, hstep]; rfl
    refine ⟨.set_event :: (actions ++ [.enqueue 0]), s2, ?_, ?_, ?_⟩
    · exact hmeets1.append hrun1 (.cons hread hstep trivial)
    · have happend := exec_append step (.shutdown :: .set_event :: actions) [.enqueue 0] s
      rw [hrun1, Option.bind_some, hlast] at happend
      exact happend
    · rw [losesNone_iff_queue_empty hinv2 hstop2 hout2]
      exact hqueued
  · -- an item is left when all workers are out
    refine ⟨.set_event :: actions, s1, hmeets1, hrun1, ?_⟩
    rw [losesNone_iff_queue_empty hinv1 hstop1 hout]
    exact hempty

/-- Behind the flag every step that takes a slot that was read is attended. -/
theorem attended_of_stopped {s : state_t n} {a : action_t n} (h : StopInv s)
    (hstop : s.is_shutdown = true) (hok : SlotRead s a) : Attended s a := by
  cases a with
  | enqueue k => exact hok
  | shutdown => exact h.stopped hstop
  | _ => trivial

/-- **The moment decides**: whatever the scheduler does behind the shutdown, no client is lost,
exactly when all that is queued is taken up at that moment. -/
theorem shutdown_loses_none_iff (n : ℕ) (actions : List (action_t n)) (s : state_t n)
    (hok : Meets step SlotRead (init n) actions) (hrun : exec step (init n) actions = some s) :
    TakenUp s ↔ ∀ later s', Meets step SlotRead s (.shutdown :: later) →
      exec step s (.shutdown :: later) = some s' → LosesNone s' := by
  obtain ⟨hinv, hcount⟩ := run_counted inv_init counted_init hok hrun
  constructor
  · intro htaken later s' hmeets hlater hstop hout
    let stopped : state_t n := { s with is_shutdown := true }
    have hstopped : StopInv stopped :=
      ⟨inv_frame hinv rfl rfl rfl rfl rfl, hcount, fun _ =>
        ⟨htaken.entering, htaken.releasing, htaken.awaited⟩⟩
    obtain ⟨hend, -⟩ := exec_invariant
      (fun t a t' (ht : StopInv t ∧ t.is_shutdown = true) ha hstep =>
        ⟨step_stopInv t a t' ht.1 (attended_of_stopped ht.1 ht.2 ha) hstep,
          step_is_shutdown ht.1.pool ht.2 hstep⟩)
      later stopped s' ⟨hstopped, rfl⟩ (hmeets.2 stopped rfl) hlater
    have hempty := queue_empty hend.counted (hend.stopped hstop) hout
    exact (losesNone_iff_queue_empty hend.toInv hstop hout).mpr hempty hstop hout
  · intro hall
    by_contra hnot
    obtain ⟨later, s', hmeets, hlater, hlost⟩ := client_lost hinv hcount hnot
    exact hlost (hall later s' hmeets hlater)

end W32HttpServer.Shutdown
