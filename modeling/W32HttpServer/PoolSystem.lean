/-
The Win9x pool at work: producers and workers around one `thread_pool_t`.

The steps are the ones between which the scheduler may switch: the test in front of the
mutex, the two critical sections, `ReleaseSemaphore`, the two ways out of the wait, and the
read of `work_func` and `param` from the slot, which a worker makes after it has given both
the mutex and the slot back. Producers have no name: `entering` and `releasing` hold the
calls of `thread_pool_queue_work` that have got to the mutex, and past it.

Three fields of the state record what happened and are read by no step: the work each
queued slot was given, the work accepted so far, and for each call what was dequeued and
what was called. A run calls what it queued as long as no producer takes a slot that some
worker has yet to read (`queued_work_is_run`); the mutex does not see to that.
-/
import Mathlib.Algebra.BigOperators.Group.Finset.Basic
import Mathlib.Algebra.Order.Group.Multiset
import Mathlib.Data.Fintype.Basic
import Mathlib.Tactic.Abel
import W32HttpServer.Common
import W32HttpServer.ThreadPool
import W32HttpServer.Lib.Transition

set_option autoImplicit false

namespace W32HttpServer.PoolSystem

open W32HttpServer.Common W32HttpServer.ThreadPool W32HttpServer.Lib.Transition

/-! ## The system -/

/-- Where a worker is in `worker_thread_proc`. -/
inductive worker_t
  /-- in front of `while (!pool->is_shutdown)` -/
  | test
  /-- in `WaitForMultipleObjects` -/
  | wait
  /-- the semaphore is acquired, the mutex not yet -/
  | lock
  /-- the slot is back on the free stack, its item not yet read; `work` is what the item
  was queued for -/
  | call (slot : slot_t) (work : work_t)
  /-- in the work function -/
  | busy
  | exited
  deriving DecidableEq

structure state_t (n : ℕ) where
  pool : thread_pool_t
  is_shutdown : Bool
  shutdown_event : Bool
  work_semaphore : ℕ
  entering : List work_t
  releasing : ℕ
  workers : Fin n → worker_t
  queue : List (slot_t × work_t)
  accepted : List work_t
  calls : List (work_t × work_t)

inductive action_t (n : ℕ)
  | queue_work (work : work_t)
  | enqueue (k : ℕ)
  | release
  | test (w : Fin n)
  | acquire (w : Fin n)
  | event (w : Fin n)
  | dequeue (w : Fin n)
  | call (w : Fin n)
  | finish (w : Fin n)
  | shutdown
  | set_event
  deriving DecidableEq

def init (n : ℕ) : state_t n where
  pool := thread_pool_init
  is_shutdown := false
  shutdown_event := false
  work_semaphore := 0
  entering := []
  releasing := 0
  workers := fun _ => .test
  queue := []
  accepted := []
  calls := []

variable {n : ℕ}

def goto (s : state_t n) (w : Fin n) (pc : worker_t) : state_t n :=
  { s with workers := Function.update s.workers w pc }

theorem goto_workers_self (s : state_t n) (w : Fin n) (pc : worker_t) :
    (goto s w pc).workers w = pc := by
  simp [goto]

theorem goto_workers_of_ne (s : state_t n) {v w : Fin n} (h : v ≠ w) (pc : worker_t) :
    (goto s w pc).workers v = s.workers v := by
  simp [goto, h]

/-- The critical section of the `k`-th producer at the mutex. A full queue turns it away. -/
def enqueue_step (s : state_t n) (k : ℕ) : Option (state_t n) :=
  match s.entering[k]? with
  | none => none
  | some work =>
      match enqueue s.pool work with
      | none => some { s with entering := s.entering.eraseIdx k }
      | some pool =>
          some { s with
            pool := pool
            entering := s.entering.eraseIdx k
            releasing := s.releasing + 1
            queue := s.queue ++ [(top_slot s.pool, work)]
            accepted := s.accepted ++ [work] }

def dequeue_step (s : state_t n) (w : Fin n) : Option (state_t n) :=
  if s.workers w = .lock then
    match dequeue s.pool with
    -- a semaphore count without an item: the worker gives the mutex back and goes round
    | none => some (goto s w .test)
    | some (slot, pool) =>
        let work := (s.queue.headD (slot, ⟨0, 0⟩)).2
        some (goto { s with pool := pool, queue := s.queue.tail } w (.call slot work))
  else none

/-- `work_item->work_func(work_item->param)`, as far as the reads of the two fields. -/
def call_step (s : state_t n) (w : Fin n) : Option (state_t n) :=
  match s.workers w with
  | .call slot work =>
      -- the slot is read as it is now, whatever it held at the dequeue
      some (goto { s with calls := s.calls ++ [(work, (s.pool.work_items slot).work)] } w .busy)
  | _ => none

def step (s : state_t n) : action_t n → Option (state_t n)
  | .queue_work work =>
      -- refused before the mutex
      if work.work_func = 0 ∨ s.is_shutdown = true then some s
      else some { s with entering := s.entering ++ [work] }
  | .enqueue k => enqueue_step s k
  | .release =>
      if s.releasing = 0 then none
      else some { s with
        releasing := s.releasing - 1
        -- the semaphore was created with the maximum `MAX_PENDING_WORK`
        work_semaphore :=
          if s.work_semaphore < MAX_PENDING_WORK then s.work_semaphore + 1 else s.work_semaphore }
  | .test w =>
      if s.workers w = .test then some (goto s w (if s.is_shutdown then .exited else .wait))
      else none
  | .acquire w =>
      if s.workers w = .wait ∧ 0 < s.work_semaphore then
        some (goto { s with work_semaphore := s.work_semaphore - 1 } w .lock)
      else none
  | .event w =>
      -- of two signalled objects the wait reports the first, the semaphore
      if s.workers w = .wait ∧ s.work_semaphore = 0 ∧ s.shutdown_event = true then
        some (goto s w .exited)
      else none
  | .dequeue w => dequeue_step s w
  | .call w => call_step s w
  | .finish w => if s.workers w = .busy then some (goto s w .test) else none
  | .shutdown => some { s with is_shutdown := true }
  | .set_event => if s.is_shutdown then some { s with shutdown_event := true } else none

/-! ## What a step does -/

/-- A sum over the workers, when one of them moves. -/
theorem sum_goto {M : Type*} [AddCommMonoid M] (f : worker_t → M) (s : state_t n) (w : Fin n)
    (pc : worker_t) :
    ∑ v, f ((goto s w pc).workers v) + f (s.workers w) = ∑ v, f (s.workers v) + f pc :=
  sum_update f s.workers w pc

/-- What an enqueue that is not refused does to the pool. -/
structure Enqueued (s : state_t n) (work : work_t) (pool : thread_pool_t) : Prop where
  room : s.queue.length < MAX_PENDING_WORK
  fresh : top_slot s.pool ∉ s.queue.map Prod.fst
  inv : PoolInv pool (s.queue.map Prod.fst ++ [top_slot s.pool])
  stored : (pool.work_items (top_slot s.pool)).work = work
  other : ∀ j, j ≠ top_slot s.pool → (pool.work_items j).work = (s.pool.work_items j).work

/-- The outcomes of a step, with the conditions each is reached under. -/
inductive Stepped (s : state_t n) : action_t n → state_t n → Prop
  | turned_away {work : work_t} (h : work.work_func = 0 ∨ s.is_shutdown = true) :
      Stepped s (.queue_work work) s
  | entered {work : work_t} (h : ¬ (work.work_func = 0 ∨ s.is_shutdown = true)) :
      Stepped s (.queue_work work) { s with entering := s.entering ++ [work] }
  | refused {k : ℕ} {work : work_t} (hk : s.entering[k]? = some work)
      (hfull : s.queue.length = MAX_PENDING_WORK) :
      Stepped s (.enqueue k) { s with entering := s.entering.eraseIdx k }
  | enqueued {k : ℕ} {work : work_t} {pool : thread_pool_t} (hk : s.entering[k]? = some work)
      (henq : Enqueued s work pool) :
      Stepped s (.enqueue k) { s with
        pool := pool
        entering := s.entering.eraseIdx k
        releasing := s.releasing + 1
        queue := s.queue ++ [(top_slot s.pool, work)]
        accepted := s.accepted ++ [work] }
  | released (h : s.releasing ≠ 0) :
      Stepped s .release { s with
        releasing := s.releasing - 1
        work_semaphore :=
          if s.work_semaphore < MAX_PENDING_WORK then s.work_semaphore + 1 else s.work_semaphore }
  | tested {w : Fin n} (hw : s.workers w = .test) (h : s.is_shutdown = false) :
      Stepped s (.test w) (goto s w .wait)
  | left {w : Fin n} (hw : s.workers w = .test) (h : s.is_shutdown = true) :
      Stepped s (.test w) (goto s w .exited)
  | acquired {w : Fin n} (hw : s.workers w = .wait) (h : 0 < s.work_semaphore) :
      Stepped s (.acquire w) (goto { s with work_semaphore := s.work_semaphore - 1 } w .lock)
  | woken {w : Fin n} (hw : s.workers w = .wait) (hsem : s.work_semaphore = 0)
      (h : s.shutdown_event = true) : Stepped s (.event w) (goto s w .exited)
  | found_empty {w : Fin n} (hw : s.workers w = .lock) (h : s.queue = []) :
      Stepped s (.dequeue w) (goto s w .test)
  | dequeued {w : Fin n} {slot : slot_t} {work : work_t} {rest : List (slot_t × work_t)}
      {pool : thread_pool_t} (hw : s.workers w = .lock) (hqueue : s.queue = (slot, work) :: rest)
      (hpool : PoolInv pool (rest.map Prod.fst)) (hitems : pool.work_items = s.pool.work_items) :
      Stepped s (.dequeue w) (goto { s with pool := pool, queue := rest } w (.call slot work))
  | called {w : Fin n} {slot : slot_t} {work : work_t} (hw : s.workers w = .call slot work) :
      Stepped s (.call w)
        (goto { s with calls := s.calls ++ [(work, (s.pool.work_items slot).work)] } w .busy)
  | finished {w : Fin n} (hw : s.workers w = .busy) : Stepped s (.finish w) (goto s w .test)
  | shut_down : Stepped s .shutdown { s with is_shutdown := true }
  | event_set (h : s.is_shutdown = true) : Stepped s .set_event { s with shutdown_event := true }

theorem enqueue_step_stepped {s s' : state_t n} {k : ℕ}
    (hpool : PoolInv s.pool (s.queue.map Prod.fst)) (h : enqueue_step s k = some s') :
    Stepped s (.enqueue k) s' := by
  unfold enqueue_step at h
  rcases hk : s.entering[k]? with _ | work
  · rw [hk] at h
    exact absurd h (by simp)
  rw [hk] at h
  dsimp only at h
  rcases enqueue_spec hpool work with
    ⟨hlen, hfull⟩ | ⟨pool, henq, hlen, hfresh, hpool', hwork, hother⟩
  · rw [hfull] at h
    obtain rfl := Option.some.inj h
    rw [List.length_map] at hlen
    exact .refused hk hlen
  · rw [henq] at h
    obtain rfl := Option.some.inj h
    rw [List.length_map] at hlen
    exact .enqueued hk ⟨hlen, hfresh, hpool', hwork, hother⟩

theorem dequeue_step_stepped {s s' : state_t n} {w : Fin n}
    (hpool : PoolInv s.pool (s.queue.map Prod.fst)) (h : dequeue_step s w = some s') :
    Stepped s (.dequeue w) s' := by
  unfold dequeue_step at h
  split_ifs at h with hlock
  rcases dequeue_spec hpool with ⟨hnil, hempty⟩ | ⟨slot, q, pool, hq, hdeq, hpool', hitems⟩
  · rw [hempty] at h
    obtain rfl := Option.some.inj h
    exact .found_empty hlock (List.map_eq_nil_iff.mp hnil)
  -- the slot dequeued is the first of the recorded queue
  rcases hqueue : s.queue with _ | ⟨⟨slot', work⟩, rest⟩
  · rw [hqueue] at hq
    exact absurd hq (by simp)
  rw [hqueue, List.map_cons, List.cons.injEq] at hq
  obtain ⟨rfl, hrest⟩ := hq
  rw [hdeq] at h
  obtain rfl := Option.some.inj h
  rw [hqueue]
  exact .dequeued hlock hqueue (hrest ▸ hpool') hitems

/-- **There are no other outcomes.** -/
theorem step_stepped {s s' : state_t n} {a : action_t n}
    (hpool : PoolInv s.pool (s.queue.map Prod.fst)) (h : step s a = some s') :
    Stepped s a s' := by
  cases a with
  | queue_work work =>
      rw [step] at h
      split_ifs at h with hrefused <;> obtain rfl := Option.some.inj h
      · exact .turned_away hrefused
      · exact .entered hrefused
  | enqueue k => exact enqueue_step_stepped hpool h
  | release =>
      rw [step] at h
      split_ifs at h with hnone hsem <;> obtain rfl := Option.some.inj h
      · -- `released` has both outcomes of `ReleaseSemaphore`
        have hreleased := Stepped.released hnone
        rwa [if_pos hsem] at hreleased
      · have hreleased := Stepped.released hnone
        rwa [if_neg hsem] at hreleased
  | test w =>
      rw [step] at h
      split_ifs at h with hw hshut <;> obtain rfl := Option.some.inj h
      · exact .left hw hshut
      · exact .tested hw (by simpa using hshut)
  | acquire w =>
      rw [step] at h
      split_ifs at h with hw
      obtain rfl := Option.some.inj h
      exact .acquired hw.1 hw.2
  | event w =>
      rw [step] at h
      split_ifs at h with hw
      obtain rfl := Option.some.inj h
      exact .woken hw.1 hw.2.1 hw.2.2
  | dequeue w => exact dequeue_step_stepped hpool h
  | call w =>
      rw [step, call_step] at h
      -- a call is made behind a dequeue and nowhere else
      rcases hw : s.workers w with _ | _ | _ | ⟨slot, work⟩ | _ | _ <;> rw [hw] at h
      case call =>
        obtain rfl := Option.some.inj h
        exact .called hw
      all_goals exact absurd h (by simp)
  | finish w =>
      rw [step] at h
      split_ifs at h with hw
      obtain rfl := Option.some.inj h
      exact .finished hw
  | shutdown =>
      obtain rfl := Option.some.inj h
      exact .shut_down
  | set_event =>
      rw [step] at h
      split_ifs at h with hshut
      obtain rfl := Option.some.inj h
      exact .event_set hshut

/-! ## What has become of the accepted work -/

/-- The work a worker has dequeued and not yet called. -/
def held : worker_t → Multiset work_t
  | .call _ work => {work}
  | _ => 0

/-- Every call is the call that was dequeued, and what was accepted has been called once,
or is in a worker's hands, or is queued. -/
structure RunsQueuedWork (s : state_t n) : Prop where
  called : ∀ c ∈ s.calls, c.2 = c.1
  account : (s.accepted : Multiset work_t)
    = ((s.calls.map Prod.snd : List work_t) : Multiset work_t) + ∑ w, held (s.workers w)
      + ((s.queue.map Prod.snd : List work_t) : Multiset work_t)

/-- The slot a worker has dequeued and not yet read. -/
def unread_slot : worker_t → Option slot_t
  | .call slot _ => some slot
  | _ => none

/-- An enqueue takes no slot that a worker has dequeued and not yet read. -/
def SlotRead (s : state_t n) : action_t n → Prop
  | .enqueue _ => ∀ w, unread_slot (s.workers w) ≠ some (top_slot s.pool)
  | _ => True

instance (s : state_t n) : ∀ a, Decidable (SlotRead s a)
  | .enqueue _ =>
      inferInstanceAs (Decidable (∀ w, unread_slot (s.workers w) ≠ some (top_slot s.pool)))
  | .queue_work _ | .release | .test _ | .acquire _ | .event _ | .dequeue _ | .call _ | .finish _
  | .shutdown | .set_event => isTrue trivial

/-! ## The invariant -/

structure Inv (s : state_t n) : Prop where
  pool : PoolInv s.pool (s.queue.map Prod.fst)
  queued : ∀ e ∈ s.queue, (s.pool.work_items e.1).work = e.2
  unread : ∀ w slot work, s.workers w = .call slot work →
    (s.pool.work_items slot).work = work
  runs : RunsQueuedWork s

theorem inv_init : Inv (init n) where
  pool := poolInv_init
  queued := by simp [init]
  unread := by simp [init]
  runs := ⟨by simp [init], by simp [init, held]⟩

/-- A worker that moves between two places where it holds nothing. -/
theorem inv_goto {s : state_t n} (h : Inv s) {w : Fin n} {pc : worker_t}
    (hold : held (s.workers w) = 0) (hnew : held pc = 0) : Inv (goto s w pc) where
  pool := h.pool
  queued := h.queued
  unread := by
    intro v slot work hv
    by_cases hvw : v = w
    · rw [hvw, goto_workers_self] at hv
      rw [hv, held] at hnew
      exact absurd hnew (by simp)
    · rw [goto_workers_of_ne s hvw] at hv
      exact h.unread v slot work hv
  runs := by
    refine ⟨h.runs.called, ?_⟩
    have hsum := sum_goto held s w pc
    rw [hold, hnew, add_zero, add_zero] at hsum
    rw [hsum]
    exact h.runs.account

/-- Fields that say nothing about slots or work. -/
theorem inv_frame {s s' : state_t n} (h : Inv s) (hpool : s'.pool = s.pool)
    (hqueue : s'.queue = s.queue) (hworkers : s'.workers = s.workers)
    (haccepted : s'.accepted = s.accepted) (hcalls : s'.calls = s.calls) : Inv s' where
  pool := by rw [hpool, hqueue]; exact h.pool
  queued := by rw [hpool, hqueue]; exact h.queued
  unread := by rw [hpool, hworkers]; exact h.unread
  runs := ⟨by rw [hcalls]; exact h.runs.called, by
    rw [haccepted, hcalls, hworkers, hqueue]; exact h.runs.account⟩

theorem inv_enqueued {s : state_t n} (h : Inv s) {k : ℕ} (hok : SlotRead s (.enqueue k))
    {work : work_t} {pool : thread_pool_t} (henq : Enqueued s work pool) :
    Inv { s with
      pool := pool
      entering := s.entering.eraseIdx k
      releasing := s.releasing + 1
      queue := s.queue ++ [(top_slot s.pool, work)]
      accepted := s.accepted ++ [work] } where
  pool := by
    rw [List.map_append]
    exact henq.inv
  queued := by
    intro e he
    dsimp only at he ⊢
    rcases List.mem_append.mp he with he | he
    · have hne : e.1 ≠ top_slot s.pool := fun heq =>
        henq.fresh (heq ▸ List.mem_map_of_mem he)
      rw [henq.other e.1 hne]
      exact h.queued e he
    · rw [List.mem_singleton] at he
      rw [he]
      exact henq.stored
  unread := by
    -- here the condition is needed: the slot taken must not be one a worker still reads
    intro w slot work' hw
    dsimp only at hw ⊢
    have hne : slot ≠ top_slot s.pool := fun heq => hok w (by rw [hw, unread_slot, heq])
    rw [henq.other slot hne]
    exact h.unread w slot work' hw
  runs := by
    refine ⟨h.runs.called, ?_⟩
    dsimp only
    rw [List.map_append, ← Multiset.coe_add, ← Multiset.coe_add, h.runs.account]
    simp only [List.map_cons, List.map_nil]
    abel

theorem inv_dequeued {s : state_t n} (h : Inv s) {w : Fin n} (hw : s.workers w = .lock)
    {slot : slot_t} {work : work_t} {rest : List (slot_t × work_t)} {pool : thread_pool_t}
    (hqueue : s.queue = (slot, work) :: rest) (hpool : PoolInv pool (rest.map Prod.fst))
    (hitems : pool.work_items = s.pool.work_items) :
    Inv (goto { s with pool := pool, queue := rest } w (.call slot work)) := by
  have hqueued := h.queued
  rw [hqueue] at hqueued
  refine ⟨hpool, ?_, ?_, ⟨h.runs.called, ?_⟩⟩
  · intro e he
    have hitem := hqueued e (List.mem_cons_of_mem _ he)
    rw [← hitems] at hitem
    exact hitem
  · intro v slot' work' hv
    -- the worker's slot was queued until now; the items are where they were
    have hitem : (s.pool.work_items slot').work = work' := by
      by_cases hvw : v = w
      · rw [hvw, goto_workers_self, worker_t.call.injEq] at hv
        obtain ⟨rfl, rfl⟩ := hv
        exact hqueued _ List.mem_cons_self
      · rw [goto_workers_of_ne _ hvw] at hv
        exact h.unread v slot' work' hv
    rw [← hitems] at hitem
    exact hitem
  · have hsum := sum_goto held { s with pool := pool, queue := rest } w (.call slot work)
    have haccount := h.runs.account
    rw [hqueue, List.map_cons, ← Multiset.cons_coe, ← Multiset.singleton_add] at haccount
    dsimp only at hsum
    have hlock : held .lock = 0 := rfl
    rw [hw, hlock, add_zero] at hsum
    rw [hsum, held]
    apply haccount.trans
    unfold goto
    abel

theorem inv_called {s : state_t n} (h : Inv s) {w : Fin n} {slot : slot_t} {work : work_t}
    (hw : s.workers w = .call slot work) :
    Inv (goto { s with calls := s.calls ++ [(work, (s.pool.work_items slot).work)] } w .busy) := by
  -- nobody has written to the slot since the worker dequeued it
  have hread : (s.pool.work_items slot).work = work := h.unread w slot work hw
  rw [hread]
  refine ⟨h.pool, h.queued, ?_, ⟨?_, ?_⟩⟩
  · intro v slot' work' hv
    by_cases hvw : v = w
    · rw [hvw, goto_workers_self] at hv
      exact absurd hv (by simp)
    · rw [goto_workers_of_ne _ hvw] at hv
      exact h.unread v slot' work' hv
  · intro c hc
    rcases List.mem_append.mp hc with hc | hc
    · exact h.runs.called c hc
    · rw [List.mem_singleton] at hc
      rw [hc]
  · have hsum := sum_goto held { s with calls := s.calls ++ [(work, work)] } w .busy
    dsimp only at hsum
    have hbusy : held .busy = 0 := rfl
    rw [hw, hbusy, held, add_zero] at hsum
    apply h.runs.account.trans
    rw [← hsum, goto, List.map_append, ← Multiset.coe_add]
    simp only [List.map_cons, List.map_nil, Multiset.coe_singleton]
    abel

/-- **One step** keeps the invariant, unless it is an enqueue into a slot still to be read. -/
theorem step_inv (s : state_t n) (a : action_t n) (s' : state_t n) (h : Inv s)
    (hok : SlotRead s a) (hstep : step s a = some s') : Inv s' := by
  cases step_stepped h.pool hstep with
  | turned_away => exact h
  | entered => exact inv_frame h rfl rfl rfl rfl rfl
  | refused => exact inv_frame h rfl rfl rfl rfl rfl
  | enqueued hk henq => exact inv_enqueued h hok henq
  | released => exact inv_frame h rfl rfl rfl rfl rfl
  | tested hw => exact inv_goto h (by rw [hw]; rfl) rfl
  | left hw => exact inv_goto h (by rw [hw]; rfl) rfl
  | @acquired w hw =>
      have hframe : Inv { s with work_semaphore := s.work_semaphore - 1 } :=
        inv_frame h rfl rfl rfl rfl rfl
      exact inv_goto hframe (by rw [hw]; rfl) rfl
  | woken hw => exact inv_goto h (by rw [hw]; rfl) rfl
  | found_empty hw => exact inv_goto h (by rw [hw]; rfl) rfl
  | dequeued hw hqueue hpool hitems => exact inv_dequeued h hw hqueue hpool hitems
  | called hw => exact inv_called h hw
  | finished hw => exact inv_goto h (by rw [hw]; rfl) rfl
  | shut_down => exact inv_frame h rfl rfl rfl rfl rfl
  | event_set => exact inv_frame h rfl rfl rfl rfl rfl

/-- **Exactly the queued work is run**, by any number of workers and in any interleaving in
which no enqueue takes a slot that a worker has dequeued and not yet read. The mutex does not keep
an enqueue from that: a slot is on the free stack from the dequeue on, and its fields are read
behind the critical section. `Inv` is the invariant of the runs without it. -/
theorem queued_work_is_run (n : ℕ) (actions : List (action_t n)) (s : state_t n)
    (hok : Meets step SlotRead (init n) actions) (hrun : exec step (init n) actions = some s) :
    RunsQueuedWork s :=
  (exec_invariant step_inv actions (init n) s inv_init hok hrun).runs

/-- Two clients through a pool of two workers. The second is queued while the first is with its
worker: it is given the slot of the first, which has been read by then. -/
def two_clients (w v : Fin 2) : List (action_t 2) :=
  [.queue_work ⟨1, 10⟩, .enqueue 0, .release, .test w, .test v, .acquire w, .dequeue w, .call w,
    .queue_work ⟨1, 20⟩, .enqueue 0, .release, .acquire v, .dequeue v, .finish w, .call v]

theorem queued_work_is_run_two_clients :
    RunsQueuedWork ((exec step (init 2) (two_clients 0 1)).get (by decide)) :=
  queued_work_is_run 2 (two_clients 0 1) _ (by decide) (Option.some_get _).symm

/-- A second client is queued between the worker's dequeue and its read: it is given the
slot the worker is about to read. -/
def second_client_in_between : List (action_t 1) :=
  [.queue_work ⟨1, 10⟩, .enqueue 0, .release, .test 0, .acquire 0, .dequeue 0,
    .queue_work ⟨1, 20⟩, .enqueue 0, .release, .call 0, .finish 0,
    .test 0, .acquire 0, .dequeue 0, .call 0]

/-- The second client is called twice, the first never. -/
theorem second_client_called_twice :
    ∃ s, exec step (init 1) second_client_in_between = some s
      ∧ s.accepted = [⟨1, 10⟩, ⟨1, 20⟩] ∧ s.calls.map Prod.snd = [⟨1, 20⟩, ⟨1, 20⟩]
      ∧ ¬ RunsQueuedWork s := by
  have hrun : (exec step (init 1) second_client_in_between).map (fun s => (s.accepted, s.calls))
      = some ([⟨1, 10⟩, ⟨1, 20⟩], [(⟨1, 10⟩, ⟨1, 20⟩), (⟨1, 20⟩, ⟨1, 20⟩)]) := by decide
  obtain ⟨s, hs, heq⟩ := Option.map_eq_some_iff.mp hrun
  rw [Prod.mk.injEq] at heq
  refine ⟨s, hs, heq.1, by rw [heq.2]; rfl, fun h => ?_⟩
  have hcalled := h.called (⟨1, 10⟩, ⟨1, 20⟩) (by rw [heq.2]; simp)
  exact absurd hcalled (by decide)

end W32HttpServer.PoolSystem
