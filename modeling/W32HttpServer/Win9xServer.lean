/-
The Win9x server around its pool: the accept loop of `run_server_win9x`, the pool, and
`handle_client_win9x` in the workers.

A socket is named by the order in which `accept` returned it, so that a handle value the
system gives out a second time is a second socket. A client context is named by its socket.
`closed` lists the calls of `closesocket` on accepted sockets, whoever makes them.

The socket changes hands three times: the listener accepts it, the queue carries it to a
worker, and the worker's `destroy_client_context` closes it. The exit for a refused item
closes it in the context and then once more (`Win9xServer.step`, `destroy` and `close`).
-/
import Mathlib.Algebra.BigOperators.Group.Finset.Basic
import Mathlib.Data.Fintype.Basic
import Mathlib.Data.Multiset.Range
import Mathlib.Tactic.Abel
import W32HttpServer.Common
import W32HttpServer.Lib.Transition
import W32HttpServer.ThreadPool
import W32HttpServer.PoolSystem

set_option autoImplicit false

namespace W32HttpServer.Win9xServer

open W32HttpServer.Common W32HttpServer.ThreadPool W32HttpServer.Lib.Transition

/-! ## The server -/

/-- Where the listener is in `run_server_win9x`. -/
inductive listener_t
  /-- in front of `while(g_is_server_run)` -/
  | test
  /-- in `accept` -/
  | accept
  /-- in front of `create_client_context` -/
  | create (csocket : ℕ)
  /-- in front of the tests of `thread_pool_queue_work` -/
  | queue_work (csocket : ℕ)
  /-- in front of its mutex -/
  | lock (csocket : ℕ)
  /-- the item is queued, the semaphore not yet released -/
  | release
  /-- "Failed to queue client work" -/
  | refused (csocket : ℕ)
  /-- the context is destroyed, `closesocket(csocket)` is next -/
  | close (csocket : ℕ)
  /-- behind the loop -/
  | done
  deriving DecidableEq

structure server_t (n : ℕ) where
  pool : PoolSystem.state_t n
  g_is_server_run : Bool
  listener : listener_t
  /-- how many sockets `accept` has returned -/
  accepted : ℕ
  /-- the context each worker is in `handle_client_win9x` with -/
  handling : Fin n → Option ℕ
  closed : List ℕ

inductive action_t (n : ℕ)
  | stop
  | test
  | accept (returned : Bool)
  | create_client_context (created : Bool)
  | queue_work
  | enqueue
  | release
  | destroy
  | close
  | call (w : Fin n)
  | handled (w : Fin n)
  | pool (a : PoolSystem.action_t n)
  deriving DecidableEq

variable {n : ℕ}

def init (n : ℕ) : server_t n where
  pool := PoolSystem.init n
  g_is_server_run := true
  listener := .test
  accepted := 0
  handling := fun _ => none
  closed := []

/-- `thread_pool_queue_work(&pool, handle_client_win9x, client_ctx)`. -/
def client_work (csocket : ℕ) : work_t := ⟨1, csocket⟩

/-- The steps of the pool that neither the listener nor `handle_client_win9x` is part of. -/
def is_own_step : PoolSystem.action_t n → Bool
  | .test _ | .acquire _ | .event _ | .dequeue _ | .shutdown | .set_event => true
  | _ => false

def pool_step (s : server_t n) (a : PoolSystem.action_t n) : Option (server_t n) :=
  (PoolSystem.step s.pool a).map fun pool => { s with pool := pool }

def step (s : server_t n) : action_t n → Option (server_t n)
  | .stop => some { s with g_is_server_run := false }
  | .test =>
      if s.listener = .test then
        some { s with listener := if s.g_is_server_run then .accept else .done }
      else none
  | .accept returned =>
      if s.listener = .accept then
        if returned then
          some { s with listener := .create s.accepted, accepted := s.accepted + 1 }
        else some { s with listener := .done }
      else none
  | .create_client_context created =>
      match s.listener with
      | .create csocket =>
          if created then some { s with listener := .queue_work csocket }
          else some { s with closed := s.closed ++ [csocket], listener := .test }
      | _ => none
  | .queue_work =>
      match s.listener with
      | .queue_work csocket =>
          if s.pool.is_shutdown then some { s with listener := .refused csocket }
          else pool_step { s with listener := .lock csocket } (.queue_work (client_work csocket))
      | _ => none
  | .enqueue =>
      match s.listener with
      | .lock csocket =>
          if s.pool.pool.free_work_count = 0 then
            pool_step { s with listener := .refused csocket } (.enqueue 0)
          else pool_step { s with listener := .release } (.enqueue 0)
      | _ => none
  | .release =>
      if s.listener = .release then pool_step { s with listener := .test } .release else none
  | .destroy =>
      match s.listener with
      | .refused csocket =>
          some { s with closed := s.closed ++ [csocket], listener := .close csocket }
      | _ => none
  | .close =>
      match s.listener with
      -- the context that was destroyed has closed the same socket
      | .close csocket => some { s with closed := s.closed ++ [csocket], listener := .test }
      | _ => none
  | .call w =>
      match s.pool.workers w with
      | .call slot _ =>
          pool_step { s with
            handling := Function.update s.handling w (some (s.pool.pool.work_items slot).param) }
            (.call w)
      | _ => none
  | .handled w =>
      match s.handling w with
      | some csocket =>
          pool_step { s with
            closed := s.closed ++ [csocket]
            handling := Function.update s.handling w none } (.finish w)
      | none => none
  | .pool a => if is_own_step a then pool_step s a else none

/-! ## Who has a socket -/

/-- The socket the listener has in its hands. -/
def listener_has : listener_t → Multiset ℕ
  | .create csocket | .queue_work csocket | .lock csocket | .refused csocket => {csocket}
  | _ => 0

/-- The socket of an item a worker has dequeued and not yet called. -/
def dequeued (pc : PoolSystem.worker_t) : Multiset ℕ := (PoolSystem.held pc).map work_t.param

/-- The socket of the context a worker handles. -/
def handled : Option ℕ → Multiset ℕ
  | some csocket => {csocket}
  | none => 0

/-- The sockets that are queued, or in somebody's hands. -/
def in_use (s : server_t n) : Multiset ℕ :=
  listener_has s.listener + ((s.pool.queue.map fun e => e.2.param : List ℕ) : Multiset ℕ)
    + ∑ w, dequeued (s.pool.workers w) + ∑ w, handled (s.handling w)

/-- No accepted socket is closed twice, and one that is neither queued nor being handled has
been closed. -/
structure ClosedOnce (s : server_t n) : Prop where
  at_most : ∀ csocket, s.closed.count csocket ≤ 1
  exactly : ∀ csocket < s.accepted, csocket ∉ in_use s → s.closed.count csocket = 1

/-- `thread_pool_queue_work` refuses nothing, and its enqueue takes a slot that was read. -/
def Admitted (s : server_t n) : action_t n → Prop
  | .queue_work => s.pool.is_shutdown = false
  | .enqueue => s.pool.pool.free_work_count ≠ 0 ∧ PoolSystem.SlotRead s.pool (.enqueue 0)
  | _ => True

instance (s : server_t n) : ∀ a, Decidable (Admitted s a)
  | .queue_work => inferInstanceAs (Decidable (s.pool.is_shutdown = false))
  | .enqueue => inferInstanceAs (Decidable
      (s.pool.pool.free_work_count ≠ 0 ∧ PoolSystem.SlotRead s.pool (.enqueue 0)))
  | .stop | .test | .accept _ | .create_client_context _ | .release | .destroy | .close | .call _
  | .handled _ | .pool _ => isTrue trivial

/-! ## The account of the sockets -/

/-- The calls of `thread_pool_queue_work` at the mutex. -/
def at_mutex : listener_t → List work_t
  | .lock csocket => [client_work csocket]
  | _ => []

structure Inv (s : server_t n) : Prop where
  pool : PoolSystem.Inv s.pool
  entering : s.pool.entering = at_mutex s.listener
  handling : ∀ w, (s.handling w).isSome = true ↔ s.pool.workers w = .busy
  not_refused : ∀ csocket, s.listener ≠ .refused csocket ∧ s.listener ≠ .close csocket
  account : Multiset.range s.accepted = (s.closed : Multiset ℕ) + in_use s

theorem inv_init : Inv (init n) where
  pool := PoolSystem.inv_init
  entering := rfl
  handling := by simp [init, PoolSystem.init]
  not_refused := by simp [init]
  account := by simp [init, in_use, listener_has, PoolSystem.init, dequeued, handled,
    PoolSystem.held]

/-- The account says that every socket is accounted for once. -/
theorem Inv.closedOnce {s : server_t n} (h : Inv s) : ClosedOnce s := by
  have hcount : ∀ csocket, s.closed.count csocket + (in_use s).count csocket
      = (Multiset.range s.accepted).count csocket := by
    intro csocket
    rw [h.account, Multiset.count_add, Multiset.coe_count]
  have hnodup : ∀ csocket, (Multiset.range s.accepted).count csocket ≤ 1 :=
    fun csocket => Multiset.nodup_iff_count_le_one.mp (Multiset.nodup_range _) csocket
  refine ⟨fun csocket => ?_, fun csocket hlt hfree => ?_⟩
  · have := hcount csocket
    have := hnodup csocket
    omega
  · have hsum := hcount csocket
    have hone : (Multiset.range s.accepted).count csocket = 1 :=
      Multiset.count_eq_one_of_mem (Multiset.nodup_range _) (Multiset.mem_range.mpr hlt)
    have hnone : (in_use s).count csocket = 0 := Multiset.count_eq_zero.mpr hfree
    omega

/-! ## What a step does to the account -/

theorem pool_step_eq_some {s s' : server_t n} {a : PoolSystem.action_t n}
    (h : pool_step s a = some s') :
    ∃ pool, PoolSystem.step s.pool a = some pool ∧ s' = { s with pool := pool } := by
  obtain ⟨pool, hpool, rfl⟩ := Option.map_eq_some_iff.mp h
  exact ⟨pool, hpool, rfl⟩

/-- The sockets the pool has: queued, or dequeued and not yet called. -/
def pool_has (pool : PoolSystem.state_t n) : Multiset ℕ :=
  ((pool.queue.map fun e => e.2.param : List ℕ) : Multiset ℕ) + ∑ w, dequeued (pool.workers w)

theorem in_use_eq (s : server_t n) :
    in_use s = listener_has s.listener + pool_has s.pool + ∑ w, handled (s.handling w) := by
  unfold in_use pool_has
  abel

/-- A worker moves and brings its sockets along. -/
theorem pool_has_goto {pool : PoolSystem.state_t n} {w : Fin n} {pc : PoolSystem.worker_t}
    (h : dequeued pc = dequeued (pool.workers w)) :
    pool_has (PoolSystem.goto pool w pc) = pool_has pool := by
  have hsum := PoolSystem.sum_goto dequeued pool w pc
  rw [h, add_left_inj] at hsum
  unfold pool_has
  rw [hsum]
  rfl

theorem busy_goto {pool : PoolSystem.state_t n} {w : Fin n} {pc : PoolSystem.worker_t}
    (hold : pool.workers w ≠ .busy) (hnew : pc ≠ .busy) (v : Fin n) :
    (PoolSystem.goto pool w pc).workers v = .busy ↔ pool.workers v = .busy := by
  by_cases hvw : v = w
  · rw [hvw, PoolSystem.goto_workers_self]
    exact iff_of_false hnew hold
  · rw [PoolSystem.goto_workers_of_ne pool hvw]

/-- The steps between listener and handler keep the sockets in the pool. -/
theorem own_step_frame {pool pool' : PoolSystem.state_t n} {a : PoolSystem.action_t n}
    (h : PoolSystem.Inv pool) (hown : is_own_step a = true)
    (hstep : PoolSystem.step pool a = some pool') :
    pool'.entering = pool.entering ∧ (∀ w, pool'.workers w = .busy ↔ pool.workers w = .busy)
      ∧ pool_has pool' = pool_has pool := by
  cases PoolSystem.step_stepped h.pool hstep with
  | tested hw =>
      exact ⟨rfl, busy_goto (by rw [hw]; decide) (by decide), pool_has_goto (by rw [hw]; rfl)⟩
  | left hw =>
      exact ⟨rfl, busy_goto (by rw [hw]; decide) (by decide), pool_has_goto (by rw [hw]; rfl)⟩
  | @acquired w hw =>
      have hold : pool.workers w ≠ .busy := by rw [hw]; decide
      have hbusy := @busy_goto _ { pool with work_semaphore := pool.work_semaphore - 1 } w .lock
        hold (by decide)
      exact ⟨rfl, hbusy, pool_has_goto (by dsimp only; rw [hw]; rfl)⟩
  | woken hw =>
      exact ⟨rfl, busy_goto (by rw [hw]; decide) (by decide), pool_has_goto (by rw [hw]; rfl)⟩
  | found_empty hw =>
      exact ⟨rfl, busy_goto (by rw [hw]; decide) (by decide), pool_has_goto (by rw [hw]; rfl)⟩
  | @dequeued w slot work rest tp hw hqueue =>
      have hold : pool.workers w ≠ .busy := by rw [hw]; decide
      have hbusy := @busy_goto _ { pool with pool := tp, queue := rest } w (.call slot work)
        hold (by simp)
      refine ⟨rfl, hbusy, ?_⟩
      -- the socket goes from the queue to the worker
      have hsum := PoolSystem.sum_goto dequeued { pool with pool := tp, queue := rest } w
        (.call slot work)
      have hlock : dequeued .lock = 0 := rfl
      have hcall : dequeued (.call slot work) = {work.param} := rfl
      dsimp only at hsum
      rw [hw, hlock, add_zero, hcall] at hsum
      unfold pool_has
      rw [hsum, hqueue, List.map_cons, ← Multiset.cons_coe, ← Multiset.singleton_add]
      unfold PoolSystem.goto
      abel
  | shut_down => exact ⟨rfl, fun _ => Iff.rfl, rfl⟩
  | event_set => exact ⟨rfl, fun _ => Iff.rfl, rfl⟩
  | _ => exact absurd hown (by simp [is_own_step])

/-- A step of the listener that the pool has no part in. -/
theorem inv_listener {s : server_t n} (h : Inv s) {listener : listener_t} {closed : List ℕ}
    (hmutex : at_mutex listener = at_mutex s.listener)
    (hrefused : ∀ csocket, listener ≠ .refused csocket ∧ listener ≠ .close csocket)
    (hsame : (closed : Multiset ℕ) + listener_has listener
      = (s.closed : Multiset ℕ) + listener_has s.listener) :
    Inv { s with listener := listener, closed := closed } where
  pool := h.pool
  entering := h.entering.trans hmutex.symm
  handling := h.handling
  not_refused := hrefused
  account := by
    have haccount := h.account
    rw [in_use_eq, add_assoc, ← add_assoc, ← hsame] at haccount
    rw [in_use_eq, haccount]
    dsimp only
    abel

/-- A step of the pool in which the listener moves. -/
theorem inv_pool {s : server_t n} (h : Inv s) {listener : listener_t}
    {pool : PoolSystem.state_t n} (hpool : PoolSystem.Inv pool)
    (hentering : pool.entering = at_mutex listener)
    (hbusy : ∀ w, pool.workers w = .busy ↔ s.pool.workers w = .busy)
    (hrefused : ∀ csocket, listener ≠ .refused csocket ∧ listener ≠ .close csocket)
    (hsame : listener_has listener + pool_has pool
      = listener_has s.listener + pool_has s.pool) :
    Inv { s with listener := listener, pool := pool } where
  pool := hpool
  entering := hentering
  handling := fun w => (h.handling w).trans (hbusy w).symm
  not_refused := hrefused
  account := by
    have haccount := h.account
    rw [in_use_eq, ← hsame] at haccount
    rw [in_use_eq, haccount]

/-- The listener's item is queued: the socket goes with it. -/
theorem inv_enqueue {s s' : server_t n} (h : Inv s) {csocket : ℕ}
    (hlock : s.listener = .lock csocket) (hfree : s.pool.pool.free_work_count ≠ 0)
    (hread : PoolSystem.SlotRead s.pool (.enqueue 0))
    (hstep : pool_step { s with listener := .release } (.enqueue 0) = some s') : Inv s' := by
  obtain ⟨pool, hpool, rfl⟩ := pool_step_eq_some hstep
  have hinv := PoolSystem.step_inv s.pool (.enqueue 0) pool h.pool hread hpool
  have hentering := h.entering
  rw [hlock, at_mutex] at hentering
  have hcount := h.pool.pool.count
  rw [List.length_map] at hcount
  cases PoolSystem.step_stepped h.pool.pool hpool with
  | refused hk hfull => exact absurd hfull (by omega)
  | enqueued hk henq =>
      rw [hentering] at hk
      obtain rfl := Option.some.inj hk
      refine inv_pool h hinv (by rw [hentering]; rfl) (fun _ => Iff.rfl) (by simp) ?_
      rw [hlock]
      unfold pool_has listener_has
      dsimp only
      rw [List.map_append, ← Multiset.coe_add]
      simp only [List.map_cons, List.map_nil, Multiset.coe_singleton, client_work]
      abel

/-- A worker moves into the work function with a context, or out of it without one. -/
theorem Inv.handling_goto {s : server_t n} (h : Inv s) {pool : PoolSystem.state_t n}
    (hworkers : pool.workers = s.pool.workers) {w : Fin n} {pc : PoolSystem.worker_t}
    {context : Option ℕ} (hcontext : context.isSome = true ↔ pc = .busy) (v : Fin n) :
    (Function.update s.handling w context v).isSome = true
      ↔ (PoolSystem.goto pool w pc).workers v = .busy := by
  by_cases hvw : v = w
  · rw [hvw, Function.update_self, PoolSystem.goto_workers_self]
    exact hcontext
  · rw [Function.update_of_ne hvw, PoolSystem.goto_workers_of_ne _ hvw, hworkers]
    exact h.handling v

/-- A worker calls `handle_client_win9x` with the context it dequeued. -/
theorem inv_call {s s' : server_t n} (h : Inv s) {w : Fin n} {slot : slot_t} {work : work_t}
    (hw : s.pool.workers w = .call slot work)
    (hstep : pool_step { s with
      handling := Function.update s.handling w (some (s.pool.pool.work_items slot).param) }
      (.call w) = some s') : Inv s' := by
  obtain ⟨pool, hpool, rfl⟩ := pool_step_eq_some hstep
  have hinv := PoolSystem.step_inv s.pool (.call w) pool h.pool trivial hpool
  -- the slot still holds what was queued in it
  have hparam : (s.pool.pool.work_items slot).param = work.param := by
    rw [← h.pool.unread w slot work hw]
    rfl
  have hnone : s.handling w = none := by
    have hbusy := (h.handling w).not
    rw [hw] at hbusy
    simpa using hbusy
  cases PoolSystem.step_stepped h.pool.pool hpool with
  | @called w slot' work' hw' =>
      rw [hw, PoolSystem.worker_t.call.injEq] at hw'
      obtain ⟨rfl, rfl⟩ := hw'
      refine ⟨hinv, h.entering, h.handling_goto rfl (by simp), h.not_refused, ?_⟩
      have haccount := h.account
      have hdeq := PoolSystem.sum_goto dequeued { s.pool with
        calls := s.pool.calls ++ [(work, (s.pool.pool.work_items slot).work)] } w .busy
      have hhand := sum_update handled s.handling w (some (s.pool.pool.work_items slot).param)
      have hbusy : dequeued .busy = 0 := rfl
      have hcall : dequeued (.call slot work) = {work.param} := rfl
      dsimp only at hdeq
      rw [hw, hbusy, hcall, add_zero] at hdeq
      rw [hnone, hparam, handled, handled, add_zero] at hhand
      rw [haccount]
      unfold in_use
      dsimp only
      rw [hparam, hhand, ← hdeq]
      unfold PoolSystem.goto
      abel

/-- `destroy_client_context` at the end of `handle_client_win9x`. -/
theorem inv_handled {s s' : server_t n} (h : Inv s) {w : Fin n} {csocket : ℕ}
    (hw : s.handling w = some csocket)
    (hstep : pool_step { s with
      closed := s.closed ++ [csocket]
      handling := Function.update s.handling w none } (.finish w) = some s') : Inv s' := by
  obtain ⟨pool, hpool, rfl⟩ := pool_step_eq_some hstep
  have hinv := PoolSystem.step_inv s.pool (.finish w) pool h.pool trivial hpool
  cases PoolSystem.step_stepped h.pool.pool hpool with
  | finished hbusy =>
      refine ⟨hinv, h.entering, h.handling_goto rfl (by simp), h.not_refused, ?_⟩
      have haccount := h.account
      have hsame : pool_has (PoolSystem.goto s.pool w .test) = pool_has s.pool :=
        pool_has_goto (by rw [hbusy]; rfl)
      have hhand := sum_update handled s.handling w none
      rw [hw, handled, handled, add_zero] at hhand
      rw [haccount, in_use_eq, in_use_eq]
      dsimp only
      rw [hsame, ← hhand, ← Multiset.coe_add, Multiset.coe_singleton]
      abel

/-- **One step** keeps the account, unless `thread_pool_queue_work` refuses an item or takes
a slot still to be read. -/
theorem step_inv (s : server_t n) (a : action_t n) (s' : server_t n) (h : Inv s)
    (hok : Admitted s a) (hstep : step s a = some s') : Inv s' := by
  cases a with
  | stop =>
      obtain rfl := Option.some.inj hstep
      exact ⟨h.pool, h.entering, h.handling, h.not_refused, h.account⟩
  | test =>
      rw [step] at hstep
      -- in the loop, or out of it: no socket is touched
      split_ifs at hstep with htest hrun <;> obtain rfl := Option.some.inj hstep
      · exact inv_listener h (by rw [htest]; rfl) (by simp) (by rw [htest]; rfl)
      · exact inv_listener h (by rw [htest]; rfl) (by simp) (by rw [htest]; rfl)
  | accept returned =>
      rw [step] at hstep
      split_ifs at hstep with haccept hreturned <;> obtain rfl := Option.some.inj hstep
      · refine ⟨h.pool, ?_, h.handling, by simp, ?_⟩
        · rw [h.entering, haccept]
          rfl
        · -- a new socket, in the listener's hands
          have haccount := h.account
          have hnone : listener_has .accept = 0 := rfl
          have hnew : listener_has (.create s.accepted) = {s.accepted} := rfl
          rw [in_use_eq, haccept, hnone] at haccount
          rw [Multiset.range_succ, haccount, in_use_eq, hnew, ← Multiset.singleton_add]
          abel
      · -- `accept` has failed, and the listener goes round
        exact inv_listener h (by rw [haccept]; rfl) (by simp) (by rw [haccept]; rfl)
  | create_client_context created =>
      rw [step] at hstep
      split at hstep
      · next csocket hcreate =>
          -- a context that could not be made has its socket closed at once
          split_ifs at hstep <;> obtain rfl := Option.some.inj hstep
          · exact inv_listener h (by rw [hcreate]; rfl) (by simp) (by rw [hcreate]; rfl)
          · refine inv_listener h (by rw [hcreate]; rfl) (by simp) ?_
            have hhas : listener_has (.create csocket) = {csocket} := rfl
            have hnone : listener_has .test = 0 := rfl
            rw [hcreate, ← Multiset.coe_add, Multiset.coe_singleton, hhas, hnone, add_zero]
      · exact absurd hstep (by simp)
  | queue_work =>
      rw [step] at hstep
      split at hstep
      · next csocket hqueue =>
          -- no item is refused by the flag in an admitted run
          have hrun : s.pool.is_shutdown = false := hok
          rw [hrun, if_neg (by simp)] at hstep
          obtain ⟨pool, hpool, rfl⟩ := pool_step_eq_some hstep
          have hinv := PoolSystem.step_inv s.pool (.queue_work (client_work csocket)) pool h.pool
            trivial hpool
          cases PoolSystem.step_stepped h.pool.pool hpool with
          | turned_away hrefused =>
              exact absurd hrefused (by rw [hrun]; simp [client_work])
          | entered =>
              refine inv_pool h hinv ?_ (fun _ => Iff.rfl) (by simp) (by rw [hqueue]; rfl)
              rw [h.entering, hqueue]
              rfl
      · exact absurd hstep (by simp)
  | enqueue =>
      rw [step] at hstep
      split at hstep
      · next csocket hlock =>
          -- nor by a full queue
          rw [if_neg hok.1] at hstep
          exact inv_enqueue h hlock hok.1 hok.2 hstep
      · exact absurd hstep (by simp)
  | release =>
      rw [step] at hstep
      split_ifs at hstep with hrelease
      obtain ⟨pool, hpool, rfl⟩ := pool_step_eq_some hstep
      have hinv := PoolSystem.step_inv s.pool .release pool h.pool trivial hpool
      cases PoolSystem.step_stepped h.pool.pool hpool with
      | released =>
          refine inv_pool h hinv ?_ (fun _ => Iff.rfl) (by simp) (by rw [hrelease]; rfl)
          rw [h.entering, hrelease]
          rfl
  | destroy =>
      rw [step] at hstep
      split at hstep
      · -- so the exit for a refused item is never reached
        next csocket hrefused => exact absurd hrefused (h.not_refused csocket).1
      · exact absurd hstep (by simp)
  | close =>
      rw [step] at hstep
      split at hstep
      · next csocket hclose => exact absurd hclose (h.not_refused csocket).2
      · exact absurd hstep (by simp)
  | call w =>
      rw [step] at hstep
      split at hstep
      · next slot work hw => exact inv_call h hw hstep
      · exact absurd hstep (by simp)
  | handled w =>
      rw [step] at hstep
      split at hstep
      · next csocket hw => exact inv_handled h hw hstep
      · exact absurd hstep (by simp)
  | pool a =>
      rw [step] at hstep
      split_ifs at hstep with hown
      obtain ⟨pool, hpool, rfl⟩ := pool_step_eq_some hstep
      -- the steps of the workers enqueue nothing
      have hread : PoolSystem.SlotRead s.pool a := by
        cases a with
        | enqueue k => exact absurd hown (by simp [is_own_step])
        | _ => trivial
      obtain ⟨hentering, hbusy, hhas⟩ := own_step_frame h.pool hown hpool
      exact inv_pool h (PoolSystem.step_inv s.pool a pool h.pool hread hpool)
        (hentering.trans h.entering) hbusy h.not_refused (by rw [hhas])

/-- **Every accepted socket is closed exactly once**, in a run in which no item is refused
and no enqueue takes a slot that a worker has dequeued and not yet read. A refused item has its
socket closed by `destroy_client_context` and again behind it; a slot that is taken too early has
one client served twice and the other never. -/
theorem accepted_socket_closed_once (n : ℕ) (actions : List (action_t n)) (s : server_t n)
    (hok : Meets step Admitted (init n) actions) (hrun : exec step (init n) actions = some s) :
    ClosedOnce s :=
  (exec_invariant step_inv actions (init n) s inv_init hok hrun).closedOnce

/-- Two clients, each accepted, queued and handled by its own worker. The slot of the first is
read when the second is queued into it, and the first worker is still in the request. -/
def two_clients (w v : Fin 2) : List (action_t 2) :=
  [.test, .accept true, .create_client_context true, .queue_work, .enqueue, .release,
    .pool (.test w), .pool (.test v), .pool (.acquire w), .pool (.dequeue w), .call w,
    .test, .accept true, .create_client_context true, .queue_work, .enqueue, .release,
    .pool (.acquire v), .pool (.dequeue v), .call v, .handled w, .handled v]

theorem accepted_socket_closed_once_two_clients :
    ClosedOnce ((exec step (init 2) (two_clients 0 1)).get (by decide)) :=
  accepted_socket_closed_once 2 (two_clients 0 1) _ (by decide) (Option.some_get _).symm

/-- A client is accepted while the server is stopped: its item is refused. -/
def refused_client : List (action_t 1) :=
  [.test, .accept true, .stop, .pool .shutdown, .create_client_context true, .queue_work,
    .destroy, .close]

theorem refused_client_closed_twice :
    ∃ s, exec step (init 1) refused_client = some s ∧ s.closed = [0, 0] ∧ ¬ ClosedOnce s := by
  have hrun : (exec step (init 1) refused_client).map server_t.closed = some [0, 0] := by decide
  obtain ⟨s, hs, hclosed⟩ := Option.map_eq_some_iff.mp hrun
  refine ⟨s, hs, hclosed, fun h => ?_⟩
  have htwice := h.at_most 0
  rw [hclosed] at htwice
  exact absurd htwice (by decide)

end W32HttpServer.Win9xServer
