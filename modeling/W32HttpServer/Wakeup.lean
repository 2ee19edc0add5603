/-
The semaphore of the Win9x pool against its queue.

A producer queues an item in the critical section and releases the semaphore behind it; a
worker acquires the semaphore and takes an item in a critical section of its own. Between
these moments semaphore and queue disagree, by as many threads as are between their two
steps. `Counted` is that account, and every step of the pool keeps it, a full queue and a
shutdown included. So no acquire is ever in vain, and since the queue has room for
`MAX_PENDING_WORK` items the semaphore never reaches its maximum with a release to come.
-/
import Mathlib.Algebra.BigOperators.Group.Finset.Basic
import Mathlib.Algebra.Order.BigOperators.Group.Finset
import Mathlib.Data.Fintype.Basic
import W32HttpServer.Common
import W32HttpServer.Lib.Transition
import W32HttpServer.ThreadPool
import W32HttpServer.PoolSystem

set_option autoImplicit false

namespace W32HttpServer.Wakeup

open W32HttpServer.Common W32HttpServer.ThreadPool W32HttpServer.PoolSystem
open W32HttpServer.Lib.Transition

variable {n : ℕ}

/-! ## The account -/

/-- The wakeup a worker has taken and not yet spent on an item. -/
def taken : worker_t → ℕ
  | .lock => 1
  | _ => 0

/-- The wakeups that are on their way to an item: in the semaphore, with a worker in front
of its dequeue, or with a producer in front of its release. -/
def wakeups (s : state_t n) : ℕ :=
  s.work_semaphore + ∑ w, taken (s.workers w) + s.releasing

structure Counted (s : state_t n) : Prop where
  pool : PoolInv s.pool (s.queue.map Prod.fst)
  count : wakeups s = s.queue.length

theorem counted_init : Counted (init n) where
  pool := poolInv_init
  count := by simp [wakeups, init, taken]

/-- The queue never holds more than the pool has slots. -/
theorem Counted.length_le {s : state_t n} (h : Counted s) :
    s.queue.length ≤ MAX_PENDING_WORK := by
  have hcount := h.pool.count
  rw [List.length_map] at hcount
  omega

/-- A worker that takes no wakeup and spends none. -/
theorem counted_goto {s : state_t n} (h : Counted s) {w : Fin n} {pc : worker_t}
    (hold : taken (s.workers w) = 0) (hnew : taken pc = 0) : Counted (goto s w pc) := by
  have hsum := sum_goto taken s w pc
  have hcount := h.count
  refine ⟨h.pool, ?_⟩
  unfold wakeups at hcount ⊢
  rw [hold, hnew] at hsum
  rw [add_zero] at hsum
  rw [hsum]
  exact hcount

/-- A release while an item is queued for it finds room in the semaphore. -/
theorem Counted.semaphore_lt {s : state_t n} (h : Counted s) (hrel : s.releasing ≠ 0) :
    s.work_semaphore < MAX_PENDING_WORK := by
  have hlen := h.length_le
  have hcount := h.count
  unfold wakeups at hcount
  omega

/-- A worker in front of its dequeue finds an item. -/
theorem Counted.queue_ne_nil {s : state_t n} (h : Counted s) {w : Fin n}
    (hw : s.workers w = .lock) : s.queue ≠ [] := by
  intro hnil
  have hcount := h.count
  have hone : taken (s.workers w) ≤ ∑ v, taken (s.workers v) :=
    Finset.single_le_sum (f := fun v => taken (s.workers v)) (fun _ _ => Nat.zero_le _)
      (Finset.mem_univ w)
  rw [hw, taken] at hone
  rw [hnil, List.length_nil, wakeups] at hcount
  omega

/-- **One step** keeps the account. -/
theorem step_counted (s : state_t n) (a : action_t n) (s' : state_t n) (h : Counted s)
    (hstep : step s a = some s') : Counted s' := by
  have hcount := h.count
  unfold wakeups at hcount
  cases step_stepped h.pool hstep with
  | turned_away => exact h
  | entered => exact ⟨h.pool, hcount⟩
  | refused => exact ⟨h.pool, hcount⟩
  | enqueued hk henq =>
      -- one more in the queue, and one more producer in front of the semaphore
      refine ⟨?_, ?_⟩
      · rw [List.map_append]
        exact henq.inv
      · rw [wakeups, List.length_append, List.length_singleton]
        dsimp only
        omega
  | released hrel =>
      refine ⟨h.pool, ?_⟩
      -- the release is not lost at the maximum
      have hroom := h.semaphore_lt hrel
      unfold wakeups
      dsimp only
      rw [if_pos hroom]
      omega
  | tested hw => exact counted_goto h (by rw [hw]; rfl) rfl
  | left hw => exact counted_goto h (by rw [hw]; rfl) rfl
  | @acquired w hw hsem =>
      refine ⟨h.pool, ?_⟩
      -- what the semaphore loses the worker has taken
      have hsum := sum_goto taken { s with work_semaphore := s.work_semaphore - 1 } w .lock
      have hwait : taken .wait = 0 := rfl
      have hlock : taken .lock = 1 := rfl
      dsimp only at hsum
      rw [hw, hwait, hlock, add_zero] at hsum
      unfold wakeups
      rw [hsum]
      unfold goto
      dsimp only
      omega
  | woken hw => exact counted_goto h (by rw [hw]; rfl) rfl
  | found_empty hw hnil => exact absurd hnil (h.queue_ne_nil hw)
  | @dequeued w slot work rest pool hw hqueue hpool =>
      refine ⟨hpool, ?_⟩
      -- and gives back with the item it takes
      have hsum := sum_goto taken { s with pool := pool, queue := rest } w (.call slot work)
      have hlock : taken .lock = 1 := rfl
      have hcall : taken (.call slot work) = 0 := rfl
      dsimp only at hsum
      rw [hw, hlock, hcall, add_zero] at hsum
      rw [hqueue, List.length_cons] at hcount
      unfold wakeups
      unfold goto at hsum ⊢
      dsimp only at hsum ⊢
      omega
  | @called w slot work hw =>
      have hframe : Counted { s with
          calls := s.calls ++ [(work, (s.pool.work_items slot).work)] } := ⟨h.pool, hcount⟩
      exact counted_goto hframe (by rw [hw]; rfl) rfl
  | finished hw => exact counted_goto h (by rw [hw]; rfl) rfl
  | shut_down => exact ⟨h.pool, hcount⟩
  | event_set => exact ⟨h.pool, hcount⟩

/-- **No wakeup is lost or invented**, by any number of producers and workers and in any
interleaving: a worker that acquired the semaphore finds an item to dequeue, and a release
never meets a semaphore at its maximum. Both are read off `Counted`, which says how far the
semaphore and the queue are apart. -/
theorem no_wakeup_lost (n : ℕ) (actions : List (action_t n)) (s : state_t n)
    (hrun : exec step (init n) actions = some s) :
    ∃ q, PoolInv s.pool q ∧ wakeups s = q.length
      ∧ (∀ w, s.workers w = .lock → (dequeue s.pool).isSome = true)
      ∧ s.work_semaphore ≤ MAX_PENDING_WORK
      ∧ (0 < s.releasing → s.work_semaphore < MAX_PENDING_WORK) := by
  have h := exec_preserves step_counted actions (init n) s counted_init hrun
  refine ⟨s.queue.map Prod.fst, h.pool, ?_, fun w hw => ?_, ?_, fun hrel => ?_⟩
  · rw [List.length_map]
    exact h.count
  · rcases dequeue_spec h.pool with ⟨hnil, -⟩ | ⟨i, q, pool, -, hdeq, -, -⟩
    · exact absurd (List.map_eq_nil_iff.mp hnil) (h.queue_ne_nil hw)
    · rw [hdeq]
      rfl
  · have hlen := h.length_le
    have hcount := h.count
    unfold wakeups at hcount
    omega
  · exact h.semaphore_lt (by omega)

/-- Two clients through a pool of two workers, one of them in front of its dequeue. -/
def two_clients : List (action_t 2) :=
  [.queue_work ⟨1, 10⟩, .queue_work ⟨1, 20⟩, .enqueue 1, .enqueue 0, .release, .test 0, .acquire 0]

def two_clients_state : state_t 2 := (exec step (init 2) two_clients).get (by decide)

theorem no_wakeup_lost_two_clients :
    ∃ q, PoolInv two_clients_state.pool q ∧ wakeups two_clients_state = q.length
      ∧ (∀ w, two_clients_state.workers w = .lock → (dequeue two_clients_state.pool).isSome = true)
      ∧ two_clients_state.work_semaphore ≤ MAX_PENDING_WORK
      ∧ (0 < two_clients_state.releasing →
        two_clients_state.work_semaphore < MAX_PENDING_WORK) :=
  no_wakeup_lost 2 two_clients two_clients_state (Option.some_get _).symm

end W32HttpServer.Wakeup
