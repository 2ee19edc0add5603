/-
The work queue of the Win9x pool: `thread_pool_t` and the two critical sections on it,
from thread_pool.c.

The queue is a linked list through `work_items`, threaded by `next`, and the slots that
are not in it are on the stack `free_work_items`. `PoolInv pool q` says that the list is
`q`, first slot first, and that list and stack together hold every slot once; both sections
keep it, and through it the pool is a bounded FIFO queue of slots.

The item a dequeue returns is on the free stack already when the section ends. Its fields
are still what the enqueue wrote, and stay so until the slot is taken again.
-/
import Mathlib.Data.List.Nodup
import Mathlib.Data.Fintype.Card
import W32HttpServer.Common
import W32HttpServer.Lib.LinkedList
import W32HttpServer.Lib.Machine

set_option autoImplicit false

namespace W32HttpServer.ThreadPool

open W32HttpServer.Common W32HttpServer.Lib.LinkedList W32HttpServer.Lib.Machine

/-! ## Data -/

abbrev MAX_PENDING_WORK : ℕ := 64

/-- A pointer into `work_items`, or an index on the free stack. -/
abbrev slot_t := Fin MAX_PENDING_WORK

/-- The arguments of `thread_pool_queue_work`: a function and what it is called with. -/
structure work_t where
  work_func : ℕ
  param : ℕ
  deriving DecidableEq

structure work_item_t where
  work_func : ℕ
  param : ℕ
  next : Option slot_t
  deriving DecidableEq

/-- The call an item stands for. -/
def work_item_t.work (item : work_item_t) : work_t := ⟨item.work_func, item.param⟩

/-- The fields the queue operations use. -/
structure thread_pool_t where
  work_queue_head : Option slot_t
  work_queue_tail : Option slot_t
  work_items : slot_t → work_item_t
  free_work_items : ℕ → slot_t
  free_work_count : ℕ

/-! ## Operations -/

/-- The queue as `thread_pool_init` leaves it. -/
def thread_pool_init : thread_pool_t where
  work_queue_head := none
  work_queue_tail := none
  work_items := fun _ => ⟨0, 0, none⟩
  free_work_items := fun i => Fin.ofNat MAX_PENDING_WORK i
  free_work_count := MAX_PENDING_WORK

/-- The slot the next enqueue takes. -/
def top_slot (pool : thread_pool_t) : slot_t := pool.free_work_items (pool.free_work_count - 1)

/-- `thread_pool_queue_work` under the mutex; `none` is "No free work items". -/
def enqueue (pool : thread_pool_t) (work : work_t) : Option thread_pool_t :=
  if pool.free_work_count = 0 then none
  else
    let item := top_slot pool
    let items := Function.update pool.work_items item ⟨work.work_func, work.param, none⟩
    let pool := { pool with free_work_count := pool.free_work_count - 1 }
    match pool.work_queue_head, pool.work_queue_tail with
    | none, _ =>
        some { pool with work_items := items, work_queue_head := item, work_queue_tail := item }
    | some _, some tail =>
        some { pool with
          work_items := Function.update items tail { items tail with next := item }
          work_queue_tail := item }
    -- `work_queue_tail->next` through a null pointer
    | some _, none => none

/-- `worker_thread_proc` under the mutex; `none` is an empty queue. -/
def dequeue (pool : thread_pool_t) : Option (slot_t × thread_pool_t) :=
  match pool.work_queue_head with
  | none => none
  | some work_item =>
      let head := (pool.work_items work_item).next
      some (work_item, { pool with
        work_queue_head := head
        work_queue_tail := if head = none then none else pool.work_queue_tail
        -- from here on the slot can be taken again, while the caller holds a pointer to it
        free_work_items := Function.update pool.free_work_items pool.free_work_count work_item
        free_work_count := pool.free_work_count + 1 })

/-! ## The queue the pool stands for -/

/-- The slots on the free stack, bottom first. -/
def free_slots (pool : thread_pool_t) : List slot_t :=
  (List.range pool.free_work_count).map pool.free_work_items

structure PoolInv (pool : thread_pool_t) (q : List slot_t) : Prop where
  chain : Chain (fun i => (pool.work_items i).next) pool.work_queue_head q
  tail : pool.work_queue_tail = q.getLast?
  nodup : (free_slots pool ++ q).Nodup
  count : pool.free_work_count + q.length = MAX_PENDING_WORK

theorem poolInv_init : PoolInv thread_pool_init [] where
  chain := .nil
  tail := rfl
  nodup := by decide
  count := rfl

theorem next_update (items : slot_t → work_item_t) (i : slot_t) (item : work_item_t) :
    (fun j => (Function.update items i item j).next)
      = Function.update (fun j => (items j).next) i item.next := by
  funext j
  by_cases h : j = i
  · rw [h, Function.update_self, Function.update_self]
  · rw [Function.update_of_ne h, Function.update_of_ne h]

/-- The stack without its top. -/
theorem free_slots_top {pool : thread_pool_t} (h : pool.free_work_count ≠ 0) :
    free_slots pool
      = (List.range (pool.free_work_count - 1)).map pool.free_work_items ++ [top_slot pool] := by
  obtain ⟨n, hn⟩ : ∃ n, pool.free_work_count = n + 1 := ⟨pool.free_work_count - 1, by omega⟩
  rw [free_slots, top_slot, hn, Nat.add_sub_cancel, List.range_succ, List.map_append]
  rfl

/-- The slot an enqueue takes is not in the queue. -/
theorem top_slot_fresh {pool : thread_pool_t} {q : List slot_t} (h : PoolInv pool q)
    (hfree : pool.free_work_count ≠ 0) : top_slot pool ∉ q := by
  intro hmem
  have hnodup := h.nodup
  rw [free_slots_top hfree] at hnodup
  exact (List.nodup_append.mp hnodup).2.2 _ (by simp) _ hmem rfl

/-- The item an enqueue writes. -/
def fresh_item (work : work_t) : work_item_t := ⟨work.work_func, work.param, none⟩

theorem enqueue_first {pool : thread_pool_t} (hfree : pool.free_work_count ≠ 0)
    (hhead : pool.work_queue_head = none) (work : work_t) :
    enqueue pool work = some { pool with
      free_work_count := pool.free_work_count - 1
      work_items := Function.update pool.work_items (top_slot pool) (fresh_item work)
      work_queue_head := some (top_slot pool)
      work_queue_tail := some (top_slot pool) } := by
  rw [enqueue, if_neg hfree]
  simp only [hhead, fresh_item]

theorem enqueue_behind {pool : thread_pool_t} (hfree : pool.free_work_count ≠ 0) {i t : slot_t}
    (hhead : pool.work_queue_head = some i) (htail : pool.work_queue_tail = some t)
    (ht : t ≠ top_slot pool) (work : work_t) :
    enqueue pool work = some { pool with
      free_work_count := pool.free_work_count - 1
      work_items := Function.update
        (Function.update pool.work_items (top_slot pool) (fresh_item work)) t
        { pool.work_items t with next := some (top_slot pool) }
      work_queue_tail := some (top_slot pool) } := by
  rw [enqueue, if_neg hfree]
  simp only [hhead, htail, fresh_item, Function.update_of_ne ht]

theorem dequeue_first {pool : thread_pool_t} {i : slot_t} (hhead : pool.work_queue_head = some i) :
    dequeue pool = some (i, { pool with
      work_queue_head := (pool.work_items i).next
      work_queue_tail := if (pool.work_items i).next = none then none else pool.work_queue_tail
      free_work_items := Function.update pool.free_work_items pool.free_work_count i
      free_work_count := pool.free_work_count + 1 }) := by
  rw [dequeue, hhead]

/-- **Enqueue** is refused exactly when the queue is full; otherwise the work stands in a
fresh slot at its end, and in the other slots nothing but a link changes. -/
theorem enqueue_spec {pool : thread_pool_t} {q : List slot_t} (h : PoolInv pool q)
    (work : work_t) :
    (q.length = MAX_PENDING_WORK ∧ enqueue pool work = none)
      ∨ ∃ pool', enqueue pool work = some pool' ∧ q.length < MAX_PENDING_WORK
        ∧ top_slot pool ∉ q ∧ PoolInv pool' (q ++ [top_slot pool])
        ∧ (pool'.work_items (top_slot pool)).work = work
        ∧ ∀ j, j ≠ top_slot pool → (pool'.work_items j).work = (pool.work_items j).work := by
  have hcount := h.count
  by_cases hfull : pool.free_work_count = 0
  · exact Or.inl ⟨by omega, by rw [enqueue, if_pos hfull]⟩
  right
  have hfresh := top_slot_fresh h hfull
  have hnodup : ((List.range (pool.free_work_count - 1)).map pool.free_work_items
      ++ (q ++ [top_slot pool])).Nodup := by
    have hn := h.nodup
    rw [free_slots_top hfull, List.append_assoc] at hn
    exact (List.Perm.nodup_iff (List.Perm.append_left _ List.perm_append_comm)).mp hn
  have hqn : q.Nodup := (List.nodup_append.mp h.nodup).2.1
  have hwork : ∀ j, j ≠ top_slot pool →
      Function.update pool.work_items (top_slot pool) (fresh_item work) j = pool.work_items j :=
    fun j hj => Function.update_of_ne hj _ _
  -- the first item goes to the head, any other behind the tail
  cases q with
  | nil =>
      refine ⟨_, enqueue_first hfull h.chain.head_eq work, by simp, hfresh,
        { chain := ?_, tail := rfl, nodup := hnodup, count := ?_ }, ?_, fun j hj => ?_⟩
      · rw [List.nil_append]
        apply Chain.cons
        dsimp only
        rw [Function.update_self]
        exact .nil
      · simp only [List.nil_append, List.length_singleton]
        simp only [List.length_nil] at hcount
        omega
      · dsimp only
        rw [Function.update_self, work_item_t.work, fresh_item]
      · dsimp only
        rw [hwork j hj]
  | cons i q =>
      obtain ⟨t, ht⟩ : ∃ t, (i :: q).getLast? = some t := by
        rw [List.getLast?_eq_some_getLast (List.cons_ne_nil _ _)]
        exact ⟨_, rfl⟩
      have hhead : pool.work_queue_head = some i := h.chain.head_eq
      -- the link is written through the tail pointer, so it must not hit the fresh item
      have htop : t ≠ top_slot pool := by
        rintro rfl
        exact hfresh (List.mem_of_getLast? ht)
      refine ⟨_, enqueue_behind hfull hhead (h.tail.trans ht) htop work, by omega, hfresh,
        { chain := ?_, tail := ?_, nodup := hnodup, count := ?_ }, ?_, fun j hj => ?_⟩
      · dsimp only
        rw [next_update, next_update]
        exact (h.chain.update hfresh none).snoc ht hqn hfresh (by rw [Function.update_self])
      · rw [List.getLast?_append_cons, List.getLast?_singleton]
      · simp only [List.length_append, List.length_cons, List.length_nil] at hcount ⊢
        omega
      · dsimp only
        rw [Function.update_of_ne (Ne.symm htop), Function.update_self, work_item_t.work, fresh_item]
      · dsimp only
        by_cases hjt : j = t
        · rw [hjt, Function.update_self]
          rfl
        · rw [Function.update_of_ne hjt, hwork j hj]

/-- **Dequeue** takes the first slot and changes no item. -/
theorem dequeue_spec {pool : thread_pool_t} {q : List slot_t} (h : PoolInv pool q) :
    (q = [] ∧ dequeue pool = none)
      ∨ ∃ i q' pool', q = i :: q' ∧ dequeue pool = some (i, pool') ∧ PoolInv pool' q'
        ∧ pool'.work_items = pool.work_items := by
  cases q with
  | nil =>
      -- an empty list has no head
      have hhead : pool.work_queue_head = none := h.chain.head_eq
      exact Or.inl ⟨rfl, by rw [dequeue, hhead]⟩
  | cons i q =>
      right
      have hhead : pool.work_queue_head = some i := h.chain.head_eq
      have hchain := h.chain
      rw [hhead] at hchain
      have hrest := hchain.tail
      refine ⟨i, q, _, rfl, dequeue_first hhead,
        { chain := hrest, tail := ?_, nodup := ?_, count := ?_ }, rfl⟩
      · dsimp only
        rw [hrest.head_eq]
        cases q with
        | nil => rfl
        | cons j q =>
            rw [if_neg (by simp), h.tail, List.getLast?_cons_cons]
      · -- the slot moves from the list to the top of the stack
        have hslots : (List.range (pool.free_work_count + 1)).map
            (Function.update pool.free_work_items pool.free_work_count i)
            = free_slots pool ++ [i] := by
          rw [List.range_succ, List.map_append, List.map_singleton, Function.update_self, free_slots]
          congr 1
          refine List.map_congr_left fun k hk => Function.update_of_ne ?_ _ _
          have := List.mem_range.mp hk
          omega
        have hn := h.nodup
        unfold free_slots
        dsimp only
        rw [hslots, List.append_assoc, List.singleton_append]
        exact hn
      · have hcount := h.count
        simp only [List.length_cons] at hcount ⊢
        omega

/-! ## The pool is a bounded queue -/

/-- One critical section, and what it reports: a dequeue the call that the slot it took
then holds. A refused enqueue has returned before it wrote anything. -/
def critical_section (pool : thread_pool_t) : request_t work_t → answer_t work_t × thread_pool_t
  | .put work =>
      match enqueue pool work with
      | none => (.refused, pool)
      | some pool => (.accepted, pool)
  | .take =>
      match dequeue pool with
      | none => (.empty, pool)
      | some (slot, pool) => (.given (pool.work_items slot).work, pool)

/-- The pool holds the queue `works`, its items in the slots `q`. -/
structure Holds (pool : thread_pool_t) (q : List slot_t) (works : List work_t) : Prop where
  inv : PoolInv pool q
  works : q.map (fun i => (pool.work_items i).work) = works

theorem critical_section_refines (pool : thread_pool_t) (works : List work_t)
    (r : request_t work_t) (h : ∃ q, Holds pool q works) :
    (critical_section pool r).1 = (fifo MAX_PENDING_WORK works r).1
      ∧ ∃ q, Holds (critical_section pool r).2 q (fifo MAX_PENDING_WORK works r).2 := by
  obtain ⟨q, hinv, rfl⟩ := h
  cases r with
  | put work =>
      rcases enqueue_spec hinv work with
        ⟨hlen, hfull⟩ | ⟨pool', henq, hlen, hfresh, hinv', hwork, hother⟩
      · rw [fifo_put_of_full (by rw [List.length_map, hlen]), critical_section, hfull]
        exact ⟨rfl, q, hinv, rfl⟩
      · rw [fifo_put_of_lt (by rw [List.length_map]; exact hlen), critical_section, henq]
        refine ⟨rfl, q ++ [top_slot pool], hinv', ?_⟩
        -- the items that were queued before keep their calls
        have hkept : ∀ i ∈ q, (pool'.work_items i).work = (pool.work_items i).work :=
          fun i hi => hother i fun heq => hfresh (heq ▸ hi)
        rw [List.map_append, List.map_singleton, hwork, List.map_congr_left hkept]
  | take =>
      rcases dequeue_spec hinv with ⟨rfl, hempty⟩ | ⟨i, q', pool', rfl, hdeq, hinv', hitems⟩
      · rw [critical_section, hempty]
        exact ⟨rfl, [], hinv, rfl⟩
      · rw [critical_section, hdeq, List.map_cons, fifo]
        dsimp only
        rw [hitems]
        exact ⟨rfl, q', hinv', by rw [hitems]⟩

/-- The shape of a pool that holds the slots `q` in its list. -/
structure WellFormed (pool : thread_pool_t) (q : List slot_t) : Prop where
  /-- list and stack together are the slots 0 to 63, each once -/
  slots : (free_slots pool ++ q).Perm (List.finRange MAX_PENDING_WORK)
  chain : Chain (fun i => (pool.work_items i).next) pool.work_queue_head q
  acyclic : q.Nodup
  tail : pool.work_queue_tail = q.getLast?
  tail_null : pool.work_queue_tail = none ↔ pool.work_queue_head = none
  count : pool.free_work_count + q.length = MAX_PENDING_WORK

theorem PoolInv.wellFormed {pool : thread_pool_t} {q : List slot_t} (h : PoolInv pool q) :
    WellFormed pool q where
  slots := by
    -- 64 different slots are all of them
    have hlen : (List.finRange MAX_PENDING_WORK).length ≤ (free_slots pool ++ q).length := by
      have hcount := h.count
      rw [List.length_finRange, List.length_append, free_slots, List.length_map,
        List.length_range]
      omega
    have hsub : (free_slots pool ++ q).Subperm (List.finRange MAX_PENDING_WORK) :=
      List.subperm_of_subset h.nodup fun i _ => List.mem_finRange i
    exact hsub.perm_of_length_le hlen
  chain := h.chain
  acyclic := (List.nodup_append.mp h.nodup).2.1
  tail := h.tail
  tail_null := by rw [h.tail, h.chain.head_eq, List.getLast?_eq_none_iff, List.head?_eq_none_iff]
  count := h.count

/-- **The pool is a bounded FIFO queue.** Over any critical sections from `thread_pool_init`
on, it gives the answers of a queue of capacity 64, and list and stack stay well formed. It is
the simulation by `PoolInv`: each section takes related states to related states, and answers the
same. -/
theorem thread_pool_is_fifo (sections : List (request_t work_t)) :
    (run critical_section thread_pool_init sections).1
        = (run (fifo MAX_PENDING_WORK) [] sections).1
      ∧ ∃ q, WellFormed (run critical_section thread_pool_init sections).2 q
        ∧ q.map (fun i => ((run critical_section thread_pool_init sections).2.work_items i).work)
          = (run (fifo MAX_PENDING_WORK) [] sections).2 := by
  have hinit : ∃ q, Holds thread_pool_init q [] := ⟨[], poolInv_init, rfl⟩
  obtain ⟨hanswers, q, hinv, hworks⟩ :=
    run_refines (R := fun pool works => ∃ q, Holds pool q works) critical_section_refines
      sections thread_pool_init [] hinit
  exact ⟨hanswers, q, hinv.wellFormed, hworks⟩

end W32HttpServer.ThreadPool
